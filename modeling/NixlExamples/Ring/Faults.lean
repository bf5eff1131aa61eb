import NixlExamples.Ring.Completion
import NixlExamples.Ring.Fifo

/-!
# Transfer faults

The sender's slot wait is `while check_xfer_state(handle) == "PROC": pass`: a handle whose transfer
failed reads `ERR`, leaves the loop like a completed one, and is posted again.  Only an `ERR` returned
by `transfer()` itself is logged, and the run's end is logged as completed either way.

`slot_error_reposted` is a run of `run_test(1, 1024, 2)`: transfer 0 fails after it was posted, the
sender waits on the failed handle, posts transfer 1 on it, drains and logs the run as completed, with
no error in its log.

An `ERR` from `transfer()` itself ends the sender's loop (`break`) short of `NUM_TRANSFERS`, and the
receiver, which waits for every transfer, never finishes (`transfer_error_hangs`): `Failed` says the
sender is past its loop for good, and the receiver never counts past what the sender posted.

A transfer that fails in flight is lost for good (`failed_transfer_lost`): the sender never posts it
again, and the receiver, polling its slot for its header word, never counts it.  `Lost` is kept by
every step because a step writes the ring and the handles only where `step_slot_frame` says.
-/

namespace NixlExamples

/-- `run_test(1, 1024, 2)`. -/
def faultRing : Config := runTest 1 1024 2 (by decide)

/-- Transfers may fail; no notification is lost. -/
def faulty : Env := ⟨false, true⟩

/-- Transfer 0 is posted and fails; the sender reaches the slot wait of transfer 1. -/
def faultActs : List Act :=
  [.sender .proc, .sender .proc, .sender .proc, .sender .proc, .fail 0, .sender .proc]

/-- The sender posts transfer 1 on the failed handle, which lands; it leaves its loop and drains. -/
def repostActs : List Act :=
  [.sender .proc, .sender .proc, .sender .proc, .land 0, .sender .proc, .sender .proc, .sender .proc]

/-- The sender at the slot wait on the failed handle. -/
def faultState : Session :=
  (run faultRing (Session.init faultRing .tcp [] (.ok (some []))) faultActs).getD
    (Session.init faultRing .tcp [] (.ok (some [])))

/-- The state after the repost and the final drain. -/
def repostState : Session := (run faultRing faultState repostActs).getD faultState

theorem faultState_fed : FedRun faultRing faulty faultState :=
  ⟨.tcp, [], [], reachable_of_run .refl (by decide)
    (show run faultRing (Session.init faultRing .tcp [] (.ok (some []))) faultActs = some faultState from rfl)⟩

theorem slot_error_reposted :
    ∃ s s', Run faultRing faulty s ∧ s.sender.phase = .slotWait ∧
      s.xfer (s.sender.sent % faultRing.numBuffers) = .err ∧ Reachable faultRing faulty s s' ∧
      s'.sender.sent = s.sender.sent + 1 ∧ s'.sender.phase = .done ∧ s'.sender.log = [.completed s'.sender.sent] :=
  ⟨faultState, repostState, faultState_fed.run, by decide, by decide,
    reachable_of_run .refl (by decide) (show run faultRing faultState repostActs = some repostState from rfl),
    by decide, by decide, by decide⟩

/-! ### A failed `transfer()` hangs the receiver -/

section
variable {cfg : Config} {env : Env} {s s' : Session}

/-- The receiver leaves its loop only after counting every transfer. -/
theorem receiverStep_done (h : receiverStep cfg s = some s') : s'.receiver.phase = .done → cfg.numTransfers ≤ s'.receiver.received := by
  have hhead : ∀ r, receiverLoopHead cfg r = .done → cfg.numTransfers ≤ r := fun r h => by
    unfold receiverLoopHead at h; split at h
    · cases h
    · omega
  intro hd'
  rcases hp : s.receiver.phase with p | _ | seq | _ | _ <;> simp only [receiverStep, hp] at h
  · rcases hq : receiverReadyLoop s.receiver.serialized p s.link with ⟨q | _, l⟩ <;> rw [hq] at h <;> cases h
    · exact hhead _ hd'
    · simp at hd'
  · split at h <;> cases h
    · simp at hd'
    · rw [hp] at hd'; cases hd'
  · cases h
    simp only at hd' ⊢
    split at hd'
    · cases hd'
    · exact hhead _ hd'
  · cases h; exact hhead _ hd'
  · cases h

theorem run_receiver_done (hr : Run cfg env s) (hd : s.receiver.phase = .done) :
    cfg.numTransfers ≤ s.receiver.received := by
  obtain ⟨mode, serialized, fetched, hr⟩ := hr
  induction hr with
  | refl =>
    cases mode <;> simp [Session.init, receiverLoopHead] at hd ⊢
    omega
  | step a _ _ h ih =>
    revert hd
    cases a with
    | receiver => exact receiverStep_done h
    | sender r => rw [senderStep_receiver h]; exact ih
    | land i | fail i =>
      simp only [NixlExamples.step, landStep, failStep] at h
      split at h <;> cases h
      exact ih
    | _ =>
      obtain ⟨c, -, rfl⟩ := Option.map_eq_some'.1 h
      exact ih

/-- Every step but the sender's leaves the sender alone. -/
theorem step_sender {a : Act} (ha : ∀ r, a ≠ .sender r) (h : step cfg s a = some s') : s'.sender = s.sender := by
  cases a with
  | sender r => exact absurd rfl (ha r)
  | receiver => exact receiverStep_sender h
  | land i | fail i =>
    simp only [NixlExamples.step, landStep, failStep] at h
    split at h <;> cases h
    rfl
  | _ =>
    obtain ⟨c, -, rfl⟩ := Option.map_eq_some'.1 h
    rfl

/-- Past its loop a sender step keeps the sender past its loop, with the count it had. -/
theorem senderStep_draining {r : Posted} (hd : s.sender.phase.draining) (h : senderStep cfg s r = some s') :
    s'.sender.phase.draining ∧ s'.sender.sent = s.sender.sent := by
  have hcase : (∃ i, s.sender.phase = .drain i) ∨ s.sender.phase = .done := by
    revert hd; generalize s.sender.phase = p; cases p <;> simp [SenderPhase.draining]
  rcases hcase with ⟨i, hp⟩ | hp <;> simp only [senderStep, hp] at h
  · -- the final wait on handle `i`, and its end
    split at h
    · split at h <;> cases h
      exacts [⟨by rw [hp]; trivial, rfl⟩, ⟨trivial, rfl⟩]
    · cases h; exact ⟨trivial, rfl⟩
  · cases h

/-- A sender step writes to its log only when it ends and when `transfer()` reports `ERR`, which
sends it past its loop. -/
theorem senderStep_log {r : Posted} (h : senderStep cfg s r = some s') :
    s'.sender.log = s.sender.log ∨ s'.sender.log = s.sender.log ++ [.completed s.sender.sent] ∨
      s.sender.phase = .issue ∧ s'.sender.log = s.sender.log ++ [.transferFailed] ∧
        s'.sender.phase = .drain 0 ∧ s'.sender.sent = s.sender.sent := by
  rcases hp : s.sender.phase with p | _ | _ | _ | _ | _ | _ | i | _ | _ <;> simp only [senderStep, hp] at h
  · rcases hq : senderDescsLoop p s.link with ⟨q | d, l⟩ <;> rw [hq] at h <;> cases h <;> exact .inl rfl
  · split at h <;> cases h <;> exact .inl rfl
  · split at h <;> cases h <;> exact .inl rfl
  · split at h <;> cases h <;> exact .inl rfl
  · split at h <;> cases h <;> exact .inl rfl
  · cases r <;> cases h
    exacts [.inl rfl, .inl rfl, .inr (.inr ⟨rfl, rfl, rfl, rfl⟩)]
  · split at h <;> cases h <;> exact .inl rfl
  · split at h
    · split at h <;> cases h <;> exact .inl rfl
    · cases h; exact .inr (.inl rfl)
  all_goals cases h

/-- The sender has left its loop for good with `t` transfers posted, short of `NUM_TRANSFERS`. -/
structure Failed (cfg : Config) (t : Nat) (s : Session) : Prop where
  draining : s.sender.phase.draining
  sent : s.sender.sent = t
  short : t < cfg.numTransfers

/-- Past its loop the sender only drains and ends; nothing else moves it. -/
theorem Failed.step {t : Nat} (hF : Failed cfg t s) {a : Act} (h : step cfg s a = some s') : Failed cfg t s' := by
  by_cases ha : ∃ r, a = .sender r
  · obtain ⟨r, rfl⟩ := ha
    obtain ⟨hd, ht⟩ := senderStep_draining hF.draining h
    exact ⟨hd, ht.trans hF.sent, hF.short⟩
  · have hS := step_sender (fun r hr => ha ⟨r, hr⟩) h
    exact ⟨hS ▸ hF.draining, hS ▸ hF.sent, hF.short⟩

theorem Reachable.failed {t : Nat} (hr : Reachable cfg env s s') (hF : Failed cfg t s) : Failed cfg t s' := by
  induction hr with
  | refl => exact hF
  | step _ _ _ h ih => exact ih.step h

/-- Once the sender has logged `Transfer buffer failed` it is past its loop for good, short of
`NUM_TRANSFERS`: the `ERR` came from a `transfer()` call, which the sender makes only below it. -/
theorem run_failed (hth : cfg.threshold ≤ cfg.numBuffers) (hT : cfg.numTransfers < 2 ^ 64) (hr : Run cfg env s)
    (herr : SenderLog.transferFailed ∈ s.sender.log) : Failed cfg s.sender.sent s := by
  obtain ⟨mode, serialized, fetched, hr⟩ := hr
  induction hr with
  | refl => cases herr
  | @step s₁ s₂ a hr₁ _ h ih =>
    by_cases hb : SenderLog.transferFailed ∈ s₁.sender.log
    · have hF := (ih hb).step h
      rw [hF.sent]; exact hF
    by_cases ha : ∃ r, a = .sender r
    · obtain ⟨r, rfl⟩ := ha
      rcases senderStep_log h with hl | hl | ⟨hp, -, hd, ht⟩
      · exact absurd (hl ▸ herr) hb
      · rw [hl, List.mem_append, List.mem_singleton] at herr
        exact absurd (herr.resolve_right nofun) hb
      · refine ⟨by rw [hd]; trivial, rfl, ?_⟩
        rw [ht]; exact (run_slotInv hth hT ⟨mode, serialized, fetched, hr₁⟩).posting (by rw [hp]; trivial)
    · exact absurd (step_sender (fun r hr => ha ⟨r, hr⟩) h ▸ herr) hb
end

/-- A `transfer()` that reports `ERR` hangs the receiver.  Take a configuration whose
`BACKPRESSURE_THRESHOLD` is at most `NUM_BUFFERS`, with fewer than `2^64` transfers, and a state of any
run in which the sender has logged `Transfer buffer failed`.  From there, whatever the network and the
transfer engine do, the receiver never counts `NUM_TRANSFERS` transfers and never leaves its loop: it
waits for a transfer that the sender, past its loop, will not post. -/
theorem transfer_error_hangs {cfg : Config} {env : Env} {s : Session} (hth : cfg.threshold ≤ cfg.numBuffers)
    (hT : cfg.numTransfers < 2 ^ 64) (hr : Run cfg env s) (herr : SenderLog.transferFailed ∈ s.sender.log) :
    ∀ s', Reachable cfg env s s' → s'.receiver.received < cfg.numTransfers ∧ s'.receiver.phase ≠ .done := by
  intro s' h'
  have hF := h'.failed (run_failed hth hT hr herr)
  have hr' := hr.reach h'
  have hlt : s'.receiver.received < cfg.numTransfers := by
    have := (run_slotInv hth hT hr').received_le; have := hF.sent; have := hF.short; omega
  exact ⟨hlt, fun hd => absurd (run_receiver_done hr' hd) (by omega)⟩

/-- The first `transfer()` of `main()`'s run reports `ERR`. -/
def errState : Session :=
  (run mainConfig (Session.init mainConfig .tcp [] (.ok (some [])))
    [.sender .done, .sender .done, .sender .done, .sender .err]).getD
    (Session.init mainConfig .tcp [] (.ok (some [])))

theorem transfer_error_hangs_main :
    Run mainConfig faulty errState ∧ SenderLog.transferFailed ∈ errState.sender.log ∧
      ∀ s', Reachable mainConfig faulty errState s' →
        s'.receiver.received < mainConfig.numTransfers ∧ s'.receiver.phase ≠ .done :=
  have hr : Run mainConfig faulty errState := ⟨.tcp, [], .ok (some []), reachable_of_run .refl (by decide)
    (show run mainConfig (Session.init mainConfig .tcp [] (.ok (some [])))
      [.sender .done, .sender .done, .sender .done, .sender .err] = some errState from rfl)⟩
  have herr : SenderLog.transferFailed ∈ errState.sender.log := by decide
  ⟨hr, herr, transfer_error_hangs (by decide) (by decide) hr herr⟩

/-! ### A transfer that fails in flight is never counted -/

section
variable {cfg : Config} {env : Env} {s s' : Session}

/-- A step writes the ring and the handles only at the slot of the transfer the sender posts, at the
slot the receiver resets, and at a handle in flight. -/
theorem step_slot_frame {a : Act} (h : step cfg s a = some s') (j : Nat)
    (hs : s.sender.phase = .issue → j ≠ s.sender.sent % cfg.numBuffers)
    (hv : ∀ seq, s.receiver.phase = .verify seq → j ≠ s.receiver.received % cfg.numBuffers)
    (hx : ∀ w, s.xfer j ≠ .proc w) : s'.hdr j = s.hdr j ∧ s'.xfer j = s.xfer j := by
  cases a with
  | sender r =>
    rcases hp : s.sender.phase with p | _ | _ | _ | _ | _ | _ | i | _ | _ <;>
      simp only [NixlExamples.step, senderStep, hp] at h
    · rcases hq : senderDescsLoop p s.link with ⟨q | d, l⟩ <;> rw [hq] at h <;> cases h <;> exact ⟨rfl, rfl⟩
    · split at h <;> cases h <;> exact ⟨rfl, rfl⟩
    · split at h <;> cases h <;> exact ⟨rfl, rfl⟩
    · split at h <;> cases h <;> exact ⟨rfl, rfl⟩
    · split at h <;> cases h <;> exact ⟨rfl, rfl⟩
    · -- `transfer()` writes the slot of the transfer it posts
      have hj := hs hp
      cases r <;> cases h <;> simp [Function.update_noteq hj]
    · split at h <;> cases h <;> exact ⟨rfl, rfl⟩
    · split at h
      · split at h <;> cases h <;> exact ⟨rfl, rfl⟩
      · cases h; exact ⟨rfl, rfl⟩
    all_goals cases h
  | receiver =>
    rcases hp : s.receiver.phase with p | _ | seq | _ | _ <;> simp only [NixlExamples.step, receiverStep, hp] at h
    · rcases hq : receiverReadyLoop s.receiver.serialized p s.link with ⟨q | _, l⟩ <;> rw [hq] at h <;>
        cases h <;> exact ⟨rfl, rfl⟩
    · split at h <;> cases h <;> exact ⟨rfl, rfl⟩
    · -- the receiver resets the slot it has counted
      cases h; exact ⟨Function.update_noteq (hv seq hp) _ _, rfl⟩
    · cases h; exact ⟨rfl, rfl⟩
    · cases h
  | land i | fail i =>
    simp only [NixlExamples.step, landStep, failStep] at h
    split at h
    · rename_i w hw
      have hij : j ≠ i := fun e => hx w (e ▸ hw)
      cases h; simp [Function.update_noteq hij]
    · cases h
  | _ =>
    obtain ⟨c, -, rfl⟩ := Option.map_eq_some'.1 h
    exact ⟨rfl, rfl⟩

/-- Transfer `v` was posted and failed in flight: the handle of its slot reads `ERR`, the slot does
not hold its header word, and the receiver has not counted it. -/
structure Lost (cfg : Config) (v : Nat) (s : Session) : Prop where
  received : s.receiver.received ≤ v
  sent : v < s.sender.sent
  err : s.xfer (v % cfg.numBuffers) = .err
  hdr : s.hdr (v % cfg.numBuffers) ≠ v

/-- No step brings a lost transfer back.  The sender posts only transfers less than `NUM_BUFFERS`
ahead of the receiver, none of them bound for the slot of `v`; the receiver, which waits for `v`,
never counts it, and resets only the slot of a transfer below it; the engine writes only handles in
flight. -/
theorem Lost.step {v : Nat} (hL : Lost cfg v s) (hs : SlotInv cfg s) (hi : Inv cfg s)
    (hth : cfg.threshold ≤ cfg.numBuffers) {a : Act} (h : step cfg s a = some s') : Lost cfg v s' := by
  have hv := hL.received; have hvs := hL.sent
  -- about to count transfer `r`, the receiver has found it in its slot, so `r ≠ v`
  have hne : ∀ seq, s.receiver.phase = .verify seq → s.receiver.received < v := fun seq hp =>
    lt_of_le_of_ne hv fun e => hL.hdr (e ▸ hs.verify seq hp)
  have hpost : s.sender.phase = .issue → v % cfg.numBuffers ≠ s.sender.sent % cfg.numBuffers := fun hp he => by
    have := hi.ahead_lt (by rw [hp]; trivial); have := hi.progress_le
    exact absurd (eq_of_mod_eq he (by omega) (by omega)) (by omega)
  have hreset : ∀ seq, s.receiver.phase = .verify seq →
      v % cfg.numBuffers ≠ s.receiver.received % cfg.numBuffers := fun seq hp he => by
    have := hne seq hp; have := hi.sent_le_window hth
    exact absurd (eq_of_mod_eq he (by omega) (by omega)) (by omega)
  obtain ⟨hh, hx⟩ := step_slot_frame h (v % cfg.numBuffers) hpost hreset fun w e => by rw [hL.err] at e; cases e
  refine ⟨?_, ?_, hx.trans hL.err, by rw [hh]; exact hL.hdr⟩
  · rcases step_received h with ⟨he, -⟩ | ⟨seq, hp, -, he, -⟩
    · omega
    · have := hne seq hp; omega
  · rcases (step_counters h).2 with he | ⟨-, he⟩ <;> omega

theorem Reachable.lost {v : Nat} (hth : cfg.threshold ≤ cfg.numBuffers) (hT : cfg.numTransfers < 2 ^ 64)
    {s₀ : Session} (hr : Run cfg env s₀) (h : Reachable cfg env s₀ s) (hL : Lost cfg v s₀) : Lost cfg v s := by
  induction h with
  | refl => exact hL
  | step _ h₁ _ hs ih =>
    have hr₁ := hr.reach h₁
    exact ih.step (run_slotInv hth hT hr₁) (run_inv hr₁) hth hs
end

/-- A transfer that fails in flight is never counted, and the receiver never finishes.  Take a
configuration whose `BACKPRESSURE_THRESHOLD` is at most `NUM_BUFFERS`, with fewer than `2^64`
transfers, a transfer engine that may fail transfers, and a state of any run in which handle `i`
carries transfer `v` in flight.  The engine can fail it; from there, whatever the network and the
engine do, the receiver counts no more than `v` transfers and never leaves its loop: the sender's
slot wait passes over the `ERR` handle without posting `v` again. -/
theorem failed_transfer_lost {cfg : Config} {env : Env} {s : Session} (hth : cfg.threshold ≤ cfg.numBuffers)
    (hT : cfg.numTransfers < 2 ^ 64) (hf : env.faulty = true) (hr : Run cfg env s) {i v : Nat}
    (hx : s.xfer i = .proc v) :
    ∃ s₁, step cfg s (.fail i) = some s₁ ∧ ∀ s', Reachable cfg env s₁ s' →
      s'.receiver.received ≤ v ∧ s'.receiver.phase ≠ .done := by
  have h₁ : step cfg s (.fail i) = some { s with xfer := Function.update s.xfer i .err } := by
    simp only [NixlExamples.step, failStep, hx]
  refine ⟨_, h₁, fun s' h' => ?_⟩
  obtain ⟨hv, hvs, hvi, hh⟩ := (run_slotInv hth hT hr).handle i v hx
  have hr₁ := hr.reach (Reachable.single (.fail i) hf h₁)
  have hL := h'.lost hth hT hr₁ ⟨hv, hvs, by rw [hvi]; exact Function.update_same _ _ _, by rw [hvi]; exact hh⟩
  have hr' := hr₁.reach h'
  have hT' := (run_slotInv hth hT hr').sent_le
  exact ⟨hL.received, fun hd => absurd (run_receiver_done hr' hd) (by have := hL.received; have := hL.sent; omega)⟩

/-- Transfer 0 of `main()`'s run is posted and in flight. -/
def inFlightState : Session :=
  (run mainConfig (Session.init mainConfig .tcp [] (.ok (some [])))
    [.sender .done, .sender .done, .sender .done, .sender .proc]).getD
    (Session.init mainConfig .tcp [] (.ok (some [])))

theorem failed_transfer_lost_main :
    Run mainConfig faulty inFlightState ∧ inFlightState.xfer 0 = .proc 0 ∧
      ∃ s₁, step mainConfig inFlightState (.fail 0) = some s₁ ∧ ∀ s', Reachable mainConfig faulty s₁ s' →
        s'.receiver.received ≤ 0 ∧ s'.receiver.phase ≠ .done :=
  have hr : Run mainConfig faulty inFlightState := ⟨.tcp, [], .ok (some []), reachable_of_run .refl (by decide)
    (show run mainConfig (Session.init mainConfig .tcp [] (.ok (some [])))
      [.sender .done, .sender .done, .sender .done, .sender .proc] = some inFlightState from rfl)⟩
  have hx : inFlightState.xfer 0 = .proc 0 := by decide
  ⟨hr, hx, failed_transfer_lost (by decide) (by decide) rfl hr hx⟩

end NixlExamples
