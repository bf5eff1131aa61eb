import NixlExamples.Ring.Faults

/-!
# What no fault breaks

Whatever `transfer()` and `check_xfer_state` report, and whatever the network does to the
notifications:

* once the descriptors have reached it, the sender never raises (`sender_never_raises`): every `P:`
  message its drains parse is one the receiver wrote, so `int(msg[2:])` succeeds, and every header
  word it writes is below `NUM_TRANSFERS`, so `write_uint64` takes it.  In TCP mode the set-up itself
  can end it before its loop: `retrieve_descriptors` raises on a blob of more than 3048 bytes, and
  `prep_xfer_dlist` on the `None` it returns before the receiver has published
  (`Session.init_retrieveDescriptors`, `descriptors_race`);
* the sender finishes only once no transfer is in flight (`sender_done_quiescent`): its loop posts
  only on the ring's handles, the final wait leaves each handle only once it is not `PROC`, and
  nothing is posted after the loop.
-/

namespace NixlExamples

/-- The run of `run_test(1, 1024, 2)` in which transfer 0 fails and the sender finishes. -/
theorem repostState_fed : FedRun faultRing faulty repostState :=
  faultState_fed.reach
    (reachable_of_run .refl (by decide) (show run faultRing faultState repostActs = some repostState from rfl))

/-! ### The sender never raises -/

section
variable {cfg : Config} {env : Env} {s s' : Session}

/-- The sender has not raised, and at the gate, the slot wait, the header write and the
`transfer()` call its transfer is below `NUM_TRANSFERS`. -/
structure NoRaise (cfg : Config) (s : Session) : Prop where
  posting : s.sender.phase.posting → s.sender.sent < cfg.numTransfers
  notCrashed : s.sender.phase ≠ .crashed

theorem noRaise_init (mode : Mode) (serialized d : Bytes) :
    NoRaise cfg (Session.init cfg mode serialized (.ok (some d))) :=
  ⟨by cases mode <;> nofun, by cases mode <;> nofun⟩

/-- A sender step does not raise: both `P:` scans parse every message the receiver sent, and the
header write comes only after the loop head has found the transfer below `NUM_TRANSFERS`. -/
theorem NoRaise.sender_step (hn : NoRaise cfg s) (hi : Inv cfg s) (hT : cfg.numTransfers < 2 ^ 64) {r : Posted}
    (h : senderStep cfg s r = some s') : NoRaise cfg s' := by
  obtain ⟨q, hq, -, -⟩ := scanProgress_bounds s.sender.progress _ _ _ hi.batch
  have hpost := hn.posting
  rcases hp : s.sender.phase with p | _ | _ | _ | _ | _ | _ | i | _ | _ <;>
    simp only [senderStep, hp, hq, SenderPhase.posting, forall_const] at h hpost
  · rcases hd : senderDescsLoop p s.link with ⟨q | d, l⟩ <;> rw [hd] at h <;> cases h <;> exact ⟨nofun, nofun⟩
  · -- the loop head checks `transfers_sent < NUM_TRANSFERS`
    split at h <;> cases h
    · exact ⟨fun _ => ‹_›, by dsimp only; split <;> nofun⟩
    · exact ⟨nofun, nofun⟩
  · cases h; exact ⟨fun _ => hpost, by dsimp only; split <;> nofun⟩
  · split at h <;> cases h
    exacts [hn, ⟨fun _ => hpost, nofun⟩]
  · -- `write_uint64` takes the header word
    split at h <;> cases h
    · exact ⟨fun _ => hpost, nofun⟩
    · exact absurd (lt_trans hpost hT) ‹_›
  · -- `transfer()` sends the sender back to its loop head, or to the final wait on `ERR`
    have hnext : ¬ (if (s.sender.sent + 1) % cfg.interval = 0 then SenderPhase.pollProgress else .head).posting ∧
        (if (s.sender.sent + 1) % cfg.interval = 0 then SenderPhase.pollProgress else .head) ≠ .crashed := by
      split <;> exact ⟨id, nofun⟩
    cases r <;> cases h
    exacts [⟨hnext.1.elim, hnext.2⟩, ⟨hnext.1.elim, hnext.2⟩, ⟨nofun, nofun⟩]
  · cases h; exact ⟨nofun, nofun⟩
  · split at h
    · split at h <;> cases h
      exacts [hn, ⟨nofun, nofun⟩]
    · cases h; exact ⟨nofun, nofun⟩
  all_goals cases h

theorem NoRaise.step (hn : NoRaise cfg s) (hi : Inv cfg s) (hT : cfg.numTransfers < 2 ^ 64) {a : Act}
    (h : step cfg s a = some s') : NoRaise cfg s' := by
  by_cases ha : ∃ r, a = .sender r
  · obtain ⟨r, rfl⟩ := ha
    exact hn.sender_step hi hT h
  · have hS := step_sender (fun r hr => ha ⟨r, hr⟩) h
    exact ⟨hS ▸ hn.posting, hS ▸ hn.notCrashed⟩

theorem run_noRaise (hT : cfg.numTransfers < 2 ^ 64) (hr : FedRun cfg env s) : NoRaise cfg s := by
  obtain ⟨mode, serialized, d, hr⟩ := hr
  induction hr with
  | refl => exact noRaise_init mode serialized d
  | step _ h₁ _ h ih => exact ih.step (run_inv ⟨mode, serialized, _, h₁⟩) hT h
end

/-- The sender never raises once the descriptors have reached it.  Take a configuration with fewer
than `2^64` transfers.  In every state of every run in which the descriptors reached the sender (in
etcd mode, or in TCP mode when `retrieve_descriptors` returned them), whatever the transfer engine
reports and whatever the network delays, reorders, duplicates or loses, no exception has ended
`sender_process`: `int(msg[2:])` parses every `P:` message of both drains of its loop, and
`write_uint64` takes every header word. -/
theorem sender_never_raises {cfg : Config} {env : Env} {s : Session} (hT : cfg.numTransfers < 2 ^ 64)
    (hr : FedRun cfg env s) : s.sender.phase ≠ .crashed :=
  (run_noRaise hT hr).notCrashed

theorem sender_never_raises_repost :
    faultRing.numTransfers < 2 ^ 64 ∧ FedRun faultRing faulty repostState ∧ repostState.sender.phase ≠ .crashed :=
  ⟨by decide, repostState_fed, sender_never_raises (by decide) repostState_fed⟩

/-! ### Nothing is in flight when the sender finishes -/

section
variable {cfg : Config} {env : Env} {s s' : Session}

/-- Every transfer in flight is on a handle of the ring that the sender's final wait has yet to
pass, and the sender has not finished. -/
def InFlightAhead (cfg : Config) (s : Session) : Prop :=
  ∀ j v, s.xfer j = .proc v →
    j < cfg.numBuffers ∧ s.sender.phase ≠ .done ∧ ∀ i, s.sender.phase = .drain i → i ≤ j

/-- Where a step may leave the sender: where it was, at the start of its final wait, or in its loop. -/
def KeepsWait (s s' : Session) : Prop :=
  s'.sender.phase = s.sender.phase ∨ s'.sender.phase = .drain 0 ∨ ¬ s'.sender.phase.draining

theorem SenderPhase.ahead_of_loop {q : SenderPhase} (hq : ¬ q.draining) (j : Nat) :
    q ≠ .done ∧ ∀ i, q = .drain i → i ≤ j :=
  ⟨fun e => hq (by rw [e]; trivial), fun _ e => absurd (by rw [e]; trivial) hq⟩

theorem KeepsWait.ahead (hp : KeepsWait s s') {j : Nat} (hd : s.sender.phase ≠ .done)
    (hi : ∀ i, s.sender.phase = .drain i → i ≤ j) :
    s'.sender.phase ≠ .done ∧ ∀ i, s'.sender.phase = .drain i → i ≤ j := by
  rcases hp with hp | hp | hp
  · rw [hp]; exact ⟨hd, hi⟩
  · rw [hp]; exact ⟨nofun, fun _ e => by cases e; exact Nat.zero_le j⟩
  · exact SenderPhase.ahead_of_loop hp j

/-- The invariant after a step that writes no handle. -/
theorem InFlightAhead.frame (hI : InFlightAhead cfg s) (hx : s'.xfer = s.xfer) (hp : KeepsWait s s') :
    InFlightAhead cfg s' := fun j v hj =>
  have ⟨hN, hd, hi⟩ := hI j v (hx ▸ hj)
  ⟨hN, hp.ahead hd hi⟩

/-- The invariant after a step that sets handle `i` to a state that is not `PROC`. -/
theorem InFlightAhead.resolve (hI : InFlightAhead cfg s) {i : Nat} {x : Xfer}
    (he : s'.xfer = Function.update s.xfer i x) (hx : ∀ v, x ≠ .proc v) (hp : KeepsWait s s') :
    InFlightAhead cfg s' := by
  intro j v hj
  rw [he] at hj
  by_cases hji : j = i
  · rw [hji, Function.update_same] at hj; exact absurd hj (hx v)
  · rw [Function.update_noteq hji] at hj
    obtain ⟨hN, hd, hi⟩ := hI j v hj
    exact ⟨hN, hp.ahead hd hi⟩

/-- The invariant after a step that writes a handle of the ring and leaves the sender in its loop. -/
theorem InFlightAhead.post (hI : InFlightAhead cfg s) {i : Nat} {x : Xfer} (hi : i < cfg.numBuffers)
    (he : s'.xfer = Function.update s.xfer i x) (hp : ¬ s'.sender.phase.draining) : InFlightAhead cfg s' := by
  intro j v hj
  rw [he] at hj
  refine ⟨?_, SenderPhase.ahead_of_loop hp j⟩
  by_cases hji : j = i
  · exact hji ▸ hi
  · rw [Function.update_noteq hji] at hj; exact (hI j v hj).1

theorem InFlightAhead.sender_step (hI : InFlightAhead cfg s) {r : Posted} (h : senderStep cfg s r = some s') :
    InFlightAhead cfg s' := by
  rcases hp : s.sender.phase with p | _ | _ | _ | _ | _ | _ | i | _ | _ <;> simp only [senderStep, hp] at h
  · rcases hq : senderDescsLoop p s.link with ⟨q | d, l⟩ <;> rw [hq] at h <;> cases h <;>
      exact hI.frame rfl (.inr (.inr id))
  · -- the loop head: the gate or the slot wait, or the final wait once every transfer is posted
    split at h <;> cases h
    · exact hI.frame rfl (.inr (.inr (by dsimp only; split <;> exact id)))
    · exact hI.frame rfl (.inr (.inl rfl))
  · split at h <;> cases h
    · exact hI.frame rfl (.inr (.inr (by dsimp only; split <;> exact id)))
    · exact hI.frame rfl (.inr (.inr id))
  · split at h <;> cases h
    exacts [hI, hI.frame rfl (.inr (.inr id))]
  · split at h <;> cases h <;> exact hI.frame rfl (.inr (.inr id))
  · -- `transfer()` writes the handle of slot `transfers_sent % NUM_BUFFERS`
    have hslot := Nat.mod_lt s.sender.sent cfg.numBuffers_pos
    have hnext : ¬ (if (s.sender.sent + 1) % cfg.interval = 0 then SenderPhase.pollProgress else .head).draining := by
      split <;> exact id
    cases r <;> cases h
    exacts [hI.post hslot rfl hnext, hI.post hslot rfl hnext, hI.resolve rfl (fun _ => nofun) (.inr (.inl rfl))]
  · split at h <;> cases h <;> exact hI.frame rfl (.inr (.inr id))
  · -- the final wait passes handle `i` once it has left `PROC`, and ends past the last handle
    split at h
    · split at h <;> cases h
      · exact hI
      · rename_i hni
        intro j v hj
        obtain ⟨hN, -, hi⟩ := hI j v hj
        have hij : i ≠ j := fun e => hni v (e ▸ hj)
        exact ⟨hN, nofun, fun k e => by cases e; have := hi i hp; omega⟩
    · cases h
      intro j v hj
      obtain ⟨hN, -, hi⟩ := hI j v hj
      have := hi i hp
      omega
  all_goals cases h

theorem InFlightAhead.step (hI : InFlightAhead cfg s) {a : Act} (h : step cfg s a = some s') :
    InFlightAhead cfg s' := by
  cases a with
  | sender r => exact hI.sender_step h
  | receiver => exact hI.frame (receiverStep_xfer h) (.inl (by rw [receiverStep_sender h]))
  | land i | fail i =>
    simp only [NixlExamples.step, landStep, failStep] at h
    split at h <;> cases h
    exact hI.resolve rfl (fun _ => nofun) (.inl rfl)
  | _ =>
    obtain ⟨c, -, rfl⟩ := Option.map_eq_some'.1 h
    exact hI.frame rfl (.inl rfl)

theorem run_inFlightAhead (hr : Run cfg env s) : InFlightAhead cfg s := by
  obtain ⟨mode, serialized, fetched, hr⟩ := hr
  induction hr with
  | refl => intro j v hj; cases mode <;> cases hj
  | step _ _ _ h ih => exact ih.step h
end

/-- The sender finishes only once no transfer is in flight.  In every state of every run, whatever
the transfer engine and the network do, the final wait over `range(NUM_BUFFERS)` has left behind it
no handle that `check_xfer_state` reports as `PROC`, and once the sender has finished none of its
handles does: the loop posts only on the ring's handles, and nothing is posted after it. -/
theorem sender_done_quiescent {cfg : Config} {env : Env} {s : Session} (hr : Run cfg env s) :
    (∀ i, s.sender.phase = .drain i → ∀ j < i, ∀ v, s.xfer j ≠ .proc v) ∧
      (s.sender.phase = .done → ∀ j v, s.xfer j ≠ .proc v) :=
  have hI := run_inFlightAhead hr
  ⟨fun i hp j hj v hx => absurd ((hI j v hx).2.2 i hp) (by omega), fun hd j v hx => (hI j v hx).2.1 hd⟩

theorem sender_done_quiescent_repost :
    Run faultRing faulty repostState ∧
      (∀ i, repostState.sender.phase = .drain i → ∀ j < i, ∀ v, repostState.xfer j ≠ .proc v) ∧
      (repostState.sender.phase = .done → ∀ j v, repostState.xfer j ≠ .proc v) :=
  ⟨repostState_fed.run, sender_done_quiescent repostState_fed.run⟩

end NixlExamples
