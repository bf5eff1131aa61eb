import NixlExamples.Ring.Invariant

/-!
# What the ring holds

With a threshold no larger than the ring (`BACKPRESSURE_THRESHOLD ≤ NUM_BUFFERS`, as in `main()`'s 64
slots and threshold 60) and fewer than `2^64` transfers, `SlotInv` holds in every state of every run,
whatever the transfer engine and the network do (`run_slotInv`):

* every transfer the sender has posted and the receiver has not accepted, the *window*
  `[transfers_received, transfers_sent)`, is in its slot, on its way there (its handle is `PROC`
  carrying its sequence number), or lost to a failed transfer;
* a `PROC` handle carries a transfer of the window, bound for its own slot, that has not landed;
* a slot holds `SENTINEL` or a transfer of the window bound for it.

The window is never wider than the ring, since the sender posts only below the threshold
(`Inv.ahead_lt`), and two transfers of a window no wider than the ring bound for one slot are the same
(`eq_of_mod_eq`).  So the slot the receiver polls holds `SENTINEL` or the transfer it expects, never a
later one (`ring_no_overrun`, for a `BUFFER_SIZE` of 8 to `BUFFER_ENTRY_SIZE` bytes, with which the
header write lands as `landStep` has it): for the configurations whose threshold fits the ring, the
overrun of `ring_overrun_small` cannot happen.
-/

namespace NixlExamples

/-- Two numbers less than `N` apart with the same remainder mod `N` are equal. -/
theorem eq_of_mod_eq {N u v : Nat} (h : u % N = v % N) (huv : u < v + N) (hvu : v < u + N) : u = v := by
  rcases le_total u v with hle | hle
  · have h1 : (v - u) % N = 0 := Nat.sub_mod_eq_zero_of_mod_eq h.symm
    rw [Nat.mod_eq_of_lt (by omega)] at h1
    omega
  · have h1 : (u - v) % N = 0 := Nat.sub_mod_eq_zero_of_mod_eq h
    rw [Nat.mod_eq_of_lt (by omega)] at h1
    omega

/-- No transfer number below `2^64` is the `SENTINEL` word, except `2^64 - 1` itself. -/
theorem ne_sentinel {v T : Nat} (hT : T < 2 ^ 64) (hv : v < T) : v ≠ sentinel := by
  unfold sentinel; omega

/-- The sender's phases between its loop head's test and its `transfer()` call. -/
def SenderPhase.posting : SenderPhase → Prop
  | .gate | .slotWait | .writeHeader | .issue => True
  | _ => False

/-- The receiver's phases inside its main loop, before it counts the transfer. -/
def ReceiverPhase.polling : ReceiverPhase → Prop
  | .poll | .verify _ => True
  | _ => False

theorem receiverLoopHead_polling {cfg : Config} {r : Nat} (h : (receiverLoopHead cfg r).polling) :
    r < cfg.numTransfers := by
  unfold receiverLoopHead at h
  split at h
  · assumption
  · exact h.elim

theorem receiverLoopHead_ne_verify (cfg : Config) (r seq : Nat) : receiverLoopHead cfg r ≠ .verify seq := by
  unfold receiverLoopHead; split <;> exact nofun

/-- What the ring and the handles hold. -/
structure SlotInv (cfg : Config) (s : Session) : Prop where
  received_le : s.receiver.received ≤ s.sender.sent
  sent_le : s.sender.sent ≤ cfg.numTransfers
  window : ∀ v, s.receiver.received ≤ v → v < s.sender.sent →
    s.hdr (v % cfg.numBuffers) = v ∨ s.xfer (v % cfg.numBuffers) = .proc v ∨ s.xfer (v % cfg.numBuffers) = .err
  handle : ∀ i v, s.xfer i = .proc v →
    s.receiver.received ≤ v ∧ v < s.sender.sent ∧ v % cfg.numBuffers = i ∧ s.hdr i ≠ v
  slot : ∀ i, s.hdr i ≠ sentinel →
    s.receiver.received ≤ s.hdr i ∧ s.hdr i < s.sender.sent ∧ s.hdr i % cfg.numBuffers = i
  verify : ∀ seq, s.receiver.phase = .verify seq →
    s.hdr (s.receiver.received % cfg.numBuffers) = s.receiver.received
  staged : s.sender.phase = .issue → s.sender.localHdr (s.sender.sent % cfg.numBuffers) = s.sender.sent
  posting : s.sender.phase.posting → s.sender.sent < cfg.numTransfers
  polling : s.receiver.phase.polling → s.receiver.received < cfg.numTransfers

section
variable {cfg : Config} {s s' : Session}

/-- The window is never wider than the ring. -/
theorem Inv.sent_le_window (hi : Inv cfg s) (hth : cfg.threshold ≤ cfg.numBuffers) :
    s.sender.sent ≤ s.receiver.received + cfg.numBuffers := by
  have := hi.ahead_le; have := hi.progress_le; omega

/-- The invariant after a step that leaves the counters, the receiver, the ring and the handles as
they are. -/
theorem SlotInv.frame (hs : SlotInv cfg s) (h1 : s'.sender.sent = s.sender.sent) (h2 : s'.receiver = s.receiver)
    (h3 : s'.hdr = s.hdr) (h4 : s'.xfer = s.xfer)
    (h5 : s'.sender.phase = .issue → s'.sender.localHdr (s'.sender.sent % cfg.numBuffers) = s'.sender.sent)
    (h6 : s'.sender.phase.posting → s'.sender.sent < cfg.numTransfers) : SlotInv cfg s' where
  received_le := by rw [h1, h2]; exact hs.received_le
  sent_le := by rw [h1]; exact hs.sent_le
  window := by rw [h1, h2, h3, h4]; exact hs.window
  handle := by rw [h1, h2, h3, h4]; exact hs.handle
  slot := by rw [h1, h2, h3]; exact hs.slot
  verify := by rw [h2, h3]; exact hs.verify
  staged := h5
  posting := h6
  polling := by rw [h2]; exact hs.polling

theorem SlotInv.congr (hs : SlotInv cfg s) (h1 : s'.sender = s.sender) (h2 : s'.receiver = s.receiver)
    (h3 : s'.hdr = s.hdr) (h4 : s'.xfer = s.xfer) : SlotInv cfg s' :=
  hs.frame (by rw [h1]) h2 h3 h4 (by rw [h1]; exact hs.staged) (by rw [h1]; exact hs.posting)

theorem slotInv_init (mode : Mode) (serialized : Bytes) (fetched : Except ClientError (Option Bytes)) :
    SlotInv cfg (Session.init cfg mode serialized fetched) := by
  have hS : ∀ p, (Session.init cfg mode serialized fetched).sender.phase = p → p ≠ .issue ∧ ¬ p.posting := by
    rintro p rfl
    rcases Session.senderStart_cases mode fetched with h | h | h <;>
      simp [Session.init, h, SenderPhase.posting]
  refine ⟨le_rfl, Nat.zero_le _, fun v _ h2 => absurd h2 (Nat.not_lt_zero v), fun i v hv => (nomatch hv),
    fun i hi => absurd rfl hi, fun seq h => ?_, fun h => absurd h (hS _ rfl).1, fun h => absurd h (hS _ rfl).2,
    fun h => ?_⟩ <;> cases mode <;> simp [Session.init, ReceiverPhase.polling] at h
  exacts [absurd h (receiverLoopHead_ne_verify cfg 0 seq), receiverLoopHead_polling h]

/-- A sender step keeps the invariant. -/
theorem SlotInv.sender_step (hs : SlotInv cfg s) (hi : Inv cfg s) (hth : cfg.threshold ≤ cfg.numBuffers)
    (hT : cfg.numTransfers < 2 ^ 64) {r : Posted} (h : senderStep cfg s r = some s') : SlotInv cfg s' := by
  rcases hp : s.sender.phase with p | _ | _ | _ | _ | _ | _ | i | _ | _ <;>
    simp only [senderStep, hp] at h
  · -- the wait for the descriptors
    rcases hq : senderDescsLoop p s.link with ⟨q | d, l⟩ <;> rw [hq] at h <;> cases h <;>
      exact hs.frame rfl rfl rfl rfl nofun nofun
  · -- the loop head
    split at h <;> cases h
    · rename_i hlt
      exact ⟨hs.received_le, hs.sent_le, hs.window, hs.handle, hs.slot, hs.verify,
        (fun h => by split at h <;> cases h), fun _ => hlt, hs.polling⟩
    · exact hs.frame rfl rfl rfl rfl nofun nofun
  · -- the backpressure gate
    split at h <;> cases h
    · exact ⟨hs.received_le, hs.sent_le, hs.window, hs.handle, hs.slot, hs.verify,
        (fun h => by split at h <;> cases h), fun _ => hs.posting (by rw [hp]; trivial), hs.polling⟩
    · exact hs.frame rfl rfl rfl rfl nofun nofun
  · -- the slot wait
    split at h <;> cases h
    · exact hs
    · exact ⟨hs.received_le, hs.sent_le, hs.window, hs.handle, hs.slot, hs.verify, nofun,
        fun _ => hs.posting (by rw [hp]; trivial), hs.polling⟩
  · -- the header write
    split at h <;> cases h
    · exact ⟨hs.received_le, hs.sent_le, hs.window, hs.handle, hs.slot, hs.verify, (fun _ => by simp),
        fun _ => hs.posting (by rw [hp]; trivial), hs.polling⟩
    · exact hs.frame rfl rfl rfl rfl nofun nofun
  · -- the `transfer()` call
    have hlt : s.sender.sent < s.receiver.received + cfg.numBuffers := by
      have := hi.ahead_lt (by rw [hp]; trivial); have := hi.progress_le; omega
    have hT' := hs.posting (by rw [hp]; trivial)
    have hstaged := hs.staged hp
    set N := cfg.numBuffers
    set t := s.sender.sent
    -- no transfer of the window is bound for the slot of transfer `t`
    have hfree : ∀ v, s.receiver.received ≤ v → v < t → v % N ≠ t % N := fun v h1 h2 he =>
      absurd (eq_of_mod_eq he (by omega) (by omega)) (by omega)
    have hnext : ∀ q : SenderPhase, (q = .pollProgress ∨ q = .head) → q ≠ .issue ∧ ¬ q.posting := by
      rintro q (rfl | rfl) <;> exact ⟨nofun, id⟩
    cases r <;> cases h
    · -- `transfer()` reports `PROC`: the transfer is on its way
      obtain ⟨hn1, hn2⟩ := hnext (if (t + 1) % cfg.interval = 0 then .pollProgress else .head) (by split <;> simp)
      refine ⟨by simp only; have := hs.received_le; omega, hT', fun v h1 h2 => ?_, fun j v hv => ?_,
        fun j hj => ?_, hs.verify, fun h => absurd h hn1, fun h => absurd h hn2, hs.polling⟩
      · simp only at h1 h2 ⊢
        rcases Nat.lt_succ_iff_lt_or_eq.1 h2 with h2 | rfl
        · rw [Function.update_noteq (hfree v h1 h2)]; exact hs.window v h1 h2
        · simp [hstaged]
      · simp only at hv ⊢
        by_cases hj : j = t % N
        · subst hj
          rw [Function.update_same, hstaged] at hv
          cases hv
          refine ⟨hs.received_le, Nat.lt_succ_self _, rfl, fun he => ?_⟩
          by_cases hsent : s.hdr (t % N) = sentinel
          · exact ne_sentinel hT hT' (he ▸ hsent)
          · exact absurd (he ▸ (hs.slot _ hsent).2.1) (lt_irrefl _)
        · rw [Function.update_noteq hj] at hv
          obtain ⟨h1, h2, h3, h4⟩ := hs.handle j v hv
          exact ⟨h1, Nat.lt_succ_of_lt h2, h3, h4⟩
      · obtain ⟨h1, h2, h3⟩ := hs.slot j hj
        exact ⟨h1, Nat.lt_succ_of_lt h2, h3⟩
    · -- `transfer()` reports `DONE`: the transfer is in its slot
      obtain ⟨hn1, hn2⟩ := hnext (if (t + 1) % cfg.interval = 0 then .pollProgress else .head) (by split <;> simp)
      refine ⟨by simp only; have := hs.received_le; omega, hT', fun v h1 h2 => ?_, fun j v hv => ?_,
        fun j hj => ?_, fun seq hseq => ?_, fun h => absurd h hn1, fun h => absurd h hn2, hs.polling⟩
      · simp only at h1 h2 ⊢
        rcases Nat.lt_succ_iff_lt_or_eq.1 h2 with h2 | rfl
        · rw [Function.update_noteq (hfree v h1 h2), Function.update_noteq (hfree v h1 h2)]
          exact hs.window v h1 h2
        · simp [hstaged]
      · simp only at hv ⊢
        have hj : j ≠ t % N := by rintro rfl; simp at hv
        rw [Function.update_noteq hj] at hv ⊢
        obtain ⟨h1, h2, h3, h4⟩ := hs.handle j v hv
        exact ⟨h1, Nat.lt_succ_of_lt h2, h3, h4⟩
      · simp only at hj ⊢
        by_cases hjt : j = t % N
        · subst hjt
          rw [Function.update_same, hstaged]
          exact ⟨hs.received_le, Nat.lt_succ_self _, rfl⟩
        · rw [Function.update_noteq hjt] at hj ⊢
          obtain ⟨h1, h2, h3⟩ := hs.slot j hj
          exact ⟨h1, Nat.lt_succ_of_lt h2, h3⟩
      · -- the receiver's slot is not the one written
        have hv := hs.verify seq hseq
        have hr : s.receiver.received < t := by
          have := (hs.slot _ (by rw [hv]; exact ne_sentinel hT (hs.polling (by rw [hseq]; trivial)))).2.1
          rwa [hv] at this
        simp only
        rw [Function.update_noteq (hfree _ le_rfl hr)]
        exact hv
    · -- `transfer()` reports `ERR`: the slot's transfer is lost
      refine ⟨hs.received_le, hs.sent_le, fun v h1 h2 => ?_, fun j v hv => ?_, hs.slot, hs.verify, nofun, nofun,
        hs.polling⟩
      · simp only
        rw [Function.update_noteq (hfree v h1 h2)]
        exact hs.window v h1 h2
      · simp only at hv
        have hj : j ≠ t % N := by rintro rfl; simp at hv
        rw [Function.update_noteq hj] at hv
        exact hs.handle j v hv
  · -- the opportunistic drain
    split at h <;> cases h <;> exact hs.frame rfl rfl rfl rfl nofun nofun
  · -- the final wait on the handles
    split at h
    · split at h <;> cases h
      · exact hs
      · exact hs.frame rfl rfl rfl rfl nofun nofun
    · cases h; exact hs.frame rfl rfl rfl rfl nofun nofun
  all_goals cases h

/-- A receiver step keeps the invariant. -/
theorem SlotInv.receiver_step (hs : SlotInv cfg s) (hi : Inv cfg s) (hth : cfg.threshold ≤ cfg.numBuffers)
    (hT : cfg.numTransfers < 2 ^ 64) (h : receiverStep cfg s = some s') : SlotInv cfg s' := by
  rcases hp : s.receiver.phase with p | _ | seq | _ | _ <;> simp only [receiverStep, hp] at h
  · -- the READY loop
    rcases hq : receiverReadyLoop s.receiver.serialized p s.link with ⟨q, l⟩
    rw [hq] at h
    cases q <;> cases h
    · exact ⟨hs.received_le, hs.sent_le, hs.window, hs.handle, hs.slot,
        fun seq h => absurd h (receiverLoopHead_ne_verify _ _ _), hs.staged, hs.posting, receiverLoopHead_polling⟩
    · exact ⟨hs.received_le, hs.sent_le, hs.window, hs.handle, hs.slot, fun _ h => (nomatch h), hs.staged,
        hs.posting, nofun⟩
  · -- the poll of the slot
    split at h <;> cases h
    · exact ⟨hs.received_le, hs.sent_le, hs.window, hs.handle, hs.slot, fun _ _ => ‹_›, hs.staged, hs.posting,
        fun _ => hs.polling (by rw [hp]; trivial)⟩
    · exact hs
  · -- the transfer is counted and its slot reset
    cases h
    set N := cfg.numBuffers
    set r := s.receiver.received
    have hv := hs.verify seq hp
    have hpoll := hs.polling (by rw [hp]; trivial)
    have hrt : r < s.sender.sent := by
      have := (hs.slot _ (by rw [hv]; exact ne_sentinel hT hpoll)).2.1
      rwa [hv] at this
    have hwin := hi.sent_le_window hth
    -- no other transfer of the window is bound for the slot just reset
    have hfree : ∀ v, r < v → v < s.sender.sent → v % N ≠ r % N := fun v h1 h2 he =>
      absurd (eq_of_mod_eq he (by omega) (by omega)) (by omega)
    refine ⟨hrt, hs.sent_le, fun v h1 h2 => ?_, fun j v hv' => ?_, fun j hj => ?_, fun seq' hs' => ?_, hs.staged,
      hs.posting, fun hq => ?_⟩
    · simp only
      rw [Function.update_noteq (hfree v h1 h2)]
      exact hs.window v (Nat.le_of_succ_le h1) h2
    · obtain ⟨h1, h2, h3, h4⟩ := hs.handle j v hv'
      have hvr : v ≠ r := by rintro rfl; exact h4 (h3 ▸ hv)
      refine ⟨by simp only; omega, h2, h3, ?_⟩
      simp only
      by_cases hj : j = r % N
      · rw [hj, Function.update_same]
        exact (ne_sentinel hT (lt_of_lt_of_le h2 hs.sent_le)).symm
      · rw [Function.update_noteq hj]; exact h4
    · simp only at hj ⊢
      have hjr : j ≠ r % N := by rintro rfl; simp at hj
      rw [Function.update_noteq hjr] at hj ⊢
      obtain ⟨h1, h2, h3⟩ := hs.slot j hj
      have : s.hdr j ≠ r := fun he => hjr (by rw [← h3, he])
      exact ⟨by omega, h2, h3⟩
    · simp only at hs'
      split at hs'
      · cases hs'
      · exact absurd hs' (receiverLoopHead_ne_verify _ _ _)
    · simp only at hq
      split at hq
      · exact hq.elim
      · exact receiverLoopHead_polling hq
  · -- the progress notification
    cases h
    exact ⟨hs.received_le, hs.sent_le, hs.window, hs.handle, hs.slot,
      fun seq h => absurd h (receiverLoopHead_ne_verify _ _ _), hs.staged, hs.posting, receiverLoopHead_polling⟩
  · cases h

/-- A transfer landing or failing keeps the invariant. -/
theorem SlotInv.engine_step (hs : SlotInv cfg s) (hi : Inv cfg s) (hth : cfg.threshold ≤ cfg.numBuffers)
    (hT : cfg.numTransfers < 2 ^ 64) {i : Nat} (h : landStep s i = some s' ∨ failStep s i = some s') :
    SlotInv cfg s' := by
  set N := cfg.numBuffers
  set r := s.receiver.received
  rcases h with h | h <;> simp only [landStep, failStep] at h <;> split at h <;> cases h <;> rename_i v hv
  · -- the transfer lands: its word reaches its slot
    obtain ⟨h1, h2, h3, h4⟩ := hs.handle i v hv
    have hwin := hi.sent_le_window hth
    have same : ∀ u, r ≤ u → u < s.sender.sent → u % N = i → u = v := fun u hu1 hu2 hu =>
      eq_of_mod_eq (hu.trans h3.symm) (by omega) (by omega)
    refine ⟨hs.received_le, hs.sent_le, fun u hu1 hu2 => ?_, fun j w hw => ?_, fun j hj => ?_, fun seq hseq => ?_,
      hs.staged, hs.posting, hs.polling⟩
    · simp only
      by_cases hu : u % N = i
      · rw [hu, Function.update_same, same u hu1 hu2 hu]; exact .inl rfl
      · rw [Function.update_noteq hu, Function.update_noteq hu]; exact hs.window u hu1 hu2
    · simp only at hw ⊢
      have hj : j ≠ i := by rintro rfl; simp at hw
      rw [Function.update_noteq hj] at hw ⊢
      exact hs.handle j w hw
    · simp only at hj ⊢
      by_cases hji : j = i
      · subst hji; rw [Function.update_same]; exact ⟨h1, h2, h3⟩
      · rw [Function.update_noteq hji] at hj ⊢; exact hs.slot j hj
    · have hv' := hs.verify seq hseq
      simp only
      by_cases hri : r % N = i
      · have hrt : r < s.sender.sent := by
          have := (hs.slot _ (by rw [hv']; exact ne_sentinel hT (hs.polling (by rw [hseq]; trivial)))).2.1
          rwa [hv'] at this
        rw [hri, Function.update_same]
        exact (same r le_rfl hrt hri).symm
      · rw [Function.update_noteq hri]; exact hv'
  · -- the transfer fails: its word never reaches the slot
    refine ⟨hs.received_le, hs.sent_le, fun u hu1 hu2 => ?_, fun j w hw => ?_, hs.slot, hs.verify, hs.staged,
      hs.posting, hs.polling⟩
    · simp only
      by_cases hu : u % N = i
      · rw [hu, Function.update_same]; exact .inr (.inr rfl)
      · rw [Function.update_noteq hu]; exact hs.window u hu1 hu2
    · simp only at hw
      have hj : j ≠ i := by rintro rfl; simp at hw
      rw [Function.update_noteq hj] at hw
      exact hs.handle j w hw

/-- Every step keeps the invariant. -/
theorem SlotInv.step (hs : SlotInv cfg s) (hi : Inv cfg s) (hth : cfg.threshold ≤ cfg.numBuffers)
    (hT : cfg.numTransfers < 2 ^ 64) {a : Act} (h : step cfg s a = some s') : SlotInv cfg s' := by
  cases a with
  | sender r => exact hs.sender_step hi hth hT h
  | receiver => exact hs.receiver_step hi hth hT h
  | land i => exact hs.engine_step hi hth hT (.inl h)
  | fail i => exact hs.engine_step hi hth hT (.inr h)
  | _ =>
    simp only [NixlExamples.step, Option.map_eq_some'] at h
    obtain ⟨c, -, rfl⟩ := h
    exact hs.congr rfl rfl rfl rfl

end

/-- The invariant holds in every state of every run of a configuration whose threshold fits the ring. -/
theorem run_slotInv {cfg : Config} {env : Env} {s : Session} (hth : cfg.threshold ≤ cfg.numBuffers)
    (hT : cfg.numTransfers < 2 ^ 64) (hr : Run cfg env s) : SlotInv cfg s := by
  obtain ⟨mode, serialized, fetched, hr⟩ := hr
  induction hr with
  | refl => exact slotInv_init mode serialized fetched
  | step a hr _ hs ih => exact ih.step (hr.inv (inv_init cfg mode serialized fetched)) hth hT hs

/-- The ring does not overrun when the threshold fits it.  Take a configuration whose
`BACKPRESSURE_THRESHOLD` is at most `NUM_BUFFERS` (as in `main()`), whose `BUFFER_SIZE` is 8 to
`BUFFER_ENTRY_SIZE` bytes, so that a transfer lands its whole header and nothing beyond its slot, and
with fewer than `2^64` transfers.  In every state of every run, whatever the transfer engine and the network do:

* the slot the receiver polls holds `SENTINEL` or exactly the transfer it expects, never a later one;
* every transfer posted and not yet accepted is in its slot, on its way there, or lost to a failed
  transfer. -/
theorem ring_no_overrun {cfg : Config} {env : Env} {s : Session} (hth : cfg.threshold ≤ cfg.numBuffers)
    (_h8 : 8 ≤ cfg.bufferSize) (_hb : cfg.bufferSize ≤ cfg.entrySize) (hT : cfg.numTransfers < 2 ^ 64)
    (hr : Run cfg env s) :
    (s.hdr (s.receiver.received % cfg.numBuffers) = sentinel ∨
      s.hdr (s.receiver.received % cfg.numBuffers) = s.receiver.received) ∧
    ∀ v, s.receiver.received ≤ v → v < s.sender.sent →
      s.hdr (v % cfg.numBuffers) = v ∨ s.xfer (v % cfg.numBuffers) = .proc v ∨ s.xfer (v % cfg.numBuffers) = .err := by
  have hs := run_slotInv hth hT hr
  refine ⟨?_, hs.window⟩
  by_cases hsent : s.hdr (s.receiver.received % cfg.numBuffers) = sentinel
  · exact .inl hsent
  · obtain ⟨h1, h2, h3⟩ := hs.slot _ hsent
    have hwin := (run_inv hr).sent_le_window hth
    exact .inr (eq_of_mod_eq h3 (by omega) (by omega))

/-- Two transfers of `main()`'s configuration: the first has landed and the receiver has not read it yet,
the second is in flight. -/
def twoAheadState : Session :=
  (run mainConfig (Session.init mainConfig .tcp [] (.ok (some [])))
    [.sender .proc, .sender .proc, .sender .proc, .sender .proc, .land 0,
      .sender .proc, .sender .proc, .sender .proc, .sender .proc]).getD
    (Session.init mainConfig .tcp [] (.ok (some [])))

theorem twoAheadState_run : Run mainConfig ⟨true, true⟩ twoAheadState :=
  ⟨.tcp, [], .ok (some []), reachable_of_run .refl (by decide) (by rfl : run mainConfig _
    [.sender .proc, .sender .proc, .sender .proc, .sender .proc, .land 0,
      .sender .proc, .sender .proc, .sender .proc, .sender .proc] = some twoAheadState)⟩

theorem ring_no_overrun_main :
    8 ≤ mainConfig.bufferSize ∧ mainConfig.bufferSize ≤ mainConfig.entrySize ∧
      twoAheadState.receiver.received = 0 ∧ twoAheadState.sender.sent = 2 ∧
      ((twoAheadState.hdr (twoAheadState.receiver.received % mainConfig.numBuffers) = sentinel ∨
        twoAheadState.hdr (twoAheadState.receiver.received % mainConfig.numBuffers) =
          twoAheadState.receiver.received) ∧
      ∀ v, twoAheadState.receiver.received ≤ v → v < twoAheadState.sender.sent →
        twoAheadState.hdr (v % mainConfig.numBuffers) = v ∨
          twoAheadState.xfer (v % mainConfig.numBuffers) = .proc v ∨
          twoAheadState.xfer (v % mainConfig.numBuffers) = .err) :=
  ⟨by decide, by decide, rfl, rfl,
    @ring_no_overrun mainConfig ⟨true, true⟩ _ (by decide) (by decide) (by decide) (by decide) twoAheadState_run⟩

end NixlExamples
