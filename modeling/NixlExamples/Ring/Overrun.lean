import NixlExamples.Ring.Liveness

/-!
# A ring smaller than the threshold

`run_test(4, 1024, 10)` sets `NUM_BUFFERS = 4` and keeps `BACKPRESSURE_THRESHOLD = 60`, so the gate never
holds the sender back: it may post all ten transfers, each landing in the slot of the transfer four
before it, while the receiver has accepted none.  `wrapState` is the state after such a run in which
every transfer lands and every notification is delivered.  There

* slot 0 holds 8 while the receiver expects 0 (`ring_overrun_small`): transfers 0 and 4 were
  overwritten unread;
* nothing is in flight, the sender has finished its drain and the receiver re-reads slot 0 forever
  (`ring_deadlock_small`);
* the receiver never counts the value it cannot accept (`overrun_value_uncounted`): its poll loop
  leaves only on the expected value, so `sequence_mismatches` is 0 in every state of every run.

With a threshold no larger than the ring, as in the import-time configuration (64 slots, threshold
60), the gate does what it is for: the sender posts transfer `v` only once the receiver has accepted
transfer `v - NUM_BUFFERS` (`issue_after_accept`).
-/

namespace NixlExamples

/-- `run_test(4, 1024, 10)`. -/
def smallRing : Config := runTest 4 1024 10 (by decide)

/-- One transfer: the sender goes through its loop head, slot wait, header write and `transfer()`, the
transfer lands on handle `i`, and the engine's notification reaches the receiver. -/
def wrapRound (i : Nat) : List Act :=
  [.sender .proc, .sender .proc, .sender .proc, .sender .proc, .land i, .deliverToReceiver 0 false]

/-- All ten transfers, then the sender's loop exit and its final drain of the four handles. -/
def wrapActs : List Act :=
  (List.range 10).flatMap (fun i => wrapRound (i % 4)) ++ List.replicate 6 (.sender .proc)

/-- The state after `wrapActs` in TCP mode. -/
def wrapState : Session :=
  (run smallRing (Session.init smallRing .tcp [] (.ok (some []))) wrapActs).getD
    (Session.init smallRing .tcp [] (.ok (some [])))

theorem wrapState_run : Run smallRing reliable wrapState :=
  ⟨.tcp, [], .ok (some []), reachable_of_run .refl (by decide)
    (show run smallRing (Session.init smallRing .tcp [] (.ok (some []))) wrapActs = some wrapState from rfl)⟩

theorem ring_overrun_small :
    ∃ s, Run smallRing reliable s ∧ s.receiver.received = 0 ∧
      s.hdr (s.receiver.received % smallRing.numBuffers) = 8 :=
  ⟨wrapState, wrapState_run, by decide, by decide⟩

theorem ring_deadlock_small :
    ∃ s, Run smallRing reliable s ∧ Quiescent smallRing s ∧ ¬ Finished smallRing s ∧
      ¬ SenderCanIssue smallRing reliable s ∧ ¬ ReceiverCanAccept smallRing s := by
  refine ⟨wrapState, wrapState_run, by decide, by decide, ?_, ?_⟩
  · rintro ⟨s', hs, hsent⟩
    rw [senderRun_of_exited (.inl (by decide)) hs] at hsent
    omega
  · rintro ⟨s', hs, hr⟩
    rw [receiverRun_of_stale (by decide) (by decide) hs] at hr
    omega

theorem overrun_value_uncounted :
    (∀ cfg env s, Run cfg env s → s.receiver.mismatches = 0) ∧
      ∃ s, Run smallRing reliable s ∧ s.receiver.phase = .poll ∧
        s.hdr (s.receiver.received % smallRing.numBuffers) ≠ sentinel ∧
        s.hdr (s.receiver.received % smallRing.numBuffers) ≠ s.receiver.received ∧
        ∀ s', ReceiverRun smallRing s s' → s'.receiver.received = s.receiver.received ∧ s'.receiver.mismatches = 0 := by
  refine ⟨fun _ _ _ hr => (run_inv hr).mismatches, wrapState, wrapState_run, by decide, by decide, by decide,
    fun s' hs => ?_⟩
  rw [receiverRun_of_stale (by decide) (by decide) hs]
  exact ⟨rfl, (run_inv wrapState_run).mismatches⟩

/-! ### A threshold no larger than the ring -/

/-- In every state of every run of a configuration whose threshold is at most its number of slots,
the sender calls `transfer()` for transfer `v = transfers_sent` only once the receiver has accepted
transfer `v - NUM_BUFFERS`: `v < transfers_received + NUM_BUFFERS`. -/
theorem issue_after_accept {cfg : Config} {env : Env} {s : Session} (hth : cfg.threshold ≤ cfg.numBuffers)
    (hr : Run cfg env s) (hp : s.sender.phase = .issue) : s.sender.sent < s.receiver.received + cfg.numBuffers := by
  have hi := run_inv hr
  have hlt := hi.ahead_lt (by rw [hp]; trivial)
  have hle := hi.progress_le
  omega

theorem issue_after_accept_main :
    mainConfig.threshold ≤ mainConfig.numBuffers ∧ Run mainConfig reliable mainIssueState ∧
      mainIssueState.sender.phase = .issue ∧
      mainIssueState.sender.sent < mainIssueState.receiver.received + mainConfig.numBuffers :=
  ⟨by decide, mainIssueState_fed.run, rfl, @issue_after_accept _ reliable _ (by decide) mainIssueState_fed.run rfl⟩

end NixlExamples
