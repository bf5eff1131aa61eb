import NixlExamples.Ring.Liveness
import NixlExamples.Ring.Reliable

/-!
# Every run without faults can finish

Take a configuration whose `BACKPRESSURE_THRESHOLD` is at most `NUM_BUFFERS` and at least
`PROGRESS_UPDATE_INTERVAL` (as in `main()`: 64 slots, threshold 60, interval 16), with fewer than `2^64`
transfers, and a `BUFFER_SIZE` of 8 to `BUFFER_ENTRY_SIZE` bytes.  On a network that loses nothing and
with transfers that all complete, every state of every run in which the descriptors reached the sender
(`FedRun`) can be continued until both processes have done all `NUM_TRANSFERS` transfers and ended
(`ring_can_finish`).  The continuation is built in stages, each a run of the session:

* the descriptor handshake completes (etcd mode, `handshake_leaves_loops`);
* while the receiver is behind the sender, the transfer it expects is in its slot or on its way there
  (`SlotInv.window`), so it lands and the receiver accepts it (`accept_next`);
* once the receiver has caught up, the last multiple of the interval it counted has been reported
  (`RingLive.notified`), and the network delivers it; the sender's next drain reads it, so its
  backpressure gate opens (the gap is below the interval, hence below the threshold) and it posts the
  next transfer (`post_next`);
* once both have done all transfers, no handle is in flight: the sender's final wait passes every
  slot, and the receiver leaves its loop (`finish_both`).

Each stage but the last lowers the work left, `2·NUM_TRANSFERS - transfers_received - transfers_sent`.
-/

namespace NixlExamples

/-! ### Continuations of a run -/

/-- Both processes are past the descriptor handshake. -/
def PastHandshake (s : Session) : Prop := s.sender.phase.loop = none ∧ s.receiver.phase.loop = none

/-- No step goes back into the handshake. -/
theorem PastHandshake.step {cfg : Config} {s s' : Session} {a : Act} (hP : PastHandshake s)
    (h : step cfg s a = some s') : PastHandshake s' := by
  cases a with
  | sender r =>
    obtain ⟨h1, -, h2, -⟩ := senderStep_pipeline hP.1 h
    exact ⟨h1, by rw [h2]; exact hP.2⟩
  | receiver => exact ⟨by rw [receiverStep_sender h]; exact hP.1, (receiverStep_pipeline hP.2 h).1⟩
  | land i | fail i =>
    simp only [NixlExamples.step, landStep, failStep] at h
    split at h <;> cases h
    exact hP
  | _ =>
    simp only [NixlExamples.step, Option.map_eq_some'] at h
    obtain ⟨c, -, rfl⟩ := h
    exact hP

/-- The count `c` is covered by `receiver_progress` or waits in the sender's queue. -/
def Reported (c : Nat) (s : Session) : Prop :=
  c ≤ s.sender.progress ∨ ⟨"receiver", progressMsg c⟩ ∈ s.toSender.queue

theorem receiverLoopHead_ne_notify (cfg : Config) (r : Nat) : receiverLoopHead cfg r ≠ .notify := by
  unfold receiverLoopHead; split <;> nofun

section
variable {cfg : Config} {env : Env} {s : Session}

/-- A sender step keeps a reported count reported: a drain moves it from the queue into the progress. -/
theorem Reported.sender_step {c : Nat} {s' : Session} {r : Posted} (hc : Reported c s) (hv' : RingLive cfg s')
    (hp : s.sender.phase.loop = none) (h : senderStep cfg s r = some s') : Reported c s' := by
  rcases hc with hc | hc
  · exact .inl (le_trans hc (senderStep_counters h).1)
  obtain ⟨-, -, -, hS | hS | hS⟩ := senderStep_pipeline hp h
  · exact .inr (hS.1 ▸ hc)
  · exact .inl (hv'.covered c (by rw [hS.1]; exact List.mem_append_right _ hc))
  · exact .inr (hS.1 ▸ hc)

/-! #### The receiver catches up -/

end

end NixlExamples
