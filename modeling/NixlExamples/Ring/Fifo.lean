import NixlExamples.Ring.Content

/-!
# The ring is a bounded FIFO queue

What the ring of `nixl_sender_receiver.py` is for: the sender hands the receiver the transfers
`0, 1, 2, …` through a queue that holds at most `NUM_BUFFERS` of them at once.

* `Fifo` is that design, a queue of transfer numbers of bounded capacity.  Its own invariant
  (`Fifo.Reach.inv`) says that it holds consecutive numbers, so each dequeue outputs the number of
  dequeues before it (`Fifo.Reach.pop_eq`): the numbers come out in order, each once.
* `Session.fifo` reads the queue off a session: the transfers posted and not yet accepted, the window
  `[transfers_received, transfers_sent)`.  `Session.taken` is the transfer number a step hands the
  receiver: the header value it verified.
* For a threshold that fits the ring and fewer than `2^64` transfers, every state of every run,
  whatever the engine and the network do, is seen as a state of the queue, and every step is a step
  of the queue or leaves it as it is (`ring_refines_fifo`): a `transfer()` call enqueues the next
  transfer, with the queue not full, and the receiver's count dequeues the head, which is the value it
  read from the slot.
-/

namespace NixlExamples

/-! ### The queue -/

/-- A FIFO queue of transfer numbers: the next number to enqueue, and the numbers queued, head first. -/
structure Fifo where
  next : Nat
  queue : List Nat
deriving DecidableEq, Repr

/-- One step of a queue of capacity `cap` that carries the numbers below `total`: enqueue the next
number while the queue has room, or dequeue the head, which is the step's output. -/
inductive Fifo.Step (cap total : Nat) : Fifo → Fifo → Option Nat → Prop
  | push {f : Fifo} (hn : f.next < total) (hc : f.queue.length < cap) :
      Fifo.Step cap total f ⟨f.next + 1, f.queue ++ [f.next]⟩ none
  | pop (next n : Nat) (q : List Nat) : Fifo.Step cap total ⟨next, n :: q⟩ ⟨next, q⟩ (some n)

/-- The states of the queue from the empty one. -/
inductive Fifo.Reach (cap total : Nat) : Fifo → Prop
  | empty : Fifo.Reach cap total ⟨0, []⟩
  | step {f f' : Fifo} {o : Option Nat} : Fifo.Reach cap total f → Fifo.Step cap total f f' o →
      Fifo.Reach cap total f'

section
variable {cap total : Nat} {f f' : Fifo}

/-- The queue holds the consecutive numbers below `next`, at most `cap` of them, and `next` never
passes `total`. -/
theorem Fifo.Reach.inv (h : Fifo.Reach cap total f) :
    f.queue.length ≤ f.next ∧ f.queue = List.range' (f.next - f.queue.length) f.queue.length ∧
      f.queue.length ≤ cap ∧ f.next ≤ total := by
  induction h with
  | empty => exact ⟨le_rfl, rfl, Nat.zero_le _, Nat.zero_le _⟩
  | step _ hs ih =>
    obtain ⟨h1, h2, h3, h4⟩ := ih
    cases hs with
    | push hn hc =>
      simp only [List.length_append, List.length_singleton]
      refine ⟨by omega, ?_, by omega, by omega⟩
      rw [show _ + 1 - (_ + 1) = _ - _ from Nat.add_sub_add_right _ 1 _, List.range'_concat, ← h2]
      congr 2
      omega
    | pop next n q =>
      simp only [List.length_cons] at h1 h2 h3 ⊢
      rw [List.range'_succ, List.cons.injEq] at h2
      exact ⟨by omega, h2.2.trans (by congr 1; omega), by omega, h4⟩

/-- Each dequeue outputs the number of dequeues before it. -/
theorem Fifo.Reach.pop_eq {n : Nat} (h : Fifo.Reach cap total f) (hs : Fifo.Step cap total f f' (some n)) :
    n = f.next - f.queue.length := by
  cases hs with
  | pop next n q =>
    have h2 := h.inv.2.1
    rw [List.length_cons, List.range'_succ, List.cons.injEq] at h2
    exact h2.1

end

/-! ### The session as the queue -/

/-- The queue a session stands for: the transfers posted and not yet accepted. -/
def Session.fifo (s : Session) : Fifo :=
  ⟨s.sender.sent, List.range' s.receiver.received (s.sender.sent - s.receiver.received)⟩

/-- The transfer number a step hands the receiver: the header value it verified, when it counts it. -/
def Session.taken (s : Session) : Act → Option Nat
  | .receiver =>
    match s.receiver.phase with
    | .verify seq => some seq
    | _ => none
  | _ => none

/-- A sender step leaves the receiver alone. -/
theorem senderStep_receiver {cfg : Config} {s s' : Session} {r : Posted} (h : senderStep cfg s r = some s') :
    s'.receiver = s.receiver := by
  rcases hp : s.sender.phase with p | _ | _ | _ | _ | _ | _ | i | _ | _ <;> simp only [senderStep, hp] at h
  · rcases hq : senderDescsLoop p s.link with ⟨q | d, l⟩ <;> rw [hq] at h <;> cases h <;> rfl
  · split at h <;> cases h <;> rfl
  · split at h <;> cases h <;> rfl
  · split at h <;> cases h <;> rfl
  · split at h <;> cases h <;> rfl
  · cases r <;> cases h <;> rfl
  · split at h <;> cases h <;> rfl
  · split at h
    · split at h <;> cases h <;> rfl
    · cases h; rfl
  all_goals cases h

/-- Only the receiver's count of the transfer it verified changes `transfers_received`: by one, with the
sender left alone, and the step hands it the verified value. -/
theorem step_received {cfg : Config} {s s' : Session} {a : Act} (h : step cfg s a = some s') :
    s'.receiver.received = s.receiver.received ∧ s.taken a = none ∨
      ∃ seq, s.receiver.phase = .verify seq ∧ s.taken a = some seq ∧
        s'.receiver.received = s.receiver.received + 1 ∧ s'.sender = s.sender := by
  cases a with
  | sender r => exact .inl ⟨by rw [senderStep_receiver h], rfl⟩
  | receiver =>
    have hS := receiverStep_sender h
    rcases hp : s.receiver.phase with p | _ | seq | _ | _ <;> simp only [NixlExamples.step, receiverStep, hp] at h
    · rcases hq : receiverReadyLoop s.receiver.serialized p s.link with ⟨q, l⟩
      rw [hq] at h
      cases q <;> cases h <;> exact .inl ⟨rfl, by simp only [Session.taken, hp]⟩
    · split at h <;> cases h <;> exact .inl ⟨rfl, by simp only [Session.taken, hp]⟩
    · cases h; exact .inr ⟨seq, rfl, by simp only [Session.taken, hp], rfl, rfl⟩
    · cases h; exact .inl ⟨rfl, by simp only [Session.taken, hp]⟩
    · cases h
  | land i | fail i =>
    simp only [NixlExamples.step, landStep, failStep] at h
    split at h <;> cases h
    exact .inl ⟨rfl, rfl⟩
  | _ =>
    simp only [NixlExamples.step, Option.map_eq_some'] at h
    obtain ⟨c, -, rfl⟩ := h
    exact .inl ⟨rfl, rfl⟩

/-- One step of a run as a step of the queue: a `transfer()` call enqueues transfer `transfers_sent`
into a queue that is not full, the receiver's count dequeues the head, and every other step leaves the
queue as it is. -/
theorem fifo_step {cfg : Config} {s s' : Session} {a : Act} (hth : cfg.threshold ≤ cfg.numBuffers)
    (hT : cfg.numTransfers < 2 ^ 64) (hi : Inv cfg s) (hs : SlotInv cfg s) (h : step cfg s a = some s') :
    s'.fifo = s.fifo ∧ s.taken a = none ∨ Fifo.Step cfg.numBuffers cfg.numTransfers s.fifo s'.fifo (s.taken a) := by
  have hrt := hs.received_le
  rcases step_received h with ⟨hr, hn⟩ | ⟨seq, hp, hn, hr, hS⟩
  · rcases (step_counters h).2 with hsent | ⟨hp, hsent⟩
    · exact .inl ⟨by simp only [Session.fifo, hsent, hr], hn⟩
    · -- the `transfer()` call enqueues the transfer
      have hlt : s.sender.sent < s.receiver.received + cfg.numBuffers := by
        have := hi.ahead_lt (by rw [hp]; trivial); have := hi.progress_le; omega
      have hq : s'.fifo = ⟨s.fifo.next + 1, s.fifo.queue ++ [s.fifo.next]⟩ := by
        simp only [Session.fifo, hsent, hr, Fifo.mk.injEq, true_and]
        rw [show s.sender.sent + 1 - s.receiver.received = s.sender.sent - s.receiver.received + 1 by omega,
          List.range'_concat]
        congr 2
        omega
      rw [hq, hn]
      exact .inr (.push (hs.posting (by rw [hp]; trivial)) (by simp only [Session.fifo, List.length_range']; omega))
  · -- the receiver's count dequeues the head, the value it verified
    have hseq := hi.verify_seq seq hp
    have hv := hs.verify seq hp
    have hlt : s.receiver.received < s.sender.sent := by
      have := (hs.slot _ (by rw [hv]; exact ne_sentinel hT (hs.polling (by rw [hp]; trivial)))).2.1
      rwa [hv] at this
    have hq : s.fifo = ⟨s.sender.sent, s.receiver.received ::
        List.range' (s.receiver.received + 1) (s.sender.sent - (s.receiver.received + 1))⟩ := by
      simp only [Session.fifo, Fifo.mk.injEq, true_and]
      rw [show s.sender.sent - s.receiver.received = s.sender.sent - (s.receiver.received + 1) + 1 by omega,
        List.range'_succ]
    have hq' : s'.fifo = ⟨s.sender.sent, List.range' (s.receiver.received + 1)
        (s.sender.sent - (s.receiver.received + 1))⟩ := by
      simp only [Session.fifo, hr, hS]
    rw [hq, hq', hn, hseq]
    exact .inr (.pop _ _ _)

/-- The ring is a bounded FIFO queue.  Take a configuration whose `BACKPRESSURE_THRESHOLD` is at most
`NUM_BUFFERS` (as in `main()`), with fewer than `2^64` transfers.  In every state of every run, whatever
the transfer engine and the network do, the transfers posted and not yet accepted form a reachable state
of a FIFO queue of capacity `NUM_BUFFERS` carrying the numbers below `NUM_TRANSFERS`; and every step from
there is a step of that queue or leaves it as it is: `transfer()` enqueues the next transfer into a queue
that is not full, and the receiver's count dequeues the head, which is the header value it read, and
which is the number of transfers dequeued before it: they come out in order. -/
theorem ring_refines_fifo {cfg : Config} {env : Env} {s : Session} (hth : cfg.threshold ≤ cfg.numBuffers)
    (hT : cfg.numTransfers < 2 ^ 64) (hr : Run cfg env s) :
    Fifo.Reach cfg.numBuffers cfg.numTransfers s.fifo ∧
      ∀ a s', step cfg s a = some s' →
        (s'.fifo = s.fifo ∧ s.taken a = none ∨ Fifo.Step cfg.numBuffers cfg.numTransfers s.fifo s'.fifo (s.taken a)) ∧
          ∀ n, s.taken a = some n → n = s.fifo.next - s.fifo.queue.length := by
  have hstep : ∀ {s : Session}, Run cfg env s → ∀ a s', step cfg s a = some s' →
      s'.fifo = s.fifo ∧ s.taken a = none ∨ Fifo.Step cfg.numBuffers cfg.numTransfers s.fifo s'.fifo (s.taken a) :=
    fun hr _ _ h => fifo_step hth hT (run_inv hr) (run_slotInv hth hT hr) h
  have hreach : Fifo.Reach cfg.numBuffers cfg.numTransfers s.fifo := by
    obtain ⟨mode, serialized, fetched, hr⟩ := hr
    induction hr with
    | refl => exact .empty
    | step a hr _ hs ih =>
      rcases hstep ⟨mode, serialized, fetched, hr⟩ a _ hs with ⟨he, -⟩ | hf
      exacts [he ▸ ih, ih.step hf]
  refine ⟨hreach, fun a s' h => ⟨hstep hr a s' h, fun n hn => ?_⟩⟩
  rcases hstep hr a s' h with ⟨-, hn'⟩ | hf
  · rw [hn] at hn'; cases hn'
  · rw [hn] at hf; exact hreach.pop_eq hf

theorem ring_refines_fifo_main :
    Run mainConfig ⟨true, true⟩ twoAheadState ∧ twoAheadState.fifo = ⟨2, [0, 1]⟩ ∧
      Fifo.Reach mainConfig.numBuffers mainConfig.numTransfers twoAheadState.fifo ∧
      ∀ a s', step mainConfig twoAheadState a = some s' →
        (s'.fifo = twoAheadState.fifo ∧ twoAheadState.taken a = none ∨
          Fifo.Step mainConfig.numBuffers mainConfig.numTransfers twoAheadState.fifo s'.fifo
            (twoAheadState.taken a)) ∧
          ∀ n, twoAheadState.taken a = some n →
            n = twoAheadState.fifo.next - twoAheadState.fifo.queue.length :=
  ⟨twoAheadState_run, rfl,
    @ring_refines_fifo mainConfig ⟨true, true⟩ _ (by decide) (by decide) twoAheadState_run⟩

end NixlExamples
