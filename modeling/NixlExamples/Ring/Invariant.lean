import NixlExamples.Ring.Session

/-!
# Backpressure and progress

`Inv` holds in every state of every run, whatever the configuration, the transfer engine and the
network do (`run_inv`):

* every notification the sender can drain is one the receiver sent: `READY`, its `DESCS:` message, or
  a `P:<c>` with `c` at most the receiver's current `transfers_received`;
* so `receiver_progress` never exceeds `transfers_received`;
* `transfers_sent - receiver_progress` never exceeds `BACKPRESSURE_THRESHOLD`, and is below it
  from the exit of the backpressure gate to the `transfer()` call; `max_ahead` never exceeds it;
* the receiver leaves its poll loop only on the value it expects, so `sequence_mismatches` stays 0.

The effect of a single step is in `senderStep_progress` (the progress never decreases) and
`senderStep_issue` (a transfer is posted only below the threshold).
-/

namespace NixlExamples

/-- A notification the receiver may have sent once it has accepted `r` transfers. -/
def ReceiverNotif (serialized : Bytes) (r : Nat) (n : Notif) : Prop :=
  n.src = "receiver" ∧ (n.msg = readyMsg ∨ n.msg = descsPrefix ++ serialized ∨ ProgressMsg r n.msg)

/-- The phases between the exit of the backpressure gate and the `transfer()` call. -/
def SenderPhase.pastGate : SenderPhase → Prop
  | .slotWait | .writeHeader | .issue => True
  | _ => False

/-- The invariant of every run. -/
structure Inv (cfg : Config) (s : Session) : Prop where
  logged : s.toSender.Logged
  fromReceiver : ∀ n ∈ s.toSender.log, ReceiverNotif s.receiver.serialized s.receiver.received n
  progress_le : s.sender.progress ≤ s.receiver.received
  ahead_le : (s.sender.sent : Int) - s.sender.progress ≤ cfg.threshold
  ahead_lt : s.sender.phase.pastGate → (s.sender.sent : Int) - s.sender.progress < cfg.threshold
  maxAhead_le : s.sender.maxAhead ≤ cfg.threshold
  verify_seq : ∀ seq, s.receiver.phase = .verify seq → seq = s.receiver.received
  mismatches : s.receiver.mismatches = 0

theorem ReceiverNotif.mono {serialized : Bytes} {r r' : Nat} {n : Notif} (h : ReceiverNotif serialized r n)
    (hr : r ≤ r') : ReceiverNotif serialized r' n := by
  obtain ⟨h1, h2 | h2 | ⟨c, hc, h2⟩⟩ := h
  · exact ⟨h1, .inl h2⟩
  · exact ⟨h1, .inr (.inl h2)⟩
  · exact ⟨h1, .inr (.inr ⟨c, by omega, h2⟩)⟩

/-- The sender's drained batch is a batch of the receiver's messages. -/
theorem Inv.batch {cfg : Config} {s : Session} (hi : Inv cfg s) :
    ReceiverBatch s.receiver.received s.receiver.serialized (fromPeer "receiver" s.toSender.queue) := by
  intro m hm
  exact (hi.fromReceiver _ (hi.logged _ (List.mem_append_right _ (mem_fromPeer.1 hm)))).2

theorem inv_init (cfg : Config) (mode : Mode) (serialized : Bytes) (fetched : Except ClientError (Option Bytes)) :
    Inv cfg (Session.init cfg mode serialized fetched) := by
  refine ⟨Chan.logged_empty, fun n hn => by simp [Session.init, Chan.empty] at hn, le_refl _,
    by simp [Session.init], fun hp => ?_, by simp [Session.init], fun seq hseq => ?_, rfl⟩
  · rcases Session.senderStart_cases mode fetched with h | h | h <;>
      simp [Session.init, h, SenderPhase.pastGate] at hp
  · cases mode <;> simp [Session.init, receiverLoopHead] at hseq
    split at hseq <;> cases hseq

/-- The invariant reads only the two processes and the sender's notifications. -/
theorem Inv.congr {cfg : Config} {s s' : Session} (hi : Inv cfg s) (h1 : s'.sender = s.sender)
    (h2 : s'.receiver = s.receiver) (h3 : s'.toSender = s.toSender) : Inv cfg s' := by
  obtain ⟨a, b, c, d, e, f, g, k⟩ := hi
  exact ⟨h3 ▸ a, h2 ▸ h3 ▸ b, h1 ▸ h2 ▸ c, h1 ▸ d, h1 ▸ e, h1 ▸ f, h2 ▸ g, h2 ▸ k⟩

/-- A sender step keeps the invariant. -/
theorem Inv.sender_step {cfg : Config} {s s' : Session} {r : Posted} (hi : Inv cfg s)
    (h : senderStep cfg s r = some s') : Inv cfg s' := by
  have hb := hi.batch
  rcases hp : s.sender.phase with p | _ | _ | _ | _ | _ | _ | i | _ | _ <;>
    simp only [senderStep, hp] at h
  · rcases hq : senderDescsLoop p s.link with ⟨q | d, l⟩ <;> rw [hq] at h <;> cases h <;>
    · have hl := requesterStep_toRequester "sender" "receiver" p s.link
      rw [show requesterStep "sender" "receiver" p s.link = senderDescsLoop p s.link from rfl, hq] at hl
      refine ⟨?_, ?_, hi.progress_le, hi.ahead_le, fun h => by simp [SenderPhase.pastGate] at h,
        hi.maxAhead_le, hi.verify_seq, hi.mismatches⟩
      · rcases hl with hl | hl <;> rw [hl]
        exacts [hi.logged, hi.logged.drain]
      · rcases hl with hl | hl <;> rw [hl] <;> exact hi.fromReceiver
  · -- head
    split at h <;> cases h
    · refine ⟨hi.logged, hi.fromReceiver, hi.progress_le, hi.ahead_le, fun hg => ?_,
        max_le hi.maxAhead_le hi.ahead_le, hi.verify_seq, hi.mismatches⟩
      split at hg
      · exact hg.elim
      · simp only; omega
    · exact ⟨hi.logged, hi.fromReceiver, hi.progress_le, hi.ahead_le, fun hg => hg.elim, hi.maxAhead_le,
        hi.verify_seq, hi.mismatches⟩
  · -- gate
    obtain ⟨q, hq, hq1, hq2⟩ := scanProgress_bounds _ _ _ _ hb
    rw [hq] at h
    cases h
    refine ⟨hi.logged.drain, hi.fromReceiver, le_trans hq2 (max_le hi.progress_le le_rfl),
      by simp only; have := hi.ahead_le; omega,
      fun hg => ?_, hi.maxAhead_le, hi.verify_seq, hi.mismatches⟩
    split at hg
    · exact hg.elim
    · simp only; omega
  · -- slotWait
    split at h <;> cases h
    · exact hi
    · exact ⟨hi.logged, hi.fromReceiver, hi.progress_le, hi.ahead_le, fun _ => hi.ahead_lt (by simp [hp, SenderPhase.pastGate]),
        hi.maxAhead_le, hi.verify_seq, hi.mismatches⟩
  · -- writeHeader
    split at h <;> cases h
    · exact ⟨hi.logged, hi.fromReceiver, hi.progress_le, hi.ahead_le,
        fun _ => hi.ahead_lt (by simp [hp, SenderPhase.pastGate]), hi.maxAhead_le, hi.verify_seq, hi.mismatches⟩
    · exact ⟨hi.logged, hi.fromReceiver, hi.progress_le, hi.ahead_le, fun hg => hg.elim, hi.maxAhead_le,
        hi.verify_seq, hi.mismatches⟩
  · -- issue
    have hlt := hi.ahead_lt (by simp [hp, SenderPhase.pastGate])
    have hnext : ∀ q : SenderPhase, (q = .pollProgress ∨ q = .head) → ¬ q.pastGate := by
      rintro q (rfl | rfl) <;> exact id
    cases r with
    | err =>
      cases h
      exact ⟨hi.logged, hi.fromReceiver, hi.progress_le, hi.ahead_le, fun hg => hg.elim, hi.maxAhead_le,
        hi.verify_seq, hi.mismatches⟩
    | proc | done =>
      cases h
      refine ⟨hi.logged, hi.fromReceiver, hi.progress_le, by simp only; push_cast; omega,
        fun hg => absurd hg (hnext _ (by split <;> simp)), hi.maxAhead_le, hi.verify_seq, hi.mismatches⟩
  · -- pollProgress
    obtain ⟨q, hq, hq1, hq2⟩ := scanProgress_bounds _ _ _ _ hb
    rw [hq] at h
    cases h
    exact ⟨hi.logged.drain, hi.fromReceiver, le_trans hq2 (max_le hi.progress_le le_rfl),
      by simp only; have := hi.ahead_le; omega, fun hg => hg.elim, hi.maxAhead_le, hi.verify_seq,
      hi.mismatches⟩
  · -- drain
    split at h
    · split at h <;> cases h
      · exact hi
      · exact ⟨hi.logged, hi.fromReceiver, hi.progress_le, hi.ahead_le, fun hg => hg.elim, hi.maxAhead_le,
          hi.verify_seq, hi.mismatches⟩
    · cases h
      exact ⟨hi.logged, hi.fromReceiver, hi.progress_le, hi.ahead_le, fun hg => hg.elim, hi.maxAhead_le,
        hi.verify_seq, hi.mismatches⟩
  all_goals cases h

/-- A receiver step keeps the invariant. -/
theorem Inv.receiver_step {cfg : Config} {s s' : Session} (hi : Inv cfg s)
    (h : receiverStep cfg s = some s') : Inv cfg s' := by
  have hhead : ∀ r seq, receiverLoopHead cfg r ≠ .verify seq := by
    intro r seq; unfold receiverLoopHead; split <;> simp
  rcases hp : s.receiver.phase with p | _ | seq | _ | _ <;> simp only [receiverStep, hp] at h
  · rcases hq : receiverReadyLoop s.receiver.serialized p s.link with ⟨q, l⟩
    have hl := holderStep_toRequester "receiver" "sender" s.receiver.serialized p s.link
    rw [show holderStep "receiver" "sender" s.receiver.serialized p s.link =
      receiverReadyLoop s.receiver.serialized p s.link from rfl, hq] at hl
    have hlog : l.toRequester.Logged ∧
        ∀ n ∈ l.toRequester.log, ReceiverNotif s.receiver.serialized s.receiver.received n := by
      rcases hl with hl | hl | hl <;> rw [hl]
      · exact ⟨hi.logged, hi.fromReceiver⟩
      · refine ⟨hi.logged.send _, fun n hn => ?_⟩
        rcases List.mem_append.1 hn with hn | hn
        · exact hi.fromReceiver n hn
        · rw [List.mem_singleton.1 hn]; exact ⟨rfl, .inl rfl⟩
      · refine ⟨hi.logged.send _, fun n hn => ?_⟩
        rcases List.mem_append.1 hn with hn | hn
        · exact hi.fromReceiver n hn
        · rw [List.mem_singleton.1 hn]; exact ⟨rfl, .inr (.inl rfl)⟩
    rw [hq] at h
    cases q <;> cases h
    · exact ⟨hlog.1, hlog.2, hi.progress_le, hi.ahead_le, hi.ahead_lt, hi.maxAhead_le,
        fun seq hs => absurd hs (hhead _ _), hi.mismatches⟩
    · exact ⟨hlog.1, hlog.2, hi.progress_le, hi.ahead_le, hi.ahead_lt, hi.maxAhead_le,
        fun seq hs => by simp at hs, hi.mismatches⟩
  · split at h <;> cases h
    · exact ⟨hi.logged, hi.fromReceiver, hi.progress_le, hi.ahead_le, hi.ahead_lt, hi.maxAhead_le,
        fun seq hs => by simp only [ReceiverPhase.verify.injEq] at hs; rw [← hs]; assumption, hi.mismatches⟩
    · exact hi
  · cases h
    have hseq := hi.verify_seq seq hp
    refine ⟨hi.logged, fun n hn => (hi.fromReceiver n hn).mono (Nat.le_succ _), Nat.le_succ_of_le hi.progress_le,
      hi.ahead_le, hi.ahead_lt, hi.maxAhead_le, fun seq' hs => ?_, by simp [hseq, hi.mismatches]⟩
    simp only at hs
    split at hs
    · cases hs
    · exact absurd hs (hhead _ _)
  · cases h
    refine ⟨hi.logged.send _, fun n hn => ?_, hi.progress_le, hi.ahead_le, hi.ahead_lt, hi.maxAhead_le,
      fun seq hs => absurd hs (hhead _ _), hi.mismatches⟩
    rcases List.mem_append.1 hn with hn | hn
    · exact hi.fromReceiver n hn
    · rw [List.mem_singleton.1 hn]; exact ⟨rfl, .inr (.inr ⟨_, le_refl _, rfl⟩)⟩
  · cases h

/-- Every step keeps the invariant. -/
theorem step_inv {cfg : Config} {s s' : Session} {a : Act} (hi : Inv cfg s) (h : step cfg s a = some s') :
    Inv cfg s' := by
  cases a with
  | sender r => exact hi.sender_step h
  | receiver => exact hi.receiver_step h
  | land i =>
    simp only [step, landStep] at h
    split at h <;> cases h
    exact hi.congr rfl rfl rfl
  | fail i =>
    simp only [step, failStep] at h
    split at h <;> cases h
    exact hi.congr rfl rfl rfl
  | deliverToSender i dup =>
    simp only [step, Option.map_eq_some'] at h
    obtain ⟨c, hc, rfl⟩ := h
    obtain ⟨-, -, -, hlog, -, -, -, -⟩ := Chan.deliver_cases hc
    exact ⟨hi.logged.deliver hc, hlog ▸ hi.fromReceiver, hi.progress_le, hi.ahead_le, hi.ahead_lt,
      hi.maxAhead_le, hi.verify_seq, hi.mismatches⟩
  | deliverToReceiver i dup =>
    simp only [step, Option.map_eq_some'] at h
    obtain ⟨c, -, rfl⟩ := h
    exact hi.congr rfl rfl rfl
  | loseToSender i =>
    simp only [step, Option.map_eq_some'] at h
    obtain ⟨c, hc, rfl⟩ := h
    obtain ⟨-, hlog, -, -⟩ := Chan.lose_cases hc
    exact ⟨hi.logged.lose hc, hlog ▸ hi.fromReceiver, hi.progress_le, hi.ahead_le, hi.ahead_lt,
      hi.maxAhead_le, hi.verify_seq, hi.mismatches⟩
  | loseToReceiver i =>
    simp only [step, Option.map_eq_some'] at h
    obtain ⟨c, -, rfl⟩ := h
    exact hi.congr rfl rfl rfl

theorem Reachable.inv {cfg : Config} {env : Env} {s₀ s : Session} (hr : Reachable cfg env s₀ s)
    (h₀ : Inv cfg s₀) : Inv cfg s := by
  induction hr with
  | refl => exact h₀
  | step a _ _ hs ih => exact step_inv ih hs

/-- The invariant holds in every state of every run. -/
theorem run_inv {cfg : Config} {env : Env} {s : Session} (hr : Run cfg env s) : Inv cfg s := by
  obtain ⟨mode, serialized, fetched, hr⟩ := hr
  exact hr.inv (inv_init cfg mode serialized fetched)

/-! ### One step of the sender's counters -/

/-- A receiver step leaves the sender's local state alone. -/
theorem receiverStep_sender {cfg : Config} {s s' : Session} (h : receiverStep cfg s = some s') :
    s'.sender = s.sender := by
  rcases hp : s.receiver.phase with p | _ | seq | _ | _ <;> simp only [receiverStep, hp] at h
  · rcases hq : receiverReadyLoop s.receiver.serialized p s.link with ⟨q | _, l⟩ <;> rw [hq] at h <;>
      cases h <;> rfl
  · split at h <;> cases h <;> rfl
  all_goals cases h
  all_goals rfl

theorem receiverStep_xfer {cfg : Config} {s s' : Session} (h : receiverStep cfg s = some s') :
    s'.xfer = s.xfer := by
  rcases hp : s.receiver.phase with p | _ | seq | _ | _ <;> simp only [receiverStep, hp] at h
  · rcases hq : receiverReadyLoop s.receiver.serialized p s.link with ⟨q | _, l⟩ <;> rw [hq] at h <;>
      cases h <;> rfl
  · split at h <;> cases h <;> rfl
  all_goals cases h
  all_goals rfl

/-- A sender step never lowers `receiver_progress`, and changes `transfers_sent` only at the
`transfer()` call, by one. -/
theorem senderStep_counters {cfg : Config} {s s' : Session} {r : Posted} (h : senderStep cfg s r = some s') :
    s.sender.progress ≤ s'.sender.progress ∧
      (s'.sender.sent = s.sender.sent ∨ s.sender.phase = .issue ∧ s'.sender.sent = s.sender.sent + 1) := by
  rcases hp : s.sender.phase with p | _ | _ | _ | _ | _ | _ | i | _ | _ <;> simp only [senderStep, hp] at h
  · rcases hq : senderDescsLoop p s.link with ⟨q | d, l⟩ <;> rw [hq] at h <;> cases h <;>
      exact ⟨le_rfl, .inl rfl⟩
  · split at h <;> cases h <;> exact ⟨le_rfl, .inl rfl⟩
  · split at h <;> cases h
    exacts [⟨scanProgress_ge ‹_›, .inl rfl⟩, ⟨le_rfl, .inl rfl⟩]
  · split at h <;> cases h <;> exact ⟨le_rfl, .inl rfl⟩
  · split at h <;> cases h <;> exact ⟨le_rfl, .inl rfl⟩
  · cases r <;> cases h
    exacts [⟨le_rfl, .inr ⟨rfl, rfl⟩⟩, ⟨le_rfl, .inr ⟨rfl, rfl⟩⟩, ⟨le_rfl, .inl rfl⟩]
  · split at h <;> cases h
    exacts [⟨scanProgress_ge ‹_›, .inl rfl⟩, ⟨le_rfl, .inl rfl⟩]
  · split at h
    · split at h <;> cases h <;> exact ⟨le_rfl, .inl rfl⟩
    · cases h; exact ⟨le_rfl, .inl rfl⟩
  all_goals cases h

/-- Every step of the session never lowers `receiver_progress` and changes `transfers_sent` only at
the sender's `transfer()` call, by one. -/
theorem step_counters {cfg : Config} {s s' : Session} {a : Act} (h : step cfg s a = some s') :
    s.sender.progress ≤ s'.sender.progress ∧
      (s'.sender.sent = s.sender.sent ∨ s.sender.phase = .issue ∧ s'.sender.sent = s.sender.sent + 1) := by
  have frame : s'.sender = s.sender → s.sender.progress ≤ s'.sender.progress ∧
      (s'.sender.sent = s.sender.sent ∨ s.sender.phase = .issue ∧ s'.sender.sent = s.sender.sent + 1) :=
    fun he => he ▸ ⟨le_rfl, .inl rfl⟩
  cases a with
  | sender r => exact senderStep_counters h
  | receiver => exact frame (receiverStep_sender h)
  | land i | fail i =>
    simp only [step, landStep, failStep] at h
    split at h <;> cases h
    exact frame rfl
  | deliverToSender i dup | deliverToReceiver i dup | loseToSender i | loseToReceiver i =>
    simp only [step, Option.map_eq_some'] at h
    obtain ⟨c, -, rfl⟩ := h
    exact frame rfl

/-! ### The backpressure bounds -/

/-- In every state of every run `receiver_progress` is at most `transfers_received`, the sender
calls `transfer()` only with `transfers_sent - receiver_progress` below `BACKPRESSURE_THRESHOLD`,
that difference and `max_ahead` never exceed the threshold, and no step lowers the progress or
changes `transfers_sent` other than by the one transfer it posts. -/
theorem sender_backpressure {cfg : Config} {env : Env} {s : Session} (hr : Run cfg env s) :
    s.sender.progress ≤ s.receiver.received ∧
      (s.sender.phase = .issue → (s.sender.sent : Int) - s.sender.progress < cfg.threshold) ∧
      (s.sender.sent : Int) - s.sender.progress ≤ cfg.threshold ∧
      s.sender.maxAhead ≤ cfg.threshold ∧
      ∀ a s', step cfg s a = some s' → s.sender.progress ≤ s'.sender.progress ∧
        (s'.sender.sent = s.sender.sent ∨ s.sender.phase = .issue ∧ s'.sender.sent = s.sender.sent + 1) := by
  have hi := run_inv hr
  exact ⟨hi.progress_le, fun hp => hi.ahead_lt (by rw [hp]; trivial), hi.ahead_le, hi.maxAhead_le,
    fun _ _ => step_counters⟩

/-- The first `transfer()` call of `main()`'s configuration. -/
def mainIssueState : Session :=
  (run mainConfig (Session.init mainConfig .tcp [] (.ok (some []))) (List.replicate 3 (.sender .proc))).getD
    (Session.init mainConfig .tcp [] (.ok (some [])))

theorem mainIssueState_fed {env : Env} : FedRun mainConfig env mainIssueState :=
  ⟨.tcp, [], [], reachable_of_run .refl (fun a ha => by rw [(List.mem_replicate.1 ha).2]; rfl)
    (show run mainConfig (Session.init mainConfig .tcp [] (.ok (some []))) (List.replicate 3 (.sender .proc)) =
      some mainIssueState from rfl)⟩

theorem sender_backpressure_main :
    Run mainConfig ⟨true, true⟩ mainIssueState ∧ mainIssueState.sender.phase = .issue ∧
      (mainIssueState.sender.progress ≤ mainIssueState.receiver.received ∧
        (mainIssueState.sender.phase = .issue →
          (mainIssueState.sender.sent : Int) - mainIssueState.sender.progress < mainConfig.threshold) ∧
        (mainIssueState.sender.sent : Int) - mainIssueState.sender.progress ≤ mainConfig.threshold ∧
        mainIssueState.sender.maxAhead ≤ mainConfig.threshold ∧
        ∀ a s', step mainConfig mainIssueState a = some s' →
          mainIssueState.sender.progress ≤ s'.sender.progress ∧
            (s'.sender.sent = mainIssueState.sender.sent ∨
              mainIssueState.sender.phase = .issue ∧ s'.sender.sent = mainIssueState.sender.sent + 1)) :=
  ⟨mainIssueState_fed.run, rfl, @sender_backpressure _ ⟨true, true⟩ _ mainIssueState_fed.run⟩

end NixlExamples
