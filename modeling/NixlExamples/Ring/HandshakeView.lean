import NixlExamples.Handshake.Progress
import NixlExamples.Ring.Invariant

/-!
# The streaming session refines the handshake

`Session.handshake` reads the descriptor handshake off a session: the receiver's READY loop is the
holder's loop, the sender's DESCS wait loop the requester's, and the two notification channels are the
link.  On a network that loses nothing, every step of the session is a step of the handshake system
`HsStep "receiver" "sender"` or leaves the view as it is (`step_handshake`): after its loop the
receiver sends only `P:` messages and the sender drains only in its gate and its opportunistic drain,
and the engine's `BUF_` notifications go out on the sender's behalf only once it has posted a
transfer, which it does only after its loop.  So every state of an etcd-mode run is seen as a
reachable state of the handshake (`reachable_handshake`), and the agreement of `Handshake/Agreement`
holds of it.  Conversely a continuation of the handshake is one of the session
(`Session.reachable_of_loopRun`), so every such state can be continued until both processes have left
their loops (`handshake_leaves_loops`).
-/

namespace NixlExamples

/-- The sender's wait-loop phase, while it is in the loop. -/
def SenderPhase.loop : SenderPhase → Option RequesterPhase
  | .handshake p => some p
  | _ => none

/-- The receiver's READY-loop phase, while it is in the loop. -/
def ReceiverPhase.loop : ReceiverPhase → Option HolderPhase
  | .handshake p => some p
  | _ => none

@[simp] theorem receiverLoopHead_loop (cfg : Config) (r : Nat) : (receiverLoopHead cfg r).loop = none := by
  unfold receiverLoopHead; split <;> rfl

/-- The handshake as the session shows it. -/
def Session.handshake (s : Session) : Handshake :=
  ⟨s.receiver.phase.loop, s.sender.phase.loop, s.sender.descs, s.receiver.serialized, s.link⟩

/-- No transfer has been posted while the sender waits for the descriptors. -/
def WaitsFresh (s : Session) : Prop := s.sender.phase.loop ≠ none → ∀ i, s.xfer i = .fresh

/-! ### The two processes after their loops -/

/-- After its loop a sender step leaves the receiver, the descriptors and the ring's notifications
as they are, except that it drains its own notifications or the engine sends a `BUF_` notification
to the receiver. -/
theorem senderStep_pipeline {cfg : Config} {s s' : Session} {r : Posted} (hp : s.sender.phase.loop = none)
    (h : senderStep cfg s r = some s') :
    s'.sender.phase.loop = none ∧ s'.sender.descs = s.sender.descs ∧ s'.receiver = s.receiver ∧
      ((s'.toSender = s.toSender ∧ s'.toReceiver = s.toReceiver) ∨
        (s'.toSender = s.toSender.drain ∧ s'.toReceiver = s.toReceiver) ∨
        (s'.toSender = s.toSender ∧ ∃ i, s'.toReceiver = s.toReceiver.send ⟨"sender", bufNotif i⟩)) := by
  rcases hq : s.sender.phase with p | _ | _ | _ | _ | _ | _ | i | _ | _ <;>
    simp only [senderStep, hq] at h
  · simp [hq, SenderPhase.loop] at hp
  · split at h <;> cases h
    · exact ⟨by split <;> rfl, rfl, rfl, .inl ⟨rfl, rfl⟩⟩
    · exact ⟨rfl, rfl, rfl, .inl ⟨rfl, rfl⟩⟩
  · split at h <;> cases h
    · exact ⟨by split <;> rfl, rfl, rfl, .inr (.inl ⟨rfl, rfl⟩)⟩
    · exact ⟨rfl, rfl, rfl, .inr (.inl ⟨rfl, rfl⟩)⟩
  · split at h <;> cases h
    exacts [⟨hp, rfl, rfl, .inl ⟨rfl, rfl⟩⟩, ⟨rfl, rfl, rfl, .inl ⟨rfl, rfl⟩⟩]
  · split at h <;> cases h <;> exact ⟨rfl, rfl, rfl, .inl ⟨rfl, rfl⟩⟩
  · cases r <;> cases h
    · exact ⟨by split <;> rfl, rfl, rfl, .inl ⟨rfl, rfl⟩⟩
    · exact ⟨by split <;> rfl, rfl, rfl, .inr (.inr ⟨rfl, _, rfl⟩)⟩
    · exact ⟨rfl, rfl, rfl, .inl ⟨rfl, rfl⟩⟩
  · split at h <;> cases h
    · exact ⟨rfl, rfl, rfl, .inr (.inl ⟨rfl, rfl⟩)⟩
    · exact ⟨rfl, rfl, rfl, .inr (.inl ⟨rfl, rfl⟩)⟩
  · split at h
    · split at h <;> cases h
      exacts [⟨hp, rfl, rfl, .inl ⟨rfl, rfl⟩⟩, ⟨rfl, rfl, rfl, .inl ⟨rfl, rfl⟩⟩]
    · cases h; exact ⟨rfl, rfl, rfl, .inl ⟨rfl, rfl⟩⟩
  all_goals cases h

/-- After its loop a receiver step leaves the sender and the handles alone, sends nothing but a
`P:` message, and drains nothing. -/
theorem receiverStep_pipeline {cfg : Config} {s s' : Session} (hp : s.receiver.phase.loop = none)
    (h : receiverStep cfg s = some s') :
    s'.receiver.phase.loop = none ∧ s'.receiver.serialized = s.receiver.serialized ∧ s'.sender = s.sender ∧
      s'.xfer = s.xfer ∧ s'.toReceiver = s.toReceiver ∧
      (s'.toSender = s.toSender ∨ ∃ c, s'.toSender = s.toSender.send ⟨"receiver", progressMsg c⟩) := by
  rcases hq : s.receiver.phase with p | _ | seq | _ | _ <;> simp only [receiverStep, hq] at h
  · simp [hq, ReceiverPhase.loop] at hp
  · split at h <;> cases h
    exacts [⟨rfl, rfl, rfl, rfl, rfl, .inl rfl⟩, ⟨hp, rfl, rfl, rfl, rfl, .inl rfl⟩]
  · cases h
    exact ⟨by split; exacts [rfl, receiverLoopHead_loop _ _], rfl, rfl, rfl, rfl, .inl rfl⟩
  · cases h
    exact ⟨by simp, rfl, rfl, rfl, rfl, .inr ⟨_, rfl⟩⟩
  · cases h

theorem progressMsg_not_descs (c : Nat) : descsPrefix.isPrefixOf (progressMsg c) = false := rfl

/-! ### One step -/

/-- On a network that loses nothing, a step of the session is a step of the handshake or leaves its
view as it is, and no transfer is posted while the sender waits. -/
theorem step_handshake {cfg : Config} {env : Env} {s s' : Session} {a : Act} (hf : WaitsFresh s)
    (hl : env.lossy = false) (ha : env.allows a = true) (h : step cfg s a = some s') :
    WaitsFresh s' ∧ (s'.handshake = s.handshake ∨ HsStep "receiver" "sender" s.handshake s'.handshake) := by
  cases a with
  | sender r =>
    cases hp : s.sender.phase.loop with
    | some p =>
      have hp' : s.sender.phase = .handshake p := by
        revert hp; cases s.sender.phase <;> simp [SenderPhase.loop]
      simp only [step, senderStep, hp'] at h
      have hstep := @HsStep.requester "receiver" "sender" s.handshake p hp
      rcases hq : senderDescsLoop p s.link with ⟨q | d, l⟩ <;> rw [hq] at h <;> cases h <;>
        rw [show requesterStep "sender" "receiver" p s.handshake.link = (_, l) from hq] at hstep
      · exact ⟨fun _ => hf (by simp [hp]), .inr hstep⟩
      · exact ⟨fun h => absurd rfl h, .inr hstep⟩
    | none =>
      obtain ⟨hp', hd, hr, hc | hc | ⟨hc, i, hc'⟩⟩ := senderStep_pipeline hp h
      · refine ⟨fun h => absurd hp' h, .inl ?_⟩
        simp only [Session.handshake, Session.link, hp', hp, hd, hr, hc.1, hc.2]
      · refine ⟨fun h => absurd hp' h, .inr ?_⟩
        have := @HsStep.requesterDrains "receiver" "sender" s.handshake hp
        simpa [Session.handshake, Session.link, hp', hp, hd, hr, hc.1, hc.2] using this
      · refine ⟨fun h => absurd hp' h, .inr ?_⟩
        have := @HsStep.requesterSends "receiver" "sender" s.handshake (bufNotif i) hp
        simpa [Session.handshake, Session.link, hp', hp, hd, hr, hc, hc'] using this
  | receiver =>
    cases hp : s.receiver.phase.loop with
    | some p =>
      have hp' : s.receiver.phase = .handshake p := by
        revert hp; cases s.receiver.phase <;> simp [ReceiverPhase.loop]
      simp only [step, receiverStep, hp'] at h
      have hstep := @HsStep.holder "receiver" "sender" s.handshake p hp
      rcases hq : receiverReadyLoop s.receiver.serialized p s.link with ⟨q, l⟩
      rw [hq] at h
      rw [show holderStep "receiver" "sender" s.handshake.payload p s.handshake.link = (q, l) from hq] at hstep
      cases q <;> cases h
      · refine ⟨hf, .inr ?_⟩
        convert hstep using 2
        exact receiverLoopHead_loop _ _
      · exact ⟨hf, .inr hstep⟩
    | none =>
      obtain ⟨hp', hser, hs, hx, hr, hc | ⟨c, hc⟩⟩ := receiverStep_pipeline hp h
      · refine ⟨fun h i => by rw [hs] at h; rw [hx]; exact hf h i, .inl ?_⟩
        simp only [Session.handshake, Session.link, hp', hp, hser, hs, hr, hc]
      · refine ⟨fun h i => by rw [hs] at h; rw [hx]; exact hf h i, .inr ?_⟩
        have := @HsStep.holderSends "receiver" "sender" s.handshake (progressMsg c) hp (progressMsg_not_descs c)
        simpa [Session.handshake, Session.link, hp', hp, hser, hs, hr, hc] using this
  | land i =>
    simp only [step, landStep] at h
    split at h <;> cases h
    rename_i v hv
    have hreq : s.handshake.requester = none := by
      by_contra hw
      exact absurd (hf hw i) (by simp [hv])
    exact ⟨fun hw => absurd hreq hw, .inr (@HsStep.requesterSends "receiver" "sender" s.handshake (bufNotif i) hreq)⟩
  | fail i =>
    simp only [step, failStep] at h
    split at h <;> cases h
    rename_i v hv
    exact ⟨fun hw => absurd (hf hw i) (by simp [hv]), .inl rfl⟩
  | deliverToSender i dup =>
    simp only [step, Option.map_eq_some'] at h
    obtain ⟨c, hc, rfl⟩ := h
    exact ⟨hf, .inr (@HsStep.deliverToRequester "receiver" "sender" s.handshake i dup c hc)⟩
  | deliverToReceiver i dup =>
    simp only [step, Option.map_eq_some'] at h
    obtain ⟨c, hc, rfl⟩ := h
    exact ⟨hf, .inr (@HsStep.deliverToHolder "receiver" "sender" s.handshake i dup c hc)⟩
  | loseToSender i => simp [Env.allows, hl] at ha
  | loseToReceiver i => simp [Env.allows, hl] at ha

/-! ### Whole runs -/

/-- Every state of an etcd-mode run on a network that loses nothing is a reachable state of the
handshake, with the payload `get_serialized_descs` returned. -/
theorem reachable_handshake {cfg : Config} {env : Env} {serialized : Bytes}
    {fetched : Except ClientError (Option Bytes)} {s : Session} (hl : env.lossy = false)
    (hr : Reachable cfg env (Session.init cfg .etcd serialized fetched) s) :
    WaitsFresh s ∧ HsReach "receiver" "sender" s.handshake ∧ s.receiver.serialized = serialized := by
  induction hr with
  | refl => exact ⟨fun _ _ => rfl, .init serialized, rfl⟩
  | step a _ ha hs ih =>
    obtain ⟨hf, hreach, hser⟩ := ih
    obtain ⟨hf', heq | hstep⟩ := step_handshake hf hl ha hs
    · exact ⟨hf', heq ▸ hreach, (congrArg Handshake.payload heq).trans hser⟩
    · exact ⟨hf', hreach.step hstep, hstep.payload_eq.trans hser⟩

/-! ### The handshake completes -/

theorem SenderPhase.eq_of_loop {p : SenderPhase} {q : RequesterPhase} (h : p.loop = some q) : p = .handshake q := by
  cases p <;> simp_all [SenderPhase.loop]

theorem ReceiverPhase.eq_of_loop {p : ReceiverPhase} {q : HolderPhase} (h : p.loop = some q) :
    p = .handshake q := by
  cases p <;> simp_all [ReceiverPhase.loop]

/-- A continuation of the handshake seen in `s` is a continuation of the session: a step of the
receiver's READY loop is a receiver step, one of the sender's wait loop a sender step, and a delivery a
delivery. -/
theorem Session.reachable_of_loopRun {cfg : Config} {env : Env} {s : Session} {h' : Handshake}
    (hrun : HsLoopRun "receiver" "sender" s.handshake h') : ∃ s', Reachable cfg env s s' ∧ s'.handshake = h' := by
  generalize hh : s.handshake = h at hrun
  induction hrun generalizing s with
  | refl => exact ⟨s, .refl, hh⟩
  | @holder h h' p hp _ ih =>
    subst hh
    obtain ⟨⟨q, l⟩, hq⟩ : ∃ y, receiverReadyLoop s.receiver.serialized p s.link = y := ⟨_, rfl⟩
    obtain ⟨s₁, hs₁, he⟩ : ∃ s₁, step cfg s .receiver = some s₁ ∧
        s₁.handshake = { s.handshake with holder := q, link := l } := by
      cases q
      · exact ⟨_, by simp only [NixlExamples.step, receiverStep, ReceiverPhase.eq_of_loop hp, hq]; rfl,
          by simp only [Session.handshake, receiverLoopHead_loop]; rfl⟩
      · exact ⟨_, by simp only [NixlExamples.step, receiverStep, ReceiverPhase.eq_of_loop hp, hq]; rfl, by rfl⟩
    obtain ⟨s', hs', he'⟩ := ih (he.trans
      (by rw [show holderStep "receiver" "sender" s.handshake.payload p s.handshake.link = (q, l) from hq]))
    exact ⟨s', (Reachable.single .receiver rfl hs₁).trans hs', he'⟩
  | @requester h h' p hp _ ih =>
    subst hh
    obtain ⟨y, hq⟩ : ∃ y, senderDescsLoop p s.link = y := ⟨_, rfl⟩
    obtain ⟨s₁, hs₁, he⟩ : ∃ s₁, step cfg s (.sender .done) = some s₁ ∧
        s₁.handshake = s.handshake.afterRequester y := by
      obtain ⟨q | d, l⟩ := y <;>
        exact ⟨_, by simp only [NixlExamples.step, senderStep, SenderPhase.eq_of_loop hp, hq]; rfl, by rfl⟩
    obtain ⟨s', hs', he'⟩ := ih (he.trans
      (by rw [show requesterStep "sender" "receiver" p s.handshake.link = y from hq]))
    exact ⟨s', (Reachable.single (.sender .done) rfl hs₁).trans hs', he'⟩
  | @deliverToHolder h h' i dup c hc _ ih =>
    subst hh
    obtain ⟨s', hs', he'⟩ := @ih { s with toReceiver := c } rfl
    exact ⟨s', (Reachable.single (.deliverToReceiver i dup) rfl
      (by simp only [NixlExamples.step]; rw [show s.toReceiver.deliver i dup = some c from hc]; rfl)).trans hs', he'⟩
  | @deliverToRequester h h' i dup c hc _ ih =>
    subst hh
    obtain ⟨s', hs', he'⟩ := @ih { s with toSender := c } rfl
    exact ⟨s', (Reachable.single (.deliverToSender i dup) rfl
      (by simp only [NixlExamples.step]; rw [show s.toSender.deliver i dup = some c from hc]; rfl)).trans hs', he'⟩

/-- On a network that loses nothing, every state of an etcd-mode run can be continued until both
processes have left their loops. -/
theorem handshake_leaves_loops {cfg : Config} {env : Env} {serialized : Bytes}
    {fetched : Except ClientError (Option Bytes)} {s : Session} (hl : env.lossy = false)
    (hr : Reachable cfg env (Session.init cfg .etcd serialized fetched) s) :
    ∃ s', Reachable cfg env s s' ∧ s'.sender.phase.loop = none ∧ s'.receiver.phase.loop = none := by
  obtain ⟨h', hrun, hq⟩ := hsReach_can_finish (reachable_handshake hl hr).2.1
  obtain ⟨s', hs', rfl⟩ := @Session.reachable_of_loopRun cfg env s _ hrun
  exact ⟨s', hs', hq, (hsReach_inv (reachable_handshake hl (hr.trans hs')).2.1).order hq⟩

/-- Handshake agreement, for the streaming example and for `nixl_api_2proc.py`.  In every state of
an etcd-mode run of `sender_process` and `receiver_process` on a network that may delay, reorder and
duplicate notifications: the `DESCS:` messages the receiver ever sent are none while it is in its
READY loop and exactly one `DESCS:<payload>` afterwards, sent only after a drain that held the sender's
`READY`; a sender past its wait loop has drained that message and passed exactly the payload to
`deserialize_descs`; while the receiver is out and the sender waits, the message is in flight or
undrained; the handshake messages in a drained batch never change what the pipeline reads as
progress; and the run can be continued until both have left their loops, the receiver having sent its
one `DESCS:` message and the sender having taken its payload.  The same agreement, and the same
continuation, hold in every reachable state of the exchange between `target_process` and
`initiator_process`. -/
theorem handshake_agreement :
    (∀ (cfg : Config) (env : Env) (serialized : Bytes) (fetched : Except ClientError (Option Bytes)) (s : Session),
      env.lossy = false → Reachable cfg env (Session.init cfg .etcd serialized fetched) s →
        descsOf s.toSender =
            (if s.receiver.phase.loop = none then [⟨"receiver", descsPrefix ++ serialized⟩] else []) ∧
          (s.receiver.phase.loop = some .sendDescs ∨ s.receiver.phase.loop = none →
            ⟨"sender", readyMsg⟩ ∈ s.toReceiver.drained) ∧
          (s.sender.phase.loop = none →
            s.sender.descs = some serialized ∧ ⟨"receiver", descsPrefix ++ serialized⟩ ∈ s.toSender.drained ∧
              s.receiver.phase.loop = none) ∧
          (s.receiver.phase.loop = none → s.sender.phase.loop ≠ none →
            ⟨"receiver", descsPrefix ++ serialized⟩ ∈ s.toSender.inFlight ++ s.toSender.queue) ∧
          (∀ p, scanProgress p ((fromPeer "receiver" s.toSender.queue).filter (notHandshake serialized)) =
            scanProgress p (fromPeer "receiver" s.toSender.queue)) ∧
          ∃ s', Reachable cfg env s s' ∧ s'.receiver.phase.loop = none ∧ s'.sender.phase.loop = none ∧
            descsOf s'.toSender = [⟨"receiver", descsPrefix ++ serialized⟩] ∧
            s'.sender.descs = some serialized) ∧
    ∀ h, HsReach "target" "initiator" h → HsInv "target" "initiator" h ∧
      ∃ h', HsLoopRun "target" "initiator" h h' ∧ h'.holder = none ∧ h'.requester = none ∧
        descsOf h'.link.toRequester = [descsNotif "target" h.payload] ∧ h'.descs = some h.payload := by
  refine ⟨fun cfg env serialized fetched s hl hr => ?_, fun h hr => ⟨hsReach_inv hr, ?_⟩⟩
  · obtain ⟨s', hs', hq, hh⟩ := handshake_leaves_loops hl hr
    obtain ⟨-, hreach, hser⟩ := reachable_handshake hl hr
    obtain ⟨-, hreach', hser'⟩ := reachable_handshake hl (hr.trans hs')
    have hi := hsReach_inv hreach
    have hi' := hsReach_inv hreach'
    have hsent' := hi'.sent
    simp only [Session.handshake, hh, if_true, hser'] at hsent'
    rw [← hser]
    exact ⟨hi.sent, hi.sawReady, fun hw => ⟨(hi.took hw).1, (hi.took hw).2, hi.order hw⟩, hi.kept,
      fun p => scanProgress_filter_handshake p _ _, s', hs', hh, hq, hser ▸ hsent',
      hser ▸ hser' ▸ (hi'.took hq).1⟩
  · obtain ⟨h', hrun, hq⟩ := hsReach_can_finish hr
    have hi' := hsReach_inv (hrun.reach hr)
    have hh := hi'.order hq
    have hsent := hi'.sent
    rw [if_pos hh, hrun.payload_eq] at hsent
    exact ⟨h', hrun, hh, hq, hsent, hrun.payload_eq ▸ (hi'.took hq).1⟩

/-- The etcd handshake of `main()`'s configuration with an empty descriptor list, up to the receiver's
`DESCS:` send: the sender's first `READY` has reached the receiver, which has answered with its own and
its `DESCS:` message and left its loop, while the sender waits. -/
def descsSentState : Session :=
  (run mainConfig (Session.init mainConfig .etcd [] (.ok none))
    [.receiver, .sender .done, .deliverToReceiver 0 false, .receiver, .receiver]).getD
    (Session.init mainConfig .etcd [] (.ok none))

/-- The same point of the handshake between `target_process` and `initiator_process`. -/
def targetDescsSent : Handshake :=
  ⟨none, some (.pollDescs 1 0), none, [],
    ⟨⟨[], [], [⟨"initiator", readyMsg⟩], [⟨"initiator", readyMsg⟩]⟩,
      ⟨[⟨"target", readyMsg⟩, ⟨"target", descsPrefix ++ []⟩], [],
        [⟨"target", readyMsg⟩, ⟨"target", descsPrefix ++ []⟩], []⟩⟩⟩

theorem handshake_agreement_descsSent :
    Reachable mainConfig ⟨false, false⟩ (Session.init mainConfig .etcd [] (.ok none)) descsSentState ∧
      descsSentState.receiver.phase.loop = none ∧ descsSentState.sender.phase.loop ≠ none ∧
      ⟨"receiver", descsPrefix ++ []⟩ ∈ descsSentState.toSender.inFlight ++ descsSentState.toSender.queue ∧
      (∃ s', Reachable mainConfig ⟨false, false⟩ descsSentState s' ∧ s'.receiver.phase.loop = none ∧
        s'.sender.phase.loop = none ∧ descsOf s'.toSender = [⟨"receiver", descsPrefix ++ []⟩] ∧
        s'.sender.descs = some []) ∧
      HsReach "target" "initiator" targetDescsSent ∧ HsInv "target" "initiator" targetDescsSent ∧
      ∃ h', HsLoopRun "target" "initiator" targetDescsSent h' ∧ h'.holder = none ∧ h'.requester = none ∧
        descsOf h'.link.toRequester = [descsNotif "target" []] ∧ h'.descs = some [] :=
  have hr : Reachable mainConfig ⟨false, false⟩ (Session.init mainConfig .etcd [] (.ok none)) descsSentState :=
    reachable_of_run .refl (by decide) (by rfl : run mainConfig _
      [.receiver, .sender .done, .deliverToReceiver 0 false, .receiver, .receiver] = some descsSentState)
  have hh : HsReach "target" "initiator" targetDescsSent :=
    ((((((HsReach.init []).step (@HsStep.holder _ _ _ .sendReady rfl)).step
      (@HsStep.requester _ _ _ (.waitDescs 0) rfl)).step (@HsStep.deliverToHolder _ _ _ 0 false _ rfl)).step
      (@HsStep.holder _ _ _ .checkReady rfl)).step (@HsStep.holder _ _ _ .sendDescs rfl))
  have h₁ := handshake_agreement.1 mainConfig ⟨false, false⟩ [] (.ok none) descsSentState rfl hr
  ⟨hr, rfl, nofun, h₁.2.2.2.1 rfl nofun, h₁.2.2.2.2.2, hh, handshake_agreement.2 _ hh⟩

end NixlExamples
