import NixlExamples.Handshake.Agreement
import NixlExamples.TwoProc.Order

/-!
# The two-process example refines the handshake

`TwoProc.handshake` reads the etcd handshake off a state of the two-process example: the target's
READY loop is the holder's loop, the initiator's wait for the descriptors the requester's, and the two
notification channels are the link.  On a network that loses nothing, every step of the example is a
step of `HsStep "target" "initiator"` or leaves the view as it is (`step_handshake`): after its loop
the target only drains its notifications, the initiator only sends `UUID1`/`UUID2`, and the engine
sends a notification on the initiator's behalf only for a posted transfer, which `OrderInv` places
after the initiator's loop.  So every state of an etcd-mode run is a reachable state of the
handshake (`reachable_handshake`), and with `OrderInv` both transfers are created on exactly the
descriptors the target serialized (`two_proc_handshake`).
-/

namespace NixlExamples

/-- The target's READY-loop phase, while it is in the loop. -/
def TargetPhase.loop : TargetPhase → Option HolderPhase
  | .handshake p => some p
  | _ => none

/-- The initiator's wait-loop phase, while it is in the loop. -/
def InitiatorPhase.loop : InitiatorPhase → Option RequesterPhase
  | .handshake p => some p
  | _ => none

/-- The handshake as the two-process example shows it. -/
def TwoProc.handshake (s : TwoProc) : Handshake :=
  ⟨s.target.phase.loop, s.initiator.phase.loop, s.initiator.descs, s.target.serialized, s.link⟩

theorem InitiatorPhase.eq_of_loop {p : InitiatorPhase} {q : RequesterPhase} (h : p.loop = some q) :
    p = .handshake q := by
  cases p <;> simp_all [InitiatorPhase.loop]

theorem TargetPhase.eq_of_loop {p : TargetPhase} {q : HolderPhase} (h : p.loop = some q) :
    p = .handshake q := by
  cases p <;> simp_all [TargetPhase.loop]

/-! ### One step -/

section
variable {s s' : TwoProc}

/-- The view of `t` is that of `s` with `t`'s channel to the target, when the two agree on the rest. -/
theorem TwoProc.handshake_eq_of {t : TwoProc} (h1 : t.target.phase.loop = s.target.phase.loop)
    (h2 : t.initiator.phase.loop = s.initiator.phase.loop) (h3 : t.initiator.descs = s.initiator.descs)
    (h4 : t.target.serialized = s.target.serialized) (h5 : t.toInitiator = s.toInitiator) :
    t.handshake = { s.handshake with link := { s.handshake.link with toHolder := t.toTarget } } := by
  unfold TwoProc.handshake TwoProc.link
  rw [h1, h2, h3, h4, h5]

/-- After its loop a target step drains its notifications and changes nothing else the handshake sees. -/
theorem targetStep_pipeline (hp : s.target.phase.loop = none) (h : targetStep s = some s') :
    s'.handshake = { s.handshake with link := { s.handshake.link with toHolder := s.toTarget.drain } } := by
  rcases hq : s.target.phase with p | k | _ <;> simp only [targetStep, hq] at h
  · simp [hq, TargetPhase.loop] at hp
  · split at h <;> cases h <;> refine TwoProc.handshake_eq_of ?_ rfl rfl rfl rfl <;> rw [hp]
    · split <;> rfl
    · rfl
  · cases h

/-- After its loop an initiator step changes nothing the handshake sees, or sends a transfer's
notification to the target. -/
theorem initiatorStep_pipeline {r : Posted} (hp : s.initiator.phase.loop = none) (h : initiatorStep s r = some s') :
    s'.handshake = { s.handshake with link := { s.handshake.link with toHolder := s'.toTarget } } ∧
      (s'.toTarget = s.toTarget ∨ ∃ k, s'.toTarget = s.toTarget.send ⟨"initiator", xferTag k⟩) := by
  have hview : ∀ t : TwoProc, t.target = s.target → t.initiator.phase.loop = none →
      t.initiator.descs = s.initiator.descs → t.toInitiator = s.toInitiator →
      t.handshake = { s.handshake with link := { s.handshake.link with toHolder := t.toTarget } } :=
    fun t ht hl hd hi => TwoProc.handshake_eq_of (by rw [ht]) (hl.trans hp.symm) hd (by rw [ht]) hi
  rcases hq : s.initiator.phase with p | k | k | _ | _ | _ <;> simp only [initiatorStep, hq] at h
  · simp [hq, InitiatorPhase.loop] at hp
  · split at h
    · cases h; exact ⟨hview _ rfl rfl rfl rfl, .inl rfl⟩
    · cases r <;> cases h
      · exact ⟨hview _ rfl rfl rfl rfl, .inl rfl⟩
      · exact ⟨hview _ rfl rfl rfl rfl, .inr ⟨k, rfl⟩⟩
      · exact ⟨hview _ rfl rfl rfl rfl, .inl rfl⟩
  · split at h <;> cases h
    · exact ⟨hview _ rfl rfl rfl rfl, .inl rfl⟩
    · exact ⟨hview _ rfl (by split <;> rfl) rfl rfl, .inl rfl⟩
    · exact ⟨hview _ rfl hp rfl rfl, .inl rfl⟩
  all_goals cases h

/-- On a network that loses nothing, a step of the two-process example is a step of the handshake or
leaves its view as it is. -/
theorem TwoProc.step_handshake {env : Env} {a : TwoProc.Act} (hi : OrderInv s) (hl : env.lossy = false)
    (ha : a.allowed env = true) (h : s.step a = some s') :
    s'.handshake = s.handshake ∨ HsStep "target" "initiator" s.handshake s'.handshake := by
  cases a with
  | target =>
    cases hp : s.target.phase.loop with
    | some p =>
      simp only [TwoProc.step, targetStep, TargetPhase.eq_of_loop hp] at h
      have hstep := @HsStep.holder "target" "initiator" s.handshake p hp
      obtain ⟨⟨q, l⟩, hq⟩ : ∃ y, targetReadyLoop s.target.serialized p s.link = y := ⟨_, rfl⟩
      rw [hq] at h
      rw [show holderStep "target" "initiator" s.handshake.payload p s.handshake.link = (q, l) from hq] at hstep
      cases q <;> cases h <;> exact .inr hstep
    | none =>
      rw [targetStep_pipeline hp h]
      exact .inr (HsStep.holderDrains hp)
  | initiator r =>
    cases hp : s.initiator.phase.loop with
    | some p =>
      simp only [TwoProc.step, initiatorStep, InitiatorPhase.eq_of_loop hp] at h
      have hstep := @HsStep.requester "target" "initiator" s.handshake p hp
      obtain ⟨⟨q | d, l⟩, hq⟩ : ∃ y, initiatorDescsLoop p s.link = y := ⟨_, rfl⟩ <;>
        rw [hq] at h <;> cases h <;>
        rw [show requesterStep "initiator" "target" p s.handshake.link = (_, l) from hq] at hstep
      exacts [.inr hstep, .inr hstep]
    | none =>
      obtain ⟨he, hc | ⟨k, hc⟩⟩ := initiatorStep_pipeline hp h <;> rw [he, hc]
      exacts [.inl rfl, .inr (HsStep.requesterSends _ hp)]
  | land k =>
    obtain ⟨hk, rfl⟩ := TwoProc.land_eq h
    have hreq : s.handshake.requester = none := by
      cases hp : s.initiator.phase.loop with
      | none => exact hp
      | some p =>
        have hI := hi.initiator
        rw [InitiatorPhase.eq_of_loop hp] at hI
        exact absurd (hI k) (by simp [hk])
    exact .inr (HsStep.requesterSends _ hreq)
  | fail k =>
    obtain ⟨-, rfl⟩ := TwoProc.fail_eq h
    exact .inl rfl
  | deliverToTarget i dup =>
    simp only [TwoProc.step, Option.map_eq_some'] at h
    obtain ⟨c, hc, rfl⟩ := h
    exact .inr (HsStep.deliverToHolder (h := s.handshake) hc)
  | deliverToInitiator i dup =>
    simp only [TwoProc.step, Option.map_eq_some'] at h
    obtain ⟨c, hc, rfl⟩ := h
    exact .inr (HsStep.deliverToRequester (h := s.handshake) hc)
  | loseToTarget i => simp [TwoProc.Act.allowed, hl] at ha
  | loseToInitiator i => simp [TwoProc.Act.allowed, hl] at ha

end

/-! ### Whole runs -/

/-- Every state of an etcd-mode run on a network that loses nothing is a reachable state of the
handshake, with the payload `get_serialized_descs` returned. -/
theorem TwoProc.reachable_handshake {env : Env} {serialized : Bytes} {fetched : Option Bytes} {s : TwoProc}
    (hl : env.lossy = false) (hr : TwoProc.Reachable env (TwoProc.init .etcd serialized fetched) s) :
    HsReach "target" "initiator" s.handshake ∧ s.target.serialized = serialized := by
  induction hr with
  | refl => exact ⟨.init serialized, rfl⟩
  | step a hr ha hs ih =>
    obtain ⟨hreach, hser⟩ := ih
    rcases TwoProc.step_handshake (hr.orderInv (orderInv_init _ _ _)) hl ha hs with heq | hstep
    · exact ⟨heq ▸ hreach, (congrArg Handshake.payload heq).trans hser⟩
    · exact ⟨hreach.step hstep, hstep.payload_eq.trans hser⟩

/-- The etcd handshake of `nixl_api_2proc.py`, in every state of a run on a network that may delay,
reorder and duplicate notifications: the target sends no `DESCS:` message while in its READY loop and
exactly one `DESCS:<payload>` after; an initiator past its wait loop has drained that message and
passed exactly the payload to `deserialize_descs`; and so both transfers are created on the
descriptors the target serialized. -/
theorem two_proc_handshake {env : Env} {serialized : Bytes} {fetched : Option Bytes} {s : TwoProc}
    (hl : env.lossy = false) (hr : TwoProc.Reachable env (TwoProc.init .etcd serialized fetched) s) :
    descsOf s.toInitiator = (if s.target.phase.loop = none then [descsNotif "target" serialized] else []) ∧
      (s.initiator.phase.loop = none →
        s.initiator.descs = some serialized ∧ descsNotif "target" serialized ∈ s.toInitiator.drained ∧
          s.target.phase.loop = none) ∧
      (s.xfer 0 ≠ .unposted → s.initiator.descs = some serialized) := by
  obtain ⟨hreach, hser⟩ := TwoProc.reachable_handshake hl hr
  have hi := hsReach_inv hreach
  have hI := (hr.orderInv (orderInv_init _ _ _)).initiator
  have hout : s.xfer 0 ≠ .unposted → s.initiator.phase.loop = none := by
    intro hx
    cases hp : s.initiator.phase.loop with
    | none => rfl
    | some p => rw [InitiatorPhase.eq_of_loop hp] at hI; exact absurd (hI 0) hx
  rw [← hser]
  exact ⟨hi.sent, fun hw => ⟨(hi.took hw).1, (hi.took hw).2, hi.order hw⟩,
    fun hx => (hi.took (hout hx)).1⟩

/-- An etcd-mode run after `handshakeActs`: the initiator has left its wait loop with the target's
descriptors, and no transfer is posted yet. -/
def handshakeDoneState : TwoProc :=
  (TwoProc.run (TwoProc.init .etcd [] none) handshakeActs).getD (TwoProc.init .etcd [] none)

theorem two_proc_handshake_done :
    TwoProc.Reachable ⟨false, false⟩ (TwoProc.init .etcd [] none) handshakeDoneState ∧
      handshakeDoneState.initiator.phase.loop = none ∧ handshakeDoneState.target.phase.loop = none ∧
      descsOf handshakeDoneState.toInitiator =
        (if handshakeDoneState.target.phase.loop = none then [descsNotif "target" []] else []) ∧
      (handshakeDoneState.initiator.phase.loop = none →
        handshakeDoneState.initiator.descs = some [] ∧
          descsNotif "target" [] ∈ handshakeDoneState.toInitiator.drained ∧
          handshakeDoneState.target.phase.loop = none) ∧
      (handshakeDoneState.xfer 0 ≠ .unposted → handshakeDoneState.initiator.descs = some []) :=
  have hr : TwoProc.Reachable ⟨false, false⟩ (TwoProc.init .etcd [] none) handshakeDoneState :=
    TwoProc.reachable_of_run .refl (by decide)
      (by rfl : TwoProc.run (TwoProc.init .etcd [] none) handshakeActs = some handshakeDoneState)
  ⟨hr, rfl, rfl, @two_proc_handshake ⟨false, false⟩ [] none _ rfl hr⟩

end NixlExamples
