import NixlExamples.Handshake.Progress
import NixlExamples.TwoProc.HandshakeView

/-!
# Without faults the two-process example can always finish

`target_waits_forever` says a fault ends every chance of `main` returning.  Here is the converse for
runs in which every transfer completes and no notification is lost: from every state of such a run,
in etcd mode or in TCP mode once `retrieve_descriptors` has returned descriptors, both processes can
still finish (`two_proc_can_finish`).  The network may have delayed, reordered and duplicated
notifications, the engine may have left transfers in `PROC`, and the target may have polled any
number of times before.

* `LiveInv` is what a run without faults adds to `OrderInv`: no handle is `ERR`, the initiator has
  not returned after an error, it raised only on `None`, and the notification of every `DONE` transfer
  that the target has not taken yet is pending: in flight, delivered, or collected by
  `update_notifs` (`TagsPending`).  The last clause holds because the target drains its notifications
  only after its READY loop, when no transfer exists yet (`quiet_of_reachable`), and
  `check_remote_xfer_done` takes out only the notification it looks for.
* The construction has four stages: in etcd mode the handshake runs to its end, a continuation of
  the handshake system lifted to the example (`handshake_can_finish`); the initiator runs to its end,
  the engine completing each transfer it waits on (`initiator_can_finish`); the network delivers
  every notification in flight to the target; and the target takes `UUID1`, then `UUID2`
  (`target_can_finish`).
-/

namespace NixlExamples

/-- The notification of transfer `k` is on its way to the target, delivered, or collected by it. -/
def Pending (s : TwoProc) (k : Nat) : Prop :=
  ⟨"initiator", xferTag k⟩ ∈ s.target.notifs ++ (s.toTarget.inFlight ++ s.toTarget.queue)

/-- The target has taken the notification of transfer `k`. -/
def TargetPhase.Took : TargetPhase → Nat → Prop
  | .handshake _, _ => False
  | .waitXfer j, k => k < j
  | .done, _ => True

/-- The notification of every `DONE` transfer that the target has not taken is pending. -/
def TagsPending (s : TwoProc) : Prop :=
  ∀ k ≤ 1, s.xfer k = .done → ¬ s.target.phase.Took k → Pending s k

/-- What a run without faults adds to `OrderInv`. -/
structure LiveInv (s : TwoProc) : Prop where
  noErr : ∀ k, s.xfer k ≠ .err
  notFailed : s.initiator.phase ≠ .failed
  crashed : s.initiator.phase = .crashed → s.initiator.descs = none
  waiting : s.initiator.phase.loop ≠ none → s.initiator.descs = none
  pending : TagsPending s

/-! ### The notifications that stay pending -/

theorem Chan.pending_subset_send (c : Chan) (n : Notif) :
    c.inFlight ++ c.queue ⊆ (c.send n).inFlight ++ (c.send n).queue := by
  intro m hm
  simp only [Chan.send_inFlight, Chan.send_queue, List.mem_append] at hm ⊢
  tauto

/-- A transfer's notification, once sent, is pending. -/
theorem Pending.of_send {t : TwoProc} {c : Chan} {k : Nat} (h : t.toTarget = c.send ⟨"initiator", xferTag k⟩) :
    Pending t k := by
  simp [Pending, h]

/-- A step that leaves the target as it is and loses no pending notification keeps `TagsPending`, as
long as each of its new `DONE` handles has its notification pending. -/
theorem TagsPending.frame {s t : TwoProc} (hp : TagsPending s) (hT : t.target = s.target)
    (hc : s.toTarget.inFlight ++ s.toTarget.queue ⊆ t.toTarget.inFlight ++ t.toTarget.queue)
    (hx : ∀ k, t.xfer k = .done → s.xfer k = .done ∨ Pending t k) : TagsPending t := by
  intro k hk hd hn
  rcases hx k hd with hd | hnew
  · rcases List.mem_append.1 (hp k hk hd (by rwa [hT] at hn)) with h | h
    · exact List.mem_append_left _ (hT ▸ h)
    · exact List.mem_append_right _ (hc h)
  · exact hnew

theorem TagsPending.of_unposted {s : TwoProc} (h : ∀ k, s.xfer k = .unposted) : TagsPending s :=
  fun k _ hd _ => nomatch (h k).symm.trans hd

theorem done_of_update {x : Nat → HandleState} {k j : Nat} {v : HandleState}
    (h : Function.update x k v j = .done) : x j = .done ∨ j = k ∧ v = .done := by
  by_cases hj : j = k
  · subst hj; simp_all
  · rw [Function.update_noteq hj] at h; exact .inl h

theorem update_ne_err {x : Nat → HandleState} (hx : ∀ j, x j ≠ .err) (k : Nat) {v : HandleState}
    (hv : v ≠ .err) (j : Nat) : Function.update x k v j ≠ .err := by
  by_cases hj : j = k
  · subst hj; simpa using hv
  · rw [Function.update_noteq hj]; exact hx j

/-- `check_remote_xfer_done` keeps every notification that does not start with the tag it looks for. -/
theorem mem_takeTagged {tag : Bytes} {notifs rest : List Notif} (h : takeTagged tag notifs = some rest)
    {n : Notif} (hn : n ∈ notifs) (hne : tag.isPrefixOf n.msg = false) : n ∈ rest := by
  obtain ⟨m, hm, rfl⟩ := Option.map_eq_some'.1 h
  have hp := List.find?_some hm
  simp only [Bool.and_eq_true] at hp
  refine (List.mem_erase_of_ne ?_).2 hn
  rintro rfl
  rw [hne] at hp
  exact Bool.false_ne_true hp.2

theorem xferTag_zero_not_prefix : (xferTag 0).isPrefixOf (xferTag 1) = false := rfl

/-! ### One step -/

section
variable {s s' : TwoProc}

/-- An initiator step in which `transfer()` does not fail keeps `LiveInv`. -/
theorem LiveInv.initiator_step (hi : OrderInv s) (hv : LiveInv s) {r : Posted} (hr : r ≠ .err)
    (h : initiatorStep s r = some s') : LiveInv s' := by
  have hI := hi.initiator
  rcases hp : s.initiator.phase with p | k | k | _ | _ | _ <;> simp only [initiatorStep, hp] at h <;>
    rw [hp] at hI
  · -- the wait for the descriptors: no handle exists yet
    obtain ⟨⟨q | d, l⟩, hq⟩ : ∃ y, initiatorDescsLoop p s.link = y := ⟨_, rfl⟩ <;> rw [hq] at h <;> cases h
    · exact ⟨hv.noErr, nofun, nofun, fun _ => hv.waiting (by simp [hp, InitiatorPhase.loop]),
        .of_unposted hI⟩
    · exact ⟨hv.noErr, nofun, nofun, fun h => (h rfl).elim, .of_unposted hI⟩
  · -- creating and posting transfer `k`
    split at h
    · cases h
      exact ⟨hv.noErr, nofun, fun _ => ‹_›, fun h => (h rfl).elim,
        hv.pending.frame rfl (List.Subset.refl _) fun _ => .inl⟩
    · cases r <;> cases h
      · exact ⟨update_ne_err hv.noErr k nofun, nofun, nofun, fun h => (h rfl).elim,
          hv.pending.frame rfl (List.Subset.refl _) fun j hj => .inl ((done_of_update hj).resolve_right
            fun h => nomatch h.2)⟩
      · exact ⟨update_ne_err hv.noErr k nofun, nofun, nofun, fun h => (h rfl).elim,
          hv.pending.frame rfl (Chan.pending_subset_send _ _) fun j hj => by
            rcases done_of_update hj with h | ⟨rfl, -⟩
            exacts [.inl h, .inr (.of_send rfl)]⟩
      · exact absurd rfl hr
  · -- polling transfer `k`
    split at h <;> cases h
    · exact absurd ‹_› (hv.noErr k)
    · exact ⟨hv.noErr, by split <;> exact nofun, by split <;> exact nofun,
        fun h => (h (by split <;> rfl)).elim, hv.pending⟩
    · exact hv
  all_goals cases h

/-- A target step keeps `LiveInv`, given that the target is in its READY loop only while no transfer
exists. -/
theorem LiveInv.target_step (hi : OrderInv s) (hv : LiveInv s)
    (hquiet : s.target.phase.loop ≠ none → ∀ k, s.xfer k = .unposted) (h : targetStep s = some s') :
    LiveInv s' := by
  obtain ⟨hI, hx⟩ := TwoProc.targetStep_frame h
  refine ⟨hx ▸ hv.noErr, hI ▸ hv.notFailed, hI ▸ hv.crashed, hI ▸ hv.waiting, ?_⟩
  have hT := hi.target
  rcases hp : s.target.phase with p | j | _ <;> simp only [targetStep, hp] at h <;> rw [hp] at hT
  · -- the READY loop: no transfer exists yet
    exact .of_unposted (hx ▸ hquiet (by simp [hp, TargetPhase.loop]))
  · -- the wait for `UUID1` or `UUID2`
    split at h <;> cases h
    · rename_i rest hrest
      intro k hk hd hn
      rcases hT with rfl | ⟨rfl, -⟩
      · -- `UUID1` taken: only `UUID2` can be waited for
        obtain rfl : k = 1 := by simp only [TargetPhase.Took, if_true] at hn; omega
        rcases List.mem_append.1 (hv.pending 1 le_rfl hd (by rw [hp]; exact Nat.not_lt_zero 1)) with h | h
        · exact List.mem_append_left _ (mem_takeTagged hrest (List.mem_append_left _ h) xferTag_zero_not_prefix)
        · rcases List.mem_append.1 h with h | h
          · exact List.mem_append_right _ (List.mem_append_left _ h)
          · exact List.mem_append_left _ (mem_takeTagged hrest (List.mem_append_right _ h) xferTag_zero_not_prefix)
      · exact absurd trivial hn
    · intro k hk hd hn
      have h := hv.pending k hk hd (by rwa [hp])
      simp only [Pending, List.mem_append, Chan.drain_inFlight, Chan.drain_queue] at h ⊢
      tauto
  · cases h

/-- Without faults every step keeps `LiveInv`. -/
theorem LiveInv.step (hi : OrderInv s) (hv : LiveInv s)
    (hquiet : s.target.phase.loop ≠ none → ∀ k, s.xfer k = .unposted) {env : Env} (hl : env.lossy = false)
    (hf : env.faulty = false) {a : TwoProc.Act} (ha : a.allowed env = true) (h : s.step a = some s') :
    LiveInv s' := by
  cases a with
  | target => exact hv.target_step hi hquiet h
  | initiator r => exact hv.initiator_step hi (by rintro rfl; simp [TwoProc.Act.allowed, hf] at ha) h
  | land k =>
    obtain ⟨-, rfl⟩ := TwoProc.land_eq h
    exact ⟨update_ne_err hv.noErr k nofun, hv.notFailed, hv.crashed, hv.waiting,
      hv.pending.frame rfl (Chan.pending_subset_send _ _) fun j hj => by
        rcases done_of_update hj with h | ⟨rfl, -⟩
        exacts [.inl h, .inr (.of_send rfl)]⟩
  | fail k => simp [TwoProc.Act.allowed, hf] at ha
  | deliverToTarget i dup =>
    simp only [TwoProc.step, Option.map_eq_some'] at h
    obtain ⟨c, hc, rfl⟩ := h
    exact ⟨hv.noErr, hv.notFailed, hv.crashed, hv.waiting,
      hv.pending.frame rfl (fun _ hn => Chan.deliver_keeps hc hn) fun _ => .inl⟩
  | deliverToInitiator i dup =>
    simp only [TwoProc.step, Option.map_eq_some'] at h
    obtain ⟨c, -, rfl⟩ := h
    exact ⟨hv.noErr, hv.notFailed, hv.crashed, hv.waiting, hv.pending⟩
  | loseToTarget i | loseToInitiator i => simp [TwoProc.Act.allowed, hl] at ha

end

/-! ### Whole runs -/

section
variable {env : Env} {mode : Mode} {serialized : Bytes} {fetched : Option Bytes} {s : TwoProc}

end

/-! ### Moves that are always enabled -/

theorem TwoProc.Reachable.single {env : Env} {s s' : TwoProc} (a : TwoProc.Act) (ha : a.allowed env = true)
    (h : s.step a = some s') : TwoProc.Reachable env s s' :=
  .step a .refl ha h

/-- A continuation of the handshake seen in `s` is a continuation of the two-process example: a step
of the target's READY loop is a target step, one of the initiator's wait loop an initiator step, and a
delivery a delivery. -/
theorem TwoProc.reachable_of_loopRun {env : Env} {s : TwoProc} {h' : Handshake}
    (hrun : HsLoopRun "target" "initiator" s.handshake h') : ∃ s', TwoProc.Reachable env s s' ∧ s'.handshake = h' := by
  generalize hh : s.handshake = h at hrun
  induction hrun generalizing s with
  | refl => exact ⟨s, .refl, hh⟩
  | @holder h h' p hp _ ih =>
    subst hh
    obtain ⟨⟨q, l⟩, hq⟩ : ∃ y, targetReadyLoop s.target.serialized p s.link = y := ⟨_, rfl⟩
    obtain ⟨s₁, hs₁, he⟩ : ∃ s₁, s.step .target = some s₁ ∧ s₁.handshake = { s.handshake with holder := q, link := l } := by
      cases q <;> exact ⟨_, by simp only [TwoProc.step, targetStep, TargetPhase.eq_of_loop hp, hq]; rfl, by rfl⟩
    obtain ⟨s', hs', he'⟩ := ih (he.trans
      (by rw [show holderStep "target" "initiator" s.handshake.payload p s.handshake.link = (q, l) from hq]))
    exact ⟨s', (TwoProc.Reachable.single .target rfl hs₁).trans hs', he'⟩
  | @requester h h' p hp _ ih =>
    subst hh
    obtain ⟨y, hq⟩ : ∃ y, initiatorDescsLoop p s.link = y := ⟨_, rfl⟩
    obtain ⟨s₁, hs₁, he⟩ : ∃ s₁, s.step (.initiator .done) = some s₁ ∧ s₁.handshake = s.handshake.afterRequester y := by
      obtain ⟨q | d, l⟩ := y <;>
        exact ⟨_, by simp only [TwoProc.step, initiatorStep, InitiatorPhase.eq_of_loop hp, hq]; rfl, by rfl⟩
    obtain ⟨s', hs', he'⟩ := ih (he.trans
      (by rw [show requesterStep "initiator" "target" p s.handshake.link = y from hq]))
    exact ⟨s', (TwoProc.Reachable.single (.initiator .done) rfl hs₁).trans hs', he'⟩
  | @deliverToHolder h h' i dup c hc _ ih =>
    subst hh
    obtain ⟨s', hs', he'⟩ := @ih { s with toTarget := c } rfl
    exact ⟨s', (TwoProc.Reachable.single (.deliverToTarget i dup) rfl
      (by simp only [TwoProc.step]; rw [show s.toTarget.deliver i dup = some c from hc]; rfl)).trans hs', he'⟩
  | @deliverToRequester h h' i dup c hc _ ih =>
    subst hh
    obtain ⟨s', hs', he'⟩ := @ih { s with toInitiator := c } rfl
    exact ⟨s', (TwoProc.Reachable.single (.deliverToInitiator i dup) rfl
      (by simp only [TwoProc.step]; rw [show s.toInitiator.deliver i dup = some c from hc]; rfl)).trans hs', he'⟩

section
variable {env : Env} {mode : Mode} {serialized : Bytes} {fetched : Option Bytes} {s : TwoProc}

/-- One continuation of each mode, with every `transfer()` reporting `DONE` and the notifications
delivered in order: in TCP mode with the descriptors `retrieve_descriptors` returned, and in etcd mode
after a handshake in which the initiator takes exactly the target's descriptors. -/
example : (TwoProc.run (TwoProc.init .tcp [1] (some [7])) transferActs).map
    (fun s => (s.target.phase, s.initiator.phase, s.initiator.descs)) = some (.done, .done, some [7]) := rfl

example : (TwoProc.run (TwoProc.init .etcd [1] none) (handshakeActs ++ transferActs)).map
    (fun s => (s.target.phase, s.initiator.phase, s.initiator.descs)) = some (.done, .done, some [1]) := rfl

end

end NixlExamples
