import NixlExamples.TwoProc.Session

/-!
# The order of the two transfers

`OrderInv` holds in every state of every run of the two-process example, in both modes, whatever the
transfer engine and the network do (`Reachable.orderInv`):

* every notification ever sent to the target is the initiator's `READY` or the `UUID1`/`UUID2` of a
  transfer whose handle is `DONE`, and what the target has collected was sent to it;
* the initiator creates the `WRITE`, its second handle, only once the `READ` is `DONE`;
* the target leaves its wait for `UUID1` only once the `READ` is `DONE`, and finishes only once both
  transfers are;
* an initiator that has returned after an error, or raised, leaves its second handle unposted or
  failed.

What carries it is that a `DONE` handle stays `DONE`: the initiator writes a handle only when it
creates it, and the engine moves only a posted one (`EngineMove`).  So a state in which the initiator
has stopped short of its second `DONE` stays so, whatever the engine and the network do, and no later
state has the target finished (`target_waits_forever`): `main` joins both processes without a timeout
and never returns.
-/

namespace NixlExamples

/-- A notification the initiator may have sent to the target, given its handles. -/
def TargetNotif (x : Nat → HandleState) (n : Notif) : Prop :=
  n.src = "initiator" ∧ (n.msg = readyMsg ∨ ∃ k ≤ 1, n.msg = xferTag k ∧ x k = .done)

/-- What the target's phase says about the initiator's handles. -/
def TargetPhase.Ok : TargetPhase → (Nat → HandleState) → Prop
  | .handshake _, _ => True
  | .waitXfer k, x => k = 0 ∨ k = 1 ∧ x 0 = .done
  | .done, x => x 0 = .done ∧ x 1 = .done

/-- What the initiator's phase says about its handles. -/
def InitiatorPhase.Ok : InitiatorPhase → (Nat → HandleState) → Prop
  | .handshake _, x => ∀ k, x k = .unposted
  | .post k, x => x k = .unposted ∧ (k = 0 ∧ x 1 = .unposted ∨ k = 1 ∧ x 0 = .done)
  | .wait k, x => x k ≠ .unposted ∧ (k = 0 ∧ x 1 = .unposted ∨ k = 1 ∧ x 0 = .done)
  | .done, x => x 0 = .done ∧ x 1 = .done
  | .failed, x | .crashed, x => x 1 = .unposted ∨ x 1 = .err

/-- The invariant of every run. -/
structure OrderInv (s : TwoProc) : Prop where
  logged : s.toTarget.Logged
  sent : ∀ n ∈ s.toTarget.log, TargetNotif s.xfer n
  kept : ∀ n ∈ s.target.notifs, n ∈ s.toTarget.log
  bound : ∀ k, s.xfer k ≠ .unposted → k ≤ 1
  order : s.xfer 1 ≠ .unposted → s.xfer 0 = .done
  target : s.target.phase.Ok s.xfer
  initiator : s.initiator.phase.Ok s.xfer

/-! ### The notifications `check_remote_xfer_done` can take -/

theorem xferTag_not_ready (k : Nat) : (xferTag k).isPrefixOf readyMsg = false := by
  unfold xferTag; split <;> rfl

/-- `UUID1` and `UUID2` are not prefixes of each other. -/
theorem xferTag_isPrefixOf {k j : Nat} (h : (xferTag k).isPrefixOf (xferTag j) = true) : k = 0 ↔ j = 0 := by
  have e₁ : (ascii "UUID1").isPrefixOf (ascii "UUID2") = false := rfl
  have e₂ : (ascii "UUID2").isPrefixOf (ascii "UUID1") = false := rfl
  unfold xferTag at h
  by_cases hk : k = 0 <;> by_cases hj : j = 0 <;> simp only [hk, hj, if_true, if_false, e₁, e₂] at h ⊢
  all_goals exact absurd h Bool.false_ne_true

/-- A notification that `check_remote_xfer_done` takes for transfer `k` reports a `DONE` handle. -/
theorem done_of_takeTagged {x : Nat → HandleState} {k : Nat} (hk : k ≤ 1) {notifs rest : List Notif}
    (hall : ∀ n ∈ notifs, TargetNotif x n) (h : takeTagged (xferTag k) notifs = some rest) :
    x k = .done ∧ rest ⊆ notifs := by
  obtain ⟨n, hn, rfl⟩ := Option.map_eq_some'.1 h
  have hp := List.find?_some hn
  simp only [Bool.and_eq_true, beq_iff_eq] at hp
  refine ⟨?_, List.erase_subset _ _⟩
  obtain ⟨-, hr | ⟨j, hj, hm, hd⟩⟩ := hall n (List.mem_of_find?_eq_some hn)
  · rw [hr, xferTag_not_ready] at hp; exact absurd hp.2 Bool.false_ne_true
  · rw [hm] at hp
    have hkj := xferTag_isPrefixOf hp.2
    rwa [show k = j by omega]

/-! ### A `DONE` handle stays `DONE` -/

/-- `x'` keeps every `DONE` of `x`. -/
def KeepsDone (x x' : Nat → HandleState) : Prop := ∀ k, x k = .done → x' k = .done

theorem TargetNotif.mono {x x' : Nat → HandleState} (hm : KeepsDone x x') {n : Notif} (h : TargetNotif x n) :
    TargetNotif x' n := by
  obtain ⟨h1, h2 | ⟨k, hk, hn, hd⟩⟩ := h
  exacts [⟨h1, .inl h2⟩, ⟨h1, .inr ⟨k, hk, hn, hm k hd⟩⟩]

theorem TargetPhase.Ok.mono {x x' : Nat → HandleState} (hm : KeepsDone x x') {p : TargetPhase} (h : p.Ok x) :
    p.Ok x' := by
  cases p with
  | handshake => trivial
  | waitXfer k => exact h.imp_right fun h => ⟨h.1, hm _ h.2⟩
  | done => exact ⟨hm _ h.1, hm _ h.2⟩

theorem InitiatorPhase.Ok.move {x x' : Nat → HandleState} (hm : EngineMove x x') {p : InitiatorPhase}
    (h : p.Ok x) : p.Ok x' := by
  have h01 : ∀ k, (k = 0 ∧ x 1 = .unposted ∨ k = 1 ∧ x 0 = .done) →
      (k = 0 ∧ x' 1 = .unposted ∨ k = 1 ∧ x' 0 = .done) := fun k =>
    Or.imp (fun h => ⟨h.1, hm.unposted h.2⟩) fun h => ⟨h.1, hm.done h.2⟩
  cases p with
  | handshake => exact fun k => hm.unposted (h k)
  | post k => exact ⟨hm.unposted h.1, h01 k h.2⟩
  | wait k => exact ⟨hm.posted h.1, h01 k h.2⟩
  | done => exact ⟨hm.done h.1, hm.done h.2⟩
  | failed | crashed =>
    rwa [InitiatorPhase.Ok, hm.eq_of_ne_proc (by rcases h with h | h <;> simp [h])]

theorem update_ord {x : Nat → HandleState} {k : Nat} (v : HandleState)
    (h : k = 0 ∧ x 1 = .unposted ∨ k = 1 ∧ x 0 = .done) :
    k = 0 ∧ Function.update x k v 1 = .unposted ∨ k = 1 ∧ Function.update x k v 0 = .done := by
  rcases h with ⟨rfl, h⟩ | ⟨rfl, h⟩ <;> simp [h]

theorem keepsDone_update {x : Nat → HandleState} {k : Nat} (hk : x k = .unposted) (v : HandleState) :
    KeepsDone x (Function.update x k v) := by
  intro j hj
  rw [Function.update_noteq (by rintro rfl; simp [hk] at hj)]
  exact hj

/-! ### One step -/

section
variable {s s' : TwoProc}

theorem orderInv_init (mode : Mode) (serialized : Bytes) (fetched : Option Bytes) :
    OrderInv (TwoProc.init mode serialized fetched) := by
  refine ⟨Chan.logged_empty, fun n hn => by simp [TwoProc.init, Chan.empty] at hn,
    fun n hn => by simp [TwoProc.init] at hn, fun k hk => absurd rfl hk, fun h => absurd rfl h, ?_, ?_⟩ <;>
    cases mode
  exacts [trivial, .inl rfl, fun _ => rfl, ⟨rfl, .inl ⟨rfl, rfl⟩⟩]

/-- The invariant after the engine moves the handles. -/
theorem OrderInv.move (hi : OrderInv s) {x : Nat → HandleState} (hm : EngineMove s.xfer x) :
    OrderInv { s with xfer := x } where
  logged := hi.logged
  sent n hn := (hi.sent n hn).mono fun _ => hm.done
  kept := hi.kept
  bound k hk := hi.bound k (fun h => hk (hm.unposted h))
  order h := hm.done (hi.order fun h' => h (hm.unposted h'))
  target := hi.target.mono fun _ => hm.done
  initiator := hi.initiator.move hm

/-- The invariant after the notification of a `DONE` transfer is sent to the target. -/
theorem OrderInv.notify (hi : OrderInv s) {k : Nat} (hk : k ≤ 1) (hd : s.xfer k = .done) :
    OrderInv { s with toTarget := s.toTarget.send ⟨"initiator", xferTag k⟩ } where
  logged := hi.logged.send _
  sent n hn := by
    rcases List.mem_append.1 hn with hn | hn
    · exact hi.sent n hn
    · rw [List.mem_singleton.1 hn]; exact ⟨rfl, .inr ⟨k, hk, rfl, hd⟩⟩
  kept n hn := List.mem_append_left _ (hi.kept n hn)
  bound := hi.bound
  order := hi.order
  target := hi.target
  initiator := hi.initiator

/-- The invariant after the initiator creates handle `k`, of the two, and moves to a phase that
agrees with it. -/
theorem OrderInv.create (hi : OrderInv s) {k : Nat} (hk : k ≤ 1) (hu : s.xfer k = .unposted)
    (hord : k = 0 ∧ s.xfer 1 = .unposted ∨ k = 1 ∧ s.xfer 0 = .done) (v : HandleState) {I : Initiator}
    (hI : I.phase.Ok (Function.update s.xfer k v)) :
    OrderInv { s with xfer := Function.update s.xfer k v, initiator := I } where
  logged := hi.logged
  sent n hn := (hi.sent n hn).mono (keepsDone_update hu v)
  kept := hi.kept
  bound j hj := by
    by_cases hjk : j = k
    · omega
    · exact hi.bound j (by simpa [Function.update_noteq hjk] using hj)
  order h := by
    rcases hord with ⟨rfl, h1⟩ | ⟨rfl, h0⟩
    · simp [h1] at h
    · simpa using h0
  target := hi.target.mono (keepsDone_update hu v)
  initiator := hI

/-- An initiator step keeps the invariant. -/
theorem OrderInv.initiator_step (hi : OrderInv s) {r : Posted} (h : initiatorStep s r = some s') :
    OrderInv s' := by
  have hI := hi.initiator
  rcases hp : s.initiator.phase with p | k | k | _ | _ | _ <;> simp only [initiatorStep, hp] at h <;>
    rw [hp] at hI
  · -- the wait for the descriptors
    have hl := requesterStep_toHolder "initiator" "target" p s.link
    rw [show requesterStep "initiator" "target" p s.link = initiatorDescsLoop p s.link from rfl] at hl
    obtain ⟨⟨q | d, l⟩, hq⟩ : ∃ y, initiatorDescsLoop p s.link = y := ⟨_, rfl⟩
    all_goals
      rw [hq] at h hl
      cases h
      have hI' : InitiatorPhase.Ok _ s.xfer := hI
      rcases hl with hl | hl <;> simp only [TwoProc.link] at hl <;> rw [hl]
      · exact ⟨hi.logged, hi.sent, hi.kept, hi.bound, hi.order, hi.target, by first | exact hI' | exact ⟨hI' 0, .inl ⟨rfl, hI' 1⟩⟩⟩
      · refine ⟨hi.logged.send _, fun n hn => ?_, fun n hn => List.mem_append_left _ (hi.kept n hn), hi.bound,
          hi.order, hi.target, by first | exact hI' | exact ⟨hI' 0, .inl ⟨rfl, hI' 1⟩⟩⟩
        rcases List.mem_append.1 hn with hn | hn
        · exact hi.sent n hn
        · rw [List.mem_singleton.1 hn]; exact ⟨rfl, .inl rfl⟩
  · -- creating and posting transfer `k`
    have hk : k ≤ 1 := by rcases hI.2 with ⟨rfl, -⟩ | ⟨rfl, -⟩ <;> omega
    split at h
    · cases h
      exact ⟨hi.logged, hi.sent, hi.kept, hi.bound, hi.order, hi.target, by
        rcases hI.2 with ⟨rfl, h1⟩ | ⟨rfl, -⟩
        exacts [.inl h1, .inl hI.1]⟩
    · cases r <;> cases h
      · exact hi.create hk hI.1 hI.2 .proc ⟨by simp, update_ord _ hI.2⟩
      · have hc := hi.create hk hI.1 hI.2 .done (I := { s.initiator with phase := .wait k })
          ⟨by simp, update_ord _ hI.2⟩
        exact hc.notify hk (by simp)
      · refine hi.create hk hI.1 hI.2 .err ?_
        rcases hI.2 with ⟨rfl, h1⟩ | ⟨rfl, -⟩
        · exact .inl (by simpa using h1)
        · exact .inr (by simp)
  · -- polling transfer `k`
    split at h <;> cases h
    · rename_i he
      refine ⟨hi.logged, hi.sent, hi.kept, hi.bound, hi.order, hi.target, ?_⟩
      rcases hI.2 with ⟨rfl, h1⟩ | ⟨rfl, -⟩
      exacts [.inl h1, .inr he]
    · rename_i hd
      refine ⟨hi.logged, hi.sent, hi.kept, hi.bound, hi.order, hi.target, ?_⟩
      rcases hI.2 with ⟨rfl, h1⟩ | ⟨rfl, h0⟩
      · exact ⟨h1, .inr ⟨rfl, hd⟩⟩
      · exact ⟨h0, hd⟩
    · exact hi
  all_goals cases h

/-- A target step keeps the invariant. -/
theorem OrderInv.target_step (hi : OrderInv s) (h : targetStep s = some s') : OrderInv s' := by
  have hT := hi.target
  rcases hp : s.target.phase with p | k | _ <;> simp only [targetStep, hp] at h <;> rw [hp] at hT
  · -- the READY loop
    have hl := holderStep_toHolder "target" "initiator" s.target.serialized p s.link
    rw [show holderStep "target" "initiator" s.target.serialized p s.link =
      targetReadyLoop s.target.serialized p s.link from rfl] at hl
    obtain ⟨⟨q, l⟩, hq⟩ : ∃ y, targetReadyLoop s.target.serialized p s.link = y := ⟨_, rfl⟩
    rw [hq] at h hl
    have hlog : l.toHolder.Logged ∧ l.toHolder.log = s.toTarget.log := by
      rcases hl with hl | hl <;> rw [hl]
      exacts [⟨hi.logged, rfl⟩, ⟨hi.logged.drain, rfl⟩]
    cases q <;> cases h <;>
    · exact ⟨hlog.1, hlog.2 ▸ hi.sent, hlog.2 ▸ hi.kept, hi.bound, hi.order, by first | exact .inl rfl | trivial,
        hi.initiator⟩
  · -- the wait for `UUID1` or `UUID2`
    have hk : k ≤ 1 := by rcases hT with rfl | ⟨rfl, -⟩ <;> omega
    have hpend : ∀ n ∈ s.target.notifs ++ s.toTarget.queue, n ∈ s.toTarget.log := by
      intro n hn
      rcases List.mem_append.1 hn with hn | hn
      exacts [hi.kept n hn, hi.logged n (List.mem_append_right _ hn)]
    split at h <;> cases h
    · rename_i rest hrest
      obtain ⟨hd, hsub⟩ := done_of_takeTagged hk (fun n hn => hi.sent n (hpend n hn)) hrest
      refine ⟨hi.logged.drain, hi.sent, fun n hn => hpend n (hsub hn), hi.bound, hi.order, ?_, hi.initiator⟩
      split
      · subst k; exact .inr ⟨rfl, hd⟩
      · rcases hT with rfl | ⟨rfl, h0⟩
        exacts [absurd rfl ‹_›, ⟨h0, hd⟩]
    · exact ⟨hi.logged.drain, hi.sent, hpend, hi.bound, hi.order, hp ▸ hi.target, hi.initiator⟩
  · cases h

/-- Every step keeps the invariant. -/
theorem OrderInv.step (hi : OrderInv s) {a : TwoProc.Act} (h : s.step a = some s') : OrderInv s' := by
  cases a with
  | target => exact hi.target_step h
  | initiator r => exact hi.initiator_step h
  | land k =>
    obtain ⟨hk, rfl⟩ := TwoProc.land_eq h
    have hm := (hi.move (EngineMove.update hk (.inl rfl)))
    exact hm.notify (hm.bound k (by simp)) (by simp)
  | fail k =>
    obtain ⟨hk, rfl⟩ := TwoProc.fail_eq h
    exact hi.move (EngineMove.update hk (.inr rfl))
  | deliverToTarget i dup =>
    simp only [TwoProc.step, Option.map_eq_some'] at h
    obtain ⟨c, hc, rfl⟩ := h
    obtain ⟨-, -, -, hlog, -⟩ := Chan.deliver_cases hc
    exact ⟨hi.logged.deliver hc, hlog ▸ hi.sent, hlog ▸ hi.kept, hi.bound, hi.order, hi.target, hi.initiator⟩
  | loseToTarget i =>
    simp only [TwoProc.step, Option.map_eq_some'] at h
    obtain ⟨c, hc, rfl⟩ := h
    obtain ⟨-, hlog, -⟩ := Chan.lose_cases hc
    exact ⟨hi.logged.lose hc, hlog ▸ hi.sent, hlog ▸ hi.kept, hi.bound, hi.order, hi.target, hi.initiator⟩
  | deliverToInitiator i dup | loseToInitiator i =>
    simp only [TwoProc.step, Option.map_eq_some'] at h
    obtain ⟨c, -, rfl⟩ := h
    exact ⟨hi.logged, hi.sent, hi.kept, hi.bound, hi.order, hi.target, hi.initiator⟩

end

theorem TwoProc.Reachable.orderInv {env : Env} {s₀ s : TwoProc} (hr : TwoProc.Reachable env s₀ s)
    (h₀ : OrderInv s₀) : OrderInv s := by
  induction hr with
  | refl => exact h₀
  | step a _ _ hs ih => exact ih.step hs

/-! ### Whole runs -/

/-- The two transfers in order, in every state of every run of `nixl_api_2proc.py`, in both modes and
whatever the engine and the network do: the initiator creates the `WRITE` only once the `READ` is
`DONE`, and the target waits for `UUID2` only once the `READ` is `DONE` and finishes only once both
are. -/
theorem two_proc_order {env : Env} {mode : Mode} {serialized : Bytes} {fetched : Option Bytes} {s : TwoProc}
    (hr : TwoProc.Reachable env (TwoProc.init mode serialized fetched) s) :
    (s.xfer 1 ≠ .unposted → s.xfer 0 = .done) ∧
      (s.target.phase = .waitXfer 1 → s.xfer 0 = .done) ∧
      (s.target.phase = .done → s.xfer 0 = .done ∧ s.xfer 1 = .done) := by
  have hi := hr.orderInv (orderInv_init mode serialized fetched)
  have hT := hi.target
  refine ⟨hi.order, fun h => ?_, fun h => ?_⟩ <;> rw [h] at hT
  exacts [(hT.resolve_left (by decide)).2, hT]

/-- The initiator's two transfers and the target's two polls, with every `transfer()` reporting `DONE`
and the two notifications delivered in order. -/
def transferActs : List TwoProc.Act :=
  [.initiator .done, .initiator .done, .initiator .done, .initiator .done,
    .deliverToTarget 0 false, .deliverToTarget 0 false, .target, .target]

/-- The etcd handshake: the initiator's first `READY` reaches the target, which sends its own `READY`,
sees the initiator's and sends its `DESCS:` message, which the initiator drains. -/
def handshakeActs : List TwoProc.Act :=
  [.initiator .done, .deliverToTarget 0 false, .target, .target, .target, .deliverToInitiator 1 false,
    .initiator .done]

/-- A TCP-mode run with descriptors after the initiator's part of `transferActs`: both transfers are
`DONE`, and the target has read neither notification yet. -/
def bothPostedState : TwoProc :=
  (TwoProc.run (TwoProc.init .tcp [] (some [])) (transferActs.take 4)).getD (TwoProc.init .tcp [] (some []))

theorem two_proc_order_posted :
    TwoProc.Reachable ⟨false, false⟩ (TwoProc.init .tcp [] (some [])) bothPostedState ∧
      bothPostedState.xfer 1 = .done ∧ bothPostedState.target.phase = .waitXfer 0 ∧
      (bothPostedState.xfer 1 ≠ .unposted → bothPostedState.xfer 0 = .done) ∧
      (bothPostedState.target.phase = .waitXfer 1 → bothPostedState.xfer 0 = .done) ∧
      (bothPostedState.target.phase = .done → bothPostedState.xfer 0 = .done ∧ bothPostedState.xfer 1 = .done) :=
  have hr : TwoProc.Reachable ⟨false, false⟩ (TwoProc.init .tcp [] (some [])) bothPostedState :=
    TwoProc.reachable_of_run .refl (by decide)
      (by rfl : TwoProc.run (TwoProc.init .tcp [] (some [])) (transferActs.take 4) = some bothPostedState)
  ⟨hr, by decide, by decide, two_proc_order hr⟩

/-- The initiator has exited short of its second `DONE`, and that handle is not posted. -/
def Stopped (s : TwoProc) : Prop :=
  (s.initiator.phase = .failed ∨ s.initiator.phase = .crashed) ∧ (s.xfer 1 = .unposted ∨ s.xfer 1 = .err)

/-- A stopped initiator stays so: it has no step, and the engine moves no handle that is not posted. -/
theorem Stopped.step {s s' : TwoProc} (hs : Stopped s) {a : TwoProc.Act} (h : s.step a = some s') : Stopped s' := by
  have ha : ∀ r, a ≠ .initiator r := by
    rintro r rfl
    rcases hs.1 with hp | hp <;> simp [TwoProc.step, initiatorStep, hp] at h
  obtain ⟨hI, hm⟩ := TwoProc.step_others ha h
  refine ⟨hI ▸ hs.1, ?_⟩
  rw [hm.eq_of_ne_proc (by rcases hs.2 with h | h <;> simp [h])]
  exact hs.2

theorem TwoProc.Reachable.stopped {env : Env} {s s' : TwoProc} (hr : TwoProc.Reachable env s s') (hs : Stopped s) :
    Stopped s' := by
  induction hr with
  | refl => exact hs
  | step a _ _ hst ih => exact ih.step hst

/-- Once the initiator of `nixl_api_2proc.py` has returned after an error or raised, the target never
finishes, whatever the engine and the network do afterwards: it polls `check_remote_xfer_done` for a
`UUID2` that nothing will send, and `main`, which joins it without a timeout, never returns. -/
theorem target_waits_forever {env : Env} {mode : Mode} {serialized : Bytes} {fetched : Option Bytes}
    {s s' : TwoProc} (hr : TwoProc.Reachable env (TwoProc.init mode serialized fetched) s)
    (hstop : s.initiator.phase = .failed ∨ s.initiator.phase = .crashed) (hr' : TwoProc.Reachable env s s') :
    s'.target.phase ≠ .done := by
  have hi := hr.orderInv (orderInv_init mode serialized fetched)
  have hI := hi.initiator
  have hs' := hr'.stopped ⟨hstop, by rcases hstop with h | h <;> rwa [h] at hI⟩
  have hT := (hr'.orderInv hi).target
  intro hd
  rw [hd] at hT
  have h1 : s'.xfer 1 = .done := hT.2
  rcases hs'.2 with h | h <;> rw [h] at h1 <;> cases h1

/-- The initiator after `retrieve_descriptors` returned `None`: `initialize_xfer` raises on it. -/
def crashedState : TwoProc := { TwoProc.init .tcp [] none with initiator := ⟨.crashed, none, []⟩ }

theorem target_waits_forever_crashed :
    TwoProc.Reachable ⟨false, false⟩ (TwoProc.init .tcp [] none) crashedState ∧
      crashedState.target.phase ≠ .done :=
  have hr : TwoProc.Reachable ⟨false, false⟩ (TwoProc.init .tcp [] none) crashedState := .step (.initiator .proc) .refl rfl rfl
  ⟨hr, target_waits_forever hr (.inr rfl) .refl⟩

end NixlExamples
