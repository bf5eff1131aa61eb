import NixlExamples.Handshake.Loops

/-!
# Agreement of the handshake

`HsInv` holds in every reachable state of the handshake between a holder `hn` and a requester `rn`
(`hsReach_inv`):

* (`sent`) the `DESCS:` messages ever sent to the requester are none while the holder is in its
  loop and exactly the one `DESCS:<payload>` once it has left it;
* (`sawReady`) the holder reaches its `DESCS` send only after a drain that held `READY` from `rn`;
* (`took`) a requester that has left its loop has drained that message and passed exactly the
  payload to `deserialize_descs`, and (`order`) it leaves only after the holder;
* (`kept`) while the holder is out and the requester still waits, the message is in flight to the
  requester or delivered to it and not yet drained: no drain discards it.

The one fact about the requester's drain that carries most of the proof is `HsInv.scan`: on a batch of
the requester's notifications, `scanDescs` returns the payload exactly when the `DESCS` message is in
it, and nothing else otherwise.
-/

namespace NixlExamples

/-- The `DESCS:` messages ever sent on a channel. -/
def descsOf (c : Chan) : List Notif := c.log.filter fun n => descsPrefix.isPrefixOf n.msg

@[simp] theorem descsOf_send (c : Chan) (n : Notif) :
    descsOf (c.send n) = descsOf c ++ if descsPrefix.isPrefixOf n.msg then [n] else [] := by
  simp only [descsOf, Chan.send_log, List.filter_append, List.filter_cons, List.filter_nil]

@[simp] theorem descsOf_drain (c : Chan) : descsOf c.drain = descsOf c := rfl

/-- The one `DESCS:` notification of the handshake. -/
def descsNotif (hn : String) (payload : Bytes) : Notif := ⟨hn, descsPrefix ++ payload⟩

/-- The invariant of the handshake between the holder `hn` and the requester `rn`. -/
structure HsInv (hn rn : String) (h : Handshake) : Prop where
  sent : descsOf h.link.toRequester = if h.holder = none then [descsNotif hn h.payload] else []
  logged : h.link.toRequester.Logged
  sawReady : h.holder = some .sendDescs ∨ h.holder = none → ⟨rn, readyMsg⟩ ∈ h.link.toHolder.drained
  took : h.requester = none → h.descs = some h.payload ∧ descsNotif hn h.payload ∈ h.link.toRequester.drained
  order : h.requester = none → h.holder = none
  kept : h.holder = none → h.requester ≠ none →
    descsNotif hn h.payload ∈ h.link.toRequester.inFlight ++ h.link.toRequester.queue

theorem ready_not_descs : descsPrefix.isPrefixOf readyMsg = false := rfl

theorem drop_descsPrefix (p : Bytes) : (descsPrefix ++ p).drop 6 = p := rfl

section
variable {hn rn : String} {h : Handshake}

theorem hsInv_init (payload : Bytes) : HsInv hn rn (Handshake.init payload) :=
  ⟨rfl, Chan.logged_empty, fun hh => by simp [Handshake.init] at hh,
    fun hh => by simp [Handshake.init] at hh, fun hh => by simp [Handshake.init] at hh,
    fun hh => by simp [Handshake.init] at hh⟩

/-- A `DESCS:` message pending for the requester is the one of the handshake. -/
theorem HsInv.descs_of_pending (hi : HsInv hn rn h) {n : Notif}
    (hpend : n ∈ h.link.toRequester.inFlight ++ h.link.toRequester.queue)
    (hp : descsPrefix.isPrefixOf n.msg = true) : n = descsNotif hn h.payload ∧ h.holder = none := by
  have hmem : n ∈ descsOf h.link.toRequester := List.mem_filter.2 ⟨hi.logged n hpend, hp⟩
  rw [hi.sent] at hmem
  split at hmem
  · exact ⟨List.mem_singleton.1 hmem, ‹_›⟩
  · cases hmem

/-- What the requester's drain reads: the payload if the `DESCS` message was delivered, nothing else
otherwise. -/
theorem HsInv.scan (hi : HsInv hn rn h) :
    (descsNotif hn h.payload ∈ h.link.toRequester.queue →
      scanDescs (fromPeer hn h.link.toRequester.queue) = some h.payload) ∧
    (∀ d, scanDescs (fromPeer hn h.link.toRequester.queue) = some d →
      d = h.payload ∧ descsNotif hn h.payload ∈ h.link.toRequester.queue) := by
  have hq : ∀ m ∈ fromPeer hn h.link.toRequester.queue, descsPrefix.isPrefixOf m = true →
      m = descsPrefix ++ h.payload ∧ descsNotif hn h.payload ∈ h.link.toRequester.queue := by
    intro m hm hp
    have hm' := mem_fromPeer.1 hm
    have := (hi.descs_of_pending (List.mem_append_right _ hm') hp).1
    simp only [descsNotif, Notif.mk.injEq, true_and] at this
    subst this
    exact ⟨rfl, hm'⟩
  refine ⟨fun hd => scanDescs_eq (mem_fromPeer.2 hd) fun m hm hp => (hq m hm hp).1, fun d hd => ?_⟩
  obtain ⟨m, hm, hp, rfl⟩ := scanDescs_some hd
  obtain ⟨rfl, hmem⟩ := hq m hm hp
  exact ⟨drop_descsPrefix _, hmem⟩

/-! ### The two loops -/

theorem HsInv.holder_step (hi : HsInv hn rn h) {p : HolderPhase} (hp : h.holder = some p) :
    HsInv hn rn { h with holder := (holderStep hn rn h.payload p h.link).1,
                         link := (holderStep hn rn h.payload p h.link).2 } := by
  have hreq : h.requester ≠ none := fun hr => by simp [hi.order hr] at hp
  have h0 : descsOf h.link.toRequester = [] := by rw [hi.sent, hp]; rfl
  cases p with
  | sendReady =>
    simp only [holderStep_sendReady]
    exact ⟨by simp [ready_not_descs, h0], hi.logged.send _, by simp, hi.took, fun hr => absurd hr hreq,
      by simp⟩
  | checkReady =>
    simp only [holderStep_checkReady]
    refine ⟨by simp [h0], hi.logged, fun hh => ?_, hi.took, fun hr => absurd hr hreq, by simp⟩
    split at hh
    · exact List.mem_append_right _ (mem_fromPeer.1 ‹_›)
    · simp at hh
  | sendDescs =>
    simp only [holderStep_sendDescs]
    exact ⟨by simp [isPrefixOf_append, h0, descsNotif], hi.logged.send _, fun _ => hi.sawReady (.inl hp),
      fun hr => absurd hr hreq, fun _ => rfl, fun _ _ => by simp [descsNotif]⟩

theorem HsInv.requester_step (hi : HsInv hn rn h) {p : RequesterPhase} (hp : h.requester = some p) :
    HsInv hn rn (h.afterRequester (requesterStep rn hn p h.link)) := by
  have hwait : h.requester ≠ none := by simp [hp]
  cases p with
  | waitDescs rc =>
    simp only [requesterStep_waitDescs, afterRequester_inl]
    split
    · exact ⟨by simpa using hi.sent, hi.logged, fun hh => by simpa using hi.sawReady hh,
        fun hr => by simp at hr, fun hr => by simp at hr, fun hh _ => by simpa using hi.kept hh hwait⟩
    · exact ⟨by simpa using hi.sent, hi.logged, fun hh => by simpa using hi.sawReady hh,
        fun hr => by simp at hr, fun hr => by simp at hr, fun hh _ => by simpa using hi.kept hh hwait⟩
  | pollDescs rc k =>
    simp only [requesterStep_pollDescs]
    obtain ⟨hscan1, hscan2⟩ := hi.scan
    cases hs : scanDescs (fromPeer hn h.link.toRequester.queue) with
    | some d =>
      obtain ⟨rfl, hmem⟩ := hscan2 d hs
      have hhold := (hi.descs_of_pending (List.mem_append_right _ hmem) (isPrefixOf_append _ _)).2
      simp only [afterRequester_inr]
      exact ⟨by simpa using hi.sent, hi.logged.drain, fun hh => by simpa using hi.sawReady hh,
        fun _ => ⟨rfl, by simp [descsNotif] at hmem ⊢; exact .inr hmem⟩, fun _ => hhold,
        fun _ hr => absurd rfl hr⟩
    | none =>
      simp only [afterRequester_inl]
      refine ⟨by simpa using hi.sent, hi.logged.drain, fun hh => by simpa using hi.sawReady hh,
        fun hr => by simp at hr, fun hr => by simp at hr, fun hh _ => ?_⟩
      rcases List.mem_append.1 (hi.kept hh hwait) with h1 | h1
      · simpa using h1
      · exact absurd (hscan1 h1) (by simp [hs])

/-! ### The network and the two sides after their loops -/

/-- Every step of the handshake keeps the invariant. -/
theorem HsInv.step (hi : HsInv hn rn h) {h' : Handshake} (hs : HsStep hn rn h h') : HsInv hn rn h' := by
  cases hs with
  | holder hp => exact hi.holder_step hp
  | requester hp => exact hi.requester_step hp
  | deliverToHolder hc =>
    obtain ⟨-, -, -, -, hdr, -, -, -⟩ := Chan.deliver_cases hc
    exact ⟨hi.sent, hi.logged, fun hh => by simpa [hdr] using hi.sawReady hh, hi.took, hi.order, hi.kept⟩
  | deliverToRequester hc =>
    obtain ⟨-, -, -, hlog, hdr, -, -, -⟩ := Chan.deliver_cases hc
    exact ⟨by simpa [descsOf, hlog] using hi.sent, hi.logged.deliver hc, hi.sawReady,
      fun hr => by simpa [hdr] using hi.took hr, hi.order, fun hh hr => Chan.deliver_keeps hc (hi.kept hh hr)⟩
  | holderSends m hl hm =>
    refine ⟨by simp [hm, hi.sent], hi.logged.send _, hi.sawReady, fun hr => by simpa using hi.took hr,
      hi.order, fun hh hr => ?_⟩
    rcases List.mem_append.1 (hi.kept hh hr) with h1 | h1 <;> simp [h1]
  | holderDrains hl =>
    exact ⟨hi.sent, hi.logged, fun hh => by simp [hi.sawReady hh], hi.took, hi.order, hi.kept⟩
  | requesterSends m hl =>
    exact ⟨hi.sent, hi.logged, fun hh => by simpa using hi.sawReady hh, hi.took, hi.order, hi.kept⟩
  | requesterDrains hl =>
    exact ⟨by simpa using hi.sent, hi.logged.drain, hi.sawReady,
      fun hr => by simp [(hi.took hr).1, (hi.took hr).2], hi.order, fun _ hr => absurd hl hr⟩

/-- The invariant holds in every reachable state of the handshake. -/
theorem hsReach_inv {h : Handshake} (hr : HsReach hn rn h) : HsInv hn rn h := by
  induction hr with
  | init payload => exact hsInv_init payload
  | step _ hs ih => exact ih.step hs

end

end NixlExamples
