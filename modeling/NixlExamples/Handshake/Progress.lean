import NixlExamples.Handshake.Agreement

/-!
# The handshake can always complete

On a network that loses nothing, every reachable state of the handshake can be continued, by steps of
the two loops and deliveries alone, until the requester has left its loop with the descriptors
(`hsReach_can_finish`).  Both examples lift such a continuation to their own steps
(`TwoProc.reachable_of_loopRun`, `Session.reachable_of_loopRun`).

* `HsReady` is what the holder's wait for `READY` rests on: no notification to the holder is lost, the
  holder drains a `READY` from the requester only in the drain that ends its wait, and the requester
  sends one in its first iteration.  So while the holder waits and the requester is past its first
  iteration, a `READY` is pending (`HsReady.pending`).
* The construction: the requester runs its first iteration, the network delivers everything in flight
  to the holder, and the holder sees the `READY` and sends its `DESCS:` message
  (`holder_leaves_loop`); then the network delivers that message and the requester's next drain reads
  it (`requester_leaves_loop`).
-/

namespace NixlExamples

/-! ### The `READY` the holder waits for -/

/-- Every notification ever sent on `c` is in flight, delivered or drained: the network lost none. -/
def Chan.Kept (c : Chan) : Prop := ∀ n ∈ c.log, n ∈ c.inFlight ++ c.queue ++ c.drained

theorem Chan.Kept.send {c : Chan} (h : c.Kept) (m : Notif) : (c.send m).Kept := by
  intro n hn
  have := h n
  simp only [Chan.send_log, Chan.send_inFlight, Chan.send_queue, Chan.send_drained, List.mem_append,
    List.mem_singleton] at this hn ⊢
  tauto

theorem Chan.Kept.drain {c : Chan} (h : c.Kept) : c.drain.Kept := by
  intro n hn
  have := h n hn
  simp only [Chan.drain_inFlight, Chan.drain_queue, Chan.drain_drained, List.mem_append] at this ⊢
  tauto

theorem Chan.Kept.deliver {c c' : Chan} {i : Nat} {dup : Bool} (h : c.Kept) (hd : c.deliver i dup = some c') :
    c'.Kept := by
  obtain ⟨-, -, -, hlog, hdr, -, -, -⟩ := Chan.deliver_cases hd
  intro n hn
  rw [hlog] at hn
  rcases List.mem_append.1 (h n hn) with h1 | h1
  · exact List.mem_append_left _ (Chan.deliver_keeps hd h1)
  · rw [hdr]; exact List.mem_append_right _ h1

/-- What the holder's wait for `READY` rests on, on a network that loses nothing: no notification to
the holder is lost, the holder drains a `READY` from `rn` only in the drain that ends its wait, and the
requester has sent one since its first iteration. -/
structure HsReady (hn rn : String) (h : Handshake) : Prop where
  kept : h.link.toHolder.Kept
  fresh : h.holder = some .sendReady ∨ h.holder = some .checkReady → ⟨rn, readyMsg⟩ ∉ h.link.toHolder.drained
  sent : h.requester = some (.waitDescs 0) ∨ ⟨rn, readyMsg⟩ ∈ h.link.toHolder.log

section
variable {hn rn : String} {h : Handshake}

theorem hsReady_init (payload : Bytes) : HsReady hn rn (Handshake.init payload) :=
  ⟨fun _ hn => by simp [Handshake.init, Chan.empty] at hn, fun _ hn => by simp [Handshake.init, Chan.empty] at hn,
    .inl rfl⟩

theorem HsReady.step (hr : HsReady hn rn h) {h' : Handshake} (hs : HsStep hn rn h h') : HsReady hn rn h' := by
  cases hs with
  | @holder p hp =>
    cases p with
    | sendReady => exact ⟨hr.kept, fun _ => hr.fresh (.inl hp), hr.sent⟩
    | checkReady =>
      refine ⟨hr.kept.drain, fun hh => ?_, hr.sent⟩
      simp only [holderStep_checkReady] at hh ⊢
      split at hh
      · simp at hh
      · simp only [Chan.drain_drained, List.mem_append, not_or]
        exact ⟨hr.fresh (.inr hp), mt mem_fromPeer.2 ‹_›⟩
    | sendDescs => exact ⟨hr.kept, fun hh => by simp at hh, hr.sent⟩
  | @requester p hp =>
    cases p with
    | waitDescs rc =>
      simp only [requesterStep_waitDescs, afterRequester_inl]
      split
      · exact ⟨hr.kept.send _, by simpa using hr.fresh, .inr (by simp)⟩
      · refine ⟨hr.kept, hr.fresh, .inr (hr.sent.resolve_left fun h0 => ?_)⟩
        rw [hp] at h0
        cases h0
        simp_all
    | pollDescs rc k =>
      simp only [requesterStep_pollDescs]
      have hsent := hr.sent.resolve_left (by simp [hp])
      split <;> exact ⟨hr.kept, hr.fresh, .inr hsent⟩
  | deliverToHolder hc =>
    obtain ⟨-, -, -, hlog, hdr, -, -, -⟩ := Chan.deliver_cases hc
    exact ⟨hr.kept.deliver hc, fun hh => by simpa [hdr] using hr.fresh hh, .imp_right (hlog ▸ id) hr.sent⟩
  | holderDrains hl => exact ⟨hr.kept.drain, fun hh => by simp [hl] at hh, hr.sent⟩
  | requesterSends m hl =>
    exact ⟨hr.kept.send _, by simpa using hr.fresh, .inr (by simp [hr.sent.resolve_left (by simp [hl])])⟩
  | deliverToRequester | holderSends | requesterDrains => exact ⟨hr.kept, hr.fresh, hr.sent⟩

theorem hsReach_ready {h : Handshake} (hr : HsReach hn rn h) : HsReady hn rn h := by
  induction hr with
  | init payload => exact hsReady_init payload
  | step _ hs ih => exact ih.step hs

/-- While the holder waits for `READY` and the requester is past its first iteration, a `READY` from
the requester is in flight to the holder or delivered to it. -/
theorem HsReady.pending (hr : HsReady hn rn h) (hh : h.holder = some .sendReady ∨ h.holder = some .checkReady)
    (hq : h.requester ≠ some (.waitDescs 0)) :
    ⟨rn, readyMsg⟩ ∈ h.link.toHolder.inFlight ++ h.link.toHolder.queue := by
  rcases List.mem_append.1 (hr.kept _ (hr.sent.resolve_left hq)) with h1 | h1
  exacts [h1, absurd h1 (hr.fresh hh)]

end

/-! ### Continuations of a run -/

/-- Every notification in flight delivered, oldest first. -/
def Chan.deliverAll (c : Chan) : Chan := { c with inFlight := [], queue := c.queue ++ c.inFlight }

theorem Chan.deliver_head {c : Chan} {n : Notif} {ns : List Notif} (h : c.inFlight = n :: ns) :
    c.deliver 0 false = some { c with inFlight := ns, queue := c.queue ++ [n] } := by
  simp [Chan.deliver, h]

theorem Chan.deliverAll_head {c : Chan} {n : Notif} {ns : List Notif} (h : c.inFlight = n :: ns) :
    c.deliverAll = { c with inFlight := ns, queue := c.queue ++ [n] }.deliverAll := by
  simp [Chan.deliverAll, h]

theorem Chan.deliverAll_nil {c : Chan} (h : c.inFlight = []) : c.deliverAll = c := by
  cases c; simp_all [Chan.deliverAll]

theorem Chan.mem_queue_deliverAll {c : Chan} {n : Notif} (h : n ∈ c.inFlight ++ c.queue) :
    n ∈ c.deliverAll.queue := by
  simp only [Chan.deliverAll, List.mem_append] at h ⊢
  tauto

/-- The moves of the two loops and of the network, which a continuation of a run is made of. -/
inductive HsLoopRun (hn rn : String) : Handshake → Handshake → Prop
  | refl (h : Handshake) : HsLoopRun hn rn h h
  | holder {h h' : Handshake} {p : HolderPhase} (hp : h.holder = some p) :
      HsLoopRun hn rn { h with holder := (holderStep hn rn h.payload p h.link).1,
                               link := (holderStep hn rn h.payload p h.link).2 } h' → HsLoopRun hn rn h h'
  | requester {h h' : Handshake} {p : RequesterPhase} (hp : h.requester = some p) :
      HsLoopRun hn rn (h.afterRequester (requesterStep rn hn p h.link)) h' → HsLoopRun hn rn h h'
  | deliverToHolder {h h' : Handshake} {i : Nat} {dup : Bool} {c : Chan}
      (hc : h.link.toHolder.deliver i dup = some c) :
      HsLoopRun hn rn { h with link := { h.link with toHolder := c } } h' → HsLoopRun hn rn h h'
  | deliverToRequester {h h' : Handshake} {i : Nat} {dup : Bool} {c : Chan}
      (hc : h.link.toRequester.deliver i dup = some c) :
      HsLoopRun hn rn { h with link := { h.link with toRequester := c } } h' → HsLoopRun hn rn h h'

section
variable {hn rn : String} {h h' h'' : Handshake}

theorem HsLoopRun.trans (h₁ : HsLoopRun hn rn h h') (h₂ : HsLoopRun hn rn h' h'') : HsLoopRun hn rn h h'' := by
  induction h₁ with
  | refl => exact h₂
  | holder hp _ ih => exact .holder hp (ih h₂)
  | requester hp _ ih => exact .requester hp (ih h₂)
  | deliverToHolder hc _ ih => exact .deliverToHolder hc (ih h₂)
  | deliverToRequester hc _ ih => exact .deliverToRequester hc (ih h₂)

/-- A continuation of a reachable state reaches a reachable state. -/
theorem HsLoopRun.reach (hrun : HsLoopRun hn rn h h') (hr : HsReach hn rn h) : HsReach hn rn h' := by
  induction hrun with
  | refl => exact hr
  | holder hp _ ih => exact ih (hr.step (.holder hp))
  | requester hp _ ih => exact ih (hr.step (.requester hp))
  | deliverToHolder hc _ ih => exact ih (hr.step (.deliverToHolder hc))
  | deliverToRequester hc _ ih => exact ih (hr.step (.deliverToRequester hc))

/-- A continuation keeps the payload. -/
theorem HsLoopRun.payload_eq (hrun : HsLoopRun hn rn h h') : h'.payload = h.payload := by
  induction hrun with
  | refl => rfl
  | holder hp _ ih => exact ih.trans (@HsStep.payload_eq hn rn _ _ (.holder hp))
  | requester hp _ ih => exact ih.trans (@HsStep.payload_eq hn rn _ _ (.requester hp))
  | deliverToHolder hc _ ih => exact ih.trans (@HsStep.payload_eq hn rn _ _ (.deliverToHolder hc))
  | deliverToRequester hc _ ih => exact ih.trans (@HsStep.payload_eq hn rn _ _ (.deliverToRequester hc))

theorem HsLoopRun.deliverAll_toHolder (h : Handshake) :
    HsLoopRun hn rn h { h with link := { h.link with toHolder := h.link.toHolder.deliverAll } } := by
  obtain ⟨l, hl⟩ : ∃ l, h.link.toHolder.inFlight = l := ⟨_, rfl⟩
  induction l generalizing h with
  | nil => rw [Chan.deliverAll_nil hl]; exact .refl _
  | cons n ns ih =>
    rw [Chan.deliverAll_head hl]
    exact .deliverToHolder (Chan.deliver_head hl) (ih _ rfl)

theorem HsLoopRun.deliverAll_toRequester (h : Handshake) :
    HsLoopRun hn rn h { h with link := { h.link with toRequester := h.link.toRequester.deliverAll } } := by
  obtain ⟨l, hl⟩ : ∃ l, h.link.toRequester.inFlight = l := ⟨_, rfl⟩
  induction l generalizing h with
  | nil => rw [Chan.deliverAll_nil hl]; exact .refl _
  | cons n ns ih =>
    rw [Chan.deliverAll_head hl]
    exact .deliverToRequester (Chan.deliver_head hl) (ih _ rfl)

end

/-! ### The two loops run to their end -/

/-- The scan of the requester's drain finds a payload in a batch that holds a `DESCS:` message. -/
theorem scanDescs_of_mem {ms : List Bytes} {m : Bytes} (hm : m ∈ ms) (hp : descsPrefix.isPrefixOf m = true) :
    ∃ p, scanDescs ms = some p := by
  induction ms with
  | nil => cases hm
  | cons m' ms ih =>
    rw [scanDescs]
    split
    · exact ⟨_, rfl⟩
    · rcases List.mem_cons.1 hm with rfl | hm
      · contradiction
      · exact ih hm

section
variable {hn rn : String} {h : Handshake}

/-- A requester still in its loop leaves it once the holder has left its own: the holder's `DESCS:`
message is pending, the network delivers it, and the requester's next drain reads it. -/
theorem requester_leaves_loop (hr : HsReach hn rn h) (hh : h.holder = none) {q : RequesterPhase}
    (hq : h.requester = some q) : ∃ h', HsLoopRun hn rn h h' ∧ h'.requester = none := by
  have hm := Chan.mem_queue_deliverAll ((hsReach_inv hr).kept hh (by simp [hq]))
  have hscan : ∀ g : Handshake, descsNotif hn h.payload ∈ g.link.toRequester.queue → ∀ {rc k : Nat},
      g.requester = some (.pollDescs rc k) → ∃ g', HsLoopRun hn rn g g' ∧ g'.requester = none := by
    intro g hg rc k hk
    obtain ⟨d, hd⟩ := scanDescs_of_mem (mem_fromPeer.2 hg) (isPrefixOf_append _ _)
    exact ⟨_, .requester hk (by rw [requesterStep_pollDescs, hd]; exact .refl _), rfl⟩
  have h₁ := @HsLoopRun.deliverAll_toRequester hn rn h
  cases q with
  | waitDescs rc =>
    obtain ⟨g, hg, hgq⟩ := hscan (Handshake.afterRequester
      { h with link := { h.link with toRequester := h.link.toRequester.deliverAll } }
      (requesterStep rn hn (.waitDescs rc) { h.link with toRequester := h.link.toRequester.deliverAll }))
      (by simp only [requesterStep_waitDescs, afterRequester_inl]; split <;> exact hm) rfl
    exact ⟨g, h₁.trans (.requester hq hg), hgq⟩
  | pollDescs rc k =>
    obtain ⟨g, hg, hgq⟩ := hscan { h with link := { h.link with toRequester := h.link.toRequester.deliverAll } } hm hq
    exact ⟨g, h₁.trans hg, hgq⟩

/-- A holder still in its loop leaves it once the requester is past its first iteration: a `READY`
of the requester is pending, the network delivers it, and the holder's next drain sees it.  The
requester does not move. -/
theorem holder_leaves_loop (hr : HsReach hn rn h) {p : HolderPhase} (hp : h.holder = some p)
    (hq : h.requester ≠ some (.waitDescs 0)) :
    ∃ h', HsLoopRun hn rn h h' ∧ h'.holder = none ∧ h'.requester = h.requester := by
  have hsend : ∀ g : Handshake, g.holder = some .sendDescs → ∃ g', HsLoopRun hn rn g g' ∧ g'.holder = none ∧
      g'.requester = g.requester := fun _ hg => ⟨_, .holder hg (.refl _), rfl, rfl⟩
  have hcheck : ∀ g : Handshake, g.holder = some .checkReady → ⟨rn, readyMsg⟩ ∈ g.link.toHolder.queue →
      ∃ g', HsLoopRun hn rn g g' ∧ g'.holder = none ∧ g'.requester = g.requester := by
    intro g hg hm
    obtain ⟨g', hg', h1, h2⟩ := hsend
      { g with holder := (holderStep hn rn g.payload .checkReady g.link).1,
               link := (holderStep hn rn g.payload .checkReady g.link).2 } (by simp [mem_fromPeer.2 hm])
    exact ⟨g', .holder hg hg', h1, h2⟩
  cases p with
  | sendDescs => exact hsend h hp
  | sendReady =>
    have hm := Chan.mem_queue_deliverAll ((hsReach_ready hr).pending (by simp [hp]) hq)
    obtain ⟨g, hg, h1, h2⟩ := hcheck
      { h with holder := some .checkReady,
               link := { h.link with toHolder := h.link.toHolder.deliverAll,
                                     toRequester := h.link.toRequester.send ⟨hn, readyMsg⟩ } } rfl hm
    exact ⟨g, (HsLoopRun.deliverAll_toHolder h).trans (.holder hp hg), h1, h2⟩
  | checkReady =>
    have hm := Chan.mem_queue_deliverAll ((hsReach_ready hr).pending (by simp [hp]) hq)
    obtain ⟨g, hg, h1, h2⟩ := hcheck { h with link := { h.link with toHolder := h.link.toHolder.deliverAll } } hp hm
    exact ⟨g, (HsLoopRun.deliverAll_toHolder h).trans hg, h1, h2⟩

/-- On a network that loses nothing, every reachable state of the handshake can be continued by the
moves of the two loops and of the network until the requester has left its loop. -/
theorem hsReach_can_finish (hr : HsReach hn rn h) : ∃ h', HsLoopRun hn rn h h' ∧ h'.requester = none := by
  cases hq : h.requester with
  | none => exact ⟨h, .refl _, hq⟩
  | some q =>
    cases hh : h.holder with
    | none => exact requester_leaves_loop hr hh hq
    | some p =>
      -- the requester's first iteration sends its first `READY`
      obtain ⟨h₁, hrun₁, hh₁, hq₁⟩ : ∃ h₁, HsLoopRun hn rn h h₁ ∧ h₁.holder = some p ∧
          h₁.requester ≠ none ∧ h₁.requester ≠ some (.waitDescs 0) := by
        by_cases h0 : q = .waitDescs 0
        · subst h0
          exact ⟨_, .requester hq (.refl _), hh, by simp, by simp⟩
        · exact ⟨h, .refl _, hh, by simp [hq], by simp [hq, h0]⟩
      have hr₁ := hrun₁.reach hr
      obtain ⟨h₂, hrun₂, hh₂, hq₂⟩ := holder_leaves_loop hr₁ hh₁ hq₁.2
      obtain ⟨q₂, hq₂'⟩ := Option.ne_none_iff_exists'.1 (hq₂ ▸ hq₁.1)
      obtain ⟨h₃, hrun₃, hq₃⟩ := requester_leaves_loop (hrun₂.reach hr₁) hh₂ hq₂'
      exact ⟨h₃, hrun₁.trans (hrun₂.trans hrun₃), hq₃⟩

end

end NixlExamples
