import NixlExamples.Handshake.Progress
import NixlExamples.Ring.Content
import NixlExamples.Ring.HandshakeView

/-!
# Runs without faults

On a network that loses nothing and with a transfer engine whose transfers all complete, `RingLive`
holds in every state of every run in which the descriptors reached the sender (`FedRun`), of a
configuration whose threshold fits the ring and that has fewer than `2^64` transfers (`run_ringLive`).
It adds to `Inv` and `SlotInv` what the completion argument of `Ring/Completion` rests on:

* no handle is `ERR`, and the sender never raises: each of its drains reads only the receiver's
  messages, and it writes only headers below `2^64`;
* the sender reaches its final wait only with every transfer posted, and the receiver ends only with
  every transfer accepted;
* every `P:<c>` the receiver owes, one for each multiple `c` of `PROGRESS_UPDATE_INTERVAL` up to
  `transfers_received`, has been sent, except the one of the `notify` it stands at; none is lost; and
  `receiver_progress` is at least every count the sender has drained.
-/

namespace NixlExamples

/-! ### The counts the receiver reports -/

theorem decimal_inj {c c' : Nat} (h : decimal c = decimal c') : c = c' := by
  have h' := pyInt_decimal c
  rw [h, pyInt_decimal, Option.some.injEq] at h'
  exact_mod_cast h'.symm

/-- A `P:<c>` message from the receiver counts at most the transfers it has accepted. -/
theorem ReceiverNotif.count_le {serialized : Bytes} {r c : Nat}
    (h : ReceiverNotif serialized r ⟨"receiver", progressMsg c⟩) : c ≤ r := by
  have hp : progressPrefix.isPrefixOf (progressMsg c) = true := isPrefixOf_append _ _
  obtain ⟨-, h | h | ⟨c', hc', h⟩⟩ := h <;> dsimp only at h
  · rw [h] at hp; exact absurd hp (by decide)
  · rw [h, show progressPrefix.isPrefixOf (descsPrefix ++ serialized) = false from rfl] at hp; cases hp
  · rw [decimal_inj (List.append_cancel_left h)]; exact hc'

/-- A count in the sender's queue is at most what the receiver has accepted. -/
theorem Inv.queued_le {cfg : Config} {s : Session} (hi : Inv cfg s) {c : Nat}
    (hc : ⟨"receiver", progressMsg c⟩ ∈ s.toSender.queue) : c ≤ s.receiver.received :=
  (hi.fromReceiver _ (hi.logged _ (List.mem_append_right _ hc))).count_le

/-! ### The invariant -/

theorem Xfer.update_ne_err {x : Nat → Xfer} (hx : ∀ j, x j ≠ .err) (k : Nat) {v : Xfer} (hv : v ≠ .err) (j : Nat) :
    Function.update x k v j ≠ .err := by
  by_cases hj : j = k
  · subst hj; simpa using hv
  · rw [Function.update_noteq hj]; exact hx j

/-- The sender's final wait on its handles, and its end. -/
def SenderPhase.draining : SenderPhase → Prop
  | .drain _ | .done => True
  | _ => False

/-- The phases of the sender's main loop. -/
def SenderPhase.main : SenderPhase → Prop
  | .head | .gate | .slotWait | .writeHeader | .issue | .pollProgress => True
  | _ => False

theorem SenderPhase.main_facts {p : SenderPhase} (h : p.main) :
    p ≠ .crashed ∧ ¬ p.draining ∧ p.loop = none ∧ p ≠ .done := by
  cases p <;> first | exact h.elim | exact ⟨nofun, id, rfl, nofun⟩

/-- What a run without faults keeps besides `Inv` and `SlotInv`. -/
structure RingLive (cfg : Config) (s : Session) : Prop where
  noErr : ∀ i, s.xfer i ≠ .err
  notCrashed : s.sender.phase ≠ .crashed
  senderDone : s.sender.phase.draining → s.sender.sent = cfg.numTransfers
  receiverDone : s.receiver.phase = .done → cfg.numTransfers ≤ s.receiver.received
  waiting : s.sender.phase.loop ≠ none → s.sender.sent = 0
  kept : s.toSender.Kept
  notified : ∀ c, 0 < c → c % cfg.interval = 0 → c ≤ s.receiver.received →
    s.receiver.phase = .notify ∧ c = s.receiver.received ∨ ⟨"receiver", progressMsg c⟩ ∈ s.toSender.log
  covered : ∀ c, ⟨"receiver", progressMsg c⟩ ∈ s.toSender.drained → c ≤ s.sender.progress
  log : s.sender.log = if s.sender.phase = .done then [.completed cfg.numTransfers] else []

section
variable {cfg : Config} {s s' : Session}

/-- A step that leaves the receiver alone, drains the sender's notifications at most into a progress
that covers them, and keeps the sender in its loops. -/
theorem RingLive.frame (hv : RingLive cfg s) (hx : ∀ i, s'.xfer i ≠ .err) (hc : s'.sender.phase ≠ .crashed)
    (hd : s'.sender.phase.draining → s'.sender.sent = cfg.numTransfers)
    (hw : s'.sender.phase.loop ≠ none → s'.sender.sent = 0) (hR : s'.receiver = s.receiver)
    (hp : s.sender.progress ≤ s'.sender.progress)
    (hS : s'.toSender = s.toSender ∨ s'.toSender = s.toSender.drain ∧
      ∀ c, ⟨"receiver", progressMsg c⟩ ∈ s.toSender.queue → c ≤ s'.sender.progress)
    (hlog : s'.sender.log = if s'.sender.phase = .done then [.completed cfg.numTransfers] else []) :
    RingLive cfg s' := by
  have hchan : s'.toSender.log = s.toSender.log := by rcases hS with hS | ⟨hS, -⟩ <;> simp only [hS, Chan.drain_log]
  refine ⟨hx, hc, hd, hR ▸ hv.receiverDone, hw, ?_, hR ▸ hchan ▸ hv.notified, fun c hn => ?_, hlog⟩
  · rcases hS with hS | ⟨hS, -⟩ <;> rw [hS]
    exacts [hv.kept, hv.kept.drain]
  · rcases hS with hS | ⟨hS, hq⟩
    · rw [hS] at hn; exact le_trans (hv.covered c hn) hp
    · rw [hS, Chan.drain_drained] at hn
      rcases List.mem_append.1 hn with hn | hn
      exacts [le_trans (hv.covered c hn) hp, hq c hn]

/-- The sender's log stays empty until the sender ends. -/
theorem RingLive.log_keep (hv : RingLive cfg s) (hd : s.sender.phase ≠ .done) (hd' : s'.sender.phase ≠ .done)
    (hl : s'.sender.log = s.sender.log) :
    s'.sender.log = if s'.sender.phase = .done then [.completed cfg.numTransfers] else [] := by
  rw [if_neg hd', hl, hv.log, if_neg hd]

/-- A step of the sender within its main loop that leaves the receiver alone. -/
theorem RingLive.frame_main (hv : RingLive cfg s) (hx : ∀ i, s'.xfer i ≠ .err) (hm : s'.sender.phase.main)
    (hR : s'.receiver = s.receiver) (hp : s.sender.progress ≤ s'.sender.progress)
    (hS : s'.toSender = s.toSender ∨ s'.toSender = s.toSender.drain ∧
      ∀ c, ⟨"receiver", progressMsg c⟩ ∈ s.toSender.queue → c ≤ s'.sender.progress)
    (hd0 : s.sender.phase ≠ .done) (hl : s'.sender.log = s.sender.log) : RingLive cfg s' :=
  have hf := SenderPhase.main_facts hm
  hv.frame hx hf.1 (fun h => absurd h hf.2.1) (fun h => absurd hf.2.2.1 h) hR hp hS (hv.log_keep hd0 hf.2.2.2 hl)

/-- A sender step keeps the invariant, `transfer()` reporting `PROC` or `DONE`. -/
theorem RingLive.sender_step (hv : RingLive cfg s) (hi : Inv cfg s) (hs : SlotInv cfg s)
    (hT : cfg.numTransfers < 2 ^ 64) {r : Posted} (hr : r ≠ .err) (h : senderStep cfg s r = some s') :
    RingLive cfg s' := by
  have hb := hi.batch
  have hd0 : s.sender.phase ≠ .done := fun hd => by simp [senderStep, hd] at h
  rcases hp : s.sender.phase with p | _ | _ | _ | _ | _ | _ | i | _ | _ <;> simp only [senderStep, hp] at h
  · -- the wait for the descriptors: what it drains counts nothing yet
    have hl := requesterStep_toRequester "sender" "receiver" p s.link
    rw [show requesterStep "sender" "receiver" p s.link = senderDescsLoop p s.link from rfl] at hl
    have ht0 := hv.waiting (by simp [hp, SenderPhase.loop])
    have hq : ∀ c, ⟨"receiver", progressMsg c⟩ ∈ s.toSender.queue → c ≤ s.sender.progress := fun c hc => by
      have := hi.queued_le hc; have := hs.received_le; omega
    rcases hd : senderDescsLoop p s.link with ⟨q | d, l⟩ <;> rw [hd] at h hl <;> cases h <;>
      exact hv.frame hv.noErr nofun nofun (fun _ => ht0) rfl le_rfl (hl.imp_right fun hl => ⟨hl, hq⟩)
        (hv.log_keep hd0 nofun rfl)
  · -- the loop head
    split at h <;> cases h
    · exact hv.frame_main hv.noErr (by split <;> trivial) rfl le_rfl (.inl rfl) hd0 rfl
    · exact hv.frame hv.noErr nofun (fun _ => le_antisymm hs.sent_le (by simp only; omega)) nofun rfl le_rfl (.inl rfl)
        (hv.log_keep hd0 nofun rfl)
  · -- the backpressure gate
    obtain ⟨q, hq, -, -⟩ := scanProgress_bounds _ _ _ _ hb
    rw [hq] at h
    cases h
    exact hv.frame_main hv.noErr (by split <;> trivial) rfl (scanProgress_ge hq)
      (.inr ⟨rfl, fun c hc => le_scanProgress hq (mem_fromPeer.2 hc)⟩) hd0 rfl
  · -- the slot wait
    split at h <;> cases h
    exacts [hv, hv.frame_main hv.noErr trivial rfl le_rfl (.inl rfl) hd0 rfl]
  · -- the header write: the transfer number is below `2^64`
    have ht := hs.posting (by rw [hp]; trivial)
    split at h <;> cases h
    · exact hv.frame_main hv.noErr trivial rfl le_rfl (.inl rfl) hd0 rfl
    · omega
  · -- the `transfer()` call
    cases r with
    | err => exact absurd rfl hr
    | proc | done =>
      cases h
      exact hv.frame_main (Xfer.update_ne_err hv.noErr _ nofun) (by split <;> trivial) rfl le_rfl (.inl rfl) hd0 rfl
  · -- the opportunistic drain
    obtain ⟨q, hq, -, -⟩ := scanProgress_bounds _ _ _ _ hb
    rw [hq] at h
    cases h
    exact hv.frame_main hv.noErr trivial rfl (scanProgress_ge hq)
      (.inr ⟨rfl, fun c hc => le_scanProgress hq (mem_fromPeer.2 hc)⟩) hd0 rfl
  · -- the final wait
    have hd := hv.senderDone (by rw [hp]; trivial)
    split at h
    · split at h <;> cases h
      exacts [hv, hv.frame hv.noErr nofun (fun _ => hd) nofun rfl le_rfl (.inl rfl) (hv.log_keep hd0 nofun rfl)]
    · -- the end: `Completed {transfers_sent} transfers`
      have hl0 : s.sender.log = [] := by rw [hv.log, if_neg hd0]
      cases h
      exact hv.frame hv.noErr nofun (fun _ => hd) nofun rfl le_rfl (.inl rfl) (by simp [hl0, hd])
  all_goals cases h

/-- Away from its `notify`, the receiver has sent every multiple of the interval it has counted. -/
theorem RingLive.logged (hv : RingLive cfg s) (hn : s.receiver.phase ≠ .notify) {c : Nat} (h1 : 0 < c)
    (h2 : c % cfg.interval = 0) (h3 : c ≤ s.receiver.received) : ⟨"receiver", progressMsg c⟩ ∈ s.toSender.log :=
  (hv.notified c h1 h2 h3).resolve_left fun h => hn h.1

/-- A receiver step keeps the invariant: it sends no more than one message to the sender, and the
`P:<c>` it owes when it counts a multiple of the interval is the one of its `notify`. -/
theorem RingLive.receiver_step (hv : RingLive cfg s) (h : receiverStep cfg s = some s') : RingLive cfg s' := by
  have hS := receiverStep_sender h
  have hdone : ∀ r, receiverLoopHead cfg r = .done → cfg.numTransfers ≤ r := fun r h => by
    unfold receiverLoopHead at h
    split at h
    · cases h
    · omega
  rcases hp : s.receiver.phase with p | _ | seq | _ | _ <;> simp only [receiverStep, hp] at h
  · -- the READY loop: at most a `READY` or the `DESCS:` message
    have hl := holderStep_toRequester "receiver" "sender" s.receiver.serialized p s.link
    rw [show holderStep "receiver" "sender" s.receiver.serialized p s.link =
      receiverReadyLoop s.receiver.serialized p s.link from rfl] at hl
    rcases hq : receiverReadyLoop s.receiver.serialized p s.link with ⟨q, l⟩
    rw [hq] at h hl
    have hk : l.toRequester.Kept ∧ l.toRequester.drained = s.toSender.drained ∧
        ∀ n ∈ s.toSender.log, n ∈ l.toRequester.log := by
      rcases hl with hl | hl | hl <;> rw [hl]
      · exact ⟨hv.kept, rfl, fun _ => id⟩
      all_goals exact ⟨hv.kept.send _, rfl, fun n hn => List.mem_append_left _ hn⟩
    have hn : ∀ c, 0 < c → c % cfg.interval = 0 → c ≤ s.receiver.received →
        ⟨"receiver", progressMsg c⟩ ∈ l.toRequester.log := fun c h1 h2 h3 =>
      hk.2.2 _ (hv.logged (by rw [hp]; nofun) h1 h2 h3)
    cases q <;> cases h
    · exact ⟨hv.noErr, hv.notCrashed, hv.senderDone, hdone _, hv.waiting, hk.1,
        fun c h1 h2 h3 => .inr (hn c h1 h2 h3), fun c hc => hv.covered c (hk.2.1 ▸ hc), hv.log⟩
    · exact ⟨hv.noErr, hv.notCrashed, hv.senderDone, nofun, hv.waiting, hk.1,
        fun c h1 h2 h3 => .inr (hn c h1 h2 h3), fun c hc => hv.covered c (hk.2.1 ▸ hc), hv.log⟩
  · -- the poll of the slot
    split at h <;> cases h
    · exact ⟨hv.noErr, hv.notCrashed, hv.senderDone, nofun, hv.waiting, hv.kept,
        fun c h1 h2 h3 => .inr (hv.logged (by rw [hp]; nofun) h1 h2 h3), hv.covered, hv.log⟩
    · exact hv
  · -- the transfer is counted: a multiple of the interval sends the receiver to its `notify`
    cases h
    refine ⟨hv.noErr, hv.notCrashed, hv.senderDone, fun h => ?_, hv.waiting, hv.kept, fun c h1 h2 h3 => ?_,
      hv.covered, hv.log⟩
    · simp only at h ⊢
      split at h
      · cases h
      · exact hdone _ h
    · simp only at h3 ⊢
      by_cases hc : c ≤ s.receiver.received
      · exact .inr (hv.logged (by rw [hp]; nofun) h1 h2 hc)
      · obtain rfl : c = s.receiver.received + 1 := by omega
        exact .inl ⟨if_pos h2, rfl⟩
  · -- the progress notification
    cases h
    refine ⟨hv.noErr, hv.notCrashed, hv.senderDone, hdone _, hv.waiting, hv.kept.send _, fun c h1 h2 h3 => .inr ?_,
      hv.covered, hv.log⟩
    simp only [Chan.send_log, List.mem_append, List.mem_singleton]
    rcases hv.notified c h1 h2 h3 with ⟨-, rfl⟩ | h
    exacts [.inr rfl, .inl h]
  · cases h

/-- Every step a run without faults may take keeps the invariant. -/
theorem RingLive.step (hv : RingLive cfg s) (hi : Inv cfg s) (hs : SlotInv cfg s) (hT : cfg.numTransfers < 2 ^ 64)
    {env : Env} (hl : env.lossy = false) (hf : env.faulty = false) {a : Act} (ha : env.allows a = true)
    (h : step cfg s a = some s') : RingLive cfg s' := by
  cases a with
  | sender r => exact hv.sender_step hi hs hT (by rintro rfl; simp [Env.allows, hf] at ha) h
  | receiver => exact hv.receiver_step h
  | land i =>
    simp only [NixlExamples.step, landStep] at h
    split at h <;> cases h
    exact hv.frame (Xfer.update_ne_err hv.noErr _ nofun) hv.notCrashed hv.senderDone hv.waiting rfl le_rfl (.inl rfl)
      hv.log
  | deliverToSender i dup =>
    simp only [NixlExamples.step, Option.map_eq_some'] at h
    obtain ⟨c, hc, rfl⟩ := h
    obtain ⟨-, -, -, hlog, hdr, -, -, -⟩ := Chan.deliver_cases hc
    exact ⟨hv.noErr, hv.notCrashed, hv.senderDone, hv.receiverDone, hv.waiting, hv.kept.deliver hc,
      hlog ▸ hv.notified, hdr ▸ hv.covered, hv.log⟩
  | deliverToReceiver i dup =>
    simp only [NixlExamples.step, Option.map_eq_some'] at h
    obtain ⟨c, -, rfl⟩ := h
    exact hv.frame hv.noErr hv.notCrashed hv.senderDone hv.waiting rfl le_rfl (.inl rfl) hv.log
  | fail i => simp [Env.allows, hf] at ha
  | loseToSender i => simp [Env.allows, hl] at ha
  | loseToReceiver i => simp [Env.allows, hl] at ha

end

end NixlExamples
