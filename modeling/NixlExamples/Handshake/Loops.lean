import NixlExamples.Notif.Channel

/-!
# The descriptor handshake (etcd mode)

Both examples exchange the descriptors of the receiving side with the same two loops once each side
has loaded the other's metadata.  The *holder* (`receiver_process`, `target_process`) sends `READY`
and drains its notifications until it sees a `READY` from its peer, then sends one `DESCS:<payload>`.
The *requester* (`sender_process`, `initiator_process`) sends `READY` every fifth iteration and drains
three times per iteration until a drained batch holds a `DESCS:` message, whose suffix it passes to
`deserialize_descs`.

`holderStep` and `requesterStep` are one atomic step of these loops, parametric in the two agent
names; the four loops of the sources are their instances.  `Handshake` and `HsStep` are the two loops
as a system of their own: its steps are the loops', the network's (a delivery, possibly keeping a
copy in flight; no loss), and, once a side has left its loop, whatever that side does afterwards
with notifications (it drains, and sends anything but a `DESCS:` message).  Both examples refine it
(`Ring/HandshakeView.lean` for the streaming example).
-/

namespace NixlExamples

/-- Where the holder of the descriptors is in its loop. -/
inductive HolderPhase where
  | sendReady
  | checkReady
  | sendDescs
deriving DecidableEq, Repr

/-- Where the requester of the descriptors is in its loop: at the head of iteration `readyCount`, or
at the `tries`-th of its three drains of that iteration. -/
inductive RequesterPhase where
  | waitDescs (readyCount : Nat)
  | pollDescs (readyCount tries : Nat)
deriving DecidableEq, Repr

/-- The notifications between the two peers. -/
structure Link where
  toHolder : Chan
  toRequester : Chan
deriving DecidableEq, Repr

/-- One step of the holder `self` with peer `peer`: `send_notif(peer, b"READY")`, then
`get_new_notifs()` and the test `peer in notifs and b"READY" in notifs[peer]`, then one
`send_notif(peer, b"DESCS:" + payload)`.  The phase is `none` once it has left the loop. -/
def holderStep (self peer : String) (payload : Bytes) : HolderPhase → Link → Option HolderPhase × Link
  | .sendReady, l => (some .checkReady, { l with toRequester := l.toRequester.send ⟨self, readyMsg⟩ })
  | .checkReady, l =>
    (some (if readyMsg ∈ fromPeer peer l.toHolder.queue then .sendDescs else .sendReady),
      { l with toHolder := l.toHolder.drain })
  | .sendDescs, l => (none, { l with toRequester := l.toRequester.send ⟨self, descsPrefix ++ payload⟩ })

/-- One step of the requester `self` with peer `peer`: at the head of an iteration `READY` when
`ready_count % 5 == 0`; then up to three `get_new_notifs()`, each scanned for a `DESCS:` message.
`.inr p` once it has taken the payload `p`. -/
def requesterStep (self peer : String) : RequesterPhase → Link → (RequesterPhase ⊕ Bytes) × Link
  | .waitDescs rc, l =>
    (.inl (.pollDescs (rc + 1) 0),
      if rc % 5 = 0 then { l with toHolder := l.toHolder.send ⟨self, readyMsg⟩ } else l)
  | .pollDescs rc k, l =>
    (match scanDescs (fromPeer peer l.toRequester.queue) with
      | some p => .inr p
      | none => .inl (if k + 1 < 3 then .pollDescs rc (k + 1) else .waitDescs rc),
      { l with toRequester := l.toRequester.drain })

@[simp] theorem holderStep_sendReady (self peer : String) (payload : Bytes) (l : Link) :
    holderStep self peer payload .sendReady l =
      (some .checkReady, { l with toRequester := l.toRequester.send ⟨self, readyMsg⟩ }) := rfl

@[simp] theorem holderStep_checkReady (self peer : String) (payload : Bytes) (l : Link) :
    holderStep self peer payload .checkReady l =
      (some (if readyMsg ∈ fromPeer peer l.toHolder.queue then .sendDescs else .sendReady),
        { l with toHolder := l.toHolder.drain }) := rfl

@[simp] theorem holderStep_sendDescs (self peer : String) (payload : Bytes) (l : Link) :
    holderStep self peer payload .sendDescs l =
      (none, { l with toRequester := l.toRequester.send ⟨self, descsPrefix ++ payload⟩ }) := rfl

@[simp] theorem requesterStep_waitDescs (self peer : String) (rc : Nat) (l : Link) :
    requesterStep self peer (.waitDescs rc) l =
      (.inl (.pollDescs (rc + 1) 0),
        if rc % 5 = 0 then { l with toHolder := l.toHolder.send ⟨self, readyMsg⟩ } else l) := rfl

@[simp] theorem requesterStep_pollDescs (self peer : String) (rc k : Nat) (l : Link) :
    requesterStep self peer (.pollDescs rc k) l =
      (match scanDescs (fromPeer peer l.toRequester.queue) with
        | some p => .inr p
        | none => .inl (if k + 1 < 3 then .pollDescs rc (k + 1) else .waitDescs rc),
        { l with toRequester := l.toRequester.drain }) := rfl

/-- A holder step sends at most one `READY` or its `DESCS:` message to the requester. -/
theorem holderStep_toRequester (self peer : String) (payload : Bytes) (p : HolderPhase) (l : Link) :
    (holderStep self peer payload p l).2.toRequester = l.toRequester ∨
      (holderStep self peer payload p l).2.toRequester = l.toRequester.send ⟨self, readyMsg⟩ ∨
      (holderStep self peer payload p l).2.toRequester =
        l.toRequester.send ⟨self, descsPrefix ++ payload⟩ := by
  cases p <;> simp

/-- A requester step leaves its own channel as it is, or drains it. -/
theorem requesterStep_toRequester (self peer : String) (p : RequesterPhase) (l : Link) :
    (requesterStep self peer p l).2.toRequester = l.toRequester ∨
      (requesterStep self peer p l).2.toRequester = l.toRequester.drain := by
  cases p with
  | waitDescs rc => left; simp only [requesterStep_waitDescs]; split <;> rfl
  | pollDescs rc k => right; rfl

/-- The READY loop of `receiver_process`. -/
def receiverReadyLoop : Bytes → HolderPhase → Link → Option HolderPhase × Link :=
  holderStep "receiver" "sender"

/-- The READY loop of `target_process`. -/
def targetReadyLoop : Bytes → HolderPhase → Link → Option HolderPhase × Link :=
  holderStep "target" "initiator"

/-- The DESCS wait loop of `sender_process`. -/
def senderDescsLoop : RequesterPhase → Link → (RequesterPhase ⊕ Bytes) × Link :=
  requesterStep "sender" "receiver"

/-- The DESCS wait loop of `initiator_process`. -/
def initiatorDescsLoop : RequesterPhase → Link → (RequesterPhase ⊕ Bytes) × Link :=
  requesterStep "initiator" "target"

/-! ### The handshake as a system -/

/-- The two peers and the notifications between them.  A side is `none` once it has left its loop;
`descs` is what the requester passed to `deserialize_descs`, `payload` what the holder got from
`get_serialized_descs`. -/
structure Handshake where
  holder : Option HolderPhase
  requester : Option RequesterPhase
  descs : Option Bytes
  payload : Bytes
  link : Link

namespace Handshake

/-- Both sides at the start of their loops, no notification sent. -/
def init (payload : Bytes) : Handshake :=
  ⟨some .sendReady, some (.waitDescs 0), none, payload, ⟨.empty, .empty⟩⟩

/-- The state after a step of the requester's loop. -/
def afterRequester (h : Handshake) : (RequesterPhase ⊕ Bytes) × Link → Handshake
  | (.inl p, l) => { h with requester := some p, link := l }
  | (.inr d, l) => { h with requester := none, descs := some d, link := l }

end Handshake

/-- One step of the handshake between the holder `hn` and the requester `rn`, or of either side after
it has left its loop. -/
inductive HsStep (hn rn : String) : Handshake → Handshake → Prop
  | holder {h : Handshake} {p : HolderPhase} (hp : h.holder = some p) :
      HsStep hn rn h { h with holder := (holderStep hn rn h.payload p h.link).1,
                              link := (holderStep hn rn h.payload p h.link).2 }
  | requester {h : Handshake} {p : RequesterPhase} (hp : h.requester = some p) :
      HsStep hn rn h (h.afterRequester (requesterStep rn hn p h.link))
  | deliverToHolder {h : Handshake} {i : Nat} {dup : Bool} {c : Chan}
      (hc : h.link.toHolder.deliver i dup = some c) :
      HsStep hn rn h { h with link := { h.link with toHolder := c } }
  | deliverToRequester {h : Handshake} {i : Nat} {dup : Bool} {c : Chan}
      (hc : h.link.toRequester.deliver i dup = some c) :
      HsStep hn rn h { h with link := { h.link with toRequester := c } }
  | holderSends {h : Handshake} (m : Bytes) (hl : h.holder = none) (hm : descsPrefix.isPrefixOf m = false) :
      HsStep hn rn h { h with link := { h.link with toRequester := h.link.toRequester.send ⟨hn, m⟩ } }
  | holderDrains {h : Handshake} (hl : h.holder = none) :
      HsStep hn rn h { h with link := { h.link with toHolder := h.link.toHolder.drain } }
  | requesterSends {h : Handshake} (m : Bytes) (hl : h.requester = none) :
      HsStep hn rn h { h with link := { h.link with toHolder := h.link.toHolder.send ⟨rn, m⟩ } }
  | requesterDrains {h : Handshake} (hl : h.requester = none) :
      HsStep hn rn h { h with link := { h.link with toRequester := h.link.toRequester.drain } }

@[simp] theorem afterRequester_inl (h : Handshake) (p : RequesterPhase) (l : Link) :
    h.afterRequester (.inl p, l) = { h with requester := some p, link := l } := rfl

@[simp] theorem afterRequester_inr (h : Handshake) (d : Bytes) (l : Link) :
    h.afterRequester (.inr d, l) = { h with requester := none, descs := some d, link := l } := rfl

/-- No step of the handshake changes what the holder got from `get_serialized_descs`. -/
theorem HsStep.payload_eq {hn rn : String} {h h' : Handshake} (hs : HsStep hn rn h h') : h'.payload = h.payload := by
  cases hs with
  | @requester p _ =>
    generalize requesterStep rn hn p h.link = x
    rcases x with ⟨_ | _, _⟩ <;> rfl
  | _ => rfl

/-- The states of the handshake between `hn` and `rn` reachable from `Handshake.init`. -/
inductive HsReach (hn rn : String) : Handshake → Prop
  | init (payload : Bytes) : HsReach hn rn (Handshake.init payload)
  | step {h h' : Handshake} : HsReach hn rn h → HsStep hn rn h h' → HsReach hn rn h'

end NixlExamples
