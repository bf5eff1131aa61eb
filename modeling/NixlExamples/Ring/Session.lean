import NixlExamples.Handshake.Loops
import NixlExamples.Metadata.Client
import NixlExamples.Ring.Config

/-!
# The streaming session

`sender_process` and `receiver_process` of `nixl_sender_receiver.py` as one transition system.  A
`Session` holds the local state of both processes, the header word of every slot of the receiver's
ring (the remote memory the sender's transfers write and the receiver polls and resets), the state of
each of the sender's pre-made transfer handles, and the notifications in both directions.

One step (`step`) is one atomic action of a party: a step of the sender (one `send_notif`,
`get_new_notifs`, `check_xfer_state`, header write or `transfer`, with the local computation around
it), a step of the receiver (one header read, the header reset, or one `send_notif`), the landing or
the failure of an in-flight transfer, and the delivery or the loss of a notification.  The transfer
engine and the network are nondeterministic: `transfer()` may report `PROC`, `DONE` or `ERR`, an
in-flight transfer may land or fail, and a notification may be delivered (possibly more than once) or
lost.  `Env` says which of the faults a run may contain.

The model starts after both agents are created and have each other's agent metadata: in etcd mode at
the descriptor handshake, in TCP mode (where the descriptors come from the metadata server) after the
sender's one `retrieve_descriptors`, whose result `Session.init` takes.  That call raises when the
server's reply does not fit in one `recv(4096)` (a blob of more than 3048 bytes) and returns `None`
when the receiver has not published yet; either way the sender ends before its main loop.  `Run` is
every run; `FedRun` the runs in which the descriptors reached the sender.
-/

namespace NixlExamples

/-- Where `sender_process` is. -/
inductive SenderPhase where
  /-- in the wait loop for the receiver's descriptors (etcd mode) -/
  | handshake (p : RequesterPhase)
  /-- at the head of the main loop -/
  | head
  /-- in the backpressure loop, about to drain -/
  | gate
  /-- spinning on `check_xfer_state` of the slot's handle -/
  | slotWait
  | writeHeader
  | issue
  /-- at the opportunistic drain after every `PROGRESS_UPDATE_INTERVAL`-th transfer -/
  | pollProgress
  /-- in the final wait for handle `i` -/
  | drain (i : Nat)
  | done
  /-- an exception ended the process -/
  | crashed
deriving DecidableEq, Repr

/-- Where `receiver_process` is. -/
inductive ReceiverPhase where
  /-- in the READY loop or at the `DESCS` send (etcd mode) -/
  | handshake (p : HolderPhase)
  /-- polling the header of the slot of the next transfer -/
  | poll
  /-- it has read `seq` there and leaves the poll loop -/
  | verify (seq : Nat)
  /-- about to send the progress notification -/
  | notify
  | done
deriving DecidableEq, Repr

/-- A pre-made transfer handle as `check_xfer_state` sees it.  On a `fresh` handle (never posted) it
raises, which the sender's `except` treats as free; `proc seq` is posted, carrying the header word
`seq`, and has not completed. -/
inductive Xfer where
  | fresh
  | proc (seq : Nat)
  | done
  | err
deriving DecidableEq, Repr

/-- What `transfer()` returns. -/
inductive Posted where
  | proc
  | done
  | err
deriving DecidableEq, Repr

/-- The sender's log lines that record a failed `transfer()` and the end of its run. -/
inductive SenderLog where
  /-- `[sender] Transfer buffer failed` -/
  | transferFailed
  /-- `[sender] Completed {transfers_sent} transfers ...` -/
  | completed (sent : Nat)
deriving DecidableEq, Repr

/-- The local state of `sender_process`. -/
structure Sender where
  phase : SenderPhase
  /-- `transfers_sent` -/
  sent : Nat
  /-- `receiver_progress` -/
  progress : Nat
  /-- `max_ahead` -/
  maxAhead : Int
  /-- what the sender passed to `deserialize_descs` -/
  descs : Option Bytes
  /-- the header word of each slot of the sender's own buffers -/
  localHdr : Nat → Nat
  log : List SenderLog

/-- The local state of `receiver_process`. -/
structure Receiver where
  phase : ReceiverPhase
  /-- `transfers_received` -/
  received : Nat
  /-- `sequence_mismatches` -/
  mismatches : Nat
  /-- what `get_serialized_descs` returned for the ring's descriptors -/
  serialized : Bytes

/-- Both processes, the receiver's ring headers, the sender's handles and the notifications. -/
structure Session where
  sender : Sender
  receiver : Receiver
  /-- the header word of each slot of the receiver's ring -/
  hdr : Nat → Nat
  /-- the sender's handle for each slot -/
  xfer : Nat → Xfer
  toSender : Chan
  toReceiver : Chan

/-- How the descriptors travel: notifications (`--use-etcd`) or the TCP metadata server. -/
inductive Mode where
  | etcd
  | tcp
deriving DecidableEq, Repr

/-- `f"P:{n}".encode()`. -/
def progressMsg (n : Nat) : Bytes := progressPrefix ++ decimal n

/-- `f"BUF_{i}".encode()`, the notification the engine delivers with a completed transfer on handle `i`. -/
def bufNotif (i : Nat) : Bytes := ascii "BUF_" ++ decimal i

/-- `while transfers_received < NUM_TRANSFERS`, at the receiver's loop head. -/
def receiverLoopHead (cfg : Config) (received : Nat) : ReceiverPhase :=
  if received < cfg.numTransfers then .poll else .done

namespace Session

/-- Where the sender starts: at the handshake in etcd mode; in TCP mode at its main loop when
`retrieve_descriptors` returned descriptors, and ended when the call raised or returned `None`
(`prep_xfer_dlist` raises on `None`). -/
def senderStart : Mode → Except ClientError (Option Bytes) → SenderPhase
  | .etcd, _ => .handshake (.waitDescs 0)
  | .tcp, .ok (some _) => .head
  | .tcp, _ => .crashed

theorem senderStart_cases (mode : Mode) (fetched : Except ClientError (Option Bytes)) :
    senderStart mode fetched = .handshake (.waitDescs 0) ∨ senderStart mode fetched = .head ∨
      senderStart mode fetched = .crashed := by
  unfold senderStart; split <;> simp

/-- Both processes past their set-up: in etcd mode at the handshake, in TCP mode the receiver at its
main loop, having published `serialized`, and the sender where `fetched`, the result of its
`retrieve_descriptors`, leaves it (`senderStart`).  Every header of the ring holds `SENTINEL`. -/
def init (cfg : Config) (mode : Mode) (serialized : Bytes) (fetched : Except ClientError (Option Bytes)) :
    Session where
  sender :=
    { phase := senderStart mode fetched
      sent := 0, progress := 0, maxAhead := 0
      descs := match mode with
        | .etcd => none
        | .tcp => match fetched with
          | .ok d => d
          | .error _ => none
      localHdr := fun _ => 0, log := [] }
  receiver :=
    { phase := match mode with
        | .etcd => .handshake .sendReady
        | .tcp => receiverLoopHead cfg 0
      received := 0, mismatches := 0, serialized := serialized }
  hdr := fun _ => sentinel
  xfer := fun _ => .fresh
  toSender := .empty
  toReceiver := .empty

/-- The TCP start the metadata server leads to, when the descriptors' key holds the base64 text of
`blob`: a blob of 1 to 3048 bytes starts the sender at its main loop with exactly that blob, and a longer
one makes `retrieve_descriptors` raise, so the sender ends before its main loop. -/
theorem init_retrieveDescriptors (cfg : Config) (serialized : Bytes) {lim : Limits} {st : Store} {key : PyStr}
    {blob : Bytes} (h0 : 0 < lim.depth) (hk : ScalarStr key) (hv : st.get (.str key) = .str (b64Str blob)) :
    (blob ≠ [] → blob.length ≤ 3048 →
        (init cfg .tcp serialized (retrieveDescriptors lim st key).1).sender.phase = .head ∧
          (init cfg .tcp serialized (retrieveDescriptors lim st key).1).sender.descs = some blob) ∧
      (3049 ≤ blob.length →
        (init cfg .tcp serialized (retrieveDescriptors lim st key).1).sender.phase = .crashed) := by
  refine ⟨fun hne hlen => ?_, fun hlen => ?_⟩ <;> unfold retrieveDescriptors
  · rw [fetchBlob_found h0 hk hv hne hlen]; exact ⟨rfl, rfl⟩
  · rw [fetchBlob_large h0 hk hv hlen]; rfl

/-- The notifications between the peers, as the handshake sees them. -/
def link (s : Session) : Link := ⟨s.toReceiver, s.toSender⟩

end Session

/-- One step of `sender_process`; `r` is what `transfer()` returns when this step posts a transfer.
`none` once the sender has exited. -/
def senderStep (cfg : Config) (s : Session) (r : Posted) : Option Session :=
  let S := s.sender
  let slot := S.sent % cfg.numBuffers
  match S.phase with
  | .handshake p =>
    match senderDescsLoop p s.link with
    | (.inl p', l) => some { s with toReceiver := l.toHolder, toSender := l.toRequester,
                                    sender := { S with phase := .handshake p' } }
    | (.inr d, l) => some { s with toReceiver := l.toHolder, toSender := l.toRequester,
                                   sender := { S with phase := .head, descs := some d } }
  | .head =>
    if S.sent < cfg.numTransfers then
      let ahead : Int := S.sent - S.progress
      some { s with sender := { S with maxAhead := max S.maxAhead ahead,
                                       phase := if cfg.threshold ≤ ahead then .gate else .slotWait } }
    else some { s with sender := { S with phase := .drain 0 } }
  | .gate =>
    match scanProgress S.progress (fromPeer "receiver" s.toSender.queue) with
    | some p =>
      some { s with toSender := s.toSender.drain,
                    sender := { S with progress := p,
                                       phase := if cfg.threshold ≤ (S.sent : Int) - p then .gate else .slotWait } }
    | none => some { s with toSender := s.toSender.drain, sender := { S with phase := .crashed } }
  | .slotWait =>
    match s.xfer slot with
    | .proc _ => some s
    | _ => some { s with sender := { S with phase := .writeHeader } }
  | .writeHeader =>
    if S.sent < 2 ^ 64 then
      some { s with sender := { S with localHdr := Function.update S.localHdr slot S.sent, phase := .issue } }
    else some { s with sender := { S with phase := .crashed } }
  | .issue =>
    let next := if (S.sent + 1) % cfg.interval = 0 then SenderPhase.pollProgress else .head
    match r with
    | .err => some { s with xfer := Function.update s.xfer slot .err,
                            sender := { S with log := S.log ++ [.transferFailed], phase := .drain 0 } }
    | .proc => some { s with xfer := Function.update s.xfer slot (.proc (S.localHdr slot)),
                             sender := { S with sent := S.sent + 1, phase := next } }
    | .done => some { s with xfer := Function.update s.xfer slot .done,
                             hdr := Function.update s.hdr slot (S.localHdr slot),
                             toReceiver := s.toReceiver.send ⟨"sender", bufNotif slot⟩,
                             sender := { S with sent := S.sent + 1, phase := next } }
  | .pollProgress =>
    match scanProgress S.progress (fromPeer "receiver" s.toSender.queue) with
    | some p => some { s with toSender := s.toSender.drain, sender := { S with progress := p, phase := .head } }
    | none => some { s with toSender := s.toSender.drain, sender := { S with phase := .crashed } }
  | .drain i =>
    if i < cfg.numBuffers then
      match s.xfer i with
      | .proc _ => some s
      | _ => some { s with sender := { S with phase := .drain (i + 1) } }
    else some { s with sender := { S with log := S.log ++ [.completed S.sent], phase := .done } }
  | .done => none
  | .crashed => none

/-- One step of `receiver_process`; `none` once it has finished. -/
def receiverStep (cfg : Config) (s : Session) : Option Session :=
  let R := s.receiver
  let slot := R.received % cfg.numBuffers
  match R.phase with
  | .handshake p =>
    match receiverReadyLoop R.serialized p s.link with
    | (some p', l) => some { s with toReceiver := l.toHolder, toSender := l.toRequester,
                                    receiver := { R with phase := .handshake p' } }
    | (none, l) => some { s with toReceiver := l.toHolder, toSender := l.toRequester,
                                 receiver := { R with phase := receiverLoopHead cfg R.received } }
  | .poll =>
    if s.hdr slot = R.received then some { s with receiver := { R with phase := .verify (s.hdr slot) } }
    else some s
  | .verify seq =>
    some { s with hdr := Function.update s.hdr slot sentinel,
                  receiver := { R with received := R.received + 1,
                                       mismatches := if seq ≠ R.received then R.mismatches + 1 else R.mismatches,
                                       phase := if (R.received + 1) % cfg.interval = 0 then .notify
                                                else receiverLoopHead cfg (R.received + 1) } }
  | .notify =>
    some { s with toSender := s.toSender.send ⟨"receiver", progressMsg R.received⟩,
                  receiver := { R with phase := receiverLoopHead cfg R.received } }
  | .done => none

/-- The in-flight transfer on handle `i` lands: its header word reaches slot `i` of the ring,
`check_xfer_state` reports `DONE`, and the engine sends the transfer's notification.  The whole
8-byte word lands, and nothing beyond the slot: the `WRITE` of `BUFFER_SIZE` bytes does that when
`8 ≤ BUFFER_SIZE ≤ BUFFER_ENTRY_SIZE` (`header_transfer`), and the results that rest on what the
receiver reads take that range as a hypothesis.  A shorter buffer lands only part of the word
(`header_truncated`). -/
def landStep (s : Session) (i : Nat) : Option Session :=
  match s.xfer i with
  | .proc v => some { s with hdr := Function.update s.hdr i v, xfer := Function.update s.xfer i .done,
                             toReceiver := s.toReceiver.send ⟨"sender", bufNotif i⟩ }
  | _ => none

/-- The in-flight transfer on handle `i` fails: `check_xfer_state` reports `ERR`. -/
def failStep (s : Session) (i : Nat) : Option Session :=
  match s.xfer i with
  | .proc _ => some { s with xfer := Function.update s.xfer i .err }
  | _ => none

/-- The actions of a session. -/
inductive Act where
  | sender (r : Posted)
  | receiver
  | land (i : Nat)
  | fail (i : Nat)
  | deliverToSender (i : Nat) (dup : Bool)
  | deliverToReceiver (i : Nat) (dup : Bool)
  | loseToSender (i : Nat)
  | loseToReceiver (i : Nat)
deriving DecidableEq, Repr

/-- One step of the session. -/
def step (cfg : Config) (s : Session) : Act → Option Session
  | .sender r => senderStep cfg s r
  | .receiver => receiverStep cfg s
  | .land i => landStep s i
  | .fail i => failStep s i
  | .deliverToSender i dup => (s.toSender.deliver i dup).map fun c => { s with toSender := c }
  | .deliverToReceiver i dup => (s.toReceiver.deliver i dup).map fun c => { s with toReceiver := c }
  | .loseToSender i => (s.toSender.lose i).map fun c => { s with toSender := c }
  | .loseToReceiver i => (s.toReceiver.lose i).map fun c => { s with toReceiver := c }

/-! ### Single steps

The branches of `senderStep` and `receiverStep` that later proofs take, each as the state it returns. -/

section
variable {cfg : Config} {s : Session}

end

/-- Which faults a run may contain: lost notifications, transfer errors. -/
structure Env where
  lossy : Bool
  faulty : Bool

/-- The actions `env` allows. -/
def Env.allows (env : Env) : Act → Bool
  | .sender .err => env.faulty
  | .fail _ => env.faulty
  | .loseToSender _ => env.lossy
  | .loseToReceiver _ => env.lossy
  | _ => true

/-- The states reachable from `s₀` by steps `env` allows. -/
inductive Reachable (cfg : Config) (env : Env) (s₀ : Session) : Session → Prop
  | refl : Reachable cfg env s₀ s₀
  | step {s s' : Session} (a : Act) : Reachable cfg env s₀ s → env.allows a = true →
      step cfg s a = some s' → Reachable cfg env s₀ s'

/-- The state after the actions `acts`, if each is enabled in turn. -/
def run (cfg : Config) : Session → List Act → Option Session
  | s, [] => some s
  | s, a :: acts => (step cfg s a).bind fun s' => run cfg s' acts

theorem reachable_of_run {cfg : Config} {env : Env} {s₀ s : Session} :
    ∀ {acts : List Act} {s' : Session}, Reachable cfg env s₀ s → (∀ a ∈ acts, env.allows a = true) →
      run cfg s acts = some s' → Reachable cfg env s₀ s'
  | [], _, hs, _, h => by cases h; exact hs
  | a :: acts, s', hs, ha, h => by
    simp only [run, Option.bind_eq_some] at h
    obtain ⟨s₁, h₁, h₂⟩ := h
    exact reachable_of_run (hs.step a (ha a (List.mem_cons_self _ _)) h₁)
      (fun b hb => ha b (List.mem_cons_of_mem _ hb)) h₂

theorem Reachable.trans {cfg : Config} {env : Env} {s₀ s s' : Session} (h₁ : Reachable cfg env s₀ s)
    (h₂ : Reachable cfg env s s') : Reachable cfg env s₀ s' := by
  induction h₂ with
  | refl => exact h₁
  | step a _ ha hs ih => exact ih.step a ha hs

theorem Reachable.single {cfg : Config} {env : Env} {s s' : Session} (a : Act) (ha : env.allows a = true)
    (h : NixlExamples.step cfg s a = some s') : Reachable cfg env s s' :=
  .step a .refl ha h

/-- The states of a run of the two processes, whatever `retrieve_descriptors` returned in TCP mode. -/
def Run (cfg : Config) (env : Env) (s : Session) : Prop :=
  ∃ mode serialized fetched, Reachable cfg env (Session.init cfg mode serialized fetched) s

/-- The states of a run in which the descriptors reached the sender: in TCP mode
`retrieve_descriptors` returned them. -/
def FedRun (cfg : Config) (env : Env) (s : Session) : Prop :=
  ∃ mode serialized d, Reachable cfg env (Session.init cfg mode serialized (.ok (some d))) s

theorem Run.reach {cfg : Config} {env : Env} {s s' : Session} (hr : Run cfg env s) (h : Reachable cfg env s s') :
    Run cfg env s' :=
  let ⟨mode, serialized, fetched, h₀⟩ := hr
  ⟨mode, serialized, fetched, h₀.trans h⟩

theorem FedRun.reach {cfg : Config} {env : Env} {s s' : Session} (hr : FedRun cfg env s)
    (h : Reachable cfg env s s') : FedRun cfg env s' :=
  let ⟨mode, serialized, d, h₀⟩ := hr
  ⟨mode, serialized, d, h₀.trans h⟩

theorem FedRun.run {cfg : Config} {env : Env} {s : Session} (hr : FedRun cfg env s) : Run cfg env s :=
  let ⟨mode, serialized, d, h₀⟩ := hr
  ⟨mode, serialized, .ok (some d), h₀⟩

end NixlExamples
