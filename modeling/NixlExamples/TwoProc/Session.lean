import NixlExamples.Ring.Session

/-!
# The two-process example

`target_process` and `initiator_process` of `nixl_api_2proc.py` as one transition system, from the
point where both agents are created and their memory registered.  In etcd mode the target's
descriptors travel by the READY/DESCS handshake of `Handshake/Loops.lean` (`targetReadyLoop`,
`initiatorDescsLoop`); in TCP mode the initiator starts with what `retrieve_descriptors` returned,
`None` included.  Then the initiator makes two transfers, each created, posted with `transfer()` and
polled with `check_xfer_state` until it reports `DONE` or `ERR`: a `READ` with the notification
`UUID1`, then a `WRITE` with `UUID2`.  The target polls `check_remote_xfer_done("initiator", ...)` for
`UUID1`, then for `UUID2`, with no time limit, and `main` joins both processes with none either.

As in the streaming example (`Ring/Session.lean`), `transfer()` may report `PROC`, `DONE` or `ERR`, a
posted transfer may complete or fail, the engine sends a transfer's notification to the target when
it completes, and the network may delay, reorder, duplicate or lose notifications; `Env` says which
faults a run may contain.
-/

namespace NixlExamples

/-- `b"UUID1"` and `b"UUID2"`, the notifications of the initiator's first and second transfer. -/
def xferTag (k : Nat) : Bytes := if k = 0 then ascii "UUID1" else ascii "UUID2"

/-- Where `target_process` is. -/
inductive TargetPhase where
  /-- in the READY loop or at the `DESCS` send (etcd mode) -/
  | handshake (p : HolderPhase)
  /-- polling `check_remote_xfer_done` for the notification of transfer `k` -/
  | waitXfer (k : Nat)
  | done
deriving DecidableEq, Repr

/-- Where `initiator_process` is. -/
inductive InitiatorPhase where
  /-- in the wait loop for the target's descriptors (etcd mode) -/
  | handshake (p : RequesterPhase)
  /-- creating transfer `k` and posting it with `transfer()` -/
  | post (k : Nat)
  /-- polling `check_xfer_state` of transfer `k` -/
  | wait (k : Nat)
  /-- past both transfers and the cleanup -/
  | done
  /-- returned after logging an error -/
  | failed
  /-- an exception ended the process -/
  | crashed
deriving DecidableEq, Repr

/-- A transfer handle of the initiator as `check_xfer_state` reports it. -/
inductive HandleState where
  /-- not created yet -/
  | unposted
  | proc
  | done
  | err
deriving DecidableEq, Repr

/-- The initiator's error log lines. -/
inductive InitiatorLog where
  /-- `Transfer failed immediately` (`k = 0`), `Transfer 2 failed immediately` (`k = 1`) -/
  | failedImmediately (k : Nat)
  /-- `Transfer got to Error state` (`k = 0`), `Transfer 2 got to Error state` (`k = 1`) -/
  | errorState (k : Nat)
deriving DecidableEq, Repr

/-- The local state of `target_process`. -/
structure Target where
  phase : TargetPhase
  /-- what `get_serialized_descs(target_xfer_descs)` returns -/
  serialized : Bytes
  /-- `self.notifs` of the target agent: what `update_notifs` collected and
  `check_remote_xfer_done` has not taken -/
  notifs : List Notif

/-- The local state of `initiator_process`. -/
structure Initiator where
  phase : InitiatorPhase
  /-- `target_xfer_descs`: the bytes handed to `deserialize_descs`, `none` for `None` -/
  descs : Option Bytes
  log : List InitiatorLog

/-- Both processes, the initiator's two handles and the notifications. -/
structure TwoProc where
  target : Target
  initiator : Initiator
  /-- the handle of transfer `k` -/
  xfer : Nat → HandleState
  toTarget : Chan
  toInitiator : Chan

namespace TwoProc

/-- Both processes past their set-up.  In etcd mode both are at the handshake; in TCP mode the
target has published and waits for `UUID1`, and the initiator, with `fetched` from
`retrieve_descriptors`, is at its first transfer. -/
def init (mode : Mode) (serialized : Bytes) (fetched : Option Bytes) : TwoProc where
  target :=
    { phase := match mode with
        | .etcd => .handshake .sendReady
        | .tcp => .waitXfer 0
      serialized := serialized, notifs := [] }
  initiator :=
    { phase := match mode with
        | .etcd => .handshake (.waitDescs 0)
        | .tcp => .post 0
      descs := match mode with
        | .etcd => none
        | .tcp => fetched
      log := [] }
  xfer := fun _ => .unposted
  toTarget := .empty
  toInitiator := .empty

/-- The notifications between the peers, as the handshake sees them: the target holds the
descriptors. -/
def link (s : TwoProc) : Link := ⟨s.toTarget, s.toInitiator⟩

end TwoProc

/-- `check_remote_xfer_done("initiator", tag)` on the notifications `notifs` it has collected: the
first one from the initiator that starts with `tag` is taken out, and the call returns `True`. -/
def takeTagged (tag : Bytes) (notifs : List Notif) : Option (List Notif) :=
  (notifs.find? fun n => n.src == "initiator" && tag.isPrefixOf n.msg).map notifs.erase

/-- One step of `target_process`; `none` once it has finished. -/
def targetStep (s : TwoProc) : Option TwoProc :=
  let T := s.target
  match T.phase with
  | .handshake p =>
    match targetReadyLoop T.serialized p s.link with
    | (some p', l) => some { s with toTarget := l.toHolder, toInitiator := l.toRequester,
                                    target := { T with phase := .handshake p' } }
    | (none, l) => some { s with toTarget := l.toHolder, toInitiator := l.toRequester,
                                 target := { T with phase := .waitXfer 0 } }
  | .waitXfer k =>
    let notifs := T.notifs ++ s.toTarget.queue
    match takeTagged (xferTag k) notifs with
    | some rest => some { s with toTarget := s.toTarget.drain,
                                 target := { T with notifs := rest, phase := if k = 0 then .waitXfer 1 else .done } }
    | none => some { s with toTarget := s.toTarget.drain, target := { T with notifs := notifs } }
  | .done => none

/-- One step of `initiator_process`; `r` is what `transfer()` returns when this step posts a transfer.
Creating a transfer on the descriptors `None` raises. `none` once the initiator has exited. -/
def initiatorStep (s : TwoProc) (r : Posted) : Option TwoProc :=
  let I := s.initiator
  match I.phase with
  | .handshake p =>
    match initiatorDescsLoop p s.link with
    | (.inl p', l) => some { s with toTarget := l.toHolder, toInitiator := l.toRequester,
                                    initiator := { I with phase := .handshake p' } }
    | (.inr d, l) => some { s with toTarget := l.toHolder, toInitiator := l.toRequester,
                                   initiator := { I with phase := .post 0, descs := some d } }
  | .post k =>
    match I.descs with
    | none => some { s with initiator := { I with phase := .crashed } }
    | some _ =>
      match r with
      | .err => some { s with xfer := Function.update s.xfer k .err,
                              initiator := { I with phase := .failed, log := I.log ++ [.failedImmediately k] } }
      | .proc => some { s with xfer := Function.update s.xfer k .proc, initiator := { I with phase := .wait k } }
      | .done => some { s with xfer := Function.update s.xfer k .done,
                               toTarget := s.toTarget.send ⟨"initiator", xferTag k⟩,
                               initiator := { I with phase := .wait k } }
  | .wait k =>
    match s.xfer k with
    | .err => some { s with initiator := { I with phase := .failed, log := I.log ++ [.errorState k] } }
    | .done => some { s with initiator := { I with phase := if k = 0 then .post 1 else .done } }
    | _ => some s
  | .done | .failed | .crashed => none

namespace TwoProc

/-- The posted transfer `k` completes: `check_xfer_state` reports `DONE` and the engine sends its
notification to the target. -/
def land (s : TwoProc) (k : Nat) : Option TwoProc :=
  match s.xfer k with
  | .proc => some { s with xfer := Function.update s.xfer k .done,
                           toTarget := s.toTarget.send ⟨"initiator", xferTag k⟩ }
  | _ => none

/-- The posted transfer `k` fails: `check_xfer_state` reports `ERR`. -/
def fail (s : TwoProc) (k : Nat) : Option TwoProc :=
  match s.xfer k with
  | .proc => some { s with xfer := Function.update s.xfer k .err }
  | _ => none

/-- The actions of the two-process example. -/
inductive Act where
  | target
  | initiator (r : Posted)
  | land (k : Nat)
  | fail (k : Nat)
  | deliverToTarget (i : Nat) (dup : Bool)
  | deliverToInitiator (i : Nat) (dup : Bool)
  | loseToTarget (i : Nat)
  | loseToInitiator (i : Nat)
deriving DecidableEq, Repr

/-- One step. -/
def step (s : TwoProc) : Act → Option TwoProc
  | .target => targetStep s
  | .initiator r => initiatorStep s r
  | .land k => s.land k
  | .fail k => s.fail k
  | .deliverToTarget i dup => (s.toTarget.deliver i dup).map fun c => { s with toTarget := c }
  | .deliverToInitiator i dup => (s.toInitiator.deliver i dup).map fun c => { s with toInitiator := c }
  | .loseToTarget i => (s.toTarget.lose i).map fun c => { s with toTarget := c }
  | .loseToInitiator i => (s.toInitiator.lose i).map fun c => { s with toInitiator := c }

/-- The actions `env` allows. -/
def Act.allowed (env : Env) : Act → Bool
  | .initiator .err => env.faulty
  | .fail _ => env.faulty
  | .loseToTarget _ => env.lossy
  | .loseToInitiator _ => env.lossy
  | _ => true

/-- The states reachable from `s₀` by steps `env` allows. -/
inductive Reachable (env : Env) (s₀ : TwoProc) : TwoProc → Prop
  | refl : Reachable env s₀ s₀
  | step {s s' : TwoProc} (a : Act) : Reachable env s₀ s → a.allowed env = true → s.step a = some s' →
      Reachable env s₀ s'

/-- The state after the actions `acts`, if each is enabled in turn. -/
def run : TwoProc → List Act → Option TwoProc
  | s, [] => some s
  | s, a :: acts => (s.step a).bind fun s' => run s' acts

theorem reachable_of_run {env : Env} {s₀ s : TwoProc} :
    ∀ {acts : List Act} {s' : TwoProc}, Reachable env s₀ s → (∀ a ∈ acts, a.allowed env = true) →
      run s acts = some s' → Reachable env s₀ s'
  | [], _, hs, _, h => by cases h; exact hs
  | a :: acts, s', hs, ha, h => by
    simp only [run, Option.bind_eq_some] at h
    obtain ⟨s₁, h₁, h₂⟩ := h
    exact reachable_of_run (hs.step a (ha a (List.mem_cons_self _ _)) h₁)
      (fun b hb => ha b (List.mem_cons_of_mem _ hb)) h₂

/-- A run that goes through reaches a state, and what is computed of it holds there. -/
theorem exists_of_run {env : Env} {s₀ : TwoProc} {acts : List Act} {β : Type} {f : TwoProc → β} {b : β}
    (ha : ∀ a ∈ acts, a.allowed env = true) (h : (run s₀ acts).map f = some b) :
    ∃ s, Reachable env s₀ s ∧ f s = b := by
  obtain ⟨s, hs, rfl⟩ := Option.map_eq_some'.1 h
  exact ⟨s, reachable_of_run .refl ha hs, rfl⟩

theorem Reachable.trans {env : Env} {s₀ s s' : TwoProc} (h₁ : Reachable env s₀ s) (h₂ : Reachable env s s') :
    Reachable env s₀ s' := by
  induction h₂ with
  | refl => exact h₁
  | step a _ ha hs ih => exact ih.step a ha hs

end TwoProc

/-! ### What each step changes -/

/-- A step of the handshake's requester sends at most a `READY` to the holder. -/
theorem requesterStep_toHolder (self peer : String) (p : RequesterPhase) (l : Link) :
    (requesterStep self peer p l).2.toHolder = l.toHolder ∨
      (requesterStep self peer p l).2.toHolder = l.toHolder.send ⟨self, readyMsg⟩ := by
  cases p with
  | waitDescs rc => simp only [requesterStep_waitDescs]; split <;> simp
  | pollDescs rc k => exact .inl rfl

/-- A step of the handshake's holder leaves its own channel as it is, or drains it. -/
theorem holderStep_toHolder (self peer : String) (payload : Bytes) (p : HolderPhase) (l : Link) :
    (holderStep self peer payload p l).2.toHolder = l.toHolder ∨
      (holderStep self peer payload p l).2.toHolder = l.toHolder.drain := by
  cases p <;> simp

/-- What the engine does to the handles: it completes or fails posted transfers, and no other. -/
def EngineMove (x x' : Nat → HandleState) : Prop :=
  ∀ k, x' k = x k ∨ x k = .proc ∧ (x' k = .done ∨ x' k = .err)

namespace EngineMove

variable {x x' : Nat → HandleState} {k : Nat}

theorem refl (x : Nat → HandleState) : EngineMove x x := fun _ => .inl rfl

theorem update (hk : x k = .proc) {v : HandleState} (hv : v = .done ∨ v = .err) :
    EngineMove x (Function.update x k v) := by
  intro j
  by_cases hj : j = k
  · subst hj; exact .inr ⟨hk, by simpa using hv⟩
  · exact .inl (Function.update_noteq hj _ _)

theorem done (hm : EngineMove x x') (hk : x k = .done) : x' k = .done := by
  rcases hm k with h | ⟨h, -⟩ <;> simp_all

theorem unposted (hm : EngineMove x x') (hk : x k = .unposted) : x' k = .unposted := by
  rcases hm k with h | ⟨h, -⟩ <;> simp_all

theorem posted (hm : EngineMove x x') (hk : x k ≠ .unposted) : x' k ≠ .unposted := by
  rcases hm k with h | ⟨-, h | h⟩ <;> simp_all

theorem eq_of_ne_proc (hm : EngineMove x x') (hk : x k ≠ .proc) : x' k = x k :=
  (hm k).resolve_right fun h => hk h.1

end EngineMove

namespace TwoProc

variable {s s' : TwoProc}

/-- A target step leaves the initiator and the handles as they are. -/
theorem targetStep_frame (h : targetStep s = some s') : s'.initiator = s.initiator ∧ s'.xfer = s.xfer := by
  rcases hp : s.target.phase with p | k | _ <;> simp only [targetStep, hp] at h
  · split at h <;> cases h <;> exact ⟨rfl, rfl⟩
  · split at h <;> cases h <;> exact ⟨rfl, rfl⟩
  · cases h

theorem land_eq {k : Nat} (h : s.land k = some s') :
    s.xfer k = .proc ∧
      s' = { s with xfer := Function.update s.xfer k .done, toTarget := s.toTarget.send ⟨"initiator", xferTag k⟩ } := by
  unfold land at h
  split at h
  · cases h; exact ⟨‹_›, rfl⟩
  · cases h

theorem fail_eq {k : Nat} (h : s.fail k = some s') :
    s.xfer k = .proc ∧ s' = { s with xfer := Function.update s.xfer k .err } := by
  unfold fail at h
  split at h
  · cases h; exact ⟨‹_›, rfl⟩
  · cases h

/-- Every step but the initiator's leaves the initiator as it is and moves the handles only as the
engine does. -/
theorem step_others {a : Act} (ha : ∀ r, a ≠ .initiator r) (h : s.step a = some s') :
    s'.initiator = s.initiator ∧ EngineMove s.xfer s'.xfer := by
  cases a with
  | target => obtain ⟨h1, h2⟩ := targetStep_frame h; exact ⟨h1, h2 ▸ EngineMove.refl _⟩
  | initiator r => exact absurd rfl (ha r)
  | land k => obtain ⟨hk, rfl⟩ := land_eq h; exact ⟨rfl, EngineMove.update hk (.inl rfl)⟩
  | fail k => obtain ⟨hk, rfl⟩ := fail_eq h; exact ⟨rfl, EngineMove.update hk (.inr rfl)⟩
  | _ =>
    simp only [step, Option.map_eq_some'] at h
    obtain ⟨c, -, rfl⟩ := h
    exact ⟨rfl, EngineMove.refl _⟩

end TwoProc

end NixlExamples
