import NixlExamples.Ring.Invariant

/-!
# Quiescent states and the moves of one peer

What the deadlock results are stated with.  `SenderRun cfg env s s'` says the sender reaches `s'`
from `s` by its own steps, with `transfer()` returning what `env` allows; `ReceiverRun` is the same
for the receiver.  A state is `Quiescent` when no notification is in flight and none of the sender's
handles is posted and incomplete.  From a quiescent state the sender *can issue* when its own steps
reach the next `transfer()` that counts a transfer, and the receiver *can accept* when its own
steps accept the transfer it expects.

Two ways a peer cannot move: an exited sender has no step (`senderRun_of_exited`), and a polling
receiver whose slot holds another value than the one it expects only re-reads it
(`receiverRun_of_stale`).
-/

namespace NixlExamples

/-- Every transfer completes and no notification is lost. -/
def reliable : Env := ⟨false, false⟩

/-- A handle whose transfer is posted and not complete. -/
def Xfer.inFlight : Xfer → Bool
  | .proc _ => true
  | _ => false

/-- The states the sender reaches from `s` by its own steps. -/
inductive SenderRun (cfg : Config) (env : Env) : Session → Session → Prop
  | refl (s : Session) : SenderRun cfg env s s
  | step {s s' s'' : Session} (r : Posted) : env.allows (.sender r) = true → senderStep cfg s r = some s' →
      SenderRun cfg env s' s'' → SenderRun cfg env s s''

/-- The states the receiver reaches from `s` by its own steps. -/
inductive ReceiverRun (cfg : Config) : Session → Session → Prop
  | refl (s : Session) : ReceiverRun cfg s s
  | step {s s' s'' : Session} : receiverStep cfg s = some s' → ReceiverRun cfg s' s'' → ReceiverRun cfg s s''

/-- No notification in flight in either direction and no transfer in flight on any handle. -/
def Quiescent (cfg : Config) (s : Session) : Prop :=
  s.toSender.inFlight = [] ∧ s.toReceiver.inFlight = [] ∧ ∀ i < cfg.numBuffers, (s.xfer i).inFlight = false

instance (cfg : Config) (s : Session) : Decidable (Quiescent cfg s) :=
  inferInstanceAs (Decidable (_ ∧ _ ∧ _))

/-- Both peers have done all `NUM_TRANSFERS` transfers. -/
def Finished (cfg : Config) (s : Session) : Prop :=
  s.sender.sent = cfg.numTransfers ∧ s.receiver.received = cfg.numTransfers

instance (cfg : Config) (s : Session) : Decidable (Finished cfg s) :=
  inferInstanceAs (Decidable (_ ∧ _))

/-- The sender's own steps reach the `transfer()` call that counts its next transfer. -/
def SenderCanIssue (cfg : Config) (env : Env) (s : Session) : Prop :=
  ∃ s', SenderRun cfg env s s' ∧ s'.sender.sent = s.sender.sent + 1

/-- The receiver's own steps accept the transfer it expects. -/
def ReceiverCanAccept (cfg : Config) (s : Session) : Prop :=
  ∃ s', ReceiverRun cfg s s' ∧ s'.receiver.received = s.receiver.received + 1

theorem SenderRun.trans {cfg : Config} {env : Env} {s s' s'' : Session} (h₁ : SenderRun cfg env s s')
    (h₂ : SenderRun cfg env s' s'') : SenderRun cfg env s s'' := by
  induction h₁ with
  | refl => exact h₂
  | step r ha hs _ ih => exact .step r ha hs (ih h₂)

theorem ReceiverRun.trans {cfg : Config} {s s' s'' : Session} (h₁ : ReceiverRun cfg s s')
    (h₂ : ReceiverRun cfg s' s'') : ReceiverRun cfg s s'' := by
  induction h₁ with
  | refl => exact h₂
  | step hs _ ih => exact .step hs (ih h₂)

/-- A sender that has left `sender_process` has no more steps. -/
theorem senderRun_of_exited {cfg : Config} {env : Env} {s s' : Session}
    (hp : s.sender.phase = .done ∨ s.sender.phase = .crashed) (h : SenderRun cfg env s s') : s' = s := by
  cases h with
  | refl => rfl
  | step r _ hs _ => rcases hp with hp | hp <;> simp [senderStep, hp] at hs

/-- A polling receiver whose slot holds another value than `transfers_received` re-reads it
forever: its own steps leave the whole state as it is. -/
theorem receiverRun_of_stale {cfg : Config} {s s' : Session} (hp : s.receiver.phase = .poll)
    (hv : s.hdr (s.receiver.received % cfg.numBuffers) ≠ s.receiver.received) (h : ReceiverRun cfg s s') :
    s' = s := by
  have hstep : receiverStep cfg s = some s := by simp [receiverStep, hp, hv]
  induction h with
  | refl => rfl
  | step hs _ ih =>
    rw [hstep] at hs
    cases hs
    exact ih hp hv hstep

end NixlExamples
