import NixlExamples.TwoProc.Session

/-!
# A lost notification hangs the target

`target_process` of `nixl_api_2proc.py` polls `check_remote_xfer_done` for `UUID1` and then for `UUID2`
with no timeout, and `main` joins it with no timeout.  The transfer engine sends each notification once,
when the transfer completes.  So on a network that may lose notifications the initiator can finish both
transfers and exit normally while the target waits forever (`target_hangs_on_loss`).

The target's wait is `Starved`: it waits for transfer `k`, nothing it has collected is tagged with it,
nothing is pending or in flight, and neither the initiator nor the engine will send again.  No action
leaves that state (`Starved.step`).
-/

namespace NixlExamples

/-- The target waits for the notification of transfer `k` that nothing will send or deliver. -/
structure Starved (k : Nat) (s : TwoProc) : Prop where
  initiator : s.initiator.phase = .done
  target : s.target.phase = .waitXfer k
  inFlight : s.toTarget.inFlight = []
  queue : s.toTarget.queue = []
  missing : takeTagged (xferTag k) s.target.notifs = none
  idle : ∀ j, s.xfer j ≠ .proc

section
variable {k : Nat} {s s' : TwoProc}

/-- No action leaves a starved target: its poll finds nothing, the initiator has exited, the engine
has no transfer in flight, and the network has nothing to deliver or lose toward the target. -/
theorem Starved.step (hs : Starved k s) {a : TwoProc.Act} (h : s.step a = some s') : Starved k s' := by
  cases a with
  | target =>
    simp only [TwoProc.step, targetStep, hs.target, hs.queue, List.append_nil, hs.missing] at h
    cases h
    exact ⟨hs.initiator, rfl, hs.inFlight, rfl, hs.missing, hs.idle⟩
  | initiator r => simp [TwoProc.step, initiatorStep, hs.initiator] at h
  | land j | fail j =>
    simp only [TwoProc.step, TwoProc.land, TwoProc.fail] at h
    split at h
    · exact absurd ‹_› (hs.idle j)
    · cases h
  | deliverToTarget i dup => simp [TwoProc.step, Chan.deliver, hs.inFlight] at h
  | loseToTarget i => simp [TwoProc.step, Chan.lose, hs.inFlight] at h
  | deliverToInitiator i dup | loseToInitiator i =>
    obtain ⟨c, -, rfl⟩ := Option.map_eq_some'.1 h
    exact ⟨hs.initiator, hs.target, hs.inFlight, hs.queue, hs.missing, hs.idle⟩

theorem TwoProc.Reachable.starved {env : Env} (hr : TwoProc.Reachable env s s') (hs : Starved k s) :
    Starved k s' := by
  induction hr with
  | refl => exact hs
  | step _ _ _ h ih => exact ih.step h

end

/-- Lost notifications can hang the target of `nixl_api_2proc.py` after the initiator has succeeded.
In TCP mode, for every descriptor blob, on a network that may lose notifications and with a transfer
engine whose transfers all complete, there is a run in which both transfers are `DONE`, the initiator
has ended with no error logged, and from whose last state the target never leaves its wait for
`UUID1`, whatever the network and the engine do afterwards. -/
theorem target_hangs_on_loss (serialized d : Bytes) :
    ∃ s, TwoProc.Reachable ⟨true, false⟩ (TwoProc.init .tcp serialized (some d)) s ∧
      s.initiator.phase = .done ∧ s.initiator.log = [] ∧ s.xfer 0 = .done ∧ s.xfer 1 = .done ∧
      ∀ env s', TwoProc.Reachable env s s' → s'.target.phase = .waitXfer 0 := by
  -- both transfers complete at once, and the network loses `UUID1` and `UUID2`
  have hrun : TwoProc.run (TwoProc.init .tcp serialized (some d))
      [.initiator .done, .initiator .done, .initiator .done, .initiator .done, .loseToTarget 0, .loseToTarget 0] =
      some { TwoProc.init .tcp serialized (some d) with
        initiator := ⟨.done, some d, []⟩
        xfer := Function.update (Function.update (fun _ => .unposted) 0 .done) 1 .done
        toTarget := ⟨[], [], [⟨"initiator", xferTag 0⟩, ⟨"initiator", xferTag 1⟩], []⟩ } := rfl
  have hidle : ∀ j, Function.update (Function.update (fun _ => HandleState.unposted) 0 .done) 1 .done j ≠ .proc :=
    fun j => by simp only [Function.update_apply]; split_ifs <;> nofun
  exact ⟨_, TwoProc.reachable_of_run .refl (by decide) hrun, rfl, rfl, rfl, rfl,
    fun env s' h' => (h'.starved ⟨rfl, rfl, rfl, rfl, rfl, hidle⟩).target⟩

end NixlExamples
