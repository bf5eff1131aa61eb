import NixlExamples.Ring.Completion
import NixlExamples.Ring.Fifo

/-!
# The receiver's progress reports

`receiver_process` sends `P:{transfers_received}` after every `PROGRESS_UPDATE_INTERVAL`-th transfer it
counts, and `sender_process` raises `receiver_progress` to the largest count it reads.  Over every run,
whatever the transfer engine and the network do (`progress_reports`):

* the progress messages the receiver has sent are `P:{I}`, `P:{2I}`, `P:{3I}`, … in this order, each
  once, one for every multiple `I·k` of the interval it has counted save the one its pending `notify`
  owes (`reports`, `reportsSent`);
* the sender's `receiver_progress` is `0` or a count it has read from one of those messages, hence a
  multiple of the interval.

The key lemma is `scanProgress_read`: the drain returns the progress it started from or a count it read.
-/

namespace NixlExamples

/-- The receiver's progress messages in a log of notifications, in the order they were sent. -/
def progressLog (log : List Notif) : List Bytes := (fromPeer "receiver" log).filter progressPrefix.isPrefixOf

/-- `P:{I}`, `P:{2I}`, …, the first `n` reports. -/
def reports (cfg : Config) (n : Nat) : List Bytes := (List.range n).map fun j => progressMsg (cfg.interval * (j + 1))

/-- How many reports the receiver has sent once it has counted `received` transfers: one per multiple of
the interval, save the one a pending `notify` owes. -/
def reportsSent (cfg : Config) (p : ReceiverPhase) (received : Nat) : Nat :=
  received / cfg.interval - if p = .notify then 1 else 0

theorem progressLog_append (l l' : List Notif) : progressLog (l ++ l') = progressLog l ++ progressLog l' := by
  simp only [progressLog, fromPeer, List.filterMap_append, List.filter_append]

theorem progressLog_progress (c : Nat) : progressLog [⟨"receiver", progressMsg c⟩] = [progressMsg c] := by
  simp only [progressLog, fromPeer, List.filterMap_cons, List.filterMap_nil, if_true, List.filter_cons,
    progressMsg, isPrefixOf_append, List.filter_nil]

theorem progressLog_ready : progressLog [⟨"receiver", readyMsg⟩] = [] := by decide

theorem progressLog_descs (payload : Bytes) : progressLog [⟨"receiver", descsPrefix ++ payload⟩] = [] := rfl

theorem mem_progressLog {m : Bytes} {log : List Notif} :
    m ∈ progressLog log ↔ ⟨"receiver", m⟩ ∈ log ∧ progressPrefix.isPrefixOf m = true := by
  rw [progressLog, List.mem_filter, mem_fromPeer]

theorem reports_succ (cfg : Config) (n : Nat) :
    reports cfg (n + 1) = reports cfg n ++ [progressMsg (cfg.interval * (n + 1))] := by
  rw [reports, List.range_succ, List.map_append, List.map_singleton, ← reports]

theorem exists_of_mem_reports {cfg : Config} {n : Nat} {m : Bytes} (h : m ∈ reports cfg n) :
    ∃ c, cfg.interval ∣ c ∧ m = progressMsg c := by
  obtain ⟨j, -, rfl⟩ := List.mem_map.1 h
  exact ⟨_, Dvd.intro _ rfl, rfl⟩

theorem progressMsg_inj {c c' : Nat} (h : progressMsg c = progressMsg c') : c = c' :=
  decimal_inj (List.append_cancel_left h)

/-- The drain returns the progress it started from or a count it read, when every progress message
of the batch is well formed. -/
theorem scanProgress_read {p q : Nat} {ms : List Bytes}
    (hms : ∀ m ∈ ms, progressPrefix.isPrefixOf m = true → ∃ c, m = progressMsg c)
    (h : scanProgress p ms = some q) : q = p ∨ progressMsg q ∈ ms := by
  induction ms generalizing p with
  | nil => cases h; exact .inl rfl
  | cons m ms ih =>
    have hms' := fun m' hm' => hms m' (List.mem_cons_of_mem _ hm')
    by_cases hpre : progressPrefix.isPrefixOf m = true
    · obtain ⟨c, rfl⟩ := hms m (List.mem_cons_self _ _) hpre
      rw [progressMsg, scanProgress_progress] at h
      rcases ih hms' h with hq | hq
      · rw [hq]
        rcases max_choice p c with hc | hc <;> rw [hc]
        exacts [.inl rfl, .inr (List.mem_cons_self _ _)]
      · exact .inr (List.mem_cons_of_mem _ hq)
    · rw [scanProgress_skip _ _ (Bool.eq_false_iff.2 hpre)] at h
      exact (ih hms' h).imp_right (List.mem_cons_of_mem _)

/-- What the reports say about a state: the receiver's progress messages are the first reports, a
pending `notify` owes the report of a positive multiple of the interval, every drained notification was
sent, and the sender's progress is `0` or a count it has drained. -/
structure ReportInv (cfg : Config) (s : Session) : Prop where
  log : progressLog s.toSender.log = reports cfg (reportsSent cfg s.receiver.phase s.receiver.received)
  notify : s.receiver.phase = .notify → cfg.interval ∣ s.receiver.received ∧ 0 < s.receiver.received
  drained : ∀ n ∈ s.toSender.drained, n ∈ s.toSender.log
  read : s.sender.progress = 0 ∨ ⟨"receiver", progressMsg s.sender.progress⟩ ∈ s.toSender.drained

section
variable {cfg : Config} {s s' : Session}

/-- No report is sent before the first transfer is counted. -/
theorem reportInv_init (mode : Mode) (serialized : Bytes) (fetched : Except ClientError (Option Bytes)) :
    ReportInv cfg (Session.init cfg mode serialized fetched) :=
  ⟨show progressLog [] = reports cfg (0 / cfg.interval - _) by rw [Nat.zero_div, Nat.zero_sub]; rfl,
    by cases mode <;> simp [Session.init, receiverLoopHead_ne_notify], nofun, .inl rfl⟩

/-- Every progress message the sender may read is a report. -/
theorem ReportInv.wellFormed (hR : ReportInv cfg s) (hi : Inv cfg s) :
    ∀ m ∈ fromPeer "receiver" s.toSender.queue, progressPrefix.isPrefixOf m = true → ∃ c, m = progressMsg c :=
  fun m hm hpre => by
    have hlog := hi.logged _ (List.mem_append_right _ (mem_fromPeer.1 hm))
    obtain ⟨c, -, rfl⟩ := exists_of_mem_reports (hR.log ▸ mem_progressLog.2 ⟨hlog, hpre⟩)
    exact ⟨c, rfl⟩

/-- A step that leaves the counters and the receiver alone, neither sends to the sender nor drains. -/
theorem ReportInv.frame (hR : ReportInv cfg s) (h1 : s'.sender.progress = s.sender.progress)
    (h2 : s'.receiver = s.receiver) (h3 : s'.toSender.log = s.toSender.log)
    (h4 : s'.toSender.drained = s.toSender.drained) : ReportInv cfg s' where
  log := by rw [h2, h3]; exact hR.log
  notify := h2 ▸ hR.notify
  drained := by rw [h3, h4]; exact hR.drained
  read := by rw [h1, h4]; exact hR.read

/-- What a sender step does to the reports: it leaves the receiver and the sender's notifications
alone, or drains them, raising its progress to what the drain returns. -/
theorem senderStep_reports {r : Posted} (h : senderStep cfg s r = some s') :
    s'.receiver = s.receiver ∧ (s'.toSender = s.toSender ∧ s'.sender.progress = s.sender.progress ∨
      s'.toSender = s.toSender.drain ∧ (s'.sender.progress = s.sender.progress ∨
        scanProgress s.sender.progress (fromPeer "receiver" s.toSender.queue) = some s'.sender.progress)) := by
  refine ⟨senderStep_receiver h, ?_⟩
  rcases hp : s.sender.phase with p | _ | _ | _ | _ | _ | _ | i | _ | _ <;> simp only [senderStep, hp] at h
  · have hl := requesterStep_toRequester "sender" "receiver" p s.link
    rw [show requesterStep "sender" "receiver" p s.link = senderDescsLoop p s.link from rfl] at hl
    rcases hq : senderDescsLoop p s.link with ⟨q | d, l⟩ <;> rw [hq] at h hl <;> cases h <;>
      exact hl.imp (⟨·, rfl⟩) (⟨·, .inl rfl⟩)
  · split at h <;> cases h <;> exact .inl ⟨rfl, rfl⟩
  · split at h <;> cases h
    exacts [.inr ⟨rfl, .inr ‹_›⟩, .inr ⟨rfl, .inl rfl⟩]
  · split at h <;> cases h <;> exact .inl ⟨rfl, rfl⟩
  · split at h <;> cases h <;> exact .inl ⟨rfl, rfl⟩
  · cases r <;> cases h <;> exact .inl ⟨rfl, rfl⟩
  · split at h <;> cases h
    exacts [.inr ⟨rfl, .inr ‹_›⟩, .inr ⟨rfl, .inl rfl⟩]
  · split at h
    · split at h <;> cases h <;> exact .inl ⟨rfl, rfl⟩
    · cases h; exact .inl ⟨rfl, rfl⟩
  all_goals cases h

/-- A sender step keeps the reports: its drain reads only reports, and what it reads is drained. -/
theorem ReportInv.sender_step (hR : ReportInv cfg s) (hi : Inv cfg s) {r : Posted}
    (h : senderStep cfg s r = some s') : ReportInv cfg s' := by
  obtain ⟨hrecv, ⟨hS, hp⟩ | ⟨hS, hp⟩⟩ := senderStep_reports h
  · exact hR.frame hp hrecv (by rw [hS]) (by rw [hS])
  have hgrow : ∀ n ∈ s.toSender.drained, n ∈ s'.toSender.drained := fun n hn => by
    rw [hS, Chan.drain_drained]; exact List.mem_append_left _ hn
  refine ⟨by rw [hS, Chan.drain_log, hrecv]; exact hR.log, hrecv ▸ hR.notify, fun n hn => ?_, ?_⟩
  · rw [hS, Chan.drain_drained] at hn
    rw [hS, Chan.drain_log]
    rcases List.mem_append.1 hn with hn | hn
    exacts [hR.drained n hn, hi.logged n (List.mem_append_right _ hn)]
  · rcases hp with hp | hp
    · rw [hp]; exact hR.read.imp_right (hgrow _)
    · rcases scanProgress_read (hR.wellFormed hi) hp with hq | hq
      · rw [hq]; exact hR.read.imp_right (hgrow _)
      · refine .inr ?_
        rw [hS, Chan.drain_drained]
        exact List.mem_append_right _ (mem_fromPeer.1 hq)

theorem reportsSent_of_ne {p : ReceiverPhase} (h : p ≠ .notify) (r : Nat) :
    reportsSent cfg p r = r / cfg.interval := by
  rw [reportsSent, if_neg h, Nat.sub_zero]

/-- Counting a transfer sends the receiver to its `notify` exactly at a multiple of the interval, and
leaves the number of reports sent as it is. -/
theorem reportsSent_count (r : Nat) :
    reportsSent cfg (if (r + 1) % cfg.interval = 0 then .notify else receiverLoopHead cfg (r + 1)) (r + 1) =
      r / cfg.interval := by
  split
  · rename_i hm
    rw [reportsSent, if_pos rfl, Nat.succ_div_of_dvd (Nat.dvd_of_mod_eq_zero hm), Nat.add_sub_cancel]
  · rename_i hm
    rw [reportsSent_of_ne (receiverLoopHead_ne_notify _ _),
      Nat.succ_div_of_not_dvd (fun hd => hm (Nat.mod_eq_zero_of_dvd hd))]

/-- The report a pending `notify` sends is the next one. -/
theorem reports_notify {r : Nat} (hd : cfg.interval ∣ r) (hr : 0 < r) :
    reports cfg (reportsSent cfg .notify r) ++ [progressMsg r] = reports cfg (r / cfg.interval) := by
  have hpos : 0 < r / cfg.interval := Nat.div_pos (Nat.le_of_dvd hr hd) cfg.interval_pos
  obtain ⟨k, hk⟩ : ∃ k, r / cfg.interval = k + 1 := ⟨_, (Nat.succ_pred_eq_of_pos hpos).symm⟩
  rw [reportsSent, if_pos rfl, hk, Nat.add_sub_cancel, reports_succ, ← hk, Nat.mul_div_cancel' hd]

/-- A step that sends no progress message, counts nothing and moves the receiver neither to nor from
its `notify`. -/
theorem ReportInv.quiet (hR : ReportInv cfg s) (hp : s.receiver.phase ≠ .notify)
    (hp' : s'.receiver.phase ≠ .notify) (h1 : s'.sender.progress = s.sender.progress)
    (h2 : s'.receiver.received = s.receiver.received) (h3 : progressLog s'.toSender.log = progressLog s.toSender.log)
    (h4 : s'.toSender.drained = s.toSender.drained) (h5 : ∀ n ∈ s.toSender.log, n ∈ s'.toSender.log) :
    ReportInv cfg s' where
  log := by rw [h3, hR.log, reportsSent_of_ne hp, reportsSent_of_ne hp', h2]
  notify := fun h => absurd h hp'
  drained n hn := h5 n (hR.drained n (h4 ▸ hn))
  read := by rw [h1, h4]; exact hR.read

/-- A receiver step keeps the reports: the count that reaches a multiple of the interval owes its
report, and the `notify` sends exactly that report. -/
theorem ReportInv.receiver_step (hR : ReportInv cfg s) (h : receiverStep cfg s = some s') :
    ReportInv cfg s' := by
  have hS := receiverStep_sender h
  have h1 : s'.sender.progress = s.sender.progress := by rw [hS]
  rcases hp : s.receiver.phase with p | _ | seq | _ | _ <;> simp only [receiverStep, hp] at h
  · -- the READY loop sends at most `READY` or `DESCS:`, neither a progress message
    have hl := holderStep_toRequester "receiver" "sender" s.receiver.serialized p s.link
    rw [show holderStep "receiver" "sender" s.receiver.serialized p s.link =
      receiverReadyLoop s.receiver.serialized p s.link from rfl] at hl
    rcases hq : receiverReadyLoop s.receiver.serialized p s.link with ⟨q, l⟩
    rw [hq] at h hl
    have hl' : progressLog l.toRequester.log = progressLog s.toSender.log ∧
        l.toRequester.drained = s.toSender.drained ∧ ∀ n ∈ s.toSender.log, n ∈ l.toRequester.log := by
      rcases hl with hl | hl | hl <;> rw [hl]
      · exact ⟨rfl, rfl, fun _ => id⟩
      · exact ⟨by rw [Chan.send_log, progressLog_append, progressLog_ready, List.append_nil]; rfl, rfl,
          fun _ => List.mem_append_left _⟩
      · exact ⟨by rw [Chan.send_log, progressLog_append, progressLog_descs, List.append_nil]; rfl, rfl,
          fun _ => List.mem_append_left _⟩
    cases q <;> cases h
    exacts [hR.quiet (by rw [hp]; nofun) (receiverLoopHead_ne_notify _ _) h1 rfl hl'.1 hl'.2.1 hl'.2.2,
      hR.quiet (by rw [hp]; nofun) nofun h1 rfl hl'.1 hl'.2.1 hl'.2.2]
  · -- the poll of the slot
    split at h <;> cases h
    exacts [hR.quiet (by rw [hp]; nofun) nofun h1 rfl rfl rfl fun _ => id, hR]
  · -- the count: a multiple of the interval sends the receiver to its `notify`
    cases h
    have hlog := hR.log
    rw [hp, reportsSent_of_ne (show ReceiverPhase.verify seq ≠ .notify from nofun)] at hlog
    refine ⟨hlog.trans (congrArg (reports cfg) (reportsSent_count _)).symm, fun h => ?_, hR.drained, hR.read⟩
    · simp only at h ⊢
      split at h
      · exact ⟨Nat.dvd_of_mod_eq_zero ‹_›, Nat.succ_pos _⟩
      · exact absurd h (receiverLoopHead_ne_notify _ _)
  · -- the report
    cases h
    obtain ⟨hd, hr⟩ := hR.notify hp
    refine ⟨?_, fun h => absurd h (receiverLoopHead_ne_notify _ _), fun n hn => ?_, hR.read⟩
    · simp only
      rw [Chan.send_log, progressLog_append, progressLog_progress, hR.log, hp, reports_notify hd hr,
        reportsSent_of_ne (receiverLoopHead_ne_notify _ _)]
    · exact List.mem_append_left _ (hR.drained n hn)
  · cases h

/-- Every step keeps the reports. -/
theorem ReportInv.step (hR : ReportInv cfg s) (hi : Inv cfg s) {a : Act} (h : step cfg s a = some s') :
    ReportInv cfg s' := by
  cases a with
  | sender r => exact hR.sender_step hi h
  | receiver => exact hR.receiver_step h
  | land i | fail i =>
    simp only [NixlExamples.step, landStep, failStep] at h
    split at h <;> cases h
    exact hR.frame rfl rfl rfl rfl
  | deliverToSender i dup =>
    obtain ⟨c, hc, rfl⟩ := Option.map_eq_some'.1 h
    obtain ⟨-, -, -, hlog, hdr, -, -, -⟩ := Chan.deliver_cases hc
    exact hR.frame rfl rfl hlog hdr
  | loseToSender i =>
    obtain ⟨c, hc, rfl⟩ := Option.map_eq_some'.1 h
    obtain ⟨-, hlog, hdr, -⟩ := Chan.lose_cases hc
    exact hR.frame rfl rfl hlog hdr
  | deliverToReceiver i dup | loseToReceiver i =>
    obtain ⟨c, -, rfl⟩ := Option.map_eq_some'.1 h
    exact hR.frame rfl rfl rfl rfl

end

/-- The receiver's progress reports are exact, and the sender's progress is one of them.  In every state
of every run, in etcd or TCP mode, whatever the transfer engine and the network do (errors, losses,
delays, duplicates): the `P:` messages the receiver has sent are `P:{I}`, `P:{2I}`, … in this order,
each once, one for every multiple of `PROGRESS_UPDATE_INTERVAL` it has counted save the one a pending
`notify` owes; and the sender's `receiver_progress` is `0` or a count it has drained from one of them,
hence a multiple of the interval. -/
theorem progress_reports {cfg : Config} {env : Env} {s : Session} (hr : Run cfg env s) :
    progressLog s.toSender.log = reports cfg (reportsSent cfg s.receiver.phase s.receiver.received) ∧
      (s.sender.progress = 0 ∨ ⟨"receiver", progressMsg s.sender.progress⟩ ∈ s.toSender.drained) ∧
      cfg.interval ∣ s.sender.progress := by
  obtain ⟨mode, serialized, fetched, hr'⟩ := hr
  have hR : ReportInv cfg s := by
    induction hr' with
    | refl => exact reportInv_init mode serialized fetched
    | step a hr _ hs ih => exact ih.step (hr.inv (inv_init cfg mode serialized fetched)) hs
  refine ⟨hR.log, hR.read, ?_⟩
  rcases hR.read with h0 | hd
  · rw [h0]; exact dvd_zero _
  · have hm := mem_progressLog.2 ⟨hR.drained _ hd, isPrefixOf_append _ _⟩
    rw [hR.log] at hm
    obtain ⟨c, hc, he⟩ := exists_of_mem_reports hm
    rw [progressMsg_inj he]; exact hc

/-- Sixteen transfers of `main()`'s configuration, each reported `DONE` by `transfer()` and counted at
once, then the receiver's first report, `P:16`. -/
def firstReportActs : List Act :=
  (List.range 16).flatMap
      (fun _ => [.sender .done, .sender .done, .sender .done, .sender .done, .receiver, .receiver]) ++
    [.receiver]

/-- The state after `firstReportActs`. -/
def firstReportState : Session :=
  (run mainConfig (Session.init mainConfig .tcp [] (.ok (some []))) firstReportActs).getD
    (Session.init mainConfig .tcp [] (.ok (some [])))

theorem progress_reports_first :
    Run mainConfig ⟨true, true⟩ firstReportState ∧ firstReportState.receiver.received = 16 ∧
      firstReportState.receiver.phase = .poll ∧
      progressLog firstReportState.toSender.log =
        reports mainConfig
          (reportsSent mainConfig firstReportState.receiver.phase firstReportState.receiver.received) ∧
      (firstReportState.sender.progress = 0 ∨
        ⟨"receiver", progressMsg firstReportState.sender.progress⟩ ∈ firstReportState.toSender.drained) ∧
      mainConfig.interval ∣ firstReportState.sender.progress :=
  have hr : Run mainConfig ⟨true, true⟩ firstReportState := ⟨.tcp, [], .ok (some []), reachable_of_run .refl
    (by decide) (show run mainConfig (Session.init mainConfig .tcp [] (.ok (some []))) firstReportActs =
      some firstReportState from rfl)⟩
  ⟨hr, by decide, by decide, progress_reports hr⟩

end NixlExamples
