import NixlExamples.Bytes

/-!
# Notifications

The notification substrate both examples ride on: `send_notif` puts a notification in flight, the
network delivers it (possibly after any delay, in any order, possibly more than once) or loses it, and
`get_new_notifs` drains every delivered one at once.  `Chan` is the side of one agent: what is in
flight to it, what it has been delivered and not drained, and two histories, `log` (everything ever
sent to it) and `drained` (everything it has drained).  The histories are never read by the
programs; the invariants of later files are stated on them.

The two scans of a drained batch that the sender runs are here too: `scanDescs` (its wait for the
receiver's descriptors) and `scanProgress` (its backpressure and opportunistic drains).  The facts
about them that the protocol proofs use are that `scanProgress` never lowers the progress and never
goes past the largest count in the batch, that it ignores every message not starting with `P:`
(so handshake messages are never read as progress), and that `scanDescs` returns the payload of the
first `DESCS:` message.
-/

namespace NixlExamples

/-- A notification as `get_new_notifs` reports it: the name of the sending agent and the bytes. -/
structure Notif where
  src : String
  msg : Bytes
deriving DecidableEq, Repr

/-- The notifications addressed to one agent. -/
structure Chan where
  inFlight : List Notif
  queue : List Notif
  log : List Notif
  drained : List Notif
deriving DecidableEq, Repr

namespace Chan

/-- No notification sent yet. -/
def empty : Chan := ⟨[], [], [], []⟩

/-- `send_notif`: the notification is in flight. -/
def send (c : Chan) (n : Notif) : Chan :=
  { c with inFlight := c.inFlight ++ [n], log := c.log ++ [n] }

/-- The network delivers the `i`-th notification in flight; with `dup` a copy of it stays in flight,
to be delivered again. -/
def deliver (c : Chan) (i : Nat) (dup : Bool) : Option Chan :=
  match c.inFlight[i]? with
  | some n => some { c with inFlight := if dup then c.inFlight else c.inFlight.eraseIdx i,
                            queue := c.queue ++ [n] }
  | none => none

/-- The network loses the `i`-th notification in flight. -/
def lose (c : Chan) (i : Nat) : Option Chan :=
  if i < c.inFlight.length then some { c with inFlight := c.inFlight.eraseIdx i } else none

/-- `get_new_notifs`: the delivered notifications, which are no longer pending. -/
def drain (c : Chan) : Chan := { c with queue := [], drained := c.drained ++ c.queue }

@[simp] theorem send_inFlight (c : Chan) (n : Notif) : (c.send n).inFlight = c.inFlight ++ [n] := rfl
@[simp] theorem send_queue (c : Chan) (n : Notif) : (c.send n).queue = c.queue := rfl
@[simp] theorem send_log (c : Chan) (n : Notif) : (c.send n).log = c.log ++ [n] := rfl
@[simp] theorem drain_inFlight (c : Chan) : c.drain.inFlight = c.inFlight := rfl
@[simp] theorem drain_queue (c : Chan) : c.drain.queue = [] := rfl
@[simp] theorem drain_log (c : Chan) : c.drain.log = c.log := rfl
@[simp] theorem drain_drained (c : Chan) : c.drain.drained = c.drained ++ c.queue := rfl
@[simp] theorem send_drained (c : Chan) (n : Notif) : (c.send n).drained = c.drained := rfl

/-- What a delivery does: one notification in flight is appended to the queue. -/
theorem deliver_cases {c c' : Chan} {i : Nat} {dup : Bool} (h : c.deliver i dup = some c') :
    ∃ n ∈ c.inFlight, c'.queue = c.queue ++ [n] ∧ c'.log = c.log ∧ c'.drained = c.drained ∧
      c'.inFlight ⊆ c.inFlight ∧ (dup = false → c'.inFlight = c.inFlight.eraseIdx i) ∧
      c.inFlight[i]? = some n := by
  unfold deliver at h
  split at h
  · rename_i n hn
    cases h
    refine ⟨n, List.getElem?_mem hn, rfl, rfl, rfl, ?_, fun hd => by simp [hd], hn⟩
    split
    · exact List.Subset.refl _
    · exact fun _ hm => List.mem_of_mem_eraseIdx hm
  · cases h

/-- A delivery loses nothing: what was pending (in flight or queued) still is. -/
theorem deliver_keeps {c c' : Chan} {i : Nat} {dup : Bool} (h : c.deliver i dup = some c') {n : Notif}
    (hn : n ∈ c.inFlight ++ c.queue) : n ∈ c'.inFlight ++ c'.queue := by
  obtain ⟨m, -, hq, -, -, -, herase, hm⟩ := deliver_cases h
  rw [List.mem_append] at hn ⊢
  rw [hq, List.mem_append]
  rcases hn with hn | hn
  · cases dup with
    | true =>
      unfold deliver at h; rw [hm] at h; cases h; exact .inl hn
    | false =>
      obtain ⟨j, hj⟩ := List.mem_iff_getElem?.1 hn
      by_cases hji : j = i
      · subst hji; rw [hm] at hj; cases hj; exact .inr (.inr (List.mem_singleton_self _))
      · exact .inl (herase rfl ▸ List.mem_eraseIdx_iff_getElem?.2 ⟨j, hji, hj⟩)
  · exact .inr (.inl hn)

/-- What a loss does: the queue and the log stay, a notification leaves the flight. -/
theorem lose_cases {c c' : Chan} {i : Nat} (h : c.lose i = some c') :
    c'.queue = c.queue ∧ c'.log = c.log ∧ c'.drained = c.drained ∧ c'.inFlight ⊆ c.inFlight := by
  unfold lose at h
  split at h
  · cases h; exact ⟨rfl, rfl, rfl, fun _ hm => List.mem_of_mem_eraseIdx hm⟩
  · cases h

/-- A delivery brings nothing new: what is pending afterwards was pending before. -/
theorem deliver_pending {c c' : Chan} {i : Nat} {dup : Bool} (h : c.deliver i dup = some c') {n : Notif}
    (hn : n ∈ c'.inFlight ++ c'.queue) : n ∈ c.inFlight ++ c.queue := by
  obtain ⟨m, hm, hq, -, -, hsub, -, -⟩ := deliver_cases h
  rw [hq] at hn
  simp only [List.mem_append, List.mem_singleton] at hn ⊢
  rcases hn with hn | hn | rfl
  exacts [.inl (hsub hn), .inr hn, .inl hm]

/-- A loss brings nothing new. -/
theorem lose_pending {c c' : Chan} {i : Nat} (h : c.lose i = some c') {n : Notif}
    (hn : n ∈ c'.inFlight ++ c'.queue) : n ∈ c.inFlight ++ c.queue := by
  obtain ⟨hq, -, -, hsub⟩ := lose_cases h
  rw [hq, List.mem_append] at hn
  exact List.mem_append.2 (hn.imp_left (@hsub _))

/-- Every pending notification was sent. -/
def Logged (c : Chan) : Prop := ∀ n ∈ c.inFlight ++ c.queue, n ∈ c.log

theorem logged_empty : empty.Logged := fun _ hn => by simp [empty] at hn

theorem Logged.send {c : Chan} (h : c.Logged) (m : Notif) : (c.send m).Logged := by
  intro n hn
  simp only [send_inFlight, send_queue, send_log, List.mem_append, List.mem_singleton] at hn ⊢
  rcases hn with (hn | rfl) | hn
  · exact .inl (h n (List.mem_append_left _ hn))
  · exact .inr rfl
  · exact .inl (h n (List.mem_append_right _ hn))

theorem Logged.drain {c : Chan} (h : c.Logged) : c.drain.Logged :=
  fun n hn => h n (by simp only [drain_inFlight, drain_queue, List.append_nil] at hn; simp [hn])

theorem Logged.deliver {c c' : Chan} {i : Nat} {dup : Bool} (h : c.Logged) (hd : c.deliver i dup = some c') :
    c'.Logged := by
  obtain ⟨m, hm, hq, hlog, -, hsub, -, -⟩ := deliver_cases hd
  intro n hn
  rw [hlog]
  rw [List.mem_append, hq, List.mem_append, List.mem_singleton] at hn
  rcases hn with hn | hn | rfl
  · exact h n (List.mem_append_left _ (hsub hn))
  · exact h n (List.mem_append_right _ hn)
  · exact h n (List.mem_append_left _ hm)

theorem Logged.lose {c c' : Chan} {i : Nat} (h : c.Logged) (hd : c.lose i = some c') : c'.Logged := by
  obtain ⟨hq, hlog, -, hsub⟩ := lose_cases hd
  intro n hn
  rw [hlog]
  rw [List.mem_append, hq] at hn
  rcases hn with hn | hn
  · exact h n (List.mem_append_left _ (hsub hn))
  · exact h n (List.mem_append_right _ hn)

end Chan

/-- `notifs[name]` of a drained batch (empty when `name not in notifs`). -/
def fromPeer (name : String) (batch : List Notif) : List Bytes :=
  batch.filterMap fun n => if n.src = name then some n.msg else none

theorem mem_fromPeer {name : String} {batch : List Notif} {m : Bytes} :
    m ∈ fromPeer name batch ↔ ⟨name, m⟩ ∈ batch := by
  simp only [fromPeer, List.mem_filterMap, Option.ite_none_right_eq_some, Option.some.injEq]
  constructor
  · rintro ⟨⟨src, msg⟩, hn, rfl, rfl⟩; exact hn
  · intro h; exact ⟨_, h, rfl, rfl⟩

/-- The scan of the sender's wait loop: `msg[6:]` of the first message starting with `DESCS:`. -/
def scanDescs : List Bytes → Option Bytes
  | [] => none
  | m :: ms => if descsPrefix.isPrefixOf m then some (m.drop 6) else scanDescs ms

/-- The loop body of the sender's backpressure and opportunistic drains: each message starting with
`P:` is read with `int(msg[2:])` and raises `receiver_progress` when larger; `none` when `int` raises. -/
def scanProgress (progress : Nat) : List Bytes → Option Nat
  | [] => some progress
  | m :: ms =>
    if progressPrefix.isPrefixOf m then
      match pyInt (m.drop 2) with
      | some p => scanProgress (if (progress : Int) < p then p.toNat else progress) ms
      | none => none
    else scanProgress progress ms

/-- A message the receiver sends to the sender once it has accepted `r` transfers. -/
def ProgressMsg (r : Nat) (m : Bytes) : Prop := ∃ c ≤ r, m = progressPrefix ++ decimal c

theorem isPrefixOf_append (p q : Bytes) : p.isPrefixOf (p ++ q) = true :=
  List.isPrefixOf_iff_prefix.2 (List.prefix_append p q)

@[simp] theorem scanProgress_progress (progress c : Nat) (ms : List Bytes) :
    scanProgress progress ((progressPrefix ++ decimal c) :: ms) = scanProgress (max progress c) ms := by
  have hmax : (if (progress : Int) < (c : Int) then (c : Int).toNat else progress) = max progress c := by
    rw [Nat.max_def]; split <;> split <;> omega
  rw [scanProgress, if_pos (isPrefixOf_append _ _), show (progressPrefix ++ decimal c).drop 2 = decimal c
    from rfl, pyInt_decimal, ← hmax]

/-- The scan skips a message that does not start with `P:`. -/
theorem scanProgress_skip (progress : Nat) {m : Bytes} (ms : List Bytes)
    (h : progressPrefix.isPrefixOf m = false) : scanProgress progress (m :: ms) = scanProgress progress ms := by
  rw [scanProgress, if_neg (by simp [h])]

theorem scanProgress_ready (progress : Nat) (ms : List Bytes) :
    scanProgress progress (readyMsg :: ms) = scanProgress progress ms :=
  scanProgress_skip _ _ (by decide)

theorem scanProgress_descs (progress : Nat) (payload : Bytes) (ms : List Bytes) :
    scanProgress progress ((descsPrefix ++ payload) :: ms) = scanProgress progress ms :=
  scanProgress_skip _ _ rfl

/-- A batch of the receiver's messages, each a handshake message or a count at most `r`. -/
def ReceiverBatch (r : Nat) (payload : Bytes) (ms : List Bytes) : Prop :=
  ∀ m ∈ ms, m = readyMsg ∨ m = descsPrefix ++ payload ∨ ProgressMsg r m

/-- On a batch of the receiver's messages the scan succeeds, never lowers the progress, and never
goes past `max progress r`. -/
theorem scanProgress_bounds (progress r : Nat) (payload : Bytes) (ms : List Bytes)
    (h : ReceiverBatch r payload ms) :
    ∃ p, scanProgress progress ms = some p ∧ progress ≤ p ∧ p ≤ max progress r := by
  induction ms generalizing progress with
  | nil => exact ⟨progress, rfl, le_refl _, le_max_left _ _⟩
  | cons m ms ih =>
    have hms : ReceiverBatch r payload ms := fun m' hm' => h m' (List.mem_cons_of_mem _ hm')
    rcases h m (List.mem_cons_self _ _) with rfl | rfl | ⟨c, hc, rfl⟩
    · rw [scanProgress_ready]; exact ih _ hms
    · rw [scanProgress_descs]; exact ih _ hms
    · rw [scanProgress_progress]
      obtain ⟨p, hp, h1, h2⟩ := ih (max progress c) hms
      exact ⟨p, hp, by omega, by omega⟩

/-- The scan never lowers the progress. -/
theorem scanProgress_ge {progress p : Nat} {ms : List Bytes} (h : scanProgress progress ms = some p) :
    progress ≤ p := by
  induction ms generalizing progress with
  | nil => cases h; exact le_refl _
  | cons m ms ih =>
    rw [scanProgress] at h
    split at h
    · split at h
      · have := ih h; split at this <;> omega
      · cases h
    · exact ih h

/-- The scan's result is at least every count in the batch. -/
theorem le_scanProgress {progress p c : Nat} {ms : List Bytes} (h : scanProgress progress ms = some p)
    (hc : progressPrefix ++ decimal c ∈ ms) : c ≤ p := by
  induction ms generalizing progress with
  | nil => cases hc
  | cons m ms ih =>
    rcases List.mem_cons.1 hc with rfl | hc
    · rw [scanProgress_progress] at h; have := scanProgress_ge h; omega
    · rw [scanProgress] at h
      split at h
      · split at h
        · exact ih h hc
        · cases h
      · exact ih h hc

/-- A message other than the two the handshake sends. -/
def notHandshake (payload m : Bytes) : Bool := m != readyMsg && m != descsPrefix ++ payload

/-- Handshake messages in a batch never change what the scan reads as progress. -/
theorem scanProgress_filter_handshake (progress : Nat) (payload : Bytes) (ms : List Bytes) :
    scanProgress progress (ms.filter (notHandshake payload)) = scanProgress progress ms := by
  induction ms generalizing progress with
  | nil => rfl
  | cons m ms ih =>
    by_cases h1 : m = readyMsg
    · subst h1
      rw [List.filter_cons_of_neg (by simp [notHandshake]), ih, scanProgress_ready]
    · by_cases h2 : m = descsPrefix ++ payload
      · subst h2
        rw [List.filter_cons_of_neg (by simp [notHandshake]), ih, scanProgress_descs]
      · rw [List.filter_cons_of_pos (by simp [notHandshake, h1, h2]), scanProgress.eq_def,
          scanProgress.eq_def]
        simp only [ih]

/-- The scan finds the payload of a `DESCS:` message when every such message in the batch carries it. -/
theorem scanDescs_eq {payload : Bytes} {ms : List Bytes} (hin : descsPrefix ++ payload ∈ ms)
    (h : ∀ m ∈ ms, descsPrefix.isPrefixOf m = true → m = descsPrefix ++ payload) :
    scanDescs ms = some payload := by
  induction ms with
  | nil => cases hin
  | cons m ms ih =>
    rw [scanDescs]
    split
    · rename_i hp
      rw [h m (List.mem_cons_self _ _) hp]; rfl
    · rename_i hp
      rcases List.mem_cons.1 hin with rfl | hin
      · exact absurd (isPrefixOf_append _ _) hp
      · exact ih hin fun m' hm' => h m' (List.mem_cons_of_mem _ hm')

/-- What the scan returns comes from a `DESCS:` message of the batch. -/
theorem scanDescs_some {ms : List Bytes} {p : Bytes} (h : scanDescs ms = some p) :
    ∃ m ∈ ms, descsPrefix.isPrefixOf m = true ∧ p = m.drop 6 := by
  induction ms with
  | nil => cases h
  | cons m ms ih =>
    rw [scanDescs] at h
    split at h
    · cases h; exact ⟨m, List.mem_cons_self _ _, ‹_›, rfl⟩
    · obtain ⟨m', hm', h1, h2⟩ := ih h
      exact ⟨m', List.mem_cons_of_mem _ hm', h1, h2⟩

end NixlExamples
