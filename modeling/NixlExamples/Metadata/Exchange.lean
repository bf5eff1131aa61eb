import NixlExamples.Metadata.Client

/-!
# The TCP-mode exchange

In TCP mode the two processes of `nixl_sender_receiver.py`, and those of `nixl_api_2proc.py`, hand
each other their metadata and descriptors through the server, as a fixed sequence of helper calls each
(`receiverCalls`, `senderCalls`, `targetCalls`, `initiatorCalls`).  The server serializes requests on
`_lock`, so a run of the exchange is an interleaving of the two processes' calls, each one step on the
shared store (`Exchange.step`); a polling `retrieve_agent_metadata` may poll again or time out.  The
store starts empty: the runs are started after `clear_metadata`.

* `exchange_agreement`: in every reachable state no call has raised, and every blob a process has
  retrieved is the one published under its key, when each key is published once with 1 to 3048 bytes;
* `descriptors_race`: the sender's single `retrieve_descriptors` may run between the receiver's two
  publishes and return `None`, and so may the initiator's between the target's.
-/

namespace NixlExamples

/-- A metadata helper call in TCP mode. -/
inductive Call where
  /-- `publish_agent_metadata` or `publish_descriptors`: store the blob's text under the key -/
  | publish (key : PyStr) (blob : Bytes)
  /-- `retrieve_agent_metadata`: poll the key until its value is truthy, or time out -/
  | retrieveAgent (key : PyStr)
  /-- `retrieve_descriptors`: read the key once -/
  | retrieveDescs (key : PyStr)

/-- A process of the exchange: the calls it has still to make, what each retrieve handed its agent
(`none` for `None`), and whether a call raised. -/
structure Proc where
  calls : List Call
  got : List (PyStr × Option Bytes)
  crashed : Bool

/-- The process after a publish that returned `r`. -/
def Proc.afterPublish (p : Proc) (cs : List Call) : Except ClientError Unit → Proc
  | .ok _ => { p with calls := cs }
  | .error _ => { p with crashed := true }

/-- The process after one `get_metadata` of a retrieve that gave `r`: a polling
`retrieve_agent_metadata` (`poll`) that read a falsy value stays where it is, to poll again. -/
def Proc.afterFetch (p : Proc) (key : PyStr) (cs : List Call) (poll : Bool) :
    Except ClientError (Option Bytes) → Proc
  | .ok (some b) => { p with calls := cs, got := p.got ++ [(key, some b)] }
  | .ok Option.none => if poll then p else { p with calls := cs, got := p.got ++ [(key, Option.none)] }
  | .error _ => { p with crashed := true }

/-- One call of a process on the store; `timeout` ends a polling `retrieve_agent_metadata` with `None`
instead of polling once more. -/
def Proc.step (lim : Limits) (st : Store) (p : Proc) (timeout : Bool) : Option (Proc × Store) :=
  if p.crashed then Option.none
  else
    match p.calls with
    | [] => Option.none
    | .publish key blob :: cs =>
      let (r, st') := publish lim st key blob
      some (p.afterPublish cs r, st')
    | .retrieveDescs key :: cs =>
      let (r, st') := retrieveDescriptors lim st key
      some (p.afterFetch key cs false r, st')
    | .retrieveAgent key :: cs =>
      if timeout then some ({ p with calls := cs, got := p.got ++ [(key, Option.none)] }, st)
      else
        let (r, st') := pollAgentMetadata lim st key
        some (p.afterFetch key cs true r, st')

/-- The server's store and the two processes. -/
structure Exchange where
  store : Store
  first : Proc
  second : Proc

/-- A step of the exchange: one process makes its next call (or times out of a poll). -/
inductive ExAct where
  | first (timeout : Bool)
  | second (timeout : Bool)

/-- The exchange after one step, if the process can move. -/
def Exchange.step (lim : Limits) (e : Exchange) : ExAct → Option Exchange
  | .first t => (e.first.step lim e.store t).map fun (p, st) => { e with store := st, first := p }
  | .second t => (e.second.step lim e.store t).map fun (p, st) => { e with store := st, second := p }

/-- The states an exchange reaches from `e₀`. -/
inductive Exchange.Reachable (lim : Limits) (e₀ : Exchange) : Exchange → Prop
  | refl : Exchange.Reachable lim e₀ e₀
  | step {e e' : Exchange} (a : ExAct) : Exchange.Reachable lim e₀ e → e.step lim a = some e' →
      Exchange.Reachable lim e₀ e'

/-- The state after the steps `acts`, if each is enabled in turn. -/
def Exchange.run (lim : Limits) : Exchange → List ExAct → Option Exchange
  | e, [] => some e
  | e, a :: acts => (e.step lim a).bind fun e' => Exchange.run lim e' acts

theorem Exchange.reachable_of_run {lim : Limits} {e₀ e : Exchange} :
    ∀ {acts : List ExAct} {e' : Exchange}, Exchange.Reachable lim e₀ e → Exchange.run lim e acts = some e' →
      Exchange.Reachable lim e₀ e'
  | [], _, he, h => by cases h; exact he
  | a :: acts, e', he, h => by
    simp only [Exchange.run, Option.bind_eq_some] at h
    obtain ⟨e₁, h₁, h₂⟩ := h
    exact Exchange.reachable_of_run (he.step a h₁) h₂

/-- Two processes with their calls, on the store `clear_metadata` leaves. -/
def Exchange.start (a b : List Call) : Exchange := ⟨[], ⟨a, [], false⟩, ⟨b, [], false⟩⟩

/-! ### The programs -/

/-- `receiver_process` in TCP mode: its metadata, its buffer descriptors, then the sender's metadata. -/
def receiverCalls (metadata descs : Bytes) : List Call :=
  [.publish (lit "receiver_metadata") metadata, .publish (lit "receiver_buffers_desc") descs,
    .retrieveAgent (lit "sender_metadata")]

/-- `sender_process` in TCP mode: its metadata, the receiver's metadata, then the receiver's
descriptors. -/
def senderCalls (metadata : Bytes) : List Call :=
  [.publish (lit "sender_metadata") metadata, .retrieveAgent (lit "receiver_metadata"),
    .retrieveDescs (lit "receiver_buffers_desc")]

/-- `target_process` of `nixl_api_2proc.py` in TCP mode. -/
def targetCalls (metadata descs : Bytes) : List Call :=
  [.publish (lit "target_meta") metadata, .publish (lit "target_descs") descs]

/-- `initiator_process` of `nixl_api_2proc.py` in TCP mode. -/
def initiatorCalls : List Call :=
  [.retrieveAgent (lit "target_meta"), .retrieveDescs (lit "target_descs")]

/-! ### One call -/

section Steps

variable {lim : Limits} {st st' : Store} {p : Proc} {t : Bool} {cs : List Call} {key : PyStr}

theorem Proc.step_publish {blob : Bytes} {r : Except ClientError Unit} (hp : p.crashed = false)
    (hc : p.calls = .publish key blob :: cs) (h : publish lim st key blob = (r, st')) :
    p.step lim st t = some (p.afterPublish cs r, st') := by
  simp only [Proc.step, hp, hc, h, Bool.false_eq_true, if_false]

theorem Proc.step_retrieveDescs {r : Except ClientError (Option Bytes)} (hp : p.crashed = false)
    (hc : p.calls = .retrieveDescs key :: cs) (h : fetchBlob lim st key = (r, st')) :
    p.step lim st t = some (p.afterFetch key cs false r, st') := by
  simp only [Proc.step, hp, hc, retrieveDescriptors, h, Bool.false_eq_true, if_false]

theorem Proc.step_timeout (hp : p.crashed = false) (hc : p.calls = .retrieveAgent key :: cs) :
    p.step lim st true = some ({ p with calls := cs, got := p.got ++ [(key, Option.none)] }, st) := by
  rw [Proc.step, if_neg (by simp [hp]), hc]
  rfl

theorem Proc.step_poll {r : Except ClientError (Option Bytes)} (hp : p.crashed = false)
    (hc : p.calls = .retrieveAgent key :: cs) (h : fetchBlob lim st key = (r, st')) :
    p.step lim st false = some (p.afterFetch key cs true r, st') := by
  rw [Proc.step, if_neg (by simp [hp]), hc]
  dsimp only
  rw [if_neg Bool.false_ne_true, pollAgentMetadata, h]

theorem Proc.step_done (hc : p.calls = []) : p.step lim st t = Option.none := by
  simp only [Proc.step, hc, ite_self]

theorem Exchange.step_first (e : Exchange) {p : Proc} (h : e.first.step lim e.store t = some (p, st)) :
    e.step lim (.first t) = some { e with store := st, first := p } := by
  simp only [Exchange.step, h, Option.map_some']

theorem Exchange.step_second (e : Exchange) {p : Proc} (h : e.second.step lim e.store t = some (p, st)) :
    e.step lim (.second t) = some { e with store := st, second := p } := by
  simp only [Exchange.step, h, Option.map_some']

end Steps

/-! ### Agreement -/

/-- A publish the agreement covers: a key that is a `str` and a blob of 1 to 3048 bytes, whose value
reply fits in one `recv`. -/
def Publishable (kb : PyStr × Bytes) : Prop := ScalarStr kb.1 ∧ kb.2 ≠ [] ∧ kb.2.length ≤ 3048

instance (kb : PyStr × Bytes) : Decidable (Publishable kb) := inferInstanceAs (Decidable (_ ∧ _ ∧ _))

/-- A key a process may read: a `str` whose `ERROR` reply fits in one `recv`. -/
def ReadableKey (key : PyStr) : Prop :=
  ScalarStr key ∧ ((lit "Key '" ++ key ++ lit "' not found").flatMap escapeCp).length + 34 < recvSize

instance (key : PyStr) : Decidable (ReadableKey key) := inferInstanceAs (Decidable (_ ∧ _))

/-- A call of a run whose publishes are among `pubs`. -/
def Call.Fits (pubs : List (PyStr × Bytes)) : Call → Prop
  | .publish key blob => (key, blob) ∈ pubs
  | .retrieveAgent key => ReadableKey key
  | .retrieveDescs key => ReadableKey key

instance (pubs : List (PyStr × Bytes)) : DecidablePred (Call.Fits pubs)
  | .publish key blob => inferInstanceAs (Decidable ((key, blob) ∈ pubs))
  | .retrieveAgent key => inferInstanceAs (Decidable (ReadableKey key))
  | .retrieveDescs key => inferInstanceAs (Decidable (ReadableKey key))

/-- The store maps each `str` key to nothing, or to the text of a blob published under it. -/
def StoreInv (pubs : List (PyStr × Bytes)) (st : Store) : Prop :=
  ∀ k : PyStr, st.get (.str k) = .none ∨ ∃ blob, (k, blob) ∈ pubs ∧ st.get (.str k) = .str (b64Str blob)

/-- Retrieved blobs that were each published under their key. -/
def GotInv (pubs : List (PyStr × Bytes)) (got : List (PyStr × Option Bytes)) : Prop :=
  ∀ k blob, (k, some blob) ∈ got → (k, blob) ∈ pubs

/-- A process that has not raised, whose calls left fit `pubs`, and that has retrieved only published
blobs. -/
structure ProcInv (pubs : List (PyStr × Bytes)) (p : Proc) : Prop where
  running : p.crashed = false
  calls : ∀ c ∈ p.calls, c.Fits pubs
  got : GotInv pubs p.got

/-- The invariant of the exchange. -/
structure ExInv (pubs : List (PyStr × Bytes)) (e : Exchange) : Prop where
  store : StoreInv pubs e.store
  first : ProcInv pubs e.first
  second : ProcInv pubs e.second

section Agreement

variable {lim : Limits} {pubs : List (PyStr × Bytes)} {st st' : Store} {p p' : Proc} {key : PyStr}

theorem StoreInv.set (hs : StoreInv pubs st) {blob : Bytes} (hmem : (key, blob) ∈ pubs) :
    StoreInv pubs (st.set (.str key) (.str (b64Str blob))) := fun k => by
  rw [Store.get_set_str]
  split
  · next h => exact .inr ⟨blob, h ▸ hmem, rfl⟩
  · exact hs k

/-- A read of a readable key, on a store that keeps the invariant, does not raise, leaves the store
as it is, and gives a blob published under the key or nothing. -/
theorem StoreInv.fetch (h0 : 0 < lim.depth) (hpubs : ∀ kb ∈ pubs, Publishable kb) (hs : StoreInv pubs st)
    (hk : ReadableKey key) :
    ∃ res, fetchBlob lim st key = (.ok res, st) ∧ ∀ blob, res = some blob → (key, blob) ∈ pubs := by
  rcases hs key with hv | ⟨blob, hmem, hv⟩
  · exact ⟨Option.none, fetchBlob_missing h0 hk.1 hv hk.2, fun _ h => nomatch h⟩
  · obtain ⟨-, hne, hlen⟩ := hpubs _ hmem
    exact ⟨some blob, fetchBlob_found h0 hk.1 hv hne hlen, fun _ h => Option.some_inj.1 h ▸ hmem⟩

theorem GotInv.append {got : List (PyStr × Option Bytes)} (hg : GotInv pubs got) {res : Option Bytes}
    (hr : ∀ blob, res = some blob → (key, blob) ∈ pubs) : GotInv pubs (got ++ [(key, res)]) := by
  intro k blob h
  rcases List.mem_append.1 h with h | h
  · exact hg k blob h
  · obtain ⟨rfl, hb⟩ := Prod.mk.inj (List.mem_singleton.1 h)
    exact hr blob hb.symm

theorem ProcInv.tail (hp : ProcInv pubs p) {c : Call} {cs : List Call} (hc : p.calls = c :: cs) :
    ∀ c' ∈ cs, c'.Fits pubs :=
  fun c' h => hp.calls c' (hc ▸ List.mem_cons_of_mem c h)

theorem ProcInv.afterFetch (hp : ProcInv pubs p) {c : Call} {cs : List Call} (hc : p.calls = c :: cs)
    (poll : Bool) {res : Option Bytes} (hr : ∀ blob, res = some blob → (key, blob) ∈ pubs) :
    ProcInv pubs (p.afterFetch key cs poll (.ok res)) := by
  cases res with
  | some blob => exact ⟨hp.running, hp.tail hc, hp.got.append hr⟩
  | none =>
    cases poll
    · exact ⟨hp.running, hp.tail hc, hp.got.append hr⟩
    · exact hp

/-- One call keeps the invariant of its process and of the store. -/
theorem ProcInv.step (h0 : 0 < lim.depth) (hpubs : ∀ kb ∈ pubs, Publishable kb) (hp : ProcInv pubs p)
    (hs : StoreInv pubs st) {t : Bool} (h : p.step lim st t = some (p', st')) :
    ProcInv pubs p' ∧ StoreInv pubs st' := by
  have hfits : ∀ {c cs}, p.calls = c :: cs → c.Fits pubs := fun hc => hp.calls _ (hc ▸ List.mem_cons_self _ _)
  match hc : p.calls, t with
  | [], _ => rw [Proc.step_done hc] at h; cases h
  | .publish key blob :: cs, _ =>
    have hmem : (key, blob) ∈ pubs := hfits hc
    rw [Proc.step_publish hp.running hc (publish_set h0 (hpubs _ hmem).1 blob)] at h
    cases h
    exact ⟨⟨hp.running, hp.tail hc, hp.got⟩, hs.set hmem⟩
  | .retrieveDescs key :: cs, _ =>
    obtain ⟨res, hf, hr⟩ := hs.fetch h0 hpubs (hfits hc)
    rw [Proc.step_retrieveDescs hp.running hc hf] at h
    cases h
    exact ⟨hp.afterFetch hc false hr, hs⟩
  | .retrieveAgent key :: cs, true =>
    rw [Proc.step_timeout hp.running hc] at h
    cases h
    exact ⟨⟨hp.running, hp.tail hc, hp.got.append fun _ h => nomatch h⟩, hs⟩
  | .retrieveAgent key :: cs, false =>
    obtain ⟨res, hf, hr⟩ := hs.fetch h0 hpubs (hfits hc)
    rw [Proc.step_poll hp.running hc hf] at h
    cases h
    exact ⟨hp.afterFetch hc true hr, hs⟩

theorem ExInv.step (h0 : 0 < lim.depth) (hpubs : ∀ kb ∈ pubs, Publishable kb) {e e' : Exchange}
    (hi : ExInv pubs e) {a : ExAct} (h : e.step lim a = some e') : ExInv pubs e' := by
  cases a with
  | first t =>
    rw [Exchange.step] at h
    obtain ⟨⟨p, st⟩, hp, rfl⟩ := Option.map_eq_some'.1 h
    obtain ⟨hp', hs'⟩ := hi.first.step h0 hpubs hi.store hp
    exact ⟨hs', hp', hi.second⟩
  | second t =>
    rw [Exchange.step] at h
    obtain ⟨⟨p, st⟩, hp, rfl⟩ := Option.map_eq_some'.1 h
    obtain ⟨hp', hs'⟩ := hi.second.step h0 hpubs hi.store hp
    exact ⟨hs', hi.first, hp'⟩

theorem ExInv.reachable (h0 : 0 < lim.depth) (hpubs : ∀ kb ∈ pubs, Publishable kb) {e₀ e : Exchange}
    (hi : ExInv pubs e₀) (he : e₀.Reachable lim e) : ExInv pubs e := by
  induction he with
  | refl => exact hi
  | step _ _ hs ih => exact ih.step h0 hpubs hs

theorem exInv_start {a b : List Call} (hcalls : ∀ c ∈ a ++ b, c.Fits pubs) :
    ExInv pubs (Exchange.start a b) :=
  ⟨fun _ => .inl rfl,
    ⟨rfl, fun c h => hcalls c (List.mem_append_left b h), fun _ _ h => absurd h (List.not_mem_nil _)⟩,
    ⟨rfl, fun c h => hcalls c (List.mem_append_right a h), fun _ _ h => absurd h (List.not_mem_nil _)⟩⟩

/-- In every interleaving of two processes whose calls fit `pubs`, no call raises and every blob a
retrieve hands its agent is one published under its key. -/
theorem agreement_of_reachable (h0 : 0 < lim.depth) (hpubs : ∀ kb ∈ pubs, Publishable kb) {a b : List Call}
    (hcalls : ∀ c ∈ a ++ b, c.Fits pubs) {e : Exchange} (he : (Exchange.start a b).Reachable lim e) :
    e.first.crashed = false ∧ e.second.crashed = false ∧ GotInv pubs e.first.got ∧ GotInv pubs e.second.got :=
  have hi := (exInv_start hcalls).reachable h0 hpubs he
  ⟨hi.first.running, hi.second.running, hi.first.got, hi.second.got⟩

/-- With each key published once, a blob published under a key is the one. -/
theorem blob_eq_of_mem (hnd : (pubs.map Prod.fst).Nodup) {b b' : Bytes} (h : (key, b) ∈ pubs)
    (h' : (key, b') ∈ pubs) : b = b' :=
  (Prod.mk.inj (List.inj_on_of_nodup_map hnd h h' rfl)).2

end Agreement

/-! ### The two examples -/

/-- The publishes of `run_test`'s exchange. -/
def senderReceiverPubs (receiverMeta descs senderMeta : Bytes) : List (PyStr × Bytes) :=
  [(lit "receiver_metadata", receiverMeta), (lit "receiver_buffers_desc", descs), (lit "sender_metadata", senderMeta)]

/-- The publishes of `nixl_api_2proc.py`'s exchange. -/
def twoProcPubs (targetMeta descs : Bytes) : List (PyStr × Bytes) :=
  [(lit "target_meta", targetMeta), (lit "target_descs", descs)]

theorem senderReceiver_fits (mr d ms : Bytes) :
    ∀ c ∈ receiverCalls mr d ++ senderCalls ms, c.Fits (senderReceiverPubs mr d ms) := by
  intro c hc
  simp only [receiverCalls, senderCalls, List.cons_append, List.nil_append, List.mem_cons,
    List.not_mem_nil, or_false] at hc
  rcases hc with rfl | rfl | rfl | rfl | rfl | rfl
  · exact List.mem_cons_self _ _
  · exact List.mem_cons_of_mem _ (List.mem_cons_self _ _)
  · exact show ReadableKey (lit "sender_metadata") by decide
  · exact List.mem_cons_of_mem _ (List.mem_cons_of_mem _ (List.mem_cons_self _ _))
  · exact show ReadableKey (lit "receiver_metadata") by decide
  · exact show ReadableKey (lit "receiver_buffers_desc") by decide

theorem twoProc_fits (mt d : Bytes) : ∀ c ∈ targetCalls mt d ++ initiatorCalls, c.Fits (twoProcPubs mt d) := by
  intro c hc
  simp only [targetCalls, initiatorCalls, List.cons_append, List.nil_append, List.mem_cons,
    List.not_mem_nil, or_false] at hc
  rcases hc with rfl | rfl | rfl | rfl
  · exact List.mem_cons_self _ _
  · exact List.mem_cons_of_mem _ (List.mem_cons_self _ _)
  · exact show ReadableKey (lit "target_meta") by decide
  · exact show ReadableKey (lit "target_descs") by decide

/-- Both examples' exchanges, in every interleaving: no helper call raises, and a retrieve that does
not return `None` returns the blob the other process published under that key, when each blob has 1
to 3048 bytes. -/
theorem exchange_agreement (lim : Limits) (h0 : 0 < lim.depth) (mr d ms mt dt : Bytes)
    (hsize : ∀ blob ∈ [mr, d, ms, mt, dt], blob ≠ [] ∧ blob.length ≤ 3048) :
    (∀ e, (Exchange.start (receiverCalls mr d) (senderCalls ms)).Reachable lim e →
      e.first.crashed = false ∧ e.second.crashed = false ∧
      (∀ blob, (lit "sender_metadata", some blob) ∈ e.first.got → blob = ms) ∧
      (∀ blob, (lit "receiver_metadata", some blob) ∈ e.second.got → blob = mr) ∧
      (∀ blob, (lit "receiver_buffers_desc", some blob) ∈ e.second.got → blob = d)) ∧
    (∀ e, (Exchange.start (targetCalls mt dt) initiatorCalls).Reachable lim e →
      e.first.crashed = false ∧ e.second.crashed = false ∧
      (∀ blob, (lit "target_meta", some blob) ∈ e.second.got → blob = mt) ∧
      (∀ blob, (lit "target_descs", some blob) ∈ e.second.got → blob = dt)) := by
  have hpub : ∀ (k : PyStr) (b : Bytes), b ∈ [mr, d, ms, mt, dt] → ScalarStr k → Publishable (k, b) :=
    fun _ _ hb hk => ⟨hk, hsize _ hb⟩
  have hsr : ∀ kb ∈ senderReceiverPubs mr d ms, Publishable kb := by
    simp only [senderReceiverPubs, List.mem_cons, List.not_mem_nil, or_false]
    rintro kb (rfl | rfl | rfl)
    · exact hpub _ _ (by simp) (by decide)
    · exact hpub _ _ (by simp) (by decide)
    · exact hpub _ _ (by simp) (by decide)
  have htp : ∀ kb ∈ twoProcPubs mt dt, Publishable kb := by
    simp only [twoProcPubs, List.mem_cons, List.not_mem_nil, or_false]
    rintro kb (rfl | rfl)
    · exact hpub _ _ (by simp) (by decide)
    · exact hpub _ _ (by simp) (by decide)
  have hnd₁ : ((senderReceiverPubs mr d ms).map Prod.fst).Nodup :=
    show [lit "receiver_metadata", lit "receiver_buffers_desc", lit "sender_metadata"].Nodup by decide
  have hnd₂ : ((twoProcPubs mt dt).map Prod.fst).Nodup :=
    show [lit "target_meta", lit "target_descs"].Nodup by decide
  refine ⟨fun e he => ?_, fun e he => ?_⟩
  · obtain ⟨hr₁, hr₂, hg₁, hg₂⟩ := agreement_of_reachable h0 hsr (senderReceiver_fits mr d ms) he
    exact ⟨hr₁, hr₂, fun blob h => blob_eq_of_mem hnd₁ (hg₁ _ _ h) (by simp [senderReceiverPubs]),
      fun blob h => blob_eq_of_mem hnd₁ (hg₂ _ _ h) (by simp [senderReceiverPubs]),
      fun blob h => blob_eq_of_mem hnd₁ (hg₂ _ _ h) (by simp [senderReceiverPubs])⟩
  · obtain ⟨hr₁, hr₂, -, hg₂⟩ := agreement_of_reachable h0 htp (twoProc_fits mt dt) he
    exact ⟨hr₁, hr₂, fun blob h => blob_eq_of_mem hnd₂ (hg₂ _ _ h) (by simp [twoProcPubs]),
      fun blob h => blob_eq_of_mem hnd₂ (hg₂ _ _ h) (by simp [twoProcPubs])⟩

theorem exchange_agreement_small :
    0 < handlerLimits.depth ∧ (∀ blob ∈ [[1], [2], [3], [4], [5]], blob ≠ [] ∧ blob.length ≤ 3048) ∧
      ∀ e, (Exchange.start (receiverCalls [1] [2]) (senderCalls [3])).Reachable handlerLimits e →
        ∀ blob, (lit "receiver_buffers_desc", some blob) ∈ e.second.got → blob = [2] :=
  ⟨by decide, by decide,
    fun e he => ((exchange_agreement handlerLimits (by decide) [1] [2] [3] [4] [5] (by decide)).1 e he).2.2.2.2⟩

/-- The sender's `retrieve_descriptors` may run between the receiver's two publishes: the sender has
then made all its calls without raising, holds the receiver's metadata, and has `None` for its
descriptors, which `prep_xfer_dlist` then gets; the initiator of `nixl_api_2proc.py` likewise. -/
theorem descriptors_race (lim : Limits) (h0 : 0 < lim.depth) (mr d ms mt dt : Bytes)
    (hmr : mr ≠ [] ∧ mr.length ≤ 3048) (hmt : mt ≠ [] ∧ mt.length ≤ 3048) :
    (∃ e, (Exchange.start (receiverCalls mr d) (senderCalls ms)).Reachable lim e ∧
      e.second = ⟨[], [(lit "receiver_metadata", some mr), (lit "receiver_buffers_desc", Option.none)], false⟩) ∧
    (∃ e, (Exchange.start (targetCalls mt dt) initiatorCalls).Reachable lim e ∧
      e.second = ⟨[], [(lit "target_meta", some mt), (lit "target_descs", Option.none)], false⟩) := by
  constructor
  · have r₁ := Exchange.Reachable.step (.first false)
      (.refl : (Exchange.start (receiverCalls mr d) (senderCalls ms)).Reachable lim _)
      (Exchange.step_first _ (Proc.step_publish rfl rfl (publish_set h0 (by decide) mr)))
    have r₂ := Exchange.Reachable.step (.second false) r₁
      (Exchange.step_second _ (Proc.step_publish rfl rfl (publish_set h0 (by decide) ms)))
    have r₃ := Exchange.Reachable.step (.second false) r₂
      (Exchange.step_second _ (Proc.step_poll rfl rfl (fetchBlob_found h0 (by decide)
        (by rw [Store.get_set_str, if_neg (by decide), Store.get_set_str, if_pos rfl]) hmr.1 hmr.2)))
    have r₄ := Exchange.Reachable.step (.second false) r₃
      (Exchange.step_second _ (Proc.step_retrieveDescs rfl rfl (fetchBlob_missing h0 (by decide)
        (by rw [Store.get_set_str, if_neg (by decide), Store.get_set_str, if_neg (by decide)]; rfl)
        (by decide))))
    exact ⟨_, r₄, rfl⟩
  · have r₁ := Exchange.Reachable.step (.first false)
      (.refl : (Exchange.start (targetCalls mt dt) initiatorCalls).Reachable lim _)
      (Exchange.step_first _ (Proc.step_publish rfl rfl (publish_set h0 (by decide) mt)))
    have r₂ := Exchange.Reachable.step (.second false) r₁
      (Exchange.step_second _ (Proc.step_poll rfl rfl (fetchBlob_found h0 (by decide)
        (by rw [Store.get_set_str, if_pos rfl]) hmt.1 hmt.2)))
    have r₃ := Exchange.Reachable.step (.second false) r₂
      (Exchange.step_second _ (Proc.step_retrieveDescs rfl rfl (fetchBlob_missing h0 (by decide)
        (by rw [Store.get_set_str, if_neg (by decide)]; rfl) (by decide))))
    exact ⟨_, r₃, rfl⟩

theorem descriptors_race_small :
    0 < handlerLimits.depth ∧ ([(1 : UInt8)] ≠ [] ∧ [(1 : UInt8)].length ≤ 3048) ∧
      ∃ e, (Exchange.start (receiverCalls [1] [2]) (senderCalls [3])).Reachable handlerLimits e ∧
        e.second = ⟨[], [(lit "receiver_metadata", some [1]), (lit "receiver_buffers_desc", Option.none)], false⟩ :=
  ⟨by decide, ⟨by decide, by decide⟩,
    (descriptors_race handlerLimits (by decide) [1] [2] [3] [1] [2] ⟨by decide, by decide⟩ ⟨by decide, by decide⟩).1⟩

end NixlExamples
