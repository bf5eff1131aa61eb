import NixlExamples.Metadata.Server

/-!
# The metadata server over a history of requests

The handler threads of the server touch `_metadata` only inside `with _lock:`, one store operation per
request, and what a thread writes back depends only on what it read there.  So whatever the clients
and the threads do, the requests take effect one at a time, in the order their threads take the lock.
`serveAll` is the server on such a sequence of request lines: the replies it writes, in order, and the
store after.

What the server is for is a key-value map whose entries the latest write decides (`latest`: the value
of the latest `SET` of a key since the latest `CLEAR`, or `None`).  For every sequence of lines, any
bytes at all, from the empty `_metadata` of the import (`server_history`):

* the store holds only hashable keys, and no key equal, as `dict` compares keys, to an earlier one
  (`WellKeyed`);
* the entry of every `str` key is `latest` of the lines so far (`get_serveAll`);
* every `GET` of a `str` key is answered with that entry as it stands when the `GET` takes the lock.

The step lemma everything rests on is `handle_store_cases`: one line sets a hashable key, empties the
store, or leaves it as it is.
-/

namespace NixlExamples

/-- The server on the request lines `inputs`, taken in the order their handlers take `_lock`: the
replies it writes and the store after. -/
def serveAll (lim : Limits) : Store → List Bytes → List Bytes × Store
  | st, [] => ([], st)
  | st, input :: inputs =>
    let step := handle lim st input
    let rest := serveAll lim step.2 inputs
    (step.1 :: rest.1, rest.2)

/-! ### The map the server stands for -/

/-- What the line `input` does to the entry of the `str` key `s`: a `SET` of a key equal to `s` gives
it the request's value, a `CLEAR` removes it (`some .none`), and every other line leaves it. -/
def lineEffect (lim : Limits) (s : PyStr) (input : Bytes) : Option PyJson :=
  match requestOf lim input with
  | some kvs =>
    if isStrLit (reqGet kvs "cmd") "SET" && (reqGet kvs "key").keyEq (.str s) then some (reqGet kvs "value")
    else if isStrLit (reqGet kvs "cmd") "CLEAR" then some .none
    else Option.none
  | Option.none => Option.none

/-- The entry of the `str` key `s` after the lines `inputs`, when it was `v₀` before them: the effect
of the latest line that has one on it. -/
def latest (lim : Limits) (s : PyStr) (v₀ : PyJson) (inputs : List Bytes) : PyJson :=
  (inputs.reverse.findSome? (lineEffect lim s)).getD v₀

/-- The reply to a `GET` of the `str` key `s` whose entry is `v` (`None` for none). -/
def getReply (s : PyStr) (v : PyJson) : PyJson :=
  match v with
  | .none => errorResponse (lit "Key '" ++ s ++ lit "' not found")
  | v => valueResponse v

/-- A store that stands for a `dict`: every key hashable, none equal to an earlier one. -/
structure WellKeyed (st : Store) : Prop where
  hashable : ∀ kv ∈ st, kv.1.hashable
  distinct : st.Pairwise fun a b => a.1.keyEq b.1 = false

theorem latest_cons (lim : Limits) (s : PyStr) (v₀ : PyJson) (input : Bytes) (inputs : List Bytes) :
    latest lim s v₀ (input :: inputs) = latest lim s ((lineEffect lim s input).getD v₀) inputs := by
  unfold latest
  rw [List.reverse_cons, List.findSome?_append]
  cases inputs.reverse.findSome? (lineEffect lim s) with
  | some v => rfl
  | none =>
    simp only [Option.none_or, List.findSome?_cons, List.findSome?_nil]
    cases lineEffect lim s input <;> rfl

/-! ### The store under `set` -/

/-- A `str` key equals only itself. -/
theorem str_keyEq {s : PyStr} {k : PyJson} : (PyJson.str s).keyEq k = true ↔ k = .str s := by
  cases k with
  | str t => simp only [PyJson.keyEq, beq_iff_eq, PyJson.str.injEq]; exact ⟨Eq.symm, Eq.symm⟩
  | _ => simp [PyJson.keyEq, PyJson.numKey]

/-- `_metadata[k] = v` leaves the entry of a `str` key that `k` does not equal. -/
theorem Store.get_set_of_keyEq_false {st : Store} {k : PyJson} {s : PyStr} (hk : k.keyEq (.str s) = false)
    (v : PyJson) : (st.set k v).get (.str s) = st.get (.str s) := by
  unfold Store.set Store.get
  split
  · rw [List.find?_map]
    have hp : ((fun kv : PyJson × PyJson => kv.1.keyEq (.str s)) ∘ fun kv : PyJson × PyJson =>
        if kv.1.keyEq k then (kv.1, v) else kv) = fun kv => kv.1.keyEq (.str s) := by
      funext kv; simp only [Function.comp]; split <;> rfl
    rw [hp]
    cases hf : st.find? (fun kv => kv.1.keyEq (.str s)) with
    | none => rfl
    | some kv =>
      have h1 := List.find?_some hf
      have hkv : kv.1.keyEq k = false := by
        rw [keyEq_str.1 h1]
        exact Bool.eq_false_iff.2 fun h => by simpa [hk] using keyEq_str.2 (str_keyEq.1 h)
      simp [hkv]
  · rw [List.find?_append]
    cases st.find? (fun kv => kv.1.keyEq (.str s)) <;> simp [hk]

/-- `_metadata[k] = v` then `_metadata.get(s)`, for any key `k` and a `str` key `s`. -/
theorem Store.get_set_of_str (st : Store) (k v : PyJson) (s : PyStr) :
    (st.set k v).get (.str s) = if k.keyEq (.str s) then v else st.get (.str s) := by
  split
  · next h => rw [keyEq_str.1 h, Store.get_set_str, if_pos rfl]
  · next h => exact Store.get_set_of_keyEq_false (Bool.eq_false_iff.2 h) v

theorem WellKeyed.set {st : Store} (h : WellKeyed st) {k : PyJson} (hk : k.hashable) (v : PyJson) :
    WellKeyed (st.set k v) := by
  unfold Store.set
  split
  · have hfst : ∀ kv : PyJson × PyJson, (if kv.1.keyEq k then (kv.1, v) else kv).1 = kv.1 := fun kv => by
      split <;> rfl
    refine ⟨fun kv hkv => ?_, List.pairwise_map.2 ?_⟩
    · obtain ⟨kv₀, hkv₀, rfl⟩ := List.mem_map.1 hkv
      rw [hfst]; exact h.hashable kv₀ hkv₀
    · simp only [hfst]; exact h.distinct
  · next hany =>
    refine ⟨fun kv hkv => ?_, List.pairwise_append.2 ⟨h.distinct, List.pairwise_singleton _ _, ?_⟩⟩
    · rcases List.mem_append.1 hkv with hkv | hkv
      · exact h.hashable kv hkv
      · rw [List.mem_singleton.1 hkv]; exact hk
    · intro a ha b hb
      rw [List.mem_singleton.1 hb]
      exact Bool.eq_false_iff.2 fun hab => hany (List.any_eq_true.2 ⟨a, ha, hab⟩)

/-! ### One request -/

section Handle

variable {lim : Limits} {st : Store} {input : Bytes}

/-- What one line can do to the store: set a hashable key, empty the store, or leave it. -/
theorem handle_store_cases (lim : Limits) (st : Store) (input : Bytes) :
    (∃ kvs, requestOf lim input = some kvs ∧ isStrLit (reqGet kvs "cmd") "SET" ∧ (reqGet kvs "key").hashable ∧
      (handle lim st input).2 = st.set (reqGet kvs "key") (reqGet kvs "value")) ∨
    (∃ kvs, requestOf lim input = some kvs ∧ isStrLit (reqGet kvs "cmd") "CLEAR" ∧ (handle lim st input).2 = []) ∨
    ((∀ kvs, requestOf lim input = some kvs →
      ¬ (isStrLit (reqGet kvs "cmd") "SET" ∧ (reqGet kvs "key").hashable) ∧ ¬ isStrLit (reqGet kvs "cmd") "CLEAR") ∧
      (handle lim st input).2 = st) := by
  cases hr : requestOf lim input with
  | none =>
    obtain ⟨_, h⟩ : ∃ message, handle lim st input = (jsonLine (errorResponse message), st) :=
      handle_of_requestOf_none hr
    exact .inr (.inr ⟨(fun _ h => nomatch h), by rw [h]⟩)
  | some kvs =>
    by_cases hs : isStrLit (reqGet kvs "cmd") "SET" ∧ (reqGet kvs "key").hashable
    · exact .inl ⟨kvs, rfl, hs.1, hs.2, by rw [handle_of_set hr hs.1 hs.2]⟩
    by_cases hc : isStrLit (reqGet kvs "cmd") "CLEAR"
    · exact .inr (.inl ⟨kvs, rfl, hc, by rw [handle_of_clear hr hc]⟩)
    refine .inr (.inr ⟨fun _ h => Option.some.inj h ▸ ⟨hs, hc⟩, ?_⟩)
    by_cases hg : isStrLit (reqGet kvs "cmd") "GET" ∧ (reqGet kvs "key").hashable
    · rw [handle_of_get hr hg.1 hg.2]
    · obtain ⟨_, h⟩ : ∃ message, handle lim st input = (jsonLine (errorResponse message), st) :=
        handle_of_not_carriedOut fun _ h' hco => by
          cases hr.symm.trans h'
          rcases hco with ⟨hsg | hsg, hh⟩ | hcl
          exacts [hs ⟨hsg, hh⟩, hg ⟨hsg, hh⟩, hc hcl]
      rw [h]

theorem lineEffect_of_set {s : PyStr} {kvs : List (PyStr × PyJson)} (hr : requestOf lim input = some kvs)
    (hc : isStrLit (reqGet kvs "cmd") "SET") :
    lineEffect lim s input = if (reqGet kvs "key").keyEq (.str s) then some (reqGet kvs "value") else Option.none := by
  have hcl : isStrLit (reqGet kvs "cmd") "CLEAR" = false :=
    Bool.eq_false_iff.2 fun h => absurd (isStrLit_unique hc h) (by decide)
  simp only [lineEffect, hr, hc, Bool.true_and, hcl, Bool.false_eq_true, if_false]

theorem lineEffect_of_clear {s : PyStr} {kvs : List (PyStr × PyJson)} (hr : requestOf lim input = some kvs)
    (hc : isStrLit (reqGet kvs "cmd") "CLEAR") : lineEffect lim s input = some .none := by
  have hs : isStrLit (reqGet kvs "cmd") "SET" = false :=
    Bool.eq_false_iff.2 fun h => absurd (isStrLit_unique hc h) (by decide)
  simp only [lineEffect, hr, hs, hc, Bool.false_and, Bool.false_eq_true, if_false, if_true]

theorem lineEffect_of_keep {s : PyStr} (h : ∀ kvs, requestOf lim input = some kvs →
      ¬ (isStrLit (reqGet kvs "cmd") "SET" ∧ (reqGet kvs "key").hashable) ∧ ¬ isStrLit (reqGet kvs "cmd") "CLEAR") :
    lineEffect lim s input = Option.none := by
  unfold lineEffect
  split
  · next kvs hr =>
    obtain ⟨hs, hc⟩ := h kvs hr
    have hset : (isStrLit (reqGet kvs "cmd") "SET" && (reqGet kvs "key").keyEq (.str s)) = false :=
      Bool.eq_false_iff.2 fun he => by
        rw [Bool.and_eq_true, keyEq_str] at he
        exact hs ⟨he.1, by rw [he.2]; rfl⟩
    simp only [hset, Bool.false_eq_true, if_false, hc, if_false]
  · rfl

/-- One line's effect on the entry of a `str` key. -/
theorem get_handle (lim : Limits) (st : Store) (input : Bytes) (s : PyStr) :
    (handle lim st input).2.get (.str s) = (lineEffect lim s input).getD (st.get (.str s)) := by
  rcases handle_store_cases lim st input with ⟨kvs, hr, hc, -, h⟩ | ⟨kvs, hr, hc, h⟩ | ⟨hkeep, h⟩
  · rw [h, Store.get_set_of_str, lineEffect_of_set hr hc]
    split <;> rfl
  · rw [h, lineEffect_of_clear hr hc]; rfl
  · rw [h, lineEffect_of_keep hkeep]; rfl

theorem WellKeyed.handle (h : WellKeyed st) : WellKeyed (handle lim st input).2 := by
  rcases handle_store_cases lim st input with ⟨kvs, -, -, hk, hs⟩ | ⟨kvs, -, -, hs⟩ | ⟨-, hs⟩
  · rw [hs]; exact h.set hk _
  · rw [hs]; exact ⟨(fun _ h => nomatch h), List.Pairwise.nil⟩
  · rw [hs]; exact h

/-- The reply to a `GET` of a `str` key, from its entry. -/
theorem getResponse_str (st : Store) (s : PyStr) : getResponse st (.str s) = getReply s (st.get (.str s)) := by
  unfold getResponse getReply
  cases st.get (.str s) <;> rfl

end Handle

/-! ### A history of requests -/

theorem get_serveAll (lim : Limits) (s : PyStr) :
    ∀ (st : Store) (inputs : List Bytes), (serveAll lim st inputs).2.get (.str s) = latest lim s (st.get (.str s)) inputs
  | _, [] => rfl
  | st, input :: inputs => by
    rw [latest_cons, ← get_handle]
    exact get_serveAll lim s _ inputs

theorem wellKeyed_serveAll (lim : Limits) :
    ∀ {st : Store} (inputs : List Bytes), WellKeyed st → WellKeyed (serveAll lim st inputs).2
  | _, [], h => h
  | _, _ :: inputs, h => wellKeyed_serveAll lim inputs h.handle

/-- The `i`-th reply is what `handle` writes for the `i`-th line, on the store the first `i` lines
leave. -/
theorem getElem?_serveAll (lim : Limits) :
    ∀ (st : Store) (inputs : List Bytes) (i : Nat) (hi : i < inputs.length),
      (serveAll lim st inputs).1[i]? = some (handle lim (serveAll lim st (inputs.take i)).2 inputs[i]).1
  | st, input :: inputs, 0, _ => by
    rw [show (serveAll lim st (input :: inputs)).1 = _ :: _ from rfl, List.getElem?_cons_zero]; rfl
  | st, input :: inputs, i + 1, hi => by
    rw [show (serveAll lim st (input :: inputs)).1 = _ :: _ from rfl, List.getElem?_cons_succ]
    exact getElem?_serveAll lim _ inputs i (by simpa using hi)

/-- The server on any sequence of request lines, from the empty `_metadata` it starts with: the store
stays a `dict` (hashable keys, each at most once), the entry of every `str` key is the value of its
latest `SET` since the latest `CLEAR` (`None` if there is none), and every `GET` of a `str` key is
answered with that entry as it stands at the `GET`. -/
theorem server_history (lim : Limits) (inputs : List Bytes) (s : PyStr) :
    WellKeyed (serveAll lim [] inputs).2 ∧
      (serveAll lim [] inputs).2.get (.str s) = latest lim s .none inputs ∧
      ∀ (i : Nat) (hi : i < inputs.length) (kvs : List (PyStr × PyJson)), requestOf lim inputs[i] = some kvs →
        isStrLit (reqGet kvs "cmd") "GET" → reqGet kvs "key" = .str s →
        (serveAll lim [] inputs).1[i]? = some (jsonLine (getReply s (latest lim s .none (inputs.take i)))) := by
  refine ⟨wellKeyed_serveAll lim inputs ⟨(fun _ h => nomatch h), List.Pairwise.nil⟩, get_serveAll lim s [] inputs,
    fun i hi kvs hr hc hk => ?_⟩
  rw [getElem?_serveAll lim [] inputs i hi, handle_of_get hr hc (by rw [hk]; rfl), hk, getResponse_str,
    get_serveAll]
  rfl

end NixlExamples
