import NixlExamples.Json.Dumps

/-!
# The metadata server

`MetadataHandler.handle` of `utils/tcp_server.py` on one request: it reads one line (`readLine`), strips it,
decodes it as UTF-8, parses it with `json.loads`, and serves `SET`, `GET` and `CLEAR` on the
module's `_metadata` dict (`Store`); every exception inside the `try` becomes an `ERROR` reply whose
message is `"Invalid JSON"` for a `json.JSONDecodeError` and `str(e)` for anything else.  The reply
is `json.dumps(response) + "\n"`, encoded.  `_lock` makes each call atomic with respect to the
store, so a call is one step of the server.

The store is a list of items in insertion order; `Store.set` is `_metadata[key] = value` (an equal
key keeps its place and its first spelling) and `Store.get` is `_metadata.get(key)`.
-/

namespace NixlExamples

/-- `_metadata`: its items in insertion order. -/
abbrev Store := List (PyJson × PyJson)

/-- `_metadata.get(key)`. -/
def Store.get (st : Store) (key : PyJson) : PyJson :=
  ((st.find? (·.1.keyEq key)).map (·.2)).getD .none

/-- `_metadata[key] = value`. -/
def Store.set (st : Store) (key value : PyJson) : Store :=
  if st.any (·.1.keyEq key) then st.map fun kv => if kv.1.keyEq key then (kv.1, value) else kv
  else st ++ [(key, value)]

/-- `_metadata[t] = v` then `_metadata.get(s)`, for `str` keys. -/
theorem Store.get_set_str (st : Store) (s t : PyStr) (v : PyJson) :
    (st.set (.str t) v).get (.str s) = if t = s then v else st.get (.str s) := by
  unfold Store.set Store.get
  split
  · next hany =>
    rw [List.find?_map]
    have hp : ((fun kv : PyJson × PyJson => kv.1.keyEq (.str s)) ∘ fun kv : PyJson × PyJson =>
        if kv.1.keyEq (.str t) then (kv.1, v) else kv) = fun kv => kv.1.keyEq (.str s) := by
      funext kv; simp only [Function.comp]; split <;> rfl
    rw [hp]
    split
    · next hts =>
      subst hts
      obtain ⟨kv, hkv, hk⟩ := List.any_eq_true.1 hany
      cases hf : st.find? (fun kv => kv.1.keyEq (.str t)) with
      | none => exact absurd hk (by simpa using List.find?_eq_none.1 hf kv hkv)
      | some kv' =>
        have := List.find?_some hf
        simp [this]
    · next hts =>
      cases hf : st.find? (fun kv => kv.1.keyEq (.str s)) with
      | none => rfl
      | some kv' =>
        have h1 := List.find?_some hf
        have h2 : kv'.1.keyEq (.str t) = false := by
          rw [keyEq_str.1 h1]; exact Bool.eq_false_iff.2 fun h => hts (PyJson.str.inj (keyEq_str.1 h)).symm
        simp [h2]
  · next hany =>
    rw [List.find?_append]
    split
    · next hts =>
      subst hts
      have : st.find? (fun kv => kv.1.keyEq (.str t)) = none :=
        List.find?_eq_none.2 fun kv hkv h => hany (List.any_eq_true.2 ⟨kv, hkv, h⟩)
      simp [this, keyEq_str.2 rfl]
    · next hts =>
      have hne : (PyJson.str t).keyEq (.str s) = false :=
        Bool.eq_false_iff.2 fun h => hts (PyJson.str.inj (keyEq_str.1 h))
      cases st.find? (fun kv => kv.1.keyEq (.str s)) <;> simp [hne]

/-- `self.rfile.readline()` on what the client sent: the bytes up to and including the first newline. -/
def readLine : Bytes → Bytes
  | [] => []
  | b :: bs => if b = 10 then [10] else b :: readLine bs

/-- `{"status": "OK"}`. -/
def okResponse : PyJson := .dict [(lit "status", .str (lit "OK"))]

/-- `{"status": "OK", "value": value}`. -/
def valueResponse (value : PyJson) : PyJson := .dict [(lit "status", .str (lit "OK")), (lit "value", value)]

/-- `{"status": "ERROR", "message": message}`. -/
def errorResponse (message : PyStr) : PyJson :=
  .dict [(lit "status", .str (lit "ERROR")), (lit "message", .str message)]

/-- `(json.dumps(x) + "\n").encode()`: the line the server writes for a response, and the line a client
sends for a request. -/
def jsonLine (response : PyJson) : Bytes := (utf8Encode (dumps response ++ lit "\n")).getD []

/-- What the `try` block of `handle` raises. -/
inductive Raised where
  /-- `json.JSONDecodeError` -/
  | jsonDecode
  /-- any other exception, with `str(e)` -/
  | other (text : PyStr)

/-- `v == "name"`. -/
def isStrLit (v : PyJson) (name : String) : Bool :=
  match v with
  | .str s => s == lit name
  | _ => false

/-- The `TypeError` of hashing a `list` or `dict` key. -/
def unhashable (key : PyJson) : Raised := .other (lit "unhashable type: '" ++ key.typeName ++ lit "'")

/-- The response to a `GET` of a hashable `key`. -/
def getResponse (st : Store) (key : PyJson) : PyJson :=
  match st.get key with
  | .none => errorResponse (lit "Key '" ++ key.toPyStr ++ lit "' not found")
  | value => valueResponse value

/-- `request.get(name)`. -/
def reqGet (request : List (PyStr × PyJson)) (name : String) : PyJson := dictGet request (lit name)

/-- The `if`/`elif` chain of `handle` on the items of the request. -/
def serve (st : Store) (request : List (PyStr × PyJson)) : Except Raised (PyJson × Store) :=
  let cmd := reqGet request "cmd"
  let key := reqGet request "key"
  if isStrLit cmd "SET" then
    if key.hashable then .ok (okResponse, st.set key (reqGet request "value")) else .error (unhashable key)
  else if isStrLit cmd "GET" then
    if key.hashable then .ok (getResponse st key, st) else .error (unhashable key)
  else if isStrLit cmd "CLEAR" then .ok (okResponse, [])
  else .ok (errorResponse (lit "Unknown command: " ++ cmd.toPyStr), st)

/-- The `try` block of `handle` on the bytes `input` the client sent: the response and the new store,
or what it raises. -/
def handleTry (lim : Limits) (st : Store) (input : Bytes) : Except Raised (PyJson × Store) := do
  let line := strip (readLine input)
  let text ← (utf8Decode line).mapError fun e => Raised.other (e.text line)
  let request ← (jsonLoads lim text).mapError fun
    | .decode => Raised.jsonDecode
    | e => Raised.other e.text
  match request with
  | .dict kvs => serve st kvs
  | v => .error (.other (lit "'" ++ v.typeName ++ lit "' object has no attribute 'get'"))

/-- `MetadataHandler.handle` on the bytes `input` the client sent: the reply it writes and the store
after. -/
def handle (lim : Limits) (st : Store) (input : Bytes) : Bytes × Store :=
  match handleTry lim st input with
  | .ok (response, st') => (jsonLine response, st')
  | .error .jsonDecode => (jsonLine (errorResponse (lit "Invalid JSON")), st)
  | .error (.other text) => (jsonLine (errorResponse text), st)

/-! ### One call of `handle` -/

/-- The request object `json.loads` makes of the line `handle` reads, when the line decodes and
parses to an object. -/
def requestOf (lim : Limits) (input : Bytes) : Option (List (PyStr × PyJson)) :=
  match utf8Decode (strip (readLine input)) with
  | .ok text =>
    match jsonLoads lim text with
    | .ok (.dict kvs) => some kvs
    | _ => Option.none
  | .error _ => Option.none

/-- The bytes of a reply: `json.dumps(response)`, one line of printable ASCII, and the newline. -/
def IsReplyLine (reply : Bytes) : Prop :=
  ∃ response : PyJson, Printable (dumps response) ∧ reply = (dumps response ++ [10]).map Nat.toUInt8

section Handle

variable {lim : Limits} {st : Store} {input : Bytes}

theorem jsonLine_eq (response : PyJson) : jsonLine response = (dumps response ++ [10]).map Nat.toUInt8 := by
  have hp := printable_dumps response
  have hascii : IsAscii (dumps response ++ lit "\n") := by
    intro c hc
    rcases List.mem_append.1 hc with hc | hc
    · have := hp c hc; omega
    · rw [List.mem_singleton.1 hc]; decide
  rw [jsonLine, utf8Encode_ascii hascii]
  rfl

theorem isReplyLine_jsonLine (response : PyJson) : IsReplyLine (jsonLine response) :=
  ⟨response, printable_dumps response, jsonLine_eq response⟩

/-- Every reply `handle` writes is `jsonLine` of a response. -/
theorem handle_reply (lim : Limits) (st : Store) (input : Bytes) :
    ∃ response, (handle lim st input).1 = jsonLine response := by
  unfold handle
  split <;> dsimp only <;> exact ⟨_, rfl⟩

/-- A line that does not give an object is refused, the store kept. -/
theorem handle_of_requestOf_none (h : requestOf lim input = Option.none) :
    ∃ message, handle lim st input = (jsonLine (errorResponse message), st) := by
  unfold requestOf at h
  unfold handle handleTry
  cases hd : utf8Decode (strip (readLine input)) with
  | error e => exact ⟨_, by simp only [hd, bind, Except.bind, Except.mapError]; rfl⟩
  | ok text =>
    cases hl : jsonLoads lim text with
    | error e => cases e <;> exact ⟨_, by simp only [hd, hl, bind, Except.bind, Except.mapError]; rfl⟩
    | ok v =>
      simp only [hd, hl] at h
      cases v <;> first | exact ⟨_, by simp only [hd, hl, bind, Except.bind, Except.mapError]; rfl⟩ | cases h

/-- A line that gives an object is served by `serve`. -/
theorem handleTry_of_requestOf {kvs : List (PyStr × PyJson)} (h : requestOf lim input = some kvs) :
    handleTry lim st input = serve st kvs := by
  unfold requestOf at h
  unfold handleTry
  split at h
  · next text hd =>
    split at h
    · next kvs' hl =>
      cases h
      simp only [hd, hl, bind, Except.bind, Except.mapError]
    · cases h
  · cases h

theorem handle_of_ok {response : PyJson} {st' : Store} (h : handleTry lim st input = .ok (response, st')) :
    handle lim st input = (jsonLine response, st') := by
  simp only [handle, h]

/-- Whatever the `try` block raises, the reply is an `ERROR` and the store is kept. -/
theorem handle_of_error {e : Raised} (h : handleTry lim st input = .error e) :
    ∃ message, handle lim st input = (jsonLine (errorResponse message), st) := by
  cases e with
  | jsonDecode => exact ⟨lit "Invalid JSON", by simp only [handle, h]⟩
  | other text => exact ⟨text, by simp only [handle, h]⟩

theorem isStrLit_unique {v : PyJson} {a b : String} (ha : isStrLit v a) (hb : isStrLit v b) :
    lit a = lit b := by
  cases v <;> try cases ha
  exact (beq_iff_eq.1 ha).symm.trans (beq_iff_eq.1 hb)

theorem getResponse_of_ne_none {key : PyJson} (h : st.get key ≠ .none) :
    getResponse st key = valueResponse (st.get key) := by
  unfold getResponse
  split
  · contradiction
  · rfl

/-- The requests `serve` carries out: a `SET` or a `GET` of a hashable key, and a `CLEAR`. -/
def carriedOut (kvs : List (PyStr × PyJson)) : Prop :=
  (isStrLit (reqGet kvs "cmd") "SET" ∨ isStrLit (reqGet kvs "cmd") "GET") ∧ (reqGet kvs "key").hashable ∨
    isStrLit (reqGet kvs "cmd") "CLEAR"

/-- On a request it does not carry out, `serve` raises or answers `ERROR`, and keeps the store. -/
theorem serve_of_not_carriedOut {kvs : List (PyStr × PyJson)} (h : ¬ carriedOut kvs) :
    (∃ e, serve st kvs = .error e) ∨ ∃ message, serve st kvs = .ok (errorResponse message, st) := by
  unfold carriedOut at h
  unfold serve
  dsimp only
  split
  · split
    · exact absurd (Or.inl ⟨Or.inl ‹_›, ‹_›⟩) h
    · exact .inl ⟨_, rfl⟩
  split
  · split
    · exact absurd (Or.inl ⟨Or.inr ‹_›, ‹_›⟩) h
    · exact .inl ⟨_, rfl⟩
  split
  · exact absurd (Or.inr ‹_›) h
  · exact .inr ⟨_, rfl⟩

/-- A `SET` of a hashable key stores the value and answers `OK`. -/
theorem handle_of_set {kvs : List (PyStr × PyJson)} (hr : requestOf lim input = some kvs)
    (hc : isStrLit (reqGet kvs "cmd") "SET") (hk : (reqGet kvs "key").hashable) :
    handle lim st input = (jsonLine okResponse, st.set (reqGet kvs "key") (reqGet kvs "value")) := by
  refine handle_of_ok ?_
  rw [handleTry_of_requestOf hr]
  simp only [serve, hc, hk, if_true]

/-- A `GET` of a hashable key answers from the store and keeps it. -/
theorem handle_of_get {kvs : List (PyStr × PyJson)} (hr : requestOf lim input = some kvs)
    (hc : isStrLit (reqGet kvs "cmd") "GET") (hk : (reqGet kvs "key").hashable) :
    handle lim st input = (jsonLine (getResponse st (reqGet kvs "key")), st) := by
  refine handle_of_ok ?_
  rw [handleTry_of_requestOf hr]
  have hs : isStrLit (reqGet kvs "cmd") "SET" = false :=
    Bool.eq_false_iff.2 fun hs => absurd (isStrLit_unique hc hs) (by decide)
  simp only [serve, hs, hc, hk, if_true, Bool.false_eq_true, if_false]

/-- A `CLEAR` empties the store and answers `OK`. -/
theorem handle_of_clear {kvs : List (PyStr × PyJson)} (hr : requestOf lim input = some kvs)
    (hc : isStrLit (reqGet kvs "cmd") "CLEAR") : handle lim st input = (jsonLine okResponse, []) := by
  refine handle_of_ok ?_
  rw [handleTry_of_requestOf hr]
  have hs : isStrLit (reqGet kvs "cmd") "SET" = false :=
    Bool.eq_false_iff.2 fun hs => absurd (isStrLit_unique hc hs) (by decide)
  have hg : isStrLit (reqGet kvs "cmd") "GET" = false :=
    Bool.eq_false_iff.2 fun hg => absurd (isStrLit_unique hc hg) (by decide)
  simp only [serve, hs, hg, hc, Bool.false_eq_true, if_false, if_true]

/-- Every other line is refused and the store kept. -/
theorem handle_of_not_carriedOut (hno : ∀ kvs, requestOf lim input = some kvs → ¬ carriedOut kvs) :
    ∃ message, handle lim st input = (jsonLine (errorResponse message), st) := by
  cases hr : requestOf lim input with
  | none => exact handle_of_requestOf_none hr
  | some kvs =>
    rcases serve_of_not_carriedOut (hno kvs hr) with ⟨e, he⟩ | ⟨message, hm⟩
    · exact handle_of_error ((handleTry_of_requestOf hr).trans he)
    · exact ⟨message, handle_of_ok ((handleTry_of_requestOf hr).trans hm)⟩

end Handle

/-- One call of `handle` on any bytes and any store: the reply is one line, `json.dumps` of a
response; a `SET` of a hashable key stores the value, a `GET` of one reads it and keeps the store, a
`CLEAR` empties it; on every other line, and on every line `json.loads` does not turn into an
object, the reply is an `ERROR` and the store is kept. -/
theorem handle_request (lim : Limits) (st : Store) (input : Bytes) :
    IsReplyLine (handle lim st input).1 ∧
    (∀ kvs, requestOf lim input = some kvs → isStrLit (reqGet kvs "cmd") "SET" →
      (reqGet kvs "key").hashable →
      handle lim st input = (jsonLine okResponse, st.set (reqGet kvs "key") (reqGet kvs "value"))) ∧
    (∀ kvs, requestOf lim input = some kvs → isStrLit (reqGet kvs "cmd") "GET" →
      (reqGet kvs "key").hashable →
      (st.get (reqGet kvs "key") ≠ .none →
        handle lim st input = (jsonLine (valueResponse (st.get (reqGet kvs "key"))), st)) ∧
      (st.get (reqGet kvs "key") = .none →
        handle lim st input =
          (jsonLine (errorResponse (lit "Key '" ++ (reqGet kvs "key").toPyStr ++ lit "' not found")), st))) ∧
    (∀ kvs, requestOf lim input = some kvs → isStrLit (reqGet kvs "cmd") "CLEAR" →
      handle lim st input = (jsonLine okResponse, [])) ∧
    ((∀ kvs, requestOf lim input = some kvs → ¬ carriedOut kvs) →
      ∃ message, handle lim st input = (jsonLine (errorResponse message), st)) := by
  refine ⟨?_, fun _ hr hc hk => handle_of_set hr hc hk, fun _ hr hc hk => ⟨fun hv => ?_, fun hv => ?_⟩,
    fun _ hr hc => handle_of_clear hr hc, handle_of_not_carriedOut⟩
  · obtain ⟨response, h⟩ := handle_reply lim st input
    exact h ▸ isReplyLine_jsonLine response
  · rw [handle_of_get hr hc hk, getResponse_of_ne_none hv]
  · rw [handle_of_get hr hc hk, getResponse, hv]

/-! ### A valid `SET` the server refuses

`json.loads` raises `RecursionError` on a text nested deeper than the interpreter's recursion limit
allows, and `handle` turns that into an `ERROR`: a `SET` whose value is `n + 1` nested arrays is a
JSON object with a hashable key, yet it is refused and the store kept, at every nesting limit the
value reaches (`handle_deepSet`); under a larger limit the same line is read as the `SET` it is
(`requestOf_deepSet`).
-/

/-- The limits `json.loads` runs under in a request thread of the server on CPython 3.11 with its
defaults: 988 nested containers, what the recursion limit of 1000 leaves below the thread's frames,
and `sys.int_info.default_max_str_digits`, 4300 digits. -/
def handlerLimits : Limits := ⟨988, 4300⟩

/-- `{"cmd":"SET","key":"k","value":[[...[]...]]}`, the value `n + 1` nested arrays. -/
def deepSetLine (n : Nat) : PyStr := setPrefix ++ (nestedArrays n ++ lit "\x7d")

/-- The bytes of `deepSetLine n`. -/
def deepSet (n : Nat) : Bytes := (deepSetLine n).map Nat.toUInt8

/-- The items of the object `deepSetLine n` is. -/
def deepSetItems (n : Nat) : List (PyStr × PyJson) :=
  [(lit "cmd", .str (lit "SET")), (lit "key", .str (lit "k")), (lit "value", nestedList n)]

section DeepSet

variable {lim : Limits} {st : Store} {n : Nat}

theorem readLine_of_forall {l : Bytes} (h : ∀ b ∈ l, b ≠ 10) : readLine l = l := by
  induction l with
  | nil => rfl
  | cons b l ih =>
    rw [readLine, if_neg (h b (List.mem_cons_self _ _)),
      ih fun b' hb' => h b' (List.mem_cons_of_mem _ hb')]

/-- Every character of the line is printable ASCII other than the space. -/
theorem deepSetLine_chars (n : Nat) : ∀ c ∈ deepSetLine n, 32 < c ∧ c < 127 := by
  intro c hc
  simp only [deepSetLine, List.mem_append] at hc
  rcases hc with hc | hc | hc
  · revert c; decide
  · rcases mem_nestedArrays hc with rfl | rfl <;> decide
  · revert c; decide

theorem deepSet_bytes (n : Nat) : ∀ b ∈ deepSet n, 32 < b.toNat ∧ b.toNat < 127 := by
  intro b hb
  obtain ⟨c, hc, rfl⟩ := List.mem_map.1 hb
  have := deepSetLine_chars n c hc
  rw [Nat.toUInt8, UInt8.toNat_ofNat_of_lt (by unfold UInt8.size; omega)]
  exact this

theorem line_deepSet (n : Nat) : strip (readLine (deepSet n)) = deepSet n := by
  have hb := deepSet_bytes n
  rw [readLine_of_forall fun b h h10 => absurd (h10 ▸ hb b h).1 (by decide),
    strip_of_forall fun b h => by have := hb b h; simp [isAsciiSpace]; omega]

theorem utf8Decode_deepSet (n : Nat) : utf8Decode (deepSet n) = .ok (deepSetLine n) :=
  utf8Decode_ascii fun c hc => by have := deepSetLine_chars n c hc; omega

theorem jsonLoads_deepSetLine (h0 : 0 < lim.depth) :
    jsonLoads lim (deepSetLine n) =
      if n + 1 < lim.depth then .ok (.dict (deepSetItems n)) else .error (.recursion false) := by
  obtain ⟨t, ht⟩ := nestedArrays_head n
  have hlen : (deepSetLine n).length + 1 = (2 * n + 25) + 10 := by
    simp only [deepSetLine, List.length_append, length_nestedArrays]
    rw [show setPrefix.length = 31 from rfl, show (lit "\x7d").length = 1 from rfl]
    omega
  unfold jsonLoads
  rw [if_neg (by simp [deepSetLine, setPrefix, lit]), hlen,
    show skipWs (deepSetLine n) = deepSetLine n from skipWs_cons (by decide) _, deepSetLine,
    scanValue_setPrefix lim h0, ht, List.cons_append, skipWs_cons (by decide), ← List.cons_append, ← ht,
    scanValue_nestedArrays lim n _ 1 _ (by omega)]
  by_cases h : 1 + n < lim.depth
  · rw [if_pos h, if_pos (by omega)]; rfl
  · rw [if_neg h, if_neg (by omega)]; rfl

/-- Under a limit the value stays within, the line is the `SET` request it reads as. -/
theorem requestOf_deepSet (h : n + 1 < lim.depth) : requestOf lim (deepSet n) = some (deepSetItems n) := by
  rw [requestOf, line_deepSet, utf8Decode_deepSet]
  dsimp only
  rw [jsonLoads_deepSetLine (by omega), if_pos h]

/-- At a limit the value reaches, the `SET` is refused and the store kept. -/
theorem handle_deepSet (h0 : 0 < lim.depth) (h : lim.depth ≤ n + 1) :
    handle lim st (deepSet n) = (jsonLine (errorResponse (LoadError.recursion false).text), st) := by
  have hl : jsonLoads lim (deepSetLine n) = .error (.recursion false) := by
    rw [jsonLoads_deepSetLine h0, if_neg (by omega)]
  simp only [handle, handleTry, line_deepSet, utf8Decode_deepSet, hl, bind, Except.bind, Except.mapError]

end DeepSet

/-- A line that is a JSON object with `cmd` `SET` and the hashable key `"k"`, nested one level
deeper than the server's `json.loads` allows: the server answers `ERROR` and stores nothing. -/
theorem deep_set_refused :
    requestOf ⟨989, 4300⟩ (deepSet 987) = some (deepSetItems 987) ∧
      isStrLit (reqGet (deepSetItems 987) "cmd") "SET" ∧ (reqGet (deepSetItems 987) "key").hashable ∧
      handle handlerLimits [] (deepSet 987) =
        (jsonLine (errorResponse (LoadError.recursion false).text), []) :=
  ⟨requestOf_deepSet (by decide), rfl, rfl, handle_deepSet (by decide) (by decide)⟩

end NixlExamples
