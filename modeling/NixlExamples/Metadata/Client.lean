import NixlExamples.Metadata.Server
import NixlExamples.Metadata.Base64
import NixlExamples.Json.RoundTrip

/-!
# The metadata clients

`set_metadata` and `get_metadata` of `utils/tcp_server.py` and the TCP branches of the helpers of
`utils/metadata_utils.py`, each as one connection to the server's `handle`: the client sends
`json.dumps(request) + "\n"`, the server answers one line, and the client parses what one
`s.recv(4096)` returns.  A blob travels as its base64 text: `publish_agent_metadata` and
`publish_descriptors` store `base64.b64encode(blob).decode()`, and `retrieve_agent_metadata` and
`retrieve_descriptors` hand `base64.b64decode(value.encode())` to the agent when the value read back is
truthy.

* `publish_set`, `fetchBlob_found`: a blob of 1 to 3048 bytes comes back as it went in, from any
  store that still holds its key's value (`blob_roundtrip`);
* `fetchBlob_empty`, `fetchBlob_large`: the empty blob is stored as `""`, which the helpers take for
  "not there yet", and the reply for a blob of 3049 bytes or more does not fit in one `recv(4096)`, so
  the client's `json.loads` raises.
-/

namespace NixlExamples

/-- `str.isspace()` for one code point: the characters `str.strip()` removes. -/
def isUnicodeSpace (c : Nat) : Bool :=
  (9 ≤ c && c ≤ 13) || (28 ≤ c && c ≤ 32) || c == 0x85 || c == 0xA0 || c == 0x1680 ||
    (0x2000 ≤ c && c ≤ 0x200A) || c == 0x2028 || c == 0x2029 || c == 0x202F || c == 0x205F || c == 0x3000

/-- `str.strip()`. -/
def strStrip (s : PyStr) : PyStr :=
  ((s.dropWhile isUnicodeSpace).reverse.dropWhile isUnicodeSpace).reverse

/-- What a client call raises. -/
inductive ClientError where
  /-- `UnicodeDecodeError` of `.decode()` -/
  | decode (e : Utf8Error)
  /-- what `json.loads` raises -/
  | loads (e : LoadError)
  /-- `AttributeError`: a value of type `typeName` has no method `attr` -/
  | noAttr (typeName : PyStr) (attr : String)
  /-- `UnicodeEncodeError` of `.encode('utf-8')` on a lone surrogate -/
  | encode
  /-- `binascii.Error` of `base64.b64decode` -/
  | base64 (e : A2bError)

/-- The size the clients pass to `s.recv`. -/
def recvSize : Nat := 4096

/-- `json.loads(s.recv(4096).decode().strip())` on the line the server wrote, when `recv` returns all
of it that fits. -/
def readResponse (lim : Limits) (reply : Bytes) : Except ClientError PyJson := do
  let text ← (utf8Decode (reply.take recvSize)).mapError .decode
  (jsonLoads lim (strStrip text)).mapError .loads

/-- `response.get(name)`. -/
def responseGet (response : PyJson) (name : String) : Except ClientError PyJson :=
  match response with
  | .dict kvs => .ok (dictGet kvs (lit name))
  | v => .error (.noAttr v.typeName "get")

/-- `{"cmd": "SET", "key": key, "value": value}`. -/
def setRequest (key : PyStr) (value : PyJson) : PyJson :=
  .dict [(lit "cmd", .str (lit "SET")), (lit "key", .str key), (lit "value", value)]

/-- `{"cmd": "GET", "key": key}`. -/
def getRequest (key : PyStr) : PyJson := .dict [(lit "cmd", .str (lit "GET")), (lit "key", .str key)]

/-- `{"cmd": "CLEAR"}`. -/
def clearRequest : PyJson := .dict [(lit "cmd", .str (lit "CLEAR"))]

/-- `set_metadata(key, value)`: what it returns, and the server's store after the request. -/
def setMetadata (lim : Limits) (st : Store) (key : PyStr) (value : PyJson) : Except ClientError Bool × Store :=
  let (reply, st') := handle lim st (jsonLine (setRequest key value))
  ((do
    let response ← readResponse lim reply
    let status ← responseGet response "status"
    pure (isStrLit status "OK")), st')

/-- `get_metadata(key)`: what it returns (`None` as `.none`), and the server's store after. -/
def getMetadata (lim : Limits) (st : Store) (key : PyStr) : Except ClientError PyJson × Store :=
  let (reply, st') := handle lim st (jsonLine (getRequest key))
  ((do
    let response ← readResponse lim reply
    let status ← responseGet response "status"
    if isStrLit status "OK" then responseGet response "value" else pure .none), st')

/-- `clear_metadata()`: what it returns, and the server's store after the request. -/
def clearMetadata (lim : Limits) (st : Store) : Except ClientError Bool × Store :=
  let (reply, st') := handle lim st (jsonLine clearRequest)
  ((do
    let response ← readResponse lim reply
    let status ← responseGet response "status"
    pure (isStrLit status "OK")), st')

/-! ### Blobs through the directory -/

/-- `base64.b64encode(blob).decode('utf-8')`. -/
def b64Text (blob : Bytes) : Except ClientError PyStr := (utf8Decode (b64encode blob)).mapError .decode

/-- The TCP branch of `publish_agent_metadata` and the body of `publish_descriptors`: store the
base64 text of `blob` under `key`. -/
def publish (lim : Limits) (st : Store) (key : PyStr) (blob : Bytes) : Except ClientError Unit × Store :=
  match b64Text blob with
  | .ok text =>
    let (r, st') := setMetadata lim st key (.str text)
    (r.map fun _ => (), st')
  | .error e => (.error e, st)

/-- `publish_agent_metadata(agent, key)` in TCP mode, for the blob `agent.get_agent_metadata()`. -/
def publishAgentMetadata (lim : Limits) (st : Store) (key : PyStr) (metadata : Bytes) :
    Except ClientError Unit × Store :=
  publish lim st key metadata

/-- `publish_descriptors(agent, xfer_descs, key)`, for the blob `agent.get_serialized_descs(xfer_descs)`. -/
def publishDescriptors (lim : Limits) (st : Store) (key : PyStr) (serialized : Bytes) :
    Except ClientError Unit × Store :=
  publish lim st key serialized

/-- `base64.b64decode(value.encode('utf-8'))`. -/
def decodeBlob (value : PyJson) : Except ClientError Bytes :=
  match value with
  | .str s =>
    match utf8Encode s with
    | some b => (a2bBase64 b).mapError .base64
    | Option.none => .error .encode
  | v => .error (.noAttr v.typeName "encode")

/-- One `get_metadata(key)` of a retrieving helper: the blob it decodes when the value is truthy,
`none` when the value is falsy. -/
def fetchBlob (lim : Limits) (st : Store) (key : PyStr) : Except ClientError (Option Bytes) × Store :=
  let (r, st') := getMetadata lim st key
  ((do
    let value ← r
    if value.truthy then (decodeBlob value).map some else pure Option.none), st')

/-- `retrieve_descriptors(agent, key)`: the bytes it hands `deserialize_descs`, `none` when it
returns `None`. -/
def retrieveDescriptors (lim : Limits) (st : Store) (key : PyStr) : Except ClientError (Option Bytes) × Store :=
  fetchBlob lim st key

/-- One pass of the polling loop of `retrieve_agent_metadata` in TCP mode: the bytes it hands
`add_remote_agent`, or `none` when the loop polls again (or, at the timeout, returns `None`). -/
def pollAgentMetadata (lim : Limits) (st : Store) (key : PyStr) : Except ClientError (Option Bytes) × Store :=
  fetchBlob lim st key

/-! ### The request line on the server -/

theorem readLine_append_newline {l : Bytes} (h : ∀ b ∈ l, b ≠ 10) : readLine (l ++ [10]) = l ++ [10] := by
  induction l with
  | nil => rfl
  | cons b l ih =>
    rw [List.cons_append, readLine, if_neg (h b (List.mem_cons_self _ _)),
      ih fun b' hb' => h b' (List.mem_cons_of_mem _ hb')]

theorem toUInt8_toNat_of_lt {c : Nat} (h : c < 256) : c.toUInt8.toNat = c :=
  UInt8.toNat_ofNat_of_lt h

/-- The text of a `dict`, `{` ... `}`. -/
theorem dumps_dict (kvs : List (PyStr × PyJson)) : dumps (.dict kvs) = 123 :: (dumpsMembers kvs ++ [125]) := rfl

/-- `bytes.strip()` on a braced text and its newline. -/
theorem strip_braces (m : Bytes) : strip (123 :: (m ++ [125]) ++ [10]) = 123 :: (m ++ [125]) := by
  have h : ∀ b : UInt8, b.toNat = 123 ∨ b.toNat = 125 → isAsciiSpace b = false := by
    intro b hb; simp only [isAsciiSpace]; rcases hb with hb | hb <;> simp [hb]
  have hr : (123 :: (m ++ [125]) ++ [(10 : UInt8)]).reverse = 10 :: 125 :: (m.reverse ++ [123]) := by simp
  rw [strip, List.cons_append, List.dropWhile_cons_of_neg (by simp [h 123 (.inl rfl)]), ← List.cons_append, hr,
    List.dropWhile_cons_of_pos (by decide), List.dropWhile_cons_of_neg (by simp [h 125 (.inr rfl)])]
  simp

/-- The line `handle` reads and strips from a `dict` request is the request's text. -/
theorem line_jsonLine_dict (kvs : List (PyStr × PyJson)) :
    strip (readLine (jsonLine (.dict kvs))) = (dumps (.dict kvs)).map Nat.toUInt8 := by
  have hp := printable_dumps (.dict kvs)
  rw [jsonLine_eq, List.map_append, show [10].map Nat.toUInt8 = [(10 : UInt8)] from rfl, readLine_append_newline]
  · rw [dumps_dict, List.map_cons, List.map_append]
    exact strip_braces _
  · intro b hb h10
    obtain ⟨c, hc, rfl⟩ := List.mem_map.1 hb
    have := hp c hc
    have h := congrArg UInt8.toNat h10
    rw [toUInt8_toNat_of_lt (by omega)] at h
    rw [show (10 : UInt8).toNat = 10 from rfl] at h; omega

theorem isAscii_of_printable {s : PyStr} (h : Printable s) : IsAscii s := fun c hc => by
  have := h c hc; omega

/-- A request a client sends is the object it encodes, to the server. -/
theorem requestOf_jsonLine_dict {lim : Limits} (h0 : 0 < lim.depth) {kvs : List (PyStr × PyJson)}
    (hs : StrItems kvs) (hnd : (kvs.map Prod.fst).Nodup) : requestOf lim (jsonLine (.dict kvs)) = some kvs := by
  unfold requestOf
  rw [line_jsonLine_dict, utf8Decode_ascii (isAscii_of_printable (printable_dumps _))]
  dsimp only
  rw [jsonLoads_dumps_strDict lim h0 hs hnd]

theorem setRequest_items {key v : PyStr} (hk : ScalarStr key) (hv : ScalarStr v) :
    StrItems [(lit "cmd", .str (lit "SET")), (lit "key", .str key), (lit "value", .str v)] := by
  intro kv hkv
  simp only [List.mem_cons, List.mem_singleton, List.not_mem_nil, or_false] at hkv
  rcases hkv with rfl | rfl | rfl
  exacts [⟨scalarStr_lit _, _, rfl, scalarStr_lit _⟩, ⟨scalarStr_lit _, _, rfl, hk⟩, ⟨scalarStr_lit _, _, rfl, hv⟩]

theorem getRequest_items {key : PyStr} (hk : ScalarStr key) :
    StrItems [(lit "cmd", .str (lit "GET")), (lit "key", .str key)] := by
  intro kv hkv
  simp only [List.mem_cons, List.mem_singleton, List.not_mem_nil, or_false] at hkv
  rcases hkv with rfl | rfl
  exacts [⟨scalarStr_lit _, _, rfl, scalarStr_lit _⟩, ⟨scalarStr_lit _, _, rfl, hk⟩]

theorem clearRequest_items : StrItems [(lit "cmd", .str (lit "CLEAR"))] := by
  intro kv hkv
  rw [List.mem_singleton.1 hkv]
  exact ⟨scalarStr_lit _, _, rfl, scalarStr_lit _⟩

section Requests

variable {lim : Limits} {st : Store} {key : PyStr}

/-- The server stores what a `set_metadata` of a `str` sends. -/
theorem handle_setRequest (h0 : 0 < lim.depth) (hk : ScalarStr key) {v : PyStr} (hv : ScalarStr v) :
    handle lim st (jsonLine (setRequest key (.str v))) = (jsonLine okResponse, st.set (.str key) (.str v)) :=
  handle_of_set (requestOf_jsonLine_dict h0 (setRequest_items hk hv)
    (show [lit "cmd", lit "key", lit "value"].Nodup by decide)) rfl rfl

/-- The server answers a `get_metadata` from the store and keeps it. -/
theorem handle_getRequest (h0 : 0 < lim.depth) (hk : ScalarStr key) :
    handle lim st (jsonLine (getRequest key)) = (jsonLine (getResponse st (.str key)), st) :=
  (handle_of_get (requestOf_jsonLine_dict h0 (getRequest_items hk)
    (show [lit "cmd", lit "key"].Nodup by decide)) rfl rfl :)

/-- The server empties its store on a `clear_metadata`. -/
theorem handle_clearRequest (h0 : 0 < lim.depth) : handle lim st (jsonLine clearRequest) = (jsonLine okResponse, []) :=
  handle_of_clear (requestOf_jsonLine_dict h0 clearRequest_items (by decide)) rfl

end Requests

/-! ### The reply on the client -/

/-- `str.strip()` keeps a text that starts and ends with no whitespace. -/
theorem strStrip_eq_self {s : PyStr} (hh : ∀ c ∈ s.head?, isUnicodeSpace c = false)
    (hl : ∀ c ∈ s.getLast?, isUnicodeSpace c = false) : strStrip s = s := by
  cases s with
  | nil => rfl
  | cons a t =>
    obtain ⟨z, r, hr⟩ := List.exists_cons_of_ne_nil (List.reverse_ne_nil_iff.2 (List.cons_ne_nil a t))
    have hz : (a :: t).getLast? = some z := by rw [← List.head?_reverse, hr]; rfl
    rw [strStrip, List.dropWhile_cons_of_neg (by simp [hh a rfl]), hr,
      List.dropWhile_cons_of_neg (by simp [hl z hz]), ← hr, List.reverse_reverse]

/-- `str.strip()` on a braced text and its newline. -/
theorem strStrip_braces (m : PyStr) : strStrip (123 :: (m ++ [125]) ++ [10]) = 123 :: (m ++ [125]) := by
  have hr : (123 :: (m ++ [125]) ++ [10]).reverse = 10 :: (123 :: (m ++ [125])).reverse := by simp
  rw [strStrip, List.cons_append, List.dropWhile_cons_of_neg (by decide), ← List.cons_append, hr,
    List.dropWhile_cons_of_pos (by decide)]
  have hr2 : (123 :: (m ++ [125])).reverse = 125 :: (m.reverse ++ [123]) := by simp
  rw [hr2, List.dropWhile_cons_of_neg (by decide), ← hr2, List.reverse_reverse]

theorem isAscii_jsonText (r : PyJson) : IsAscii (dumps r ++ [10]) := by
  intro c hc
  rcases List.mem_append.1 hc with hc | hc
  · have := printable_dumps r c hc; omega
  · rw [List.mem_singleton.1 hc]; decide

/-- A reply that fits in one `recv` is read back as the `dict` the server wrote. -/
theorem readResponse_dict {lim : Limits} (h0 : 0 < lim.depth) {kvs : List (PyStr × PyJson)}
    (hs : StrItems kvs) (hnd : (kvs.map Prod.fst).Nodup) (hlen : (dumps (.dict kvs)).length < recvSize) :
    readResponse lim (jsonLine (.dict kvs)) = .ok (.dict kvs) := by
  have hle : ((dumps (.dict kvs) ++ [10]).map Nat.toUInt8).length ≤ recvSize := by
    simp only [List.length_map, List.length_append, List.length_singleton]; omega
  unfold readResponse
  rw [jsonLine_eq, List.take_of_length_le hle, utf8Decode_ascii (isAscii_jsonText _)]
  simp only [bind, Except.bind, Except.mapError]
  rw [dumps_dict, strStrip_braces, ← dumps_dict, jsonLoads_dumps_strDict lim h0 hs hnd]

theorem okResponse_items : StrItems [(lit "status", .str (lit "OK"))] := by
  intro kv hkv
  rw [List.mem_singleton.1 hkv]
  exact ⟨scalarStr_lit _, _, rfl, scalarStr_lit _⟩

theorem response_items (status name : String) {v : PyStr} (hv : ScalarStr v) :
    StrItems [(lit "status", .str (lit status)), (lit name, .str v)] := by
  intro kv hkv
  simp only [List.mem_cons, List.mem_singleton, List.not_mem_nil, or_false] at hkv
  rcases hkv with rfl | rfl
  exacts [⟨scalarStr_lit _, _, rfl, scalarStr_lit _⟩, ⟨scalarStr_lit _, _, rfl, hv⟩]

theorem length_dumps_valueResponse (v : PyStr) :
    (dumps (valueResponse (.str v))).length = (v.flatMap escapeCp).length + 29 := by
  simp [valueResponse, dumps, dumpsMembers, dumpsStr, lit, escapeCp]

theorem length_dumps_errorResponse (m : PyStr) :
    (dumps (errorResponse m)).length = (m.flatMap escapeCp).length + 34 := by
  simp [errorResponse, dumps, dumpsMembers, dumpsStr, lit, escapeCp]

section Calls

variable {lim : Limits} {st : Store} {key : PyStr}

/-- `set_metadata` of a `str` stores it and returns `True`. -/
theorem setMetadata_str (h0 : 0 < lim.depth) (hk : ScalarStr key) {v : PyStr} (hv : ScalarStr v) :
    setMetadata lim st key (.str v) = (.ok true, st.set (.str key) (.str v)) := by
  unfold setMetadata
  rw [handle_setRequest h0 hk hv]
  dsimp only
  rw [okResponse, readResponse_dict h0 okResponse_items (by decide) (by decide)]
  rfl

/-- `get_metadata` of a key the store maps to a `str` returns it, when the reply fits in one `recv`. -/
theorem getMetadata_found (h0 : 0 < lim.depth) (hk : ScalarStr key) {t : PyStr} (hv : st.get (.str key) = .str t)
    (ht : ScalarStr t) (hlen : (t.flatMap escapeCp).length + 29 < recvSize) :
    getMetadata lim st key = (.ok (.str t), st) := by
  unfold getMetadata
  rw [handle_getRequest h0 hk, getResponse_of_ne_none (by rw [hv]; exact PyJson.noConfusion), hv]
  dsimp only
  rw [valueResponse, readResponse_dict h0 (response_items "OK" "value" ht)
    (show [lit "status", lit "value"].Nodup by decide)
    (by rw [← valueResponse, length_dumps_valueResponse]; exact hlen)]
  rfl

/-- `get_metadata` of a key the store lacks returns `None`, when the reply fits in one `recv`. -/
theorem getMetadata_missing (h0 : 0 < lim.depth) (hk : ScalarStr key) (hv : st.get (.str key) = .none)
    (hlen : ((lit "Key '" ++ key ++ lit "' not found").flatMap escapeCp).length + 34 < recvSize) :
    getMetadata lim st key = (.ok .none, st) := by
  have hm : ScalarStr (lit "Key '" ++ key ++ lit "' not found") := by
    intro c hc
    simp only [List.mem_append] at hc
    rcases hc with (hc | hc) | hc
    exacts [scalarStr_lit _ c hc, hk c hc, scalarStr_lit _ c hc]
  unfold getMetadata
  rw [handle_getRequest h0 hk, getResponse, hv]
  dsimp only
  rw [show (PyJson.str key).toPyStr = key from rfl, errorResponse,
    readResponse_dict h0 (response_items "ERROR" "message" hm)
      (show [lit "status", lit "message"].Nodup by decide)
      (by rw [← errorResponse, length_dumps_errorResponse]; exact hlen)]
  rfl

/-- `clear_metadata` empties the store and returns `True`, whatever the store held. -/
theorem clearMetadata_ok (h0 : 0 < lim.depth) : clearMetadata lim st = (.ok true, []) := by
  unfold clearMetadata
  rw [handle_clearRequest h0]
  dsimp only
  rw [okResponse, readResponse_dict h0 okResponse_items (by decide) (by decide)]
  rfl

end Calls

example : clearMetadata handlerLimits [(.str (lit "target_descs"), .str (lit "QUJD"))] = (.ok true, []) :=
  clearMetadata_ok (by decide)

/-! ### Blobs -/

/-- The base64 text of a blob, as a `str`. -/
def b64Str (blob : Bytes) : PyStr := (b64encode blob).map UInt8.toNat

theorem isPlain_of_isB64Char {b : UInt8} (h : IsB64Char b) : IsPlain b.toNat := by
  unfold IsB64Char b64Index at h
  unfold IsPlain
  split_ifs at h <;> simp at h <;> omega

theorem b64Str_plain (blob : Bytes) : ∀ c ∈ b64Str blob, IsPlain c := by
  intro c hc
  obtain ⟨b, hb, rfl⟩ := List.mem_map.1 hc
  exact isPlain_of_isB64Char (b64encode_chars blob b hb)

theorem map_toUInt8_b64Str (blob : Bytes) : (b64Str blob).map Nat.toUInt8 = b64encode blob := by
  rw [b64Str, List.map_map]
  conv_rhs => rw [← List.map_id (b64encode blob)]
  exact List.map_congr_left fun b _ => UInt8.toNat.inj (toUInt8_toNat_of_lt b.toNat_lt_size)

theorem isAscii_b64Str (blob : Bytes) : IsAscii (b64Str blob) := fun c hc => by
  have := (b64Str_plain blob c hc).2.1; omega

theorem b64Text_eq (blob : Bytes) : b64Text blob = .ok (b64Str blob) := by
  rw [b64Text, ← map_toUInt8_b64Str, utf8Decode_ascii (isAscii_b64Str blob)]
  rfl

theorem decodeBlob_b64Str (blob : Bytes) : decodeBlob (.str (b64Str blob)) = .ok blob := by
  rw [decodeBlob, utf8Encode_ascii (isAscii_b64Str blob), map_toUInt8_b64Str]
  dsimp only
  rw [a2bBase64, a2bGo_b64encode]
  rfl

theorem length_b64Str (blob : Bytes) : (b64Str blob).length = 4 * ((blob.length + 2) / 3) := by
  rw [b64Str, List.length_map, length_b64encode]

/-! ### A reply longer than one `recv` -/

/-- `{"status": "OK", "value": `, the text of a found value's reply before the value. -/
def valuePrefix : PyStr := lit "\x7b\"status\": \"OK\", \"value\": "

theorem dumps_valueResponse_plain {t : PyStr} (ht : ∀ c ∈ t, IsPlain c) :
    dumps (valueResponse (.str t)) = valuePrefix ++ 34 :: (t ++ [34, 125]) := by
  simp [valueResponse, dumps, dumpsMembers, dumpsStr, flatMap_escapeCp_plain ht, valuePrefix, lit, escapeCp]

theorem scanValue_valuePrefix (lim : Limits) (h0 : 0 < lim.depth) (fuel : Nat) (u : List Nat) :
    scanValue lim (fuel + 20) 0 (valuePrefix ++ u) =
      (scanValue lim (fuel + 19) 1 (skipWs u)).bind fun (v, r) =>
        match skipWs r with
        | 125 :: r => pure (.dict [(lit "status", .str (lit "OK")), (lit "value", v)], r)
        | 44 :: r => scanMembers (scanValue lim (fuel + 19) 1) (fuel + 17)
            [(lit "status", .str (lit "OK")), (lit "value", v)] (skipWs r)
        | _ => .error .decode := by
  rw [show valuePrefix ++ u = 123 :: (valuePrefix.drop 1 ++ u) from rfl, scanValue_open_object, if_neg (by omega)]
  rfl

theorem scanValue_quote (lim : Limits) (fuel depth : Nat) (s : List Nat) :
    scanValue lim (fuel + 1) depth (34 :: s) = (scanString fuel s).map fun (str, r) => (.str str, r) := rfl

theorem isUnicodeSpace_of_plain {c : Nat} (h : IsPlain c) : isUnicodeSpace c = false := by
  obtain ⟨h1, h2, -, -⟩ := h
  unfold isUnicodeSpace
  simp only [Bool.or_eq_false_iff, Bool.and_eq_false_iff, decide_eq_false_iff_not, beq_eq_false_iff_ne]
  omega

/-- When the value's text runs past the first 4096 bytes, the client's `json.loads` raises: the text
it gets ends inside the string, or right after it with the object unclosed. -/
theorem readResponse_long {lim : Limits} (h0 : 0 < lim.depth) {t : PyStr} (ht : ∀ c ∈ t, IsPlain c)
    (hlen : 4068 ≤ t.length) : readResponse lim (jsonLine (valueResponse (.str t))) = .error (.loads .decode) := by
  have hpre : valuePrefix.length = 26 := rfl
  -- the text `recv` returns: the prefix, the opening quote, and the first 4069 characters after it
  have htake : ((dumps (valueResponse (.str t)) ++ [10]).map Nat.toUInt8).take recvSize =
      (valuePrefix ++ 34 :: (t ++ [34, 125, 10]).take 4069).map Nat.toUInt8 := by
    rw [← List.map_take, dumps_valueResponse_plain ht, List.append_assoc, List.cons_append,
      List.take_append_eq_append_take, hpre, List.take_of_length_le (by rw [hpre]; decide),
      show recvSize - 26 = 4069 + 1 from rfl, List.take_succ_cons, List.append_assoc]
    rfl
  have hw : (t ++ [34, 125, 10]).take 4069 = t.take 4069 ∧ 4069 ≤ t.length ∨
      (t ++ [34, 125, 10]).take 4069 = t ++ [34] := by
    rw [List.take_append_eq_append_take]
    rcases Nat.lt_or_ge t.length 4069 with h | h
    · right
      rw [List.take_of_length_le (by omega), show 4069 - t.length = 1 by omega]
      rfl
    · left
      rw [show 4069 - t.length = 0 by omega]
      exact ⟨by simp, h⟩
  generalize hwdef : (t ++ [34, 125, 10]).take 4069 = w at htake hw
  have hwc : ∀ c ∈ w, IsPlain c ∨ c = 34 := by
    rcases hw with ⟨rfl, -⟩ | rfl
    · exact fun c hc => .inl (ht c (List.mem_of_mem_take hc))
    · intro c hc
      rcases List.mem_append.1 hc with hc | hc
      exacts [.inl (ht c hc), .inr (List.mem_singleton.1 hc)]
  have hlast : ∀ c ∈ (valuePrefix ++ 34 :: w).getLast?, isUnicodeSpace c = false := by
    intro c hc
    rw [List.getLast?_append_of_ne_nil _ (List.cons_ne_nil _ _)] at hc
    rcases List.mem_cons.1 (List.mem_of_mem_getLast? hc) with rfl | hc
    · rfl
    · rcases hwc c hc with h | rfl
      exacts [isUnicodeSpace_of_plain h, rfl]
  have hascii : IsAscii (valuePrefix ++ 34 :: w) := by
    intro c hc
    rcases List.mem_append.1 hc with hc | hc
    · exact (show IsAscii valuePrefix by decide) c hc
    · rcases List.mem_cons.1 hc with rfl | hc
      · decide
      · rcases hwc c hc with h | rfl
        exacts [by have := h.2.1; omega, by decide]
  have hloads : jsonLoads lim (valuePrefix ++ 34 :: w) = .error .decode := by
    obtain ⟨F, hF⟩ : ∃ F, (valuePrefix ++ 34 :: w).length + 1 = F + 20 :=
      ⟨(valuePrefix ++ 34 :: w).length + 1 - 20, by simp only [List.length_append, List.length_cons, hpre]; omega⟩
    have hh : (valuePrefix ++ 34 :: w).head? = some 123 := rfl
    unfold jsonLoads
    rw [hh, if_neg (by decide), hF, show skipWs (valuePrefix ++ 34 :: w) = valuePrefix ++ 34 :: w from
      skipWs_cons (by decide) _, scanValue_valuePrefix lim h0, skipWs_cons (by decide), scanValue_quote]
    rcases hw with ⟨rfl, -⟩ | rfl
    · rw [scanString_unterminated _ _ fun c hc => ht c (List.mem_of_mem_take hc)]
      rfl
    · rw [scanString_plain t _ [] (fun c hc => ⟨(ht c hc).2.2.1, (ht c hc).2.2.2, by have := (ht c hc).1; omega⟩)
        (by simp only [List.length_append, List.length_cons, List.length_singleton, hpre] at hF; omega)]
      rfl
  unfold readResponse
  rw [jsonLine_eq, htake, utf8Decode_ascii hascii]
  simp only [bind, Except.bind, Except.mapError, strStrip_eq_self (by intro c hc; cases hc; rfl) hlast, hloads]

section Blobs

variable {lim : Limits} {st : Store} {key : PyStr}

/-- Publishing stores the blob's base64 text under its key. -/
theorem publish_set (h0 : 0 < lim.depth) (hk : ScalarStr key) (blob : Bytes) :
    publish lim st key blob = (.ok (), st.set (.str key) (.str (b64Str blob))) := by
  rw [publish, b64Text_eq]
  dsimp only
  rw [setMetadata_str h0 hk (scalarStr_of_plain (b64Str_plain blob))]
  rfl

/-- A key that holds the text of a blob of 1 to 3048 bytes gives the blob back. -/
theorem fetchBlob_found (h0 : 0 < lim.depth) (hk : ScalarStr key) {blob : Bytes}
    (hv : st.get (.str key) = .str (b64Str blob)) (hne : blob ≠ []) (hlen : blob.length ≤ 3048) :
    fetchBlob lim st key = (.ok (some blob), st) := by
  have hpl := b64Str_plain blob
  have hl := length_b64Str blob
  have hpos := List.length_pos.2 hne
  unfold fetchBlob
  rw [getMetadata_found h0 hk hv (scalarStr_of_plain hpl)
    (by rw [flatMap_escapeCp_plain hpl, hl, recvSize]; omega)]
  have ht : (PyJson.str (b64Str blob)).truthy = true := by
    simp only [PyJson.truthy, Bool.not_eq_true', List.isEmpty_eq_false]
    exact List.ne_nil_of_length_pos (by omega)
  simp only [bind, Except.bind, ht, if_true, decodeBlob_b64Str]
  rfl

/-- A key that holds the empty text reads as absent. -/
theorem fetchBlob_empty (h0 : 0 < lim.depth) (hk : ScalarStr key) (hv : st.get (.str key) = .str [])  :
    fetchBlob lim st key = (.ok Option.none, st) := by
  unfold fetchBlob
  rw [getMetadata_found h0 hk hv (fun _ h => absurd h (List.not_mem_nil _)) (by decide)]
  rfl

/-- A key that holds the text of a blob of 3049 bytes or more makes the client raise. -/
theorem fetchBlob_large (h0 : 0 < lim.depth) (hk : ScalarStr key) {blob : Bytes}
    (hv : st.get (.str key) = .str (b64Str blob)) (hlen : 3049 ≤ blob.length) :
    fetchBlob lim st key = (.error (.loads .decode), st) := by
  unfold fetchBlob getMetadata
  rw [handle_getRequest h0 hk, getResponse_of_ne_none (by rw [hv]; exact PyJson.noConfusion), hv]
  dsimp only
  rw [readResponse_long h0 (b64Str_plain blob) (by rw [length_b64Str]; omega)]
  rfl

/-- A key the store lacks reads as absent, when the `ERROR` reply fits in one `recv`. -/
theorem fetchBlob_missing (h0 : 0 < lim.depth) (hk : ScalarStr key) (hv : st.get (.str key) = .none)
    (hlen : ((lit "Key '" ++ key ++ lit "' not found").flatMap escapeCp).length + 34 < recvSize) :
    fetchBlob lim st key = (.ok Option.none, st) := by
  unfold fetchBlob
  rw [getMetadata_missing h0 hk hv hlen]
  rfl

end Blobs

/-! ### The round trip -/

/-- Publishing a blob and retrieving its key, with nothing in between: the empty blob comes back as
"not there" from both retrieving helpers, and a blob of 3049 bytes or more makes both raise in the
client's `json.loads`. -/
theorem blob_roundtrip_boundary (lim : Limits) (h0 : 0 < lim.depth) (st : Store) (key : PyStr)
    (hk : ScalarStr key) :
    (retrieveDescriptors lim (publishDescriptors lim st key []).2 key).1 = .ok Option.none ∧
      (pollAgentMetadata lim (publishAgentMetadata lim st key []).2 key).1 = .ok Option.none ∧
      ∀ blob : Bytes, 3049 ≤ blob.length →
        (retrieveDescriptors lim (publishDescriptors lim st key blob).2 key).1 = .error (.loads .decode) ∧
        (pollAgentMetadata lim (publishAgentMetadata lim st key blob).2 key).1 = .error (.loads .decode) := by
  have hget : ∀ blob, ((publish lim st key blob).2).get (.str key) = .str (b64Str blob) := fun blob => by
    rw [publish_set h0 hk, Store.get_set_str, if_pos rfl]
  have hempty := fetchBlob_empty h0 hk (hget [])
  refine ⟨congrArg Prod.fst hempty, congrArg Prod.fst hempty, fun blob hb => ?_⟩
  have hlarge := fetchBlob_large h0 hk (hget blob) hb
  exact ⟨congrArg Prod.fst hlarge, congrArg Prod.fst hlarge⟩

theorem blob_roundtrip_boundary_receiver :
    0 < handlerLimits.depth ∧ ScalarStr (lit "receiver_buffers_desc") ∧
      (retrieveDescriptors handlerLimits (publishDescriptors handlerLimits [] (lit "receiver_buffers_desc") []).2
        (lit "receiver_buffers_desc")).1 = .ok Option.none :=
  ⟨by decide, by decide,
    (blob_roundtrip_boundary handlerLimits (by decide) [] (lit "receiver_buffers_desc") (by decide)).1⟩

/-- A blob of 1 to 3048 bytes, published under a key, comes back from both retrieving helpers from any
later store that still maps the key as the publish left it: requests on other keys may come between. -/
theorem blob_roundtrip (lim : Limits) (h0 : 0 < lim.depth) (st : Store) (key : PyStr) (hk : ScalarStr key)
    (blob : Bytes) (hne : blob ≠ []) (hlen : blob.length ≤ 3048) (st' : Store)
    (hst : st'.get (.str key) = ((publishDescriptors lim st key blob).2).get (.str key)) :
    (publishDescriptors lim st key blob).1 = .ok () ∧ (publishAgentMetadata lim st key blob).1 = .ok () ∧
      retrieveDescriptors lim st' key = (.ok (some blob), st') ∧
      pollAgentMetadata lim st' key = (.ok (some blob), st') := by
  have hpub := @publish_set lim st key h0 hk blob
  have hv : st'.get (.str key) = .str (b64Str blob) := by
    rw [hst, publishDescriptors, hpub, Store.get_set_str, if_pos rfl]
  have hf := fetchBlob_found h0 hk hv hne hlen
  exact ⟨congrArg Prod.fst hpub, congrArg Prod.fst hpub, hf, hf⟩

theorem blob_roundtrip_one :
    0 < handlerLimits.depth ∧ ScalarStr (lit "receiver_metadata") ∧ [(7 : UInt8)] ≠ [] ∧ [(7 : UInt8)].length ≤ 3048 ∧
      (publishDescriptors handlerLimits [] (lit "receiver_metadata") [7]).2.get (.str (lit "receiver_metadata")) =
        (publishDescriptors handlerLimits [] (lit "receiver_metadata") [7]).2.get (.str (lit "receiver_metadata")) ∧
      retrieveDescriptors handlerLimits (publishDescriptors handlerLimits [] (lit "receiver_metadata") [7]).2
        (lit "receiver_metadata") = (.ok (some [7]), (publishDescriptors handlerLimits [] (lit "receiver_metadata") [7]).2) :=
  ⟨by decide, by decide, by decide, by decide, rfl,
    (blob_roundtrip handlerLimits (by decide) [] (lit "receiver_metadata") (by decide) [7] (by decide) (by decide)
      _ rfl).2.2.1⟩

end NixlExamples
