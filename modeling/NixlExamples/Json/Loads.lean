import NixlExamples.Json.Value

/-!
# `json.loads`

`jsonLoads lim s` is `json.loads(s)` for a `str` with CPython's C scanner (`Modules/_json.c`):
`scanValue` is `scan_once_unicode`, `scanString` is `scanstring_unicode` (strict: no raw control
characters; `\uXXXX` escapes with exactly four hex digits, a high and a low surrogate escape joined
into one code point), `scanNumber` is `_match_number_unicode` followed by `int()` or `float()`, and
`scanMembers` and `scanItems` are the loops of `_parse_object_unicode` and `_parse_array_unicode`.

Two limits of the interpreter are parameters (`Limits`): the container nesting at which
`Py_EnterRecursiveCall` raises `RecursionError`, and `sys.get_int_max_str_digits()`, over which
`int()` raises `ValueError`.  Every other failure is a `json.JSONDecodeError`.

Each function takes a `fuel` argument that bounds its recursion; `jsonLoads` gives more than the
length of the text, and every call consumes a character before it recurses.
-/

namespace NixlExamples

/-- The interpreter's limits `json.loads` runs into: the deepest nesting of containers the scanner
enters, and the most digits `int()` converts (`0`: no limit). -/
structure Limits where
  depth : Nat
  intDigits : Nat
deriving DecidableEq, Repr

/-- What `json.loads` raises. -/
inductive LoadError where
  /-- `json.JSONDecodeError` -/
  | decode
  /-- `RecursionError` while decoding a JSON object (`true`) or array (`false`) -/
  | recursion (obj : Bool)
  /-- `ValueError` from `int()` on a literal of `digits` digits, over the limit `limit` -/
  | intDigits (limit digits : Nat)
deriving DecidableEq, Repr

/-- `str(e)`. -/
def LoadError.text : LoadError → PyStr
  | .decode => lit "Invalid JSON"
  | .recursion obj => lit "maximum recursion depth exceeded while decoding a JSON " ++
      lit (if obj then "object" else "array") ++ lit " from a unicode string"
  | .intDigits limit digits => lit "Exceeds the limit (" ++ natStr limit ++
      lit " digits) for integer string conversion: value has " ++ natStr digits ++
      lit " digits; use sys.set_int_max_str_digits() to increase the limit"

/-- `IS_WHITESPACE`: space, tab, newline, carriage return. -/
def isWs (c : Nat) : Bool := c == 32 || c == 9 || c == 10 || c == 13

/-- What follows the whitespace at the start of `s`. -/
def skipWs (s : List Nat) : List Nat := s.dropWhile isWs

def isDigitCp (c : Nat) : Bool := 48 ≤ c && c ≤ 57

/-- The value of a hex digit. -/
def hexVal (c : Nat) : Option Nat :=
  if 48 ≤ c ∧ c ≤ 57 then some (c - 48)
  else if 97 ≤ c ∧ c ≤ 102 then some (c - 87)
  else if 65 ≤ c ∧ c ≤ 70 then some (c - 55)
  else none

/-- Four hex digits and what follows them. -/
def hex4Val : List Nat → Option (Nat × List Nat)
  | a :: b :: c :: d :: rest => do
    let a ← hexVal a
    let b ← hexVal b
    let c ← hexVal c
    let d ← hexVal d
    pure (a * 4096 + b * 256 + c * 16 + d, rest)
  | _ => none

/-- The character a one-letter escape `\e` stands for. -/
def simpleEscape (e : Nat) : Option Nat :=
  if e == 34 || e == 92 || e == 47 then some e
  else if e == 98 then some 8
  else if e == 102 then some 12
  else if e == 110 then some 10
  else if e == 114 then some 13
  else if e == 116 then some 9
  else none

/-- `c` in front of the string a scan returns. -/
def consStr (c : Nat) : Except LoadError (PyStr × List Nat) → Except LoadError (PyStr × List Nat) :=
  Except.map fun (str, rest) => (c :: str, rest)

/-- `scanstring_unicode` after the opening quote: the string and what follows the closing quote. -/
def scanString : Nat → List Nat → Except LoadError (PyStr × List Nat)
  | 0, _ => .error .decode
  | _ + 1, [] => .error .decode
  | fuel + 1, c :: s =>
    if c == 34 then .ok ([], s)
    else if c == 92 then
      match s with
      | [] => .error .decode
      | e :: s' =>
        if e == 117 then
          match hex4Val s' with
          | none => .error .decode
          | some (u, s'') =>
            if s''.isEmpty then .error .decode
            else if 0xD800 ≤ u ∧ u ≤ 0xDBFF ∧ 6 < s''.length then
              match s'' with
              | 92 :: 117 :: t =>
                match hex4Val t with
                | none => .error .decode
                | some (u2, t') =>
                  if 0xDC00 ≤ u2 ∧ u2 ≤ 0xDFFF then
                    consStr (0x10000 + (u - 0xD800) * 1024 + (u2 - 0xDC00)) (scanString fuel t')
                  else consStr u (scanString fuel s'')
              | _ => consStr u (scanString fuel s'')
            else consStr u (scanString fuel s'')
        else
          match simpleEscape e with
          | some c' => consStr c' (scanString fuel s')
          | none => .error .decode
    else if c ≤ 0x1F then .error .decode
    else consStr c (scanString fuel s)

/-- The value of a list of decimal digits. -/
def digitsNat (ds : List Nat) : Nat := ds.foldl (fun n d => 10 * n + (d - 48)) 0

/-- An exponent `[eE][+-]?[0-9]+` at the start of `s`: its value and what follows; `none` when the
scanner backtracks. -/
def scanExp (s : List Nat) : Option (Int × List Nat) :=
  match s with
  | e :: r =>
    if e == 101 || e == 69 then
      let (neg, r) : Bool × List Nat := match r with
        | 45 :: r' => (true, r')
        | 43 :: r' => (false, r')
        | _ => (false, r)
      let ds := r.takeWhile isDigitCp
      if ds.isEmpty then none
      else some ((if neg then -(digitsNat ds : Int) else digitsNat ds), r.dropWhile isDigitCp)
    else none
  | [] => none

/-- `_match_number_unicode` and the conversion: `none` when no number starts here (the scanner's
`StopIteration`). -/
def scanNumber (lim : Limits) (s : List Nat) : Option (Except LoadError (PyJson × List Nat)) :=
  let (neg, s1) : Bool × List Nat := match s with
    | 45 :: r => (true, r)
    | _ => (false, s)
  let intPart : Option (List Nat × List Nat) := match s1 with
    | 48 :: r => some ([48], r)
    | c :: r => if 49 ≤ c ∧ c ≤ 57 then some (c :: r.takeWhile isDigitCp, r.dropWhile isDigitCp) else none
    | [] => none
  intPart.map fun (ids, r) =>
    let (fds, r) : List Nat × List Nat := match r with
      | 46 :: d :: r' => if isDigitCp d then (d :: r'.takeWhile isDigitCp, r'.dropWhile isDigitCp) else ([], r)
      | _ => ([], r)
    match scanExp r, fds.isEmpty with
    | none, true =>
      if 0 < lim.intDigits ∧ lim.intDigits < ids.length then .error (.intDigits lim.intDigits ids.length)
      else .ok (.int (if neg then -(digitsNat ids : Int) else digitsNat ids), r)
    | none, false => .ok (.float (PyFloat.ofDecimal neg (digitsNat (ids ++ fds)) (-(fds.length : Int))), r)
    | some (x, r'), _ => .ok (.float (PyFloat.ofDecimal neg (digitsNat (ids ++ fds)) (x - fds.length)), r')

/-- The loop of `_parse_object_unicode` from a key on: `elem` reads each value. -/
def scanMembers (elem : List Nat → Except LoadError (PyJson × List Nat)) :
    Nat → List (PyStr × PyJson) → List Nat → Except LoadError (PyJson × List Nat)
  | 0, _, _ => .error .decode
  | fuel + 1, acc, s =>
    match s with
    | 34 :: s => do
      let (k, r) ← scanString (fuel + 1) s
      match skipWs r with
      | 58 :: r => do
        let (v, r) ← elem (skipWs r)
        match skipWs r with
        | 125 :: r => pure (.dict (dictInsert acc k v), r)
        | 44 :: r => scanMembers elem fuel (dictInsert acc k v) (skipWs r)
        | _ => .error .decode
      | _ => .error .decode
    | _ => .error .decode

/-- The loop of `_parse_array_unicode` from an item on. -/
def scanItems (elem : List Nat → Except LoadError (PyJson × List Nat)) :
    Nat → List PyJson → List Nat → Except LoadError (PyJson × List Nat)
  | 0, _, _ => .error .decode
  | fuel + 1, acc, s => do
    let (v, r) ← elem s
    match skipWs r with
    | 93 :: r => pure (.list (acc ++ [v]), r)
    | 44 :: r => scanItems elem fuel (acc ++ [v]) (skipWs r)
    | _ => .error .decode

/-- `scan_once_unicode` at nesting `depth`. -/
def scanValue (lim : Limits) : Nat → Nat → List Nat → Except LoadError (PyJson × List Nat)
  | 0, _, _ => .error .decode
  | _ + 1, _, [] => .error .decode
  | fuel + 1, depth, c :: s =>
    let word (w : String) (v : PyJson) : Option (PyJson × List Nat) :=
      if (lit w).isPrefixOf (c :: s) then some (v, (c :: s).drop (lit w).length) else none
    let number : Except LoadError (PyJson × List Nat) := (scanNumber lim (c :: s)).getD (.error .decode)
    if c == 34 then (scanString fuel s).map fun (str, r) => (.str str, r)
    else if c == 123 then
      if lim.depth ≤ depth then .error (.recursion true)
      else match skipWs s with
        | 125 :: r => .ok (.dict [], r)
        | s' => scanMembers (scanValue lim fuel (depth + 1)) fuel [] s'
    else if c == 91 then
      if lim.depth ≤ depth then .error (.recursion false)
      else match skipWs s with
        | 93 :: r => .ok (.list [], r)
        | s' => scanItems (scanValue lim fuel (depth + 1)) fuel [] s'
    else
      match word "null" .none <|> word "true" (.bool true) <|> word "false" (.bool false) <|>
          word "NaN" (.float .nan) <|> word "Infinity" (.float (.inf false)) <|>
          word "-Infinity" (.float (.inf true)) with
      | some r => .ok r
      | none => number

/-- `json.loads(s)` for a `str`. -/
def jsonLoads (lim : Limits) (s : PyStr) : Except LoadError PyJson :=
  if s.head? = some 0xFEFF then .error .decode
  else
    match scanValue lim (s.length + 1) 0 (skipWs s) with
    | .ok (v, r) => if (skipWs r).isEmpty then .ok v else .error .decode
    | .error e => .error e

/-! ### Reading a request with nested arrays

The scanner on a text of `n + 1` nested arrays: it reads them when the innermost one stays under the
nesting limit and raises `RecursionError` otherwise (`scanValue_nestedArrays`).  These are the facts
behind a request line the server refuses although it is valid JSON.
-/

section Nesting

theorem skipWs_cons {c : Nat} (h : isWs c = false) (s : List Nat) : skipWs (c :: s) = c :: s := by
  simp [skipWs, List.dropWhile_cons, h]

/-- `scanstring_unicode` copies a run with no quote, backslash or control character. -/
theorem scanString_plain : ∀ (w : PyStr) (fuel : Nat) (r : List Nat),
    (∀ c ∈ w, c ≠ 34 ∧ c ≠ 92 ∧ 0x1F < c) → w.length < fuel → scanString fuel (w ++ 34 :: r) = .ok (w, r)
  | [], fuel + 1, r, _, _ => rfl
  | c :: w, fuel + 1, r, h, hl => by
    have hc := h c (List.mem_cons_self _ _)
    have ih := scanString_plain w fuel r (fun c' hc' => h c' (List.mem_cons_of_mem _ hc'))
      (by simp only [List.length_cons] at hl; omega)
    have h34 : (c == 34) = false := by simpa using hc.1
    have h92 : (c == 92) = false := by simpa using hc.2.1
    rw [List.cons_append, scanString.eq_def]
    simp only [h34, h92, Bool.false_eq_true, if_false, if_neg (show ¬ c ≤ 0x1F by omega), ih]
    rfl

theorem scanValue_open_array (lim : Limits) (fuel depth : Nat) (s : List Nat) :
    scanValue lim (fuel + 1) depth (91 :: s) =
      if lim.depth ≤ depth then .error (.recursion false)
      else match skipWs s with
        | 93 :: r => .ok (.list [], r)
        | s' => scanItems (scanValue lim fuel (depth + 1)) fuel [] s' := rfl

theorem scanItems_succ (elem : List Nat → Except LoadError (PyJson × List Nat)) (fuel : Nat)
    (acc : List PyJson) (s : List Nat) :
    scanItems elem (fuel + 1) acc s = (elem s).bind fun (v, r) =>
      match skipWs r with
      | 93 :: r => pure (.list (acc ++ [v]), r)
      | 44 :: r => scanItems elem fuel (acc ++ [v]) (skipWs r)
      | _ => .error .decode := rfl

/-- `n + 1` arrays nested one in the other, `[[...[]...]]`. -/
def nestedArrays : Nat → PyStr
  | 0 => lit "[]"
  | n + 1 => 91 :: (nestedArrays n ++ [93])

/-- What `json.loads` makes of `nestedArrays n`. -/
def nestedList : Nat → PyJson
  | 0 => .list []
  | n + 1 => .list [nestedList n]

theorem nestedArrays_head (n : Nat) : ∃ t, nestedArrays n = 91 :: t := by
  cases n <;> exact ⟨_, rfl⟩

theorem mem_nestedArrays {n c : Nat} (h : c ∈ nestedArrays n) : c = 91 ∨ c = 93 := by
  induction n with
  | zero => simpa [nestedArrays, lit] using h
  | succ n ih =>
    simp only [nestedArrays, List.mem_cons, List.mem_append, List.mem_singleton, List.not_mem_nil,
      or_false] at h
    rcases h with h | h | h
    exacts [.inl h, ih h, .inr h]

theorem length_nestedArrays (n : Nat) : (nestedArrays n).length = 2 * n + 2 := by
  induction n with
  | zero => rfl
  | succ n ih => simp only [nestedArrays, List.length_cons, List.length_append, ih, List.length_nil]; omega

/-- The scanner reads `n + 1` nested arrays from nesting `depth` when the innermost one stays under
the limit, and raises the `RecursionError` of the first array at the limit otherwise. -/
theorem scanValue_nestedArrays (lim : Limits) :
    ∀ (n fuel depth : Nat) (r : List Nat), n < fuel →
      scanValue lim fuel depth (nestedArrays n ++ r) =
        if depth + n < lim.depth then .ok (nestedList n, r) else .error (.recursion false)
  | 0, fuel + 1, depth, r, _ => by
    rw [show nestedArrays 0 ++ r = 91 :: 93 :: r from rfl, scanValue_open_array,
      skipWs_cons (by decide)]
    by_cases h : lim.depth ≤ depth
    · rw [if_pos h, if_neg (by omega)]
    · rw [if_neg h, if_pos (by omega)]; rfl
  | n + 1, fuel + 1, depth, r, hf => by
    obtain ⟨t, ht⟩ := nestedArrays_head n
    have ih := scanValue_nestedArrays lim n fuel (depth + 1) (93 :: r) (by omega)
    obtain ⟨g, rfl⟩ : ∃ g, fuel = g + 1 := ⟨fuel - 1, by omega⟩
    rw [nestedArrays, List.cons_append, List.append_assoc, List.singleton_append, scanValue_open_array]
    by_cases h : lim.depth ≤ depth
    · rw [if_pos h, if_neg (by omega)]
    rw [if_neg h, ht, List.cons_append, skipWs_cons (by decide)]
    simp only []
    rw [← List.cons_append, ← ht, scanItems_succ, ih]
    by_cases h' : depth + 1 + n < lim.depth
    · rw [if_pos h', if_pos (by omega)]; rfl
    · rw [if_neg h', if_neg (by omega)]; rfl


theorem scanValue_open_object (lim : Limits) (fuel depth : Nat) (s : List Nat) :
    scanValue lim (fuel + 1) depth (123 :: s) =
      if lim.depth ≤ depth then .error (.recursion true)
      else match skipWs s with
        | 125 :: r => .ok (.dict [], r)
        | s' => scanMembers (scanValue lim fuel (depth + 1)) fuel [] s' := rfl

/-- The text of `{"cmd":"SET","key":"k","value":` before the value. -/
def setPrefix : PyStr := lit "\x7b\"cmd\":\"SET\",\"key\":\"k\",\"value\":"

theorem scanValue_setPrefix (lim : Limits) (h0 : 0 < lim.depth) (fuel : Nat) (t : List Nat) :
    scanValue lim (fuel + 10) 0 (setPrefix ++ t) =
      (scanValue lim (fuel + 9) 1 (skipWs t)).bind fun (v, r) =>
        match skipWs r with
        | 125 :: r => pure (.dict [(lit "cmd", .str (lit "SET")), (lit "key", .str (lit "k")), (lit "value", v)], r)
        | 44 :: r => scanMembers (scanValue lim (fuel + 9) 1) (fuel + 6)
            [(lit "cmd", .str (lit "SET")), (lit "key", .str (lit "k")), (lit "value", v)] (skipWs r)
        | _ => .error .decode := by
  rw [show setPrefix ++ t = 123 :: (setPrefix.drop 1 ++ t) from rfl, scanValue_open_object, if_neg (by omega)]
  rfl

end Nesting

end NixlExamples
