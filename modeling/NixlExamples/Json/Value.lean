import NixlExamples.Json.Float

/-!
# JSON values as Python objects

`PyJson` is what `json.loads` builds: `None`, `bool`, `int`, `float`, `str`, `list`, and `dict`
with `str` keys, its items in insertion order (`dictInsert` is `d[k] = v`: a key already there keeps
its place and takes the new value).

The metadata server keys its store by any such value that is hashable (`PyJson.hashable`: not a
`list` or `dict`), compared as Python's `dict` compares keys (`PyJson.keyEq`): `True == 1 == 1.0`,
`0 == 0.0 == -0.0 == False`, an `int` equals a `float` of exactly its value, and every `NaN`
`json.loads` returns is the one object `json.decoder.NaN`, so it finds itself by identity.

`PyJson.toPyStr` is `str(v)`, the text the server puts in its error messages; for the `str` inside a
container, `repr` escapes what `str.isprintable` rejects, which needs the Unicode database: here the
control characters, the surrogates and the non-ASCII spaces and format characters of Latin-1 are
escaped, and every other code point above U+00A0 is taken as printable.
-/

namespace NixlExamples

/-- A value `json.loads` returns. -/
inductive PyJson where
  | none
  | bool (b : Bool)
  | int (n : Int)
  | float (x : PyFloat)
  | str (s : PyStr)
  | list (xs : List PyJson)
  | dict (kvs : List (PyStr × PyJson))

namespace PyJson

/-- `type(v).__name__`. -/
def typeName : PyJson → PyStr
  | .none => lit "NoneType"
  | .bool _ => lit "bool"
  | .int _ => lit "int"
  | .float _ => lit "float"
  | .str _ => lit "str"
  | .list _ => lit "list"
  | .dict _ => lit "dict"

/-- Whether `hash(v)` succeeds. -/
def hashable : PyJson → Bool
  | .list _ | .dict _ => false
  | _ => true

/-- `bool(v)`. -/
def truthy : PyJson → Bool
  | .none => false
  | .bool b => b
  | .int n => n != 0
  | .float (.finite _ m _) => m != 0
  | .float _ => true
  | .str s => !s.isEmpty
  | .list xs => !xs.isEmpty
  | .dict kvs => !kvs.isEmpty

end PyJson

/-- `x == n` for a float and an int. -/
def PyFloat.eqInt : PyFloat → Int → Bool
  | .finite neg m e, n =>
    if m = 0 then n == 0
    else (neg == decide (n < 0)) &&
      if 0 ≤ e then n.natAbs == m * 2 ^ e.toNat else m == n.natAbs * 2 ^ (-e).toNat
  | _, _ => false

/-- Two floats as keys of one `dict`: equal values, or both the `NaN` object. -/
def PyFloat.keyEq : PyFloat → PyFloat → Bool
  | .finite neg m e, .finite neg' m' e' => (m == 0 && m' == 0) || (neg == neg' && m == m' && e == e')
  | .inf neg, .inf neg' => neg == neg'
  | .nan, .nan => true
  | _, _ => false

/-- The number a `bool`, `int` or `float` stands for as a key. -/
inductive NumKey where
  | int (n : Int)
  | float (x : PyFloat)

/-- `v` as a number, for the numeric types. -/
def PyJson.numKey : PyJson → Option NumKey
  | .bool b => some (.int (if b then 1 else 0))
  | .int n => some (.int n)
  | .float x => some (.float x)
  | _ => Option.none

/-- Numeric keys compared as Python compares them. -/
def NumKey.eq : NumKey → NumKey → Bool
  | .int a, .int b => a == b
  | .int a, .float y => y.eqInt a
  | .float x, .int b => x.eqInt b
  | .float x, .float y => x.keyEq y

/-- Whether the hashable keys `a` and `b` name the same entry of a `dict`. -/
def PyJson.keyEq (a b : PyJson) : Bool :=
  match a, b with
  | .none, .none => true
  | .str s, .str t => s == t
  | _, _ =>
    match a.numKey, b.numKey with
    | some x, some y => x.eq y
    | _, _ => false

/-- A key equals a `str` key exactly when it is that `str`. -/
theorem keyEq_str {x : PyJson} {s : PyStr} : x.keyEq (.str s) = true ↔ x = .str s := by
  cases x <;> simp [PyJson.keyEq, PyJson.numKey]

/-- `d[k] = v` on the items of a `dict` with `str` keys. -/
def dictInsert (kvs : List (PyStr × PyJson)) (k : PyStr) (v : PyJson) : List (PyStr × PyJson) :=
  if kvs.any (·.1 == k) then kvs.map fun kv => if kv.1 == k then (k, v) else kv else kvs ++ [(k, v)]

/-- `d.get(k)` on the items of a `dict` with `str` keys. -/
def dictGet (kvs : List (PyStr × PyJson)) (k : PyStr) : PyJson :=
  ((kvs.find? (·.1 == k)).map (·.2)).getD .none

/-! ### `str` and `repr` -/

/-- Whether `repr` writes the non-ASCII code point `c` as it is. -/
def printableApprox (c : Nat) : Bool :=
  !(c ≤ 0xA0 || c == 0xAD || (0xD800 ≤ c && c ≤ 0xDFFF) || c == 0x2028 || c == 0x2029 || c == 0xFEFF)

/-- One code point of `repr(s)` with the quote `q`. -/
def reprCp (q c : Nat) : PyStr :=
  if c == q || c == 92 then [92, c]
  else if c == 9 then lit "\\t"
  else if c == 10 then lit "\\n"
  else if c == 13 then lit "\\r"
  else if c < 32 || c == 0x7F then lit "\\x" ++ hex2 c
  else if c < 0x7F || printableApprox c then [c]
  else if c ≤ 0xFF then lit "\\x" ++ hex2 c
  else if c ≤ 0xFFFF then lit "\\u" ++ hex4 c
  else lit "\\U" ++ hex4 (c / 65536) ++ hex4 (c % 65536)

/-- `repr(s)` for a `str`: single quotes, unless the text has one and no double quote. -/
def strRepr (s : PyStr) : PyStr :=
  let q := if s.contains 39 && !s.contains 34 then 34 else 39
  q :: s.flatMap (reprCp q) ++ [q]

mutual
/-- `repr(v)`. -/
def PyJson.repr : PyJson → PyStr
  | .none => lit "None"
  | .bool b => lit (if b then "True" else "False")
  | .int n => intStr n
  | .float x => x.repr
  | .str s => strRepr s
  | .list xs => lit "[" ++ reprItems xs ++ lit "]"
  | .dict kvs => lit "\x7b" ++ reprMembers kvs ++ lit "\x7d"

/-- The items of a `list`, separated by `", "`. -/
def reprItems : List PyJson → PyStr
  | [] => []
  | x :: xs => x.repr ++ (if xs.isEmpty then [] else lit ", ") ++ reprItems xs

/-- The items of a `dict`, `key: value`, separated by `", "`. -/
def reprMembers : List (PyStr × PyJson) → PyStr
  | [] => []
  | (k, v) :: kvs => strRepr k ++ lit ": " ++ v.repr ++ (if kvs.isEmpty then [] else lit ", ") ++ reprMembers kvs
end

/-- `str(v)`: a `str` is itself, anything else its `repr`. -/
def PyJson.toPyStr : PyJson → PyStr
  | .str s => s
  | v => v.repr

end NixlExamples
