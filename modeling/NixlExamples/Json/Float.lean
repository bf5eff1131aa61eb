import NixlExamples.Json.Text

/-!
# Python floats

The `float` values `json.loads` builds and `json.dumps` writes, as IEEE 754 binary64 values.
`PyFloat.ofDecimal` is `float(text)` for a JSON number with a fraction or an exponent: the decimal
value rounded to the nearest double, ties to even, with gradual underflow and overflow to infinity,
as CPython's correctly rounded `_Py_dg_strtod` does.  `PyFloat.repr` is `float.__repr__`: the
shortest decimal that reads back as the same double (`_Py_dg_dtoa` in mode 0), laid out by
`format_float_short` with code `'r'`: an exponent below `1e-4` and from `1e16` on, `.0` after an
integer.  When two decimals of the shortest length both read back, the nearer is taken and, at an
exact tie, the smaller; `_Py_dg_dtoa` may differ there.
-/

namespace NixlExamples

/-- A binary64 value: `finite neg m e` is `(-1)^neg * m * 2^e`, with `m < 2^53`, and `m ≥ 2^52`
unless `e = -1074` (zero and the subnormals), and `e ≤ 971`. -/
inductive PyFloat where
  | finite (neg : Bool) (m : Nat) (e : Int)
  | inf (neg : Bool)
  | nan
deriving DecidableEq, Repr

/-- The number of binary digits of `n`, with `fuel` halvings at most. -/
def bitLenAux : Nat → Nat → Nat
  | 0, _ => 0
  | fuel + 1, n => if n = 0 then 0 else bitLenAux fuel (n / 2) + 1

/-- The number of decimal digits of `n`, with `fuel` divisions at most. -/
def decLenAux : Nat → Nat → Nat
  | 0, _ => 0
  | fuel + 1, n => if n = 0 then 0 else decLenAux fuel (n / 10) + 1

/-- `⌊log_base (num / den)⌋` for positive `num` and `den`, given the digit counts in that base. -/
def floorLog (base : Nat) (len : Nat → Nat) (num den : Nat) : Int :=
  let k : Int := (len num : Int) - len den
  let reaches : Bool := if 0 ≤ k then den * base ^ k.toNat ≤ num else den ≤ num * base ^ (-k).toNat
  if reaches then k else k - 1

/-- `n / d` rounded to the nearest integer, ties to even. -/
def roundDiv (n d : Nat) : Nat :=
  if 2 * (n % d) > d ∨ (2 * (n % d) = d ∧ n / d % 2 = 1) then n / d + 1 else n / d

/-- `num / den` (`den > 0`) rounded to the nearest binary64 value, with the sign `neg`. -/
def PyFloat.ofRatio (neg : Bool) (num den : Nat) : PyFloat :=
  if num = 0 then .finite neg 0 (-1074)
  else
    let k := floorLog 2 (fun n => bitLenAux n n) num den
    let e := max (k - 52) (-1074)
    let m := if 0 ≤ e then roundDiv num (den * 2 ^ e.toNat) else roundDiv (num * 2 ^ (-e).toNat) den
    let (m, e) := if m = 2 ^ 53 then (2 ^ 52, e + 1) else (m, e)
    if 971 < e then .inf neg else .finite neg m e

/-- `float(text)` for the decimal `(-1)^neg * digits * 10^exp`. -/
def PyFloat.ofDecimal (neg : Bool) (digits : Nat) (exp : Int) : PyFloat :=
  if 0 ≤ exp then .ofRatio neg (digits * 10 ^ exp.toNat) 1 else .ofRatio neg digits (10 ^ (-exp).toNat)

/-! ### `float.__repr__` -/

/-- `c * 10^s` as a ratio. -/
def decRatio (c : Nat) (s : Int) : Nat × Nat :=
  if 0 ≤ s then (c * 10 ^ s.toNat, 1) else (c, 10 ^ (-s).toNat)

/-- Whether `float()` reads `c * 10^s` back as `x`. -/
def readsBack (x : PyFloat) (c : Nat) (s : Int) : Bool :=
  PyFloat.ofRatio false (decRatio c s).1 (decRatio c s).2 = x

/-- The shortest decimal `c * 10^s` that reads back as the positive finite `x = m * 2^e`, trying
`p` significant digits for `p` from `1`: the two `p`-digit decimals around `x`, the nearer first. -/
def shortestDecimal (m : Nat) (e : Int) : Nat × Int :=
  let x := PyFloat.finite false m e
  let num := if 0 ≤ e then m * 2 ^ e.toNat else m
  let den := if 0 ≤ e then 1 else 2 ^ (-e).toNat
  let d := floorLog 10 (fun n => decLenAux n n) num den
  let candidate (p : Nat) : Option (Nat × Int) :=
    let s : Int := d + 1 - p
    let lo := if 0 ≤ s then num / (den * 10 ^ s.toNat) else num * 10 ^ (-s).toNat / den
    -- `2 * x` against the midpoint `(2 * lo + 1) * 10^s`, both over `den`
    let loNearer : Bool :=
      if 0 ≤ s then 2 * num ≤ (2 * lo + 1) * 10 ^ s.toNat * den else 2 * num * 10 ^ (-s).toNat ≤ (2 * lo + 1) * den
    match readsBack x lo s, readsBack x (lo + 1) s with
    | true, true => some (if loNearer then lo else lo + 1, s)
    | true, false => some (lo, s)
    | false, true => some (lo + 1, s)
    | false, false => none
  ((List.range 17).map (· + 1)).findSome? candidate |>.getD (m, e)

/-- `c * 10^s` with the trailing zeros of `c` moved into the exponent (`fuel` of them at most). -/
def stripZeros : Nat → Nat → Int → Nat × Int
  | 0, c, s => (c, s)
  | fuel + 1, c, s => if c ≠ 0 ∧ c % 10 = 0 then stripZeros fuel (c / 10) (s + 1) else (c, s)

/-- `'%+.02d' % x`: the exponent of `repr`. -/
def expStr (x : Int) : PyStr :=
  lit (if x < 0 then "-" else "+") ++ (if x.natAbs < 10 then lit "0" else []) ++ natStr x.natAbs

/-- `format_float_short` with code `'r'` for the digits `ds` and decimal point position `decpt`
(the value is `0.ds * 10^decpt`). -/
def formatShort (ds : PyStr) (decpt : Int) : PyStr :=
  if decpt ≤ -4 ∨ 16 < decpt then
    ds.take 1 ++ (if 1 < ds.length then lit "." ++ ds.drop 1 else []) ++ lit "e" ++ expStr (decpt - 1)
  else if decpt ≤ 0 then lit "0." ++ List.replicate (-decpt).toNat 48 ++ ds
  else if ds.length ≤ decpt.toNat then ds ++ List.replicate (decpt.toNat - ds.length) 48 ++ lit ".0"
  else ds.take decpt.toNat ++ lit "." ++ ds.drop decpt.toNat

/-- `repr(x)`. -/
def PyFloat.repr : PyFloat → PyStr
  | .nan => lit "nan"
  | .inf neg => lit (if neg then "-inf" else "inf")
  | .finite neg m e =>
    lit (if neg then "-" else "") ++
      if m = 0 then lit "0.0"
      else
        let (c, s) := shortestDecimal m e
        let (c, s) := stripZeros c c s
        formatShort (natStr c) (s + (natStr c).length)

end NixlExamples
