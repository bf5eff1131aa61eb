import Mathlib.Tactic.IntervalCases
import Mathlib.Data.Nat.Digits

/-!
# Byte strings

Python `bytes` values as lists of `UInt8`: the literals the examples send (`b"READY"`, `b"DESCS:"`,
`b"P:"`), `bytes.strip`, and the two conversions behind the receiver's progress reports,
`str(n).encode()` (`decimal`) and `int(b)` for a `bytes` argument (`pyInt`).  The one fact the rest of
the development needs is `pyInt_decimal`: the sender reads back exactly the count the receiver wrote.
-/

namespace NixlExamples

/-- A Python `bytes` value. -/
abbrev Bytes := List UInt8

/-- The bytes of an ASCII literal `b"..."`. -/
def ascii (s : String) : Bytes := s.toList.map fun c => c.toNat.toUInt8

/-- `b"READY"`, the liveness message of both handshakes. -/
def readyMsg : Bytes := ascii "READY"

/-- `b"DESCS:"`, the prefix of the message that carries the serialized descriptors. -/
def descsPrefix : Bytes := ascii "DESCS:"

/-- `b"P:"`, the prefix of the receiver's progress messages. -/
def progressPrefix : Bytes := ascii "P:"

/-- The bytes `bytes.strip()` removes, and `int()` skips around its digits: space and `\t`..`\r`. -/
def isAsciiSpace (b : UInt8) : Bool := b.toNat == 32 || (9 ≤ b.toNat && b.toNat ≤ 13)

/-- `bytes.strip()`. -/
def strip (b : Bytes) : Bytes := ((b.dropWhile isAsciiSpace).reverse.dropWhile isAsciiSpace).reverse

/-- `b` is one of `0`..`9`. -/
def isDigit (b : UInt8) : Bool := 48 ≤ b.toNat && b.toNat ≤ 57

/-- The digits of `bs` read on from the value `acc`, a single underscore allowed between two digits
(the digit loop of `PyLong_FromString`, base 10). -/
def digitsFrom (acc : Nat) : Bytes → Option Nat
  | [] => some acc
  | b :: bs =>
    if isDigit b then digitsFrom (acc * 10 + (b.toNat - 48)) bs
    else if b.toNat == 95 then
      match bs with
      | c :: cs => if isDigit c then digitsFrom (acc * 10 + (c.toNat - 48)) cs else none
      | [] => none
    else none

/-- A non-empty run of digits, as `digitsFrom` reads it. -/
def digitsValue : Bytes → Option Nat
  | b :: bs => if isDigit b then digitsFrom (b.toNat - 48) bs else none
  | [] => none

/-- `int(b)` for a `bytes` argument: surrounding whitespace, an optional sign, then digits. -/
def pyInt (b : Bytes) : Option Int :=
  match strip b with
  | s :: r =>
    if s.toNat == 45 then (digitsValue r).map fun v => -(v : Int)
    else if s.toNat == 43 then (digitsValue r).map Int.ofNat
    else (digitsValue (s :: r)).map Int.ofNat
  | [] => none

/-- `str(n).encode()`. -/
def decimal (n : Nat) : Bytes := (Nat.toDigits 10 n).map fun c => c.toNat.toUInt8

/-! ### `int(str(n).encode()) = n` -/

private def digitStep (acc : Nat) (c : Char) : Nat := acc * 10 + (c.toNat - 48)

private theorem digitChar_facts : ∀ d : Fin 10,
    (Nat.digitChar d).toNat - 48 = d ∧ 48 ≤ (Nat.digitChar d).toNat ∧ (Nat.digitChar d).toNat ≤ 57 := by
  decide

/-- Every character `toDigitsCore` adds is a digit. -/
private theorem toDigitsCore_digits (fuel n : Nat) (ds : List Char) :
    ∀ c ∈ Nat.toDigitsCore 10 fuel n ds, c ∈ ds ∨ (48 ≤ c.toNat ∧ c.toNat ≤ 57) := by
  induction fuel generalizing n ds with
  | zero => intro c hc; exact .inl hc
  | succ fuel ih =>
    have hd := (digitChar_facts ⟨n % 10, Nat.mod_lt _ (by omega)⟩).2
    intro c hc
    simp only [Nat.toDigitsCore] at hc
    split at hc
    · rcases List.mem_cons.1 hc with rfl | hc
      · exact .inr hd
      · exact .inl hc
    · rcases ih _ _ c hc with hc | hc
      · rcases List.mem_cons.1 hc with rfl | hc
        · exact .inr hd
        · exact .inl hc
      · exact .inr hc

/-- `str(n)` is made of the digits `0` to `9`. -/
theorem toDigits_digit {n : Nat} {c : Char} (hc : c ∈ Nat.toDigits 10 n) : 48 ≤ c.toNat ∧ c.toNat ≤ 57 :=
  (toDigitsCore_digits _ _ _ c hc).resolve_left (List.not_mem_nil c)

/-- Reading the digits `toDigitsCore` writes gives back the number. -/
private theorem foldl_toDigitsCore (fuel n : Nat) (ds : List Char) (h : n < fuel) :
    (Nat.toDigitsCore 10 fuel n ds).foldl digitStep 0 = ds.foldl digitStep n := by
  induction fuel generalizing n ds with
  | zero => omega
  | succ fuel ih =>
    have hd := (digitChar_facts ⟨n % 10, Nat.mod_lt _ (by omega)⟩).1
    simp only [Nat.toDigitsCore]
    split
    · simp only [List.foldl_cons, digitStep, hd]
      congr 1; omega
    · rw [ih _ _ (by omega)]
      simp only [List.foldl_cons, digitStep, hd]
      congr 1; omega

private theorem toUInt8_toNat {c : Char} (h : c.toNat ≤ 57) : c.toNat.toUInt8.toNat = c.toNat :=
  UInt8.toNat_ofNat_of_lt (by unfold UInt8.size; omega)

private theorem digitsFrom_of_digits (acc : Nat) (cs : List Char)
    (h : ∀ c ∈ cs, 48 ≤ c.toNat ∧ c.toNat ≤ 57) :
    digitsFrom acc (cs.map fun c => c.toNat.toUInt8) = some (cs.foldl digitStep acc) := by
  induction cs generalizing acc with
  | nil => rfl
  | cons c cs ih =>
    have hc := h c (List.mem_cons_self _ _)
    have hb := toUInt8_toNat hc.2
    have hdig : isDigit c.toNat.toUInt8 = true := by simp [isDigit, hb, hc.1, hc.2]
    rw [List.map_cons, digitsFrom.eq_def]
    simp only [if_pos hdig, hb, List.foldl_cons]
    exact ih _ fun c' hc' => h c' (List.mem_cons_of_mem _ hc')

private theorem dropWhile_of_forall {p : UInt8 → Bool} {l : Bytes} (h : ∀ b ∈ l, p b = false) :
    l.dropWhile p = l := by
  cases l with
  | nil => rfl
  | cons b l => simp [List.dropWhile_cons, h b (List.mem_cons_self _ _)]

/-- `strip` keeps a byte string with no whitespace as it is. -/
theorem strip_of_forall {l : Bytes} (h : ∀ b ∈ l, isAsciiSpace b = false) : strip l = l := by
  rw [strip, dropWhile_of_forall h, dropWhile_of_forall (fun b hb => h b (List.mem_reverse.1 hb)),
    List.reverse_reverse]

/-- The sender's `int(msg[2:])` reads back the count `f"P:{n}".encode()` carries. -/
theorem pyInt_decimal (n : Nat) : pyInt (decimal n) = some (n : Int) := by
  have hall : ∀ c ∈ Nat.toDigits 10 n, 48 ≤ c.toNat ∧ c.toNat ≤ 57 := fun _ hc => toDigits_digit hc
  have hval := digitsFrom_of_digits 0 _ hall
  rw [show Nat.toDigits 10 n = Nat.toDigitsCore 10 (n + 1) n [] from rfl,
    foldl_toDigitsCore _ _ _ (Nat.lt_succ_self n)] at hval
  have hbyte : ∀ b ∈ decimal n, 48 ≤ b.toNat ∧ b.toNat ≤ 57 := by
    intro b hb
    obtain ⟨c, hc, rfl⟩ := List.mem_map.1 hb
    have := hall c hc
    rw [toUInt8_toNat this.2]; exact this
  rw [pyInt, strip_of_forall fun b hb => by have := hbyte b hb; simp [isAsciiSpace]; omega]
  change digitsFrom 0 (decimal n) = some n at hval
  cases hd : decimal n with
  | nil => rw [hd] at hval; cases hval; exact absurd hd (by decide)
  | cons b bs =>
    have hb := hbyte b (hd ▸ List.mem_cons_self _ _)
    have hdig : isDigit b = true := by simp [isDigit, hb.1, hb.2]
    rw [hd, digitsFrom.eq_def] at hval
    simp only [if_pos hdig, Nat.zero_mul, Nat.zero_add] at hval
    simp only [digitsValue, if_pos hdig, hval, Option.map_some', beq_iff_eq]
    rw [if_neg (by omega), if_neg (by omega)]; rfl

end NixlExamples
