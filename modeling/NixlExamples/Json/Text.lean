import NixlExamples.Bytes

/-!
# Python text

A Python `str` as its code points (`PyStr`); a JSON `\u` escape can put a lone surrogate in one, so
they are not Lean `Char`s.  The two conversions between bytes and text the metadata server and its
clients use are here: `bytes.decode()` and `str.encode()`, both strict UTF-8.

`utf8Decode` is `utf8_decode` of CPython's `Objects/stringlib/codecs.h` with the error
`unicode_decode_utf8` raises: where the undecodable bytes start and stop and why
(`"unexpected end of data"`, `"invalid start byte"`, `"invalid continuation byte"`), and the text
`str()` gives the exception (`Utf8Error.text`).  It accepts exactly the well-formed sequences of
Unicode's Table 3-7: no overlong forms, no surrogates, nothing above U+10FFFF.
-/

namespace NixlExamples

/-- A Python `str`: its code points. -/
abbrev PyStr := List Nat

/-- The code points of a literal. -/
def lit (s : String) : PyStr := s.toList.map Char.toNat

/-- `str(n)` for a natural number. -/
def natStr (n : Nat) : PyStr := (Nat.toDigits 10 n).map Char.toNat

/-- `str(n)` for an `int`. -/
def intStr (n : Int) : PyStr := if n < 0 then lit "-" ++ natStr n.natAbs else natStr n.natAbs

/-- The lowercase hexadecimal digit of `d < 16`. -/
def hexDigit (d : Nat) : Nat := if d < 10 then 48 + d else 87 + d

/-- `"%02x" % b` and `"%04x" % c`. -/
def hex2 (b : Nat) : PyStr := [hexDigit (b / 16 % 16), hexDigit (b % 16)]

def hex4 (c : Nat) : PyStr := [hexDigit (c / 4096 % 16), hexDigit (c / 256 % 16), hexDigit (c / 16 % 16),
  hexDigit (c % 16)]

/-! ### `bytes.decode()` -/

/-- Why `bytes.decode()` stops. -/
inductive Utf8Reason where
  | unexpectedEnd
  | invalidStart
  | invalidContinuation
deriving DecidableEq, Repr

/-- A `UnicodeDecodeError`: the bytes from `start` to `stop` could not be decoded. -/
structure Utf8Error where
  start : Nat
  stop : Nat
  reason : Utf8Reason
deriving DecidableEq, Repr

/-- `IS_CONTINUATION_BYTE`. -/
def isCont (b : Nat) : Bool := 0x80 ≤ b && b ≤ 0xBF

/-- One character of `utf8_decode` at byte `pos` of an input of `total` bytes, whose first byte is
`b` and which goes on with `bs`: the code point and the number of bytes it takes, or the error
`unicode_decode_utf8` raises there.  `avail` is the C code's `end - s`. -/
def utf8Next (total pos b : Nat) (bs : List Nat) : Except Utf8Error (Nat × Nat) :=
  let avail := bs.length + 1
  let b2 := bs.getD 0 0
  let b3 := bs.getD 1 0
  let b4 := bs.getD 2 0
  let invalid (n : Nat) (r : Utf8Reason) : Except Utf8Error (Nat × Nat) := .error ⟨pos, pos + n, r⟩
  let truncated : Except Utf8Error (Nat × Nat) := .error ⟨pos, total, .unexpectedEnd⟩
  if b < 0x80 then .ok (b, 1)
  else if b < 0xC2 then invalid 1 .invalidStart
  else if b < 0xE0 then
    if avail < 2 then truncated
    else if !isCont b2 then invalid 1 .invalidContinuation
    else .ok (b % 32 * 64 + b2 % 64, 2)
  else if b < 0xF0 then
    if avail < 3 then
      if avail < 2 then truncated
      else if !isCont b2 || (if b2 < 0xA0 then b == 0xE0 else b == 0xED) then invalid 1 .invalidContinuation
      else truncated
    else if !isCont b2 || (b == 0xE0 && b2 < 0xA0) || (b == 0xED && 0xA0 ≤ b2) then
      invalid 1 .invalidContinuation
    else if !isCont b3 then invalid 2 .invalidContinuation
    else .ok (b % 16 * 4096 + b2 % 64 * 64 + b3 % 64, 3)
  else if b < 0xF5 then
    if avail < 4 then
      if avail < 2 then truncated
      else if !isCont b2 || (if b2 < 0x90 then b == 0xF0 else b == 0xF4) then invalid 1 .invalidContinuation
      else if avail < 3 then truncated
      else if !isCont b3 then invalid 2 .invalidContinuation
      else truncated
    else if !isCont b2 || (b == 0xF0 && b2 < 0x90) || (b == 0xF4 && 0x90 ≤ b2) then
      invalid 1 .invalidContinuation
    else if !isCont b3 then invalid 2 .invalidContinuation
    else if !isCont b4 then invalid 3 .invalidContinuation
    else .ok (b % 8 * 262144 + b2 % 64 * 4096 + b3 % 64 * 64 + b4 % 64, 4)
  else invalid 1 .invalidStart

/-- The decoder from byte position `pos`: each character as `utf8Next` reads it, until the first
invalid one.  `fuel` bounds the characters read; the length of the input is enough. -/
def utf8Go (total : Nat) : Nat → Nat → List Nat → Except Utf8Error PyStr
  | _, _, [] => .ok []
  | 0, _, _ :: _ => .ok []
  | fuel + 1, pos, b :: bs => do
    let (c, n) ← utf8Next total pos b bs
    let rest ← utf8Go total fuel (pos + n) ((b :: bs).drop n)
    pure (c :: rest)

/-- `b.decode()`, strict UTF-8. -/
def utf8Decode (b : Bytes) : Except Utf8Error PyStr := utf8Go b.length b.length 0 (b.map UInt8.toNat)

/-- The reason's text. -/
def Utf8Reason.text : Utf8Reason → PyStr
  | .unexpectedEnd => lit "unexpected end of data"
  | .invalidStart => lit "invalid start byte"
  | .invalidContinuation => lit "invalid continuation byte"

/-- `str(e)` of the `UnicodeDecodeError` decoding `b`. -/
def Utf8Error.text (b : Bytes) (e : Utf8Error) : PyStr :=
  if e.stop = e.start + 1 then
    lit "'utf-8' codec can't decode byte 0x" ++ hex2 ((b.getD e.start 0).toNat) ++ lit " in position " ++
      natStr e.start ++ lit ": " ++ e.reason.text
  else
    lit "'utf-8' codec can't decode bytes in position " ++ natStr e.start ++ lit "-" ++ natStr (e.stop - 1) ++
      lit ": " ++ e.reason.text

/-! ### `str.encode()` -/

/-- The UTF-8 bytes of one code point; `none` for a surrogate, which `str.encode()` refuses. -/
def utf8Char (c : Nat) : Option (List Nat) :=
  if c < 0x80 then some [c]
  else if c < 0x800 then some [0xC0 + c / 64, 0x80 + c % 64]
  else if 0xD800 ≤ c ∧ c < 0xE000 then none
  else if c < 0x10000 then some [0xE0 + c / 4096, 0x80 + c / 64 % 64, 0x80 + c % 64]
  else some [0xF0 + c / 262144, 0x80 + c / 4096 % 64, 0x80 + c / 64 % 64, 0x80 + c % 64]

/-- `s.encode()`; `none` when it raises `UnicodeEncodeError`. -/
def utf8Encode : PyStr → Option Bytes
  | [] => some []
  | c :: s => do
    let b ← utf8Char c
    let rest ← utf8Encode s
    pure (b.map Nat.toUInt8 ++ rest)

/-- Text of code points below 128. -/
def IsAscii (s : PyStr) : Prop := ∀ c ∈ s, c < 128

instance (s : PyStr) : Decidable (IsAscii s) := inferInstanceAs (Decidable (∀ c ∈ s, c < 128))

/-- ASCII text encodes to its code points. -/
theorem utf8Encode_ascii {s : PyStr} (h : IsAscii s) : utf8Encode s = some (s.map Nat.toUInt8) := by
  induction s with
  | nil => rfl
  | cons c s ih =>
    have hc : utf8Char c = some [c] := if_pos (h c (List.mem_cons_self _ _))
    rw [utf8Encode, hc, ih fun c' hc' => h c' (List.mem_cons_of_mem _ hc')]
    rfl

/-- ASCII bytes decode to their values, given the fuel. -/
theorem utf8Go_ascii (total : Nat) :
    ∀ (fuel pos : Nat) (s : PyStr), IsAscii s → s.length ≤ fuel → utf8Go total fuel pos s = .ok s
  | fuel, _, [], _, _ => by cases fuel <;> rfl
  | fuel + 1, pos, c :: s, h, hl => by
    have hc : utf8Next total pos c s = .ok (c, 1) := if_pos (h c (List.mem_cons_self _ _))
    have ih := utf8Go_ascii total fuel (pos + 1) s (fun c' hc' => h c' (List.mem_cons_of_mem _ hc'))
      (by simp at hl; omega)
    simp only [utf8Go, hc, bind, Except.bind, List.drop_one, List.tail_cons, ih, pure, Except.pure]

/-- Decoding the encoding of ASCII text gives it back. -/
theorem utf8Decode_ascii {s : PyStr} (h : IsAscii s) : utf8Decode (s.map Nat.toUInt8) = .ok s := by
  have hmap : (s.map Nat.toUInt8).map UInt8.toNat = s := by
    rw [List.map_map]
    conv_rhs => rw [← List.map_id s]
    refine List.map_congr_left fun c hc => ?_
    have := h c hc
    simp only [Function.comp, id, Nat.toUInt8, UInt8.toNat, UInt8.ofNat, Fin.ofNat]
    exact Nat.mod_eq_of_lt (lt_of_lt_of_le this (by norm_num))
  rw [utf8Decode, hmap]
  exact utf8Go_ascii _ _ 0 s h (by simp)

end NixlExamples
