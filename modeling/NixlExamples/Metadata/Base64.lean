import NixlExamples.Json.Text

/-!
# Base64

The two conversions the metadata helpers wrap around every blob: `base64.b64encode` (RFC 4648 §4, as
`binascii.b2a_base64` writes it, without the newline) and `base64.b64decode`, which is
`binascii.a2b_base64` in its default, non-strict mode: it skips every byte outside the alphabet, stops
at the first complete pad, and raises `binascii.Error` on a text that ends inside a quad.

* `a2bBase64_b64encode`: decoding gives back every byte string encoded;
* `length_b64encode`, `b64encode_chars`: the text is `4 * ⌈n / 3⌉` alphabet or pad characters, so it
  is empty exactly when the blob is (`b64encode_eq_nil`).
-/

namespace NixlExamples

/-- `table_b2a_base64[i]` for `i < 64`: `A`..`Z`, `a`..`z`, `0`..`9`, `+`, `/`. -/
def b64Char (i : Nat) : UInt8 :=
  (if i < 26 then 65 + i else if i < 52 then 71 + i else if i < 62 then i - 4 else if i = 62 then 43 else 47).toUInt8

/-- `base64.b64encode(b)`: each three bytes become four characters; a last one or two bytes are
padded with `=`. -/
def b64encode : Bytes → Bytes
  | a :: b :: c :: rest =>
    b64Char (a.toNat / 4) :: b64Char (a.toNat % 4 * 16 + b.toNat / 16) ::
      b64Char (b.toNat % 16 * 4 + c.toNat / 64) :: b64Char (c.toNat % 64) :: b64encode rest
  | [a, b] => [b64Char (a.toNat / 4), b64Char (a.toNat % 4 * 16 + b.toNat / 16), b64Char (b.toNat % 16 * 4), 61]
  | [a] => [b64Char (a.toNat / 4), b64Char (a.toNat % 4 * 16), 61, 61]
  | [] => []

/-- `table_a2b_base64[c]`: the index of an alphabet byte, `none` for every other byte. -/
def b64Index (c : UInt8) : Option Nat :=
  if 65 ≤ c.toNat ∧ c.toNat ≤ 90 then some (c.toNat - 65)
  else if 97 ≤ c.toNat ∧ c.toNat ≤ 122 then some (c.toNat - 71)
  else if 48 ≤ c.toNat ∧ c.toNat ≤ 57 then some (c.toNat + 4)
  else if c.toNat = 43 then some 62
  else if c.toNat = 47 then some 63
  else none

/-- The `binascii.Error` of `a2b_base64`. -/
inductive A2bError where
  /-- the text ends two or three characters into a quad -/
  | incorrectPadding
  /-- the text ends one character into a quad; `n` is the count the message reports -/
  | dataChars (n : Nat)
deriving DecidableEq, Repr

/-- `str(e)`. -/
def A2bError.text : A2bError → PyStr
  | .incorrectPadding => lit "Incorrect padding"
  | .dataChars n => lit "Invalid base64-encoded string: number of data characters (" ++ natStr n ++
      lit ") cannot be 1 more than a multiple of 4"

/-- The loop of `binascii.a2b_base64` with `strict_mode` off: `quad` is `quad_pos`, `left` is
`leftchar`, `pads` the `=` seen since the last data character, `out` the bytes written. -/
def a2bGo (quad left pads : Nat) (out : Bytes) : Bytes → Except A2bError Bytes
  | [] =>
    if quad = 0 then .ok out
    else if quad = 1 then .error (.dataChars (out.length / 3 * 4 + 1))
    else .error .incorrectPadding
  | c :: cs =>
    if c.toNat = 61 then
      if 2 ≤ quad ∧ 4 ≤ quad + (pads + 1) then .ok out
      else a2bGo quad left (if 2 ≤ quad then pads + 1 else pads) out cs
    else
      match b64Index c with
      | none => a2bGo quad left pads out cs
      | some v =>
        match quad with
        | 0 => a2bGo 1 v 0 out cs
        | 1 => a2bGo 2 (v % 16) 0 (out ++ [(left * 4 + v / 16).toUInt8]) cs
        | 2 => a2bGo 3 (v % 4) 0 (out ++ [(left * 16 + v / 4).toUInt8]) cs
        | _ => a2bGo 0 0 0 (out ++ [(left * 64 + v).toUInt8]) cs

/-- `base64.b64decode(s)` for a `bytes` argument. -/
def a2bBase64 (s : Bytes) : Except A2bError Bytes := a2bGo 0 0 0 [] s

/-! ### The encoded text -/

theorem b64Index_b64Char : ∀ i < 64, b64Index (b64Char i) = some i := by decide

theorem b64Char_ne_pad : ∀ i < 64, (b64Char i).toNat ≠ 61 := by decide

/-- The characters `b64encode` writes: the alphabet and `=`. -/
def IsB64Char (c : UInt8) : Prop := (b64Index c).isSome ∨ c.toNat = 61

theorem isB64Char_b64Char {i : Nat} (h : i < 64) : IsB64Char (b64Char i) :=
  .inl (by rw [b64Index_b64Char i h]; rfl)

theorem b64encode_chars : ∀ m : Bytes, ∀ c ∈ b64encode m, IsB64Char c
  | a :: b :: c :: rest, x, hx => by
    have : a.toNat < 256 ∧ b.toNat < 256 ∧ c.toNat < 256 := ⟨a.toNat_lt_size, b.toNat_lt_size, c.toNat_lt_size⟩
    simp only [b64encode, List.mem_cons] at hx
    rcases hx with rfl | rfl | rfl | rfl | hx
    iterate 4 exact isB64Char_b64Char (by omega)
    exact b64encode_chars rest x hx
  | [a, b], x, hx => by
    have : a.toNat < 256 ∧ b.toNat < 256 := ⟨a.toNat_lt_size, b.toNat_lt_size⟩
    simp only [b64encode, List.mem_cons, List.mem_singleton, List.not_mem_nil, or_false] at hx
    rcases hx with rfl | rfl | rfl | rfl
    iterate 3 exact isB64Char_b64Char (by omega)
    exact .inr rfl
  | [a], x, hx => by
    have : a.toNat < 256 := a.toNat_lt_size
    simp only [b64encode, List.mem_cons, List.mem_singleton, List.not_mem_nil, or_false] at hx
    rcases hx with rfl | rfl | rfl | rfl
    iterate 2 exact isB64Char_b64Char (by omega)
    iterate 2 exact .inr rfl
  | [], _, hx => absurd hx (List.not_mem_nil _)

theorem length_b64encode : ∀ m : Bytes, (b64encode m).length = 4 * ((m.length + 2) / 3)
  | _ :: _ :: _ :: rest => by
    simp only [b64encode, List.length_cons, length_b64encode rest]
    omega
  | [_, _] | [_] | [] => by simp [b64encode]

theorem b64encode_eq_nil {m : Bytes} : b64encode m = [] ↔ m = [] := by
  constructor
  · intro h
    have := congrArg List.length h
    rw [length_b64encode, List.length_nil] at this
    exact List.eq_nil_of_length_eq_zero (by omega)
  · rintro rfl; rfl

/-! ### Decoding the encoded text -/

private theorem toUInt8_eq {n : Nat} {a : UInt8} (h : n = a.toNat) : n.toUInt8 = a :=
  UInt8.toNat.inj (by rw [Nat.toUInt8, UInt8.toNat_ofNat_of_lt (h ▸ a.toNat_lt_size)]; exact h)

/-- `a2bGo` after one data character. -/
private theorem a2bGo_data {quad left pads : Nat} {out : Bytes} {i : Nat} (hi : i < 64) (cs : Bytes) :
    a2bGo quad left pads out (b64Char i :: cs) =
      match quad with
      | 0 => a2bGo 1 i 0 out cs
      | 1 => a2bGo 2 (i % 16) 0 (out ++ [(left * 4 + i / 16).toUInt8]) cs
      | 2 => a2bGo 3 (i % 4) 0 (out ++ [(left * 16 + i / 4).toUInt8]) cs
      | _ => a2bGo 0 0 0 (out ++ [(left * 64 + i).toUInt8]) cs := by
  rw [a2bGo, if_neg (b64Char_ne_pad i hi), b64Index_b64Char i hi]

private theorem pad_toNat : (61 : UInt8).toNat = 61 := rfl

/-- A quad of data characters decodes to the three bytes it encodes. -/
private theorem a2bGo_quad (a b c : UInt8) (out cs : Bytes) :
    a2bGo 0 0 0 out (b64Char (a.toNat / 4) :: b64Char (a.toNat % 4 * 16 + b.toNat / 16) ::
      b64Char (b.toNat % 16 * 4 + c.toNat / 64) :: b64Char (c.toNat % 64) :: cs) =
      a2bGo 0 0 0 (out ++ [a, b, c]) cs := by
  have ha : a.toNat < 256 := a.toNat_lt_size
  have hb : b.toNat < 256 := b.toNat_lt_size
  have hc : c.toNat < 256 := c.toNat_lt_size
  rw [a2bGo_data (by omega)]; dsimp only
  rw [a2bGo_data (by omega)]; dsimp only
  rw [a2bGo_data (by omega)]; dsimp only
  rw [a2bGo_data (by omega)]; dsimp only
  congr 1
  simp only [List.append_assoc, List.singleton_append, List.cons_append, List.nil_append,
    List.append_cancel_left_eq, List.cons.injEq, and_true]
  exact ⟨toUInt8_eq (by omega), toUInt8_eq (by omega), toUInt8_eq (by omega)⟩

/-- Decoding reads each quad back to the bytes it encodes. -/
theorem a2bGo_b64encode : ∀ (m out : Bytes), a2bGo 0 0 0 out (b64encode m) = .ok (out ++ m)
  | a :: b :: c :: rest, out => by
    rw [b64encode, a2bGo_quad, a2bGo_b64encode rest]
    simp
  | [a, b], out => by
    have ha : a.toNat < 256 := a.toNat_lt_size
    have hb : b.toNat < 256 := b.toNat_lt_size
    rw [b64encode, a2bGo_data (by omega)]; dsimp only
    rw [a2bGo_data (by omega)]; dsimp only
    rw [a2bGo_data (by omega)]; dsimp only
    rw [a2bGo, if_pos pad_toNat, if_pos (by omega)]
    congr 1
    simp only [List.append_assoc, List.singleton_append, List.cons_append, List.nil_append,
    List.append_cancel_left_eq, List.cons.injEq, and_true]
    exact ⟨toUInt8_eq (by omega), toUInt8_eq (by omega)⟩
  | [a], out => by
    have ha : a.toNat < 256 := a.toNat_lt_size
    rw [b64encode, a2bGo_data (by omega)]; dsimp only
    rw [a2bGo_data (by omega)]; dsimp only
    rw [a2bGo, if_pos pad_toNat, if_neg (show ¬ (2 ≤ 2 ∧ 4 ≤ 2 + (0 + 1)) by omega),
      if_pos (show 2 ≤ 2 by omega), a2bGo, if_pos pad_toNat, if_pos (by omega)]
    congr 1
    simp only [List.append_cancel_left_eq, List.cons.injEq, and_true]
    exact toUInt8_eq (by omega)
  | [], out => by simp [b64encode, a2bGo]

/-- `base64.b64decode(base64.b64encode(m)) == m`. -/
theorem a2bBase64_b64encode (m : Bytes) : a2bBase64 (b64encode m) = .ok m :=
  a2bGo_b64encode m []

end NixlExamples
