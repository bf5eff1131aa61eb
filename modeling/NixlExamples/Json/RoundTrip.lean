import NixlExamples.Json.Dumps

/-!
# Reading back what `json.dumps` writes

`json.loads` gives back a `str` that `json.dumps` escaped, when the `str` is made of Unicode scalar
values (`scanString_escaped`): every escape the encoder writes is one the scanner reads, and a code
point above U+FFFF, written as a surrogate pair, is joined again (`scanString_pair`).  A `dict` whose
keys are distinct and whose keys and values are such `str`s is read back whole
(`jsonLoads_dumps_strDict`): this covers every request the metadata clients send and every reply the
server writes them.
-/

namespace NixlExamples


/-- A code point that is a Unicode scalar value: not a surrogate, at most U+10FFFF. -/
def IsScalar (c : Nat) : Prop := c < 0xD800 ∨ 0xE000 ≤ c ∧ c < 0x110000

/-- A `str` of Unicode scalar values. -/
def ScalarStr (s : PyStr) : Prop := ∀ c ∈ s, IsScalar c

instance : DecidablePred IsScalar := fun c => inferInstanceAs (Decidable (c < 0xD800 ∨ 0xE000 ≤ c ∧ c < 0x110000))

instance (s : PyStr) : Decidable (ScalarStr s) := inferInstanceAs (Decidable (∀ c ∈ s, IsScalar c))

/-- Every literal is made of scalar values: a `Char` is one. -/
theorem scalarStr_lit (s : String) : ScalarStr (lit s) := by
  intro c hc
  obtain ⟨ch, -, rfl⟩ := List.mem_map.1 hc
  have h := ch.valid
  simp only [UInt32.isValidChar, Nat.isValidChar] at h
  unfold IsScalar Char.toNat
  omega
/-- A character `json.dumps` writes as it is and that is not whitespace: `!` to `~` but `"` and `\`. -/
def IsPlain (c : Nat) : Prop := 32 < c ∧ c < 127 ∧ c ≠ 34 ∧ c ≠ 92

theorem escapeCp_plain {c : Nat} (h : IsPlain c) : escapeCp c = [c] := by
  obtain ⟨h1, h2, h3, h4⟩ := h
  unfold escapeCp
  rw [if_neg (by simpa using h3), if_neg (by simpa using h4), if_neg (by simp; omega), if_neg (by simp; omega),
    if_neg (by simp; omega), if_neg (by simp; omega), if_neg (by simp; omega), if_pos ⟨by omega, h2⟩]

theorem flatMap_escapeCp_plain {s : PyStr} (h : ∀ c ∈ s, IsPlain c) : s.flatMap escapeCp = s := by
  induction s with
  | nil => rfl
  | cons c s ih =>
    rw [List.flatMap_cons, escapeCp_plain (h c (List.mem_cons_self _ _)),
      ih fun c' hc' => h c' (List.mem_cons_of_mem _ hc')]
    rfl

theorem scalarStr_of_plain {s : PyStr} (h : ∀ c ∈ s, IsPlain c) : ScalarStr s :=
  fun c hc => .inl (by have := (h c hc).2.1; omega)

theorem hexVal_hexDigit : ∀ d < 16, hexVal (hexDigit d) = some d := by decide

theorem hex4Val_hex4 {c : Nat} (h : c < 0x10000) (t : List Nat) : hex4Val (hex4 c ++ t) = some (c, t) := by
  simp only [hex4, List.cons_append, List.nil_append, hex4Val, hexVal_hexDigit _ (Nat.mod_lt _ (by omega : 0 < 16))]
  simp only [Option.bind_eq_bind, Option.some_bind, pure, Option.some.injEq, Prod.mk.injEq, and_true]
  omega

/-- A surrogate pair the encoder wrote for a code point above U+FFFF. -/
theorem scanString_pair (fuel hi lo : Nat) (hhi : 0xD800 ≤ hi ∧ hi ≤ 0xDBFF) (hlo : 0xDC00 ≤ lo ∧ lo ≤ 0xDFFF) {t : List Nat}
    (ht : t ≠ []) :
    scanString (fuel + 1) (92 :: 117 :: (hex4 hi ++ 92 :: 117 :: (hex4 lo ++ t))) =
      consStr (0x10000 + (hi - 0xD800) * 1024 + (lo - 0xDC00)) (scanString fuel t) := by
  have hlen4 : ¬ ((hex4 lo).length + t.length ≤ 4) := by
    have := List.length_pos.2 ht
    simp only [hex4, List.length_cons, List.length_nil]
    omega
  conv_lhs => rw [scanString.eq_def]
  simp [hex4Val_hex4 (show hi < 0x10000 by omega), hex4Val_hex4 (show lo < 0x10000 by omega), hhi, hlo, hlen4]

/-- The scanner reads back one code point the encoder escaped, when more text follows. -/
theorem scanString_escapeCp {c : Nat} (hc : IsScalar c) (fuel : Nat) {t : List Nat} (ht : t ≠ []) :
    scanString (fuel + 1) (escapeCp c ++ t) = consStr c (scanString fuel t) := by
  unfold escapeCp
  split_ifs with h1 h2 h3 h4 h5 h6 h7 h8 h9
  · rw [beq_iff_eq.1 h1]; rfl
  · rw [beq_iff_eq.1 h2]; rfl
  · rw [beq_iff_eq.1 h3]; rfl
  · rw [beq_iff_eq.1 h4]; rfl
  · rw [beq_iff_eq.1 h5]; rfl
  · rw [beq_iff_eq.1 h6]; rfl
  · rw [beq_iff_eq.1 h7]; rfl
  · rw [List.singleton_append, scanString.eq_def]
    simp only [h1, h2, Bool.false_eq_true, if_false, if_neg (show ¬ c ≤ 0x1F by omega)]
  · have hs : ¬ (0xD800 ≤ c ∧ c ≤ 0xDBFF ∧ 6 < t.length) := by unfold IsScalar at hc; omega
    rw [show lit "\\u" ++ hex4 c ++ t = 92 :: 117 :: (hex4 c ++ t) by rfl, scanString.eq_def]
    simp [hex4Val_hex4 h9, if_neg hs, List.isEmpty_iff, ht]
  · have hc' : 0x10000 ≤ c ∧ c < 0x110000 := by unfold IsScalar at hc; omega
    rw [show lit "\\u" ++ hex4 (0xD800 + (c - 0x10000) / 1024) ++ lit "\\u" ++
        hex4 (0xDC00 + (c - 0x10000) % 1024) ++ t = 92 :: 117 :: (hex4 (0xD800 + (c - 0x10000) / 1024) ++
        92 :: 117 :: (hex4 (0xDC00 + (c - 0x10000) % 1024) ++ t)) by simp [lit],
      scanString_pair _ _ _ (by omega) (by omega) ht]
    have hv : 0x10000 + (0xD800 + (c - 0x10000) / 1024 - 0xD800) * 1024 +
        (0xDC00 + (c - 0x10000) % 1024 - 0xDC00) = c := by omega
    rw [hv]

/-- `json.loads` reads back a `str` of scalar values `json.dumps` escaped, with the text after it. -/
theorem scanString_escaped : ∀ (s : PyStr), ScalarStr s → ∀ (fuel : Nat) (r : List Nat), s.length < fuel →
    scanString fuel (s.flatMap escapeCp ++ 34 :: r) = .ok (s, r)
  | [], _, fuel + 1, r, _ => rfl
  | c :: s, hs, fuel + 1, r, hf => by
    rw [List.flatMap_cons, List.append_assoc,
      scanString_escapeCp (hs c (List.mem_cons_self _ _)) fuel (by simp),
      scanString_escaped s (fun c' hc' => hs c' (List.mem_cons_of_mem _ hc')) fuel r
        (by simp only [List.length_cons] at hf; omega)]
    rfl

/-- A text that ends inside a string is refused. -/
theorem scanString_unterminated : ∀ (w : PyStr) (fuel : Nat), (∀ c ∈ w, IsPlain c) →
    scanString fuel w = .error .decode
  | _, 0, _ => by cases ‹PyStr› <;> rfl
  | [], _ + 1, _ => rfl
  | c :: w, fuel + 1, h => by
    obtain ⟨h1, -, h3, h4⟩ := h c (List.mem_cons_self _ _)
    have h34 : (c == 34) = false := by simpa using h3
    have h92 : (c == 92) = false := by simpa using h4
    conv_lhs => rw [scanString.eq_def]
    simp only [h34, h92, Bool.false_eq_true, if_false, if_neg (show ¬ c ≤ 0x1F by omega),
      scanString_unterminated w fuel fun c' hc' => h c' (List.mem_cons_of_mem _ hc')]
    rfl

theorem scanValue_dumpsStr (lim : Limits) {s : PyStr} (hs : ScalarStr s) {fuel : Nat} (hf : s.length < fuel)
    (depth : Nat) (r : List Nat) : scanValue lim (fuel + 1) depth (dumpsStr s ++ r) = .ok (.str s, r) := by
  have h := scanString_escaped s hs fuel r hf
  show (scanString fuel (s.flatMap escapeCp ++ [34] ++ r)).map _ = _
  rw [List.append_assoc, List.singleton_append, h]
  rfl

theorem length_le_flatMap_escapeCp (s : PyStr) : s.length ≤ (s.flatMap escapeCp).length := by
  induction s with
  | nil => exact Nat.le_refl 0
  | cons c s ih =>
    have : 1 ≤ (escapeCp c).length := by
      unfold escapeCp
      repeat' split
      all_goals first | decide | simp [lit, hex4]
    simp only [List.flatMap_cons, List.length_append, List.length_cons]
    omega

theorem skipWs_space (s : List Nat) : skipWs (32 :: s) = skipWs s := by
  simp [skipWs, List.dropWhile_cons, isWs]

theorem dictInsert_of_not_mem {acc : List (PyStr × PyJson)} {k : PyStr} (h : k ∉ acc.map Prod.fst) (v : PyJson) :
    dictInsert acc k v = acc ++ [(k, v)] := by
  rw [dictInsert, if_neg]
  simp only [List.any_eq_true, beq_iff_eq, not_exists, not_and]
  intro kv hkv hk
  exact h (List.mem_map.2 ⟨kv, hkv, hk⟩)

theorem scanMembers_quote (elem : List Nat → Except LoadError (PyJson × List Nat)) (fuel : Nat)
    (acc : List (PyStr × PyJson)) (s : List Nat) :
    scanMembers elem (fuel + 1) acc (34 :: s) = (scanString (fuel + 1) s).bind fun (k, r) =>
      match skipWs r with
      | 58 :: r => (elem (skipWs r)).bind fun (v, r) =>
        match skipWs r with
        | 125 :: r => pure (.dict (dictInsert acc k v), r)
        | 44 :: r => scanMembers elem fuel (dictInsert acc k v) (skipWs r)
        | _ => .error .decode
      | _ => .error .decode := rfl

theorem skipWs_dumpsStr (s : PyStr) (r : List Nat) : skipWs (dumpsStr s ++ r) = dumpsStr s ++ r :=
  skipWs_cons (by decide) _

theorem skipWs_dumpsMembers {kvs : List (PyStr × PyJson)} (h : kvs ≠ []) (r : List Nat) :
    skipWs (dumpsMembers kvs ++ r) = dumpsMembers kvs ++ r := by
  obtain ⟨⟨k, v⟩, rest, rfl⟩ := List.exists_cons_of_ne_nil h
  simp only [dumpsMembers, List.append_assoc]
  exact skipWs_dumpsStr k _

/-- Items whose keys and values are `str`s of scalar values. -/
def StrItems (kvs : List (PyStr × PyJson)) : Prop := ∀ kv ∈ kvs, ScalarStr kv.1 ∧ ∃ s, kv.2 = .str s ∧ ScalarStr s

/-- The scanner reads back the items `json.dumps` wrote for a `dict` of `str`s with distinct keys. -/
theorem scanMembers_dumpsMembers (lim : Limits) (vfuel depth : Nat) :
    ∀ (kvs acc : List (PyStr × PyJson)) (fuel : Nat) (r : List Nat), StrItems kvs →
      (acc.map Prod.fst ++ kvs.map Prod.fst).Nodup → kvs ≠ [] →
      (dumpsMembers kvs).length < fuel → (dumpsMembers kvs).length ≤ vfuel →
      scanMembers (scanValue lim vfuel depth) fuel acc (dumpsMembers kvs ++ 125 :: r) =
        .ok (.dict (acc ++ kvs), r)
  | [], _, _, _, _, _, hne, _, _ => absurd rfl hne
  | (k, v) :: rest, acc, fuel + 1, r, hs, hnd, _, hf, hv => by
    obtain ⟨hk, s, rfl, hss⟩ := hs _ (List.mem_cons_self _ _)
    have hrest : StrItems rest := fun kv hkv => hs kv (List.mem_cons_of_mem _ hkv)
    have hkn : k ∉ acc.map Prod.fst := fun h => by
      rw [List.map_cons, List.nodup_append] at hnd
      exact hnd.2.2 h (List.mem_cons_self _ _)
    have hlk := length_le_flatMap_escapeCp k
    have hls := length_le_flatMap_escapeCp s
    have htext : dumpsMembers ((k, .str s) :: rest) ++ 125 :: r = 34 :: (k.flatMap escapeCp ++ 34 :: 58 :: 32 ::
        (dumpsStr s ++ ((if rest.isEmpty then [] else lit ", ") ++ dumpsMembers rest ++ 125 :: r))) := by
      simp [dumpsMembers, dumps, dumpsStr, lit]
    have hl : (dumpsMembers ((k, .str s) :: rest)).length = (k.flatMap escapeCp).length + 4 +
        (s.flatMap escapeCp).length + 2 + (if rest.isEmpty then [] else lit ", ").length +
        (dumpsMembers rest).length := by
      simp only [dumpsMembers, dumps, dumpsStr, List.length_append, List.length_cons, List.length_nil,
        show (lit ": ").length = 2 from rfl]
      omega
    obtain ⟨g, rfl⟩ : ∃ g, vfuel = g + 1 := ⟨vfuel - 1, by omega⟩
    rw [htext, scanMembers_quote, scanString_escaped k hk _ _ (by omega)]
    simp only [Except.bind, skipWs_cons (show isWs 58 = false by decide), skipWs_space, skipWs_dumpsStr,
      scanValue_dumpsStr lim hss (show s.length < g by omega), dictInsert_of_not_mem hkn]
    cases rest with
    | nil => rfl
    | cons kv rest =>
      have hne : kv :: rest ≠ [] := List.cons_ne_nil _ _
      simp only [List.isEmpty_cons, Bool.false_eq_true, if_false, show lit ", " = [44, 32] from rfl,
        List.cons_append, List.nil_append, skipWs_cons (show isWs 44 = false by decide), skipWs_space,
        skipWs_dumpsMembers hne]
      rw [scanMembers_dumpsMembers lim (g + 1) depth (kv :: rest) (acc ++ [(k, PyJson.str s)]) fuel r hrest
        (by simpa using hnd) hne (by simp only [List.isEmpty_cons] at hl; omega) (by omega)]
      simp

/-- `json.loads(json.dumps(d)) == d` for a `dict` of `str`s with distinct keys, under any nesting limit
that admits the `dict` itself. -/
theorem jsonLoads_dumps_strDict (lim : Limits) (h0 : 0 < lim.depth) {kvs : List (PyStr × PyJson)}
    (hs : StrItems kvs) (hnd : (kvs.map Prod.fst).Nodup) : jsonLoads lim (dumps (.dict kvs)) = .ok (.dict kvs) := by
  have htext : dumps (.dict kvs) = 123 :: (dumpsMembers kvs ++ [125]) := rfl
  have hlen : (dumps (.dict kvs)).length + 1 = (dumpsMembers kvs ++ [125]).length + 1 + 1 := by
    rw [htext, List.length_cons]
  unfold jsonLoads
  rw [if_neg (by rw [htext]; simp), hlen, htext, skipWs_cons (by decide), scanValue_open_object,
    if_neg (by omega)]
  cases kvs with
  | nil => rfl
  | cons kv rest =>
    have hne : kv :: rest ≠ [] := List.cons_ne_nil _ _
    obtain ⟨t, ht⟩ : ∃ t, dumpsMembers (kv :: rest) ++ [125] = 34 :: t :=
      ⟨_, by simp only [dumpsMembers, dumpsStr, List.cons_append, List.append_assoc]; rfl⟩
    rw [skipWs_dumpsMembers hne, ht]
    dsimp only
    rw [← ht, scanMembers_dumpsMembers lim _ 1 (kv :: rest) [] _ [] hs (by simpa using hnd) hne
      (by simp only [List.length_append, List.length_singleton]; omega)
      (by simp only [List.length_append, List.length_singleton]; omega)]
    rfl

end NixlExamples
