import NixlExamples.Json.Loads

/-!
# `json.dumps`

`dumps v` is `json.dumps(v)` with the defaults (`ensure_ascii=True`, `allow_nan=True`, separators
`", "` and `": "`), as the C encoder writes it: a `str` between double quotes with `"`, `\` and the
control characters escaped and every code point outside printable ASCII written `\uXXXX` (lowercase
hex, a pair of surrogates above U+FFFF); a `float` as its `repr`, or `NaN`, `Infinity`, `-Infinity`.

Its text is printable ASCII (`printable_dumps`), so the reply the server writes,
`json.dumps(response) + "\n"`, is one line.
-/

namespace NixlExamples

/-- One code point of `ensure_ascii` string output. -/
def escapeCp (c : Nat) : PyStr :=
  if c == 34 then lit "\\\""
  else if c == 92 then lit "\\\\"
  else if c == 10 then lit "\\n"
  else if c == 13 then lit "\\r"
  else if c == 9 then lit "\\t"
  else if c == 8 then lit "\\b"
  else if c == 12 then lit "\\f"
  else if 32 ≤ c ∧ c < 127 then [c]
  else if c < 0x10000 then lit "\\u" ++ hex4 c
  else lit "\\u" ++ hex4 (0xD800 + (c - 0x10000) / 1024) ++ lit "\\u" ++ hex4 (0xDC00 + (c - 0x10000) % 1024)

/-- A `str` as a JSON string. -/
def dumpsStr (s : PyStr) : PyStr := 34 :: s.flatMap escapeCp ++ [34]

/-- A `float` as `json.dumps` writes it. -/
def floatStr : PyFloat → PyStr
  | .nan => lit "NaN"
  | .inf neg => lit (if neg then "-Infinity" else "Infinity")
  | x => x.repr

mutual
/-- `json.dumps(v)`. -/
def dumps : PyJson → PyStr
  | .none => lit "null"
  | .bool b => lit (if b then "true" else "false")
  | .int n => intStr n
  | .float x => floatStr x
  | .str s => dumpsStr s
  | .list xs => lit "[" ++ dumpsItems xs ++ lit "]"
  | .dict kvs => lit "\x7b" ++ dumpsMembers kvs ++ lit "\x7d"

/-- The items of a `list`, separated by `", "`. -/
def dumpsItems : List PyJson → PyStr
  | [] => []
  | x :: xs => dumps x ++ (if xs.isEmpty then [] else lit ", ") ++ dumpsItems xs

/-- The items of a `dict`, `"key": value`, separated by `", "`. -/
def dumpsMembers : List (PyStr × PyJson) → PyStr
  | [] => []
  | (k, v) :: kvs => dumpsStr k ++ lit ": " ++ dumps v ++ (if kvs.isEmpty then [] else lit ", ") ++ dumpsMembers kvs
end

/-! ### The text is one line of printable ASCII -/

/-- Text of printable ASCII: no control character, no newline, nothing above `~`. -/
def Printable (s : PyStr) : Prop := ∀ c ∈ s, 32 ≤ c ∧ c < 127

instance (s : PyStr) : Decidable (Printable s) := inferInstanceAs (Decidable (∀ c ∈ s, _))

section Printable

theorem Printable.append {s t : PyStr} (hs : Printable s) (ht : Printable t) : Printable (s ++ t) := by
  intro c hc
  rcases List.mem_append.1 hc with hc | hc
  exacts [hs c hc, ht c hc]

theorem Printable.take {s : PyStr} (hs : Printable s) (n : Nat) : Printable (s.take n) :=
  fun c hc => hs c (List.mem_of_mem_take hc)

theorem Printable.drop {s : PyStr} (hs : Printable s) (n : Nat) : Printable (s.drop n) :=
  fun c hc => hs c (List.mem_of_mem_drop hc)

theorem printable_nil : Printable [] := fun _ hc => absurd hc (List.not_mem_nil _)

theorem printable_replicate (n : Nat) : Printable (List.replicate n 48) := by
  intro c hc
  rw [List.eq_of_mem_replicate hc]
  decide

theorem printable_natStr (n : Nat) : Printable (natStr n) := by
  intro c hc
  obtain ⟨ch, hch, rfl⟩ := List.mem_map.1 hc
  have := toDigits_digit hch
  omega

theorem printable_intStr (n : Int) : Printable (intStr n) := by
  unfold intStr
  split
  · exact Printable.append (by decide) (printable_natStr _)
  · exact printable_natStr _

theorem printable_hexDigit {d : Nat} (h : d < 16) : 32 ≤ hexDigit d ∧ hexDigit d < 127 := by
  unfold hexDigit; split <;> omega

theorem printable_hex4 (c : Nat) : Printable (hex4 c) := by
  intro x hx
  simp only [hex4, List.mem_cons, List.mem_singleton, List.not_mem_nil, or_false] at hx
  rcases hx with rfl | rfl | rfl | rfl <;> exact printable_hexDigit (Nat.mod_lt _ (by omega))

theorem printable_escapeCp (c : Nat) : Printable (escapeCp c) := by
  unfold escapeCp
  repeat' split
  all_goals first
    | decide
    | (intro x hx; rw [List.mem_singleton.1 hx]; omega)
    | exact Printable.append (by decide) (printable_hex4 _)
    | exact ((Printable.append (by decide) (printable_hex4 _)).append (by decide)).append (printable_hex4 _)

theorem printable_dumpsStr (s : PyStr) : Printable (dumpsStr s) := by
  intro c hc
  rcases List.mem_cons.1 hc with rfl | hc
  · decide
  rcases List.mem_append.1 hc with hc | hc
  · obtain ⟨x, -, hx⟩ := List.mem_flatMap.1 hc
    exact printable_escapeCp x c hx
  · rw [List.mem_singleton.1 hc]; decide

theorem printable_expStr (x : Int) : Printable (expStr x) :=
  ((Printable.append (by split <;> decide) (by split <;> decide))).append (printable_natStr _)

theorem printable_formatShort {ds : PyStr} (h : Printable ds) (decpt : Int) :
    Printable (formatShort ds decpt) := by
  unfold formatShort
  split
  · exact ((Printable.append (h.take 1) (by split; exacts [Printable.append (by decide) (h.drop 1),
      printable_nil])).append (by decide)).append (printable_expStr _)
  split
  · exact (Printable.append (by decide) (printable_replicate _)).append h
  split
  · exact (h.append (printable_replicate _)).append (by decide)
  · exact ((h.take _).append (by decide)).append (h.drop _)

theorem printable_floatStr (x : PyFloat) : Printable (floatStr x) := by
  rcases x with ⟨neg, m, e⟩ | neg | _
  · show Printable (PyFloat.repr (.finite neg m e))
    unfold PyFloat.repr
    refine Printable.append (by split <;> decide) ?_
    split
    · decide
    · exact printable_formatShort (printable_natStr _) _
  · cases neg <;> decide
  · decide

mutual
theorem printable_dumps : ∀ v : PyJson, Printable (dumps v)
  | .none => by decide
  | .bool b => by cases b <;> decide
  | .int n => printable_intStr n
  | .float x => printable_floatStr x
  | .str s => printable_dumpsStr s
  | .list xs => ((Printable.append (by decide) (printable_dumpsItems xs))).append (by decide)
  | .dict kvs => ((Printable.append (by decide) (printable_dumpsMembers kvs))).append (by decide)

theorem printable_dumpsItems : ∀ xs : List PyJson, Printable (dumpsItems xs)
  | [] => printable_nil
  | x :: xs => ((printable_dumps x).append (by split <;> decide)).append (printable_dumpsItems xs)

theorem printable_dumpsMembers : ∀ kvs : List (PyStr × PyJson), Printable (dumpsMembers kvs)
  | [] => printable_nil
  | (k, v) :: kvs => ((((printable_dumpsStr k).append (by decide)).append (printable_dumps v)).append
      (by split <;> decide)).append (printable_dumpsMembers kvs)
end

end Printable

end NixlExamples
