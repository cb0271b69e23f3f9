import Parsing.Settings.Grammar

/-!
How the character classes of settings lie to one another. The tables are compared interval by
interval: where no interval of one meets an interval of the other, no character is in both. Spaces
are apart from letters, digits and everything else that a name is made of, and letters are apart
from digits, so the first character after a token always shows that the token has ended.
-/

namespace Parsing

namespace Ranges

theorem exists_mem_of_contains (r : Ranges) (n : Nat) (h : r.contains n = true) :
    ∃ i ∈ r, i.1 ≤ n ∧ n ≤ i.2 := by
  induction r with
  | nil => cases h
  | cons i rest ih =>
    obtain ⟨low, high⟩ := i
    by_cases hhigh : n ≤ high
    · have hlow : low ≤ n := by simpa [contains, hhigh] using h
      exact ⟨(low, high), List.mem_cons_self, hlow, hhigh⟩
    · have hrest : contains rest n = true := by simpa [contains, hhigh] using h
      obtain ⟨j, hj, hn⟩ := ih hrest
      exact ⟨j, List.mem_cons_of_mem _ hj, hn⟩

/-- No interval of the one meets an interval of the other. -/
def apart (a b : Ranges) : Bool :=
  a.all fun i => b.all fun j => Nat.blt i.2 j.1 || Nat.blt j.2 i.1

theorem contains_eq_false_of_apart {a b : Ranges} (h : a.apart b = true) (n : Nat)
    (hb : ∃ j ∈ b, j.1 ≤ n ∧ n ≤ j.2) : a.contains n = false := by
  rw [← Bool.not_eq_true]
  intro ha
  obtain ⟨i, hi, hlow, hhigh⟩ := exists_mem_of_contains a n ha
  obtain ⟨j, hj, hlow', hhigh'⟩ := hb
  have hij := List.all_eq_true.mp (List.all_eq_true.mp h i hi) j hj
  simp only [Bool.or_eq_true, Nat.blt_eq] at hij
  omega

end Ranges

/-- The decimal digits as intervals of ten. -/
def decimalRanges : Ranges := decimalZeros.map fun first => (first, first + 9)

/-- The characters that have a value in decimal notation. -/
def isDecimal (c : Char) : Bool := (decimalValue c).isSome

theorem mem_decimalRanges_of_isDecimal (c : Char) (h : isDecimal c = true) :
    ∃ i ∈ decimalRanges, i.1 ≤ c.toNat ∧ c.toNat ≤ i.2 := by
  unfold isDecimal decimalValue at h
  rw [Option.isSome_map, List.find?_isSome] at h
  obtain ⟨first, hmem, hfirst⟩ := h
  have hbounds : first ≤ c.toNat ∧ c.toNat < first + 10 := of_decide_eq_true hfirst
  refine ⟨(first, first + 9), List.mem_map_of_mem hmem, ?_⟩
  simp only
  omega

theorem isDigit_of_isDecimal (c : Char) (h : isDecimal c = true) : isDigit c = true := by
  unfold isDigit
  unfold isDecimal at h
  rw [h, Bool.true_or]

theorem mem_digit_ranges (c : Char) (h : isDigit c = true) :
    (∃ i ∈ decimalRanges, i.1 ≤ c.toNat ∧ c.toNat ≤ i.2) ∨
      ∃ i ∈ digitRanges, i.1 ≤ c.toNat ∧ c.toNat ≤ i.2 := by
  rcases Bool.or_eq_true_iff.mp h with hdecimal | hother
  · exact Or.inl (mem_decimalRanges_of_isDecimal c hdecimal)
  · exact Or.inr (Ranges.exists_mem_of_contains _ _ hother)

theorem isSpace_eq_false_of_isAlphanumeric (c : Char) (h : isAlphanumeric c = true) :
    isSpace c = false := by
  unfold isAlphanumeric at h
  rw [Bool.or_eq_true, Bool.or_eq_true] at h
  rcases h with (hletter | hdigit) | hnumeral
  · have hapart : spaceRanges.apart letterRanges = true := by decide +kernel
    exact Ranges.contains_eq_false_of_apart hapart _ (Ranges.exists_mem_of_contains _ _ hletter)
  · rcases mem_digit_ranges c hdigit with hdecimal | hother
    · have hapart : spaceRanges.apart decimalRanges = true := by decide +kernel
      exact Ranges.contains_eq_false_of_apart hapart _ hdecimal
    · have hapart : spaceRanges.apart digitRanges = true := by decide +kernel
      exact Ranges.contains_eq_false_of_apart hapart _ hother
  · have hapart : spaceRanges.apart numeralRanges = true := by decide +kernel
    exact Ranges.contains_eq_false_of_apart hapart _ (Ranges.exists_mem_of_contains _ _ hnumeral)

theorem isLetter_eq_false_of_isDigit (c : Char) (h : isDigit c = true) : isLetter c = false := by
  rcases mem_digit_ranges c h with hdecimal | hother
  · have hapart : letterRanges.apart decimalRanges = true := by decide +kernel
    exact Ranges.contains_eq_false_of_apart hapart _ hdecimal
  · have hapart : letterRanges.apart digitRanges = true := by decide +kernel
    exact Ranges.contains_eq_false_of_apart hapart _ hother

/-- What is outside a class is outside every class within it. -/
theorem eq_false_of_subclass {inner outer : Char → Bool}
    (h : ∀ c, inner c = true → outer c = true) (c : Char) (hc : outer c = false) :
    inner c = false := by
  rw [← Bool.not_eq_true] at hc ⊢
  exact fun hinner => hc (h c hinner)

/-- That two classes have no character in common goes both ways. -/
theorem eq_false_of_disjoint {one other : Char → Bool}
    (h : ∀ c, one c = true → other c = false) (c : Char) (hc : other c = true) :
    one c = false := by
  rw [← Bool.not_eq_true]
  intro hone
  rw [h c hone] at hc
  cases hc

theorem isDigit_eq_false_of_isLetter (c : Char) (h : isLetter c = true) : isDigit c = false :=
  eq_false_of_disjoint isLetter_eq_false_of_isDigit c h

theorem isDecimal_eq_false (c : Char) (h : isDigit c = false) : isDecimal c = false :=
  eq_false_of_subclass isDigit_of_isDecimal c h

theorem isSpace_eq_false_of_isDigit (c : Char) (h : isDigit c = true) : isSpace c = false := by
  apply isSpace_eq_false_of_isAlphanumeric
  unfold isAlphanumeric
  rw [h, Bool.or_true, Bool.true_or]

theorem isDecimal_eq_false_of_isSpace (c : Char) (h : isSpace c = true) : isDecimal c = false :=
  isDecimal_eq_false c (eq_false_of_disjoint isSpace_eq_false_of_isDigit c h)

namespace Settings

theorem isSpace_of_isBlank (c : Char) (h : isBlank c = true) : isSpace c = true := by
  unfold isBlank at h
  rw [Bool.or_eq_true, decide_eq_true_iff, decide_eq_true_iff] at h
  rcases h with rfl | rfl <;> decide

theorem isBlank_eq_false (c : Char) (h : isSpace c = false) : isBlank c = false :=
  eq_false_of_subclass isSpace_of_isBlank c h

theorem isBlank_eq_false_of_isDigit (c : Char) (h : isDigit c = true) : isBlank c = false :=
  isBlank_eq_false c (isSpace_eq_false_of_isDigit c h)

theorem isNameRest_of_isNameStart (c : Char) (h : isNameStart c = true) :
    isNameRest c = true := by
  unfold isNameStart at h
  unfold isNameRest isAlphanumeric
  rw [Bool.or_eq_true] at h ⊢
  rcases h with hletter | hunderscore
  · exact Or.inl (by rw [hletter, Bool.true_or, Bool.true_or])
  · exact Or.inr hunderscore

theorem isSpace_eq_false_of_isNameRest (c : Char) (h : isNameRest c = true) :
    isSpace c = false := by
  unfold isNameRest at h
  rw [Bool.or_eq_true, decide_eq_true_iff] at h
  rcases h with halphanumeric | rfl
  · exact isSpace_eq_false_of_isAlphanumeric c halphanumeric
  · decide

theorem isBlank_eq_false_of_isNameRest (c : Char) (h : isNameRest c = true) :
    isBlank c = false := isBlank_eq_false c (isSpace_eq_false_of_isNameRest c h)

theorem isNameRest_eq_false_of_isBlank (c : Char) (h : isBlank c = true) :
    isNameRest c = false := eq_false_of_disjoint isBlank_eq_false_of_isNameRest c h

theorem isDigit_eq_false_of_isNameStart (c : Char) (h : isNameStart c = true) :
    isDigit c = false := by
  unfold isNameStart at h
  rw [Bool.or_eq_true, decide_eq_true_iff] at h
  rcases h with hletter | rfl
  · exact isDigit_eq_false_of_isLetter c hletter
  · decide

theorem isNameStart_eq_false_of_isDigit (c : Char) (h : isDigit c = true) :
    isNameStart c = false := eq_false_of_disjoint isDigit_eq_false_of_isNameStart c h

end Settings

end Parsing
