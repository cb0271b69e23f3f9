import Mathlib.Data.Nat.Digits.Defs
import Parsing.Proofs.CharacterClasses
import Parsing.Proofs.Records

/-!
The language of settings, apart from any way to parse it. A text is laid out as white space, a
setting, white space, a setting and so on, every white space possibly empty. What is between the
settings, and where one token ends and the next begins, is left open here: a text may be divided in
several ways, and that all of them mean the same document is a theorem about the scanner.
-/

namespace Parsing

namespace Settings

/-- The number that decimal digits of any script write. -/
def numeral (digits : Text) : Nat :=
  Nat.ofDigits 10 (digits.reverse.map fun c => (decimalValue c).getD 0)

def IsSpaces (t : Text) : Prop := ∀ c ∈ t, isSpace c = true

def IsBlanks (t : Text) : Prop := ∀ c ∈ t, c = ' ' ∨ c = '\t'

/-- A letter or an underscore, then letters, digits, other numerals and underscores. -/
def IsName : Text → Prop
  | [] => False
  | c :: rest =>
    (isLetter c = true ∨ c = '_') ∧ ∀ d ∈ rest, isAlphanumeric d = true ∨ d = '_'

/-- The written form of a value and what it means. -/
inductive ValueText : Text → Scalar → Prop
  | quoted (body : Text) (hbody : ∀ c ∈ body, c ≠ '"' ∧ c ≠ '\n') :
      ValueText ('"' :: body ++ ['"']) (.text body)
  | digits (digits : Text) (hne : digits ≠ []) (hdigits : ∀ c ∈ digits, isDecimal c = true) :
      ValueText digits (.number (numeral digits))

/-- The written form of a setting, with the name and the meaning of its value. -/
inductive SettingText : Text → Text → Scalar → Prop
  | mk (name before after written : Text) (value : Scalar) (hname : IsName name)
      (hbefore : IsBlanks before) (hafter : IsBlanks after) (hvalue : ValueText written value) :
      SettingText (name ++ before ++ '=' :: after ++ written) name value

/-- The texts that write down a document, whether or not a name is set twice. -/
inductive Layout : Text → Document → Prop
  | spaces (w : Text) (hw : IsSpaces w) : Layout w []
  | setting (w written t name : Text) (value : Scalar) (doc : Document) (hw : IsSpaces w)
      (hwritten : SettingText written name value) (ht : Layout t doc) :
      Layout (w ++ written ++ t) ((name, value) :: doc)

theorem isBlanks_iff (t : Text) : IsBlanks t ↔ ∀ c ∈ t, isBlank c = true := by
  unfold IsBlanks isBlank
  simp only [Bool.or_eq_true, decide_eq_true_iff]

theorem isName_cons_iff (c : Char) (rest : Text) :
    IsName (c :: rest) ↔ isNameStart c = true ∧ ∀ d ∈ rest, isNameRest d = true := by
  unfold IsName isNameStart isNameRest
  simp only [Bool.or_eq_true, decide_eq_true_iff]

theorem isBlanks_nil : IsBlanks [] := fun c hc => by cases hc

theorem isBlanks_concat (t : Text) (c : Char) (ht : IsBlanks t) (hc : isBlank c = true) :
    IsBlanks (t ++ [c]) := by
  rw [isBlanks_iff] at ht ⊢
  exact List.forall_mem_append.mpr ⟨ht, List.forall_mem_singleton.mpr hc⟩

theorem isName_concat (name : Text) (c : Char) (hname : IsName name)
    (hc : isNameRest c = true) : IsName (name ++ [c]) := by
  cases name with
  | nil => exact hname.elim
  | cons first rest =>
    obtain ⟨hfirst, hrest⟩ := (isName_cons_iff first rest).mp hname
    have hrest' := List.forall_mem_append.mpr ⟨hrest, List.forall_mem_singleton.mpr hc⟩
    exact (isName_cons_iff first (rest ++ [c])).mpr ⟨hfirst, hrest'⟩

theorem isNameRest_of_isName (name : Text) (h : IsName name) :
    ∀ c ∈ name, isNameRest c = true := by
  cases name with
  | nil => exact h.elim
  | cons c rest =>
    obtain ⟨hc, hrest⟩ := (isName_cons_iff c rest).mp h
    exact List.forall_mem_cons.mpr ⟨isNameRest_of_isNameStart c hc, hrest⟩

/-- No white space is part of a name. -/
theorem not_mem_of_isName {name : Text} (h : IsName name) {c : Char} (hc : isSpace c = true) :
    c ∉ name := by
  intro hmem
  have hnot := isSpace_eq_false_of_isNameRest c (isNameRest_of_isName name h c hmem)
  rw [hc] at hnot
  cases hnot

theorem isSpaces_of_isBlanks (t : Text) (h : IsBlanks t) : IsSpaces t :=
  fun c hc => isSpace_of_isBlank c ((isBlanks_iff t).mp h c hc)

theorem isSpaces_append (a b : Text) (ha : IsSpaces a) (hb : IsSpaces b) : IsSpaces (a ++ b) := by
  intro c hc
  rcases List.mem_append.mp hc with h | h
  · exact ha c h
  · exact hb c h

theorem layout_spaces_append (w t : Text) (doc : Document) (hw : IsSpaces w) (ht : Layout t doc) :
    Layout (w ++ t) doc := by
  cases ht with
  | spaces _ ht => exact .spaces _ (isSpaces_append w t hw ht)
  | setting u written t name value doc hu hwritten ht =>
    rw [← List.append_assoc, ← List.append_assoc]
    exact .setting (w ++ u) written t name value doc (isSpaces_append w u hw hu) hwritten ht

theorem layout_append_spaces (t w : Text) (doc : Document) (ht : Layout t doc)
    (hw : IsSpaces w) : Layout (t ++ w) doc := by
  induction ht with
  | spaces u hu => exact .spaces _ (isSpaces_append u w hu hw)
  | setting u written t name value doc hu hwritten ht ih =>
    rw [List.append_assoc (u ++ written)]
    exact .setting u written (t ++ w) name value doc hu hwritten ih

theorem layout_append_setting (t written name : Text) (value : Scalar) (doc : Document)
    (ht : Layout t doc) (hwritten : SettingText written name value) :
    Layout (t ++ written) (doc ++ [(name, value)]) := by
  induction ht with
  | spaces w hw =>
    have h := Layout.setting w written [] name value [] hw hwritten
      (.spaces [] (fun c hc => by cases hc))
    simpa only [List.append_nil, List.nil_append] using h
  | setting u first t name' value' doc hu hfirst ht ih =>
    rw [List.append_assoc (u ++ first)]
    exact .setting u first (t ++ written) name' value' _ hu hfirst ih

/-- Reading digits from the left gives the number that they write. -/
theorem readDecimalFrom_eq (digits : Text) (acc : Nat)
    (h : ∀ c ∈ digits, isDecimal c = true) :
    readDecimalFrom acc digits = some (acc * 10 ^ digits.length + numeral digits) := by
  induction digits generalizing acc with
  | nil => simp [readDecimalFrom, numeral]
  | cons c rest ih =>
    obtain ⟨n, hn⟩ := Option.isSome_iff_exists.mp (h c List.mem_cons_self)
    have hrest := ih (acc * 10 + n) fun d hd => h d (List.mem_cons_of_mem c hd)
    have hnumeral : numeral (c :: rest) = n * 10 ^ rest.length + numeral rest := by
      simp only [numeral, List.reverse_cons, List.map_append, List.map_cons, List.map_nil, hn,
        Option.getD_some, Nat.ofDigits_append, List.length_map, List.length_reverse,
        Nat.ofDigits_singleton]
      rw [Nat.mul_comm (10 ^ rest.length) n, Nat.add_comm]
    simp only [readDecimalFrom, hn, Option.bind_eq_bind, Option.bind_some]
    rw [hrest, hnumeral, List.length_cons, Nat.pow_succ]
    congr 1
    rw [Nat.add_mul, Nat.mul_assoc, Nat.mul_comm 10, Nat.add_assoc]

theorem readDecimal_eq (digits : Text) (h : ∀ c ∈ digits, isDecimal c = true) :
    readDecimal digits = some (numeral digits) := by
  have hread := readDecimalFrom_eq digits 0 h
  simpa only [readDecimal, Nat.zero_mul, Nat.zero_add] using hread

theorem isDecimal_of_readDecimalFrom (digits : Text) (acc n : Nat)
    (h : readDecimalFrom acc digits = some n) : ∀ c ∈ digits, isDecimal c = true := by
  induction digits generalizing acc with
  | nil => exact fun c hc => by cases hc
  | cons c rest ih =>
    cases hc : decimalValue c with
    | none => simp [readDecimalFrom, hc] at h
    | some v =>
      simp only [readDecimalFrom, hc, Option.bind_eq_bind, Option.bind_some] at h
      rw [List.forall_mem_cons]
      exact ⟨by rw [isDecimal, hc, Option.isSome_some], ih (acc * 10 + v) h⟩

/-- Where reading fails there is a first digit without a decimal value. -/
theorem exists_of_readDecimalFrom_none (digits : Text) (acc : Nat)
    (h : readDecimalFrom acc digits = none) :
    ∃ first c rest, digits = first ++ c :: rest ∧ (∀ d ∈ first, isDecimal d = true) ∧
      isDecimal c = false := by
  induction digits generalizing acc with
  | nil => cases h
  | cons c rest ih =>
    cases hc : decimalValue c with
    | none =>
      have hdecimal : isDecimal c = false := by rw [isDecimal, hc, Option.isSome_none]
      exact ⟨[], c, rest, rfl, (fun d hd => by cases hd), hdecimal⟩
    | some n =>
      simp only [readDecimalFrom, hc, Option.bind_eq_bind, Option.bind_some] at h
      obtain ⟨first, d, left, hrest, hfirst, hd⟩ := ih (acc * 10 + n) h
      have hdecimal : isDecimal c = true := by rw [isDecimal, hc, Option.isSome_some]
      refine ⟨c :: first, d, left, by rw [hrest, List.cons_append], ?_, hd⟩
      intro x hx
      rcases List.mem_cons.mp hx with rfl | hx
      · exact hdecimal
      · exact hfirst x hx

end Settings

end Parsing
