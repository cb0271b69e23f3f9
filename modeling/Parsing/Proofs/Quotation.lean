import Mathlib.Tactic.IntervalCases
import Parsing.Text.Quoted

/-!
Quoted texts. What a character is written as tells the character, whatever follows it: a backslash
starts everything that does not stand for itself, and the character after it tells what is meant and
how many hexadecimal digits belong to it. So the quoted form of a text tells the text, although
there are two quotes and three widths to choose from. It is made of printable characters alone, so
it stays on one line.
-/

namespace Parsing.Text

/-! Hexadecimal digits. -/

def hexDigitValue (c : Char) : Nat := if c.toNat < 0x3a then c.toNat - 0x30 else c.toNat - 0x57

def hexValue (digits : Text) : Nat := digits.foldl (fun n c => 16 * n + hexDigitValue c) 0

theorem hexDigitValue_digitChar (n : Nat) (h : n < 16) : hexDigitValue (Nat.digitChar n) = n := by
  interval_cases n <;> rfl

theorem length_hexDigits (width n : Nat) : (hexDigits width n).length = width := by
  induction width generalizing n with
  | zero => rfl
  | succ width ih => rw [hexDigits, List.length_append, ih, List.length_singleton]

theorem hexValue_hexDigits (width n : Nat) (h : n < 16 ^ width) :
    hexValue (hexDigits width n) = n := by
  induction width generalizing n with
  | zero => exact (Nat.lt_one_iff.mp h).symm
  | succ width ih =>
    have hrest : n / 16 < 16 ^ width := by
      rw [Nat.pow_succ] at h
      omega
    have hlast := hexDigitValue_digitChar (n % 16) (Nat.mod_lt n (by decide))
    have hfront := ih (n / 16) hrest
    rw [hexValue] at hfront ⊢
    rw [hexDigits, List.foldl_append, hfront, List.foldl_cons, List.foldl_nil, hlast]
    omega

/-! Characters between quotes. -/

/-- The character that a text between quotes starts with. -/
def unescape : Text → Char
  | '\\' :: mark :: rest =>
    if mark = 'n' then '\n'
    else if mark = 'r' then '\r'
    else if mark = 't' then '\t'
    else if mark = 'x' then Char.ofNat (hexValue (rest.take 2))
    else if mark = 'u' then Char.ofNat (hexValue (rest.take 4))
    else if mark = 'U' then Char.ofNat (hexValue (rest.take 8))
    else mark
  | c :: _ => c
  | [] => default

theorem delimiter_eq (t : Text) : t.delimiter = '\'' ∨ t.delimiter = '"' := by
  unfold delimiter
  split
  · exact Or.inr rfl
  · exact Or.inl rfl

theorem unescape_of_ne (c : Char) (rest : Text) (h : c ≠ '\\') : unescape (c :: rest) = c := by
  unfold unescape
  split
  · rename_i heq
    exact (h (List.cons.inj heq).1).elim
  · rename_i heq
    exact (List.cons.inj heq).1.symm
  · rename_i heq
    cases heq

theorem ofNat_hexValue (width : Nat) (c : Char) (rest : Text) (h : c.toNat < 16 ^ width) :
    Char.ofNat (hexValue ((hexDigits width c.toNat ++ rest).take width)) = c := by
  rw [List.take_left' (length_hexDigits width c.toNat), hexValue_hexDigits width _ h,
    Char.ofNat_toNat]

theorem toNat_lt_pow (c : Char) : c.toNat < 16 ^ 8 := by
  have hvalid := c.valid
  simp only [UInt32.isValidChar, Nat.isValidChar] at hvalid
  rw [Char.toNat]
  omega

/-- A code point is marked with a letter that tells how many digits it has. -/
theorem exists_codePointEscape_eq (c : Char) :
    ∃ mark width, codePointEscape c = '\\' :: mark :: hexDigits width c.toNat ∧
      isPrintable mark = true ∧ c.toNat < 16 ^ width ∧
      ∀ t, unescape ('\\' :: mark :: t) = Char.ofNat (hexValue (t.take width)) := by
  unfold codePointEscape
  split
  · rename_i h
    exact ⟨'x', 2, rfl, by decide, h, fun _ => rfl⟩
  · split
    · rename_i h
      exact ⟨'u', 4, rfl, by decide, h, fun _ => rfl⟩
    · exact ⟨'U', 8, rfl, by decide, toNat_lt_pow c, fun _ => rfl⟩

theorem unescape_codePointEscape (c : Char) (rest : Text) :
    unescape (codePointEscape c ++ rest) = c := by
  obtain ⟨mark, width, heq, -, hlt, hread⟩ := exists_codePointEscape_eq c
  rw [heq, List.cons_append, List.cons_append, hread, ofNat_hexValue width c rest hlt]

/-- A character is written with a mark of its own, as it is, or as its code point. -/
theorem escape_cases (quote c : Char) (hquote : quote = '\'' ∨ quote = '"') :
    (∃ mark, escape quote c = ['\\', mark] ∧ isPrintable mark = true ∧
      ∀ t, unescape ('\\' :: mark :: t) = c) ∨
    (escape quote c = [c] ∧ isPrintable c = true ∧ c ≠ '\\') ∨
    escape quote c = codePointEscape c := by
  by_cases hmarked : c = quote ∨ c = '\\'
  · refine Or.inl ⟨c, by rw [escape, if_pos hmarked], ?_⟩
    rcases hmarked with rfl | rfl
    · rcases hquote with rfl | rfl <;> exact ⟨by decide, fun _ => rfl⟩
    · exact ⟨by decide, fun _ => rfl⟩
  · rw [escape, if_neg hmarked]
    by_cases hnewline : c = '\n'
    · exact Or.inl ⟨'n', by rw [if_pos hnewline], by decide, fun _ => hnewline.symm⟩
    · by_cases hreturn : c = '\r'
      · refine Or.inl ⟨'r', ?_, by decide, fun _ => hreturn.symm⟩
        rw [if_neg hnewline, if_pos hreturn]
      · by_cases htab : c = '\t'
        · refine Or.inl ⟨'t', ?_, by decide, fun _ => htab.symm⟩
          rw [if_neg hnewline, if_neg hreturn, if_pos htab]
        · rw [if_neg hnewline, if_neg hreturn, if_neg htab]
          cases hprintable : isPrintable c with
          | true => exact Or.inr (Or.inl ⟨rfl, rfl, fun h => hmarked (Or.inr h)⟩)
          | false => exact Or.inr (Or.inr rfl)

/-- A character is read back from what it is written as. -/
theorem unescape_escape (quote c : Char) (hquote : quote = '\'' ∨ quote = '"') (rest : Text) :
    unescape (escape quote c ++ rest) = c := by
  rcases escape_cases quote c hquote with ⟨mark, heq, -, hread⟩ | ⟨heq, -, hne⟩ | heq
  · rw [heq]
    exact hread rest
  · rw [heq]
    exact unescape_of_ne c rest hne
  · rw [heq, unescape_codePointEscape]

theorem escape_ne_nil (quote c : Char) (hquote : quote = '\'' ∨ quote = '"') :
    escape quote c ≠ [] := by
  obtain ⟨mark, width, hcode, -⟩ := exists_codePointEscape_eq c
  rcases escape_cases quote c hquote with ⟨mark, heq, -⟩ | ⟨heq, -⟩ | heq
  · rw [heq]
    exact List.cons_ne_nil _ _
  · rw [heq]
    exact List.cons_ne_nil _ _
  · rw [heq, hcode]
    exact List.cons_ne_nil _ _

/-- Characters that are written one after another are read back one after another. -/
theorem flatMap_escape_inj (quote : Char) (hquote : quote = '\'' ∨ quote = '"') (t u : Text)
    (h : t.flatMap (escape quote) = u.flatMap (escape quote)) : t = u := by
  induction t generalizing u with
  | nil =>
    cases u with
    | nil => rfl
    | cons d u =>
      have hnil := (List.append_eq_nil_iff.mp h.symm).1
      exact (escape_ne_nil quote d hquote hnil).elim
  | cons c t ih =>
    cases u with
    | nil =>
      have hnil := (List.append_eq_nil_iff.mp h).1
      exact (escape_ne_nil quote c hquote hnil).elim
    | cons d u =>
      rw [List.flatMap_cons, List.flatMap_cons] at h
      obtain rfl : c = d := by
        rw [← unescape_escape quote c hquote (t.flatMap (escape quote)), h,
          unescape_escape quote d hquote]
      rw [ih u (List.append_cancel_left h)]

/-- No two texts are quoted alike. -/
theorem quoted_injective : Function.Injective quoted := by
  intro t u h
  obtain ⟨hquote, hbody⟩ := List.cons.inj h
  rw [← hquote] at hbody
  exact flatMap_escape_inj t.delimiter (delimiter_eq t) t u (List.append_cancel_right hbody)

theorem mem_hexDigits {width n : Nat} {c : Char} (h : c ∈ hexDigits width n) :
    ∃ d < 16, c = Nat.digitChar d := by
  induction width generalizing n with
  | zero => cases h
  | succ width ih =>
    rw [hexDigits, List.mem_append, List.mem_singleton] at h
    rcases h with h | rfl
    · exact ih h
    · exact ⟨n % 16, Nat.mod_lt n (by decide), rfl⟩

theorem isPrintable_of_mem_hexDigits {width n : Nat} {c : Char} (h : c ∈ hexDigits width n) :
    isPrintable c = true := by
  obtain ⟨d, hd, rfl⟩ := mem_hexDigits h
  interval_cases d <;> decide

theorem isPrintable_of_mem_escape (quote c : Char) (hquote : quote = '\'' ∨ quote = '"') :
    ∀ d ∈ escape quote c, isPrintable d = true := by
  have hbackslash : isPrintable '\\' = true := by decide
  rcases escape_cases quote c hquote with ⟨mark, heq, hmark, -⟩ | ⟨heq, hprintable, -⟩ | heq
  · rw [heq, List.forall_mem_cons, List.forall_mem_singleton]
    exact ⟨hbackslash, hmark⟩
  · rw [heq]
    exact List.forall_mem_singleton.mpr hprintable
  · obtain ⟨mark, width, hcode, hmark, -⟩ := exists_codePointEscape_eq c
    rw [heq, hcode, List.forall_mem_cons, List.forall_mem_cons]
    exact ⟨hbackslash, hmark, fun d hd => isPrintable_of_mem_hexDigits hd⟩

theorem isPrintable_of_mem_quoted (t : Text) : ∀ d ∈ t.quoted, isPrintable d = true := by
  have hdelimiter : isPrintable t.delimiter = true := by
    rcases delimiter_eq t with h | h <;> rw [h] <;> decide
  rw [quoted, List.cons_append, List.forall_mem_cons, List.forall_mem_append,
    List.forall_mem_singleton]
  refine ⟨hdelimiter, fun d hd => ?_, hdelimiter⟩
  obtain ⟨c, -, hd⟩ := List.mem_flatMap.mp hd
  exact isPrintable_of_mem_escape t.delimiter c (delimiter_eq t) d hd

theorem newline_not_mem_quoted (t : Text) : '\n' ∉ t.quoted := by
  intro h
  have hprintable := isPrintable_of_mem_quoted t '\n' h
  have hnot : isPrintable '\n' = false := by decide
  rw [hnot] at hprintable
  cases hprintable

end Parsing.Text
