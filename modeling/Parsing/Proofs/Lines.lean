import Mathlib.Data.List.TakeWhile
import Parsing.Failure
import Parsing.Proofs.Consumption

/-!
Lines of a text, looked at in two ways: as the pieces between newlines, and as what stands around an
offset. A position that has been advanced from the start of a text counts the newlines behind it,
and so gives the number of the piece that the offset falls in; its column is the distance from the
start of that piece.
-/

namespace Parsing

namespace Text

theorem return_not_mem_translated (t : Text) : '\r' ∉ t.translated := by
  fun_induction translated t with
  | case1 => exact List.not_mem_nil
  | case2 rest ih | case3 rest _ ih =>
    exact List.not_mem_cons_of_ne_of_not_mem (by decide) ih
  | case4 c rest hpair hreturn ih =>
    exact List.not_mem_cons_of_ne_of_not_mem (fun heq => hreturn heq.symm) ih

/-- Reading a file changes nothing but the carriage returns. -/
theorem translated_eq_self_iff (t : Text) : t.translated = t ↔ '\r' ∉ t := by
  constructor
  · intro h
    rw [← h]
    exact return_not_mem_translated t
  · intro h
    fun_induction translated t with
    | case1 => rfl
    | case2 | case3 => exact (h List.mem_cons_self).elim
    | case4 c rest _ _ ih => rw [ih fun hmem => h (List.mem_cons_of_mem c hmem)]

theorem lines_ne_nil (t : Text) : t.lines ≠ [] := by
  cases t with
  | nil => exact List.cons_ne_nil _ _
  | cons c rest =>
    unfold lines
    split
    · exact List.cons_ne_nil _ _
    · split <;> exact List.cons_ne_nil _ _

/-- A newline divides the lines of a text, too. -/
theorem lines_append_newline (a b : Text) : lines (a ++ '\n' :: b) = a.lines ++ b.lines := by
  induction a with
  | nil => rfl
  | cons c rest ih =>
    by_cases hc : c = '\n'
    · simp only [List.cons_append, lines, hc, if_true, ih]
    · obtain ⟨line, others, hlines⟩ := List.exists_cons_of_ne_nil (lines_ne_nil rest)
      simp only [List.cons_append, lines, hc, if_false, ih, hlines]

theorem lines_of_newline_not_mem (t : Text) (h : '\n' ∉ t) : t.lines = [t] := by
  induction t with
  | nil => rfl
  | cons c rest ih =>
    have hc : c ≠ '\n' := fun heq => h (heq ▸ List.mem_cons_self)
    have hrest : '\n' ∉ rest := fun hmem => h (List.mem_cons_of_mem c hmem)
    simp only [lines, hc, if_false, ih hrest]

theorem length_lines (t : Text) : t.lines.length = t.count '\n' + 1 := by
  induction t with
  | nil => rfl
  | cons c rest ih =>
    by_cases hc : c = '\n'
    · subst c
      simp only [lines, if_true, List.length_cons, ih, List.count_cons_self]
    · obtain ⟨line, others, hlines⟩ := List.exists_cons_of_ne_nil (lines_ne_nil rest)
      rw [List.count_cons_of_ne hc, ← ih]
      simp only [lines, hc, if_false, hlines, List.length_cons]

/-- The lines of a text that goes on where a line starts. -/
theorem exists_lines_append (a b : Text) (ha : a = [] ∨ a.getLast? = some '\n') :
    ∃ earlier, lines (a ++ b) = earlier ++ b.lines ∧ earlier.length = a.count '\n' := by
  rcases ha with rfl | hlast
  · exact ⟨[], rfl, rfl⟩
  · obtain ⟨front, rfl⟩ := List.getLast?_eq_some_iff.mp hlast
    refine ⟨lines front, ?_, ?_⟩
    · rw [List.append_assoc]
      exact lines_append_newline front b
    · rw [length_lines, List.count_append, List.count_singleton_self]

/-- A line has as many lines before it as there are newlines. -/
theorem lines_getElem? (before line after : Text)
    (hbefore : before = [] ∨ before.getLast? = some '\n')
    (hafter : after = [] ∨ after.head? = some '\n') (hline : '\n' ∉ line) :
    (lines (before ++ line ++ after))[before.count '\n']? = some line := by
  obtain ⟨earlier, hlines, hlength⟩ := exists_lines_append before (line ++ after) hbefore
  have hlater : ∃ later, lines (line ++ after) = line :: later := by
    rcases hafter with rfl | hhead
    · rw [List.append_nil, lines_of_newline_not_mem line hline]
      exact ⟨[], rfl⟩
    · obtain ⟨rest, rfl⟩ := List.head?_eq_some_iff.mp hhead
      rw [lines_append_newline, lines_of_newline_not_mem line hline]
      exact ⟨lines rest, rfl⟩
  obtain ⟨later, hlater⟩ := hlater
  rw [List.append_assoc, hlines, hlater, ← hlength, List.getElem?_append_right (Nat.le_refl _),
    Nat.sub_self]
  rfl

/-- The part of a text before its first newline. -/
def firstLine (t : Text) : Text := t.takeWhile (· ≠ '\n')

theorem newline_not_mem_firstLine (t : Text) : '\n' ∉ t.firstLine := by
  intro h
  have hne := List.mem_takeWhile_imp (p := fun c : Char => decide (c ≠ '\n')) h
  exact absurd rfl (of_decide_eq_true hne)

/-- What stands after the first line. -/
theorem exists_firstLine_append (t : Text) :
    ∃ after, t = t.firstLine ++ after ∧ (after = [] ∨ after.head? = some '\n') := by
  refine ⟨t.dropWhile (· ≠ '\n'), List.takeWhile_append_dropWhile.symm, ?_⟩
  have hhead := List.head?_dropWhile_not (fun c : Char => decide (c ≠ '\n')) t
  cases hrest : t.dropWhile (· ≠ '\n') with
  | nil => exact Or.inl rfl
  | cons c rest =>
    rw [hrest] at hhead
    exact Or.inr (congrArg some (by simpa using hhead))

theorem lastLine_eq_reverse (t : Text) : t.lastLine = (firstLine t.reverse).reverse := rfl

theorem newline_not_mem_lastLine (t : Text) : '\n' ∉ t.lastLine := by
  rw [lastLine_eq_reverse, List.mem_reverse]
  exact newline_not_mem_firstLine t.reverse

/-- What stands before the last line. -/
theorem exists_append_lastLine (t : Text) :
    ∃ before, t = before ++ t.lastLine ∧ (before = [] ∨ before.getLast? = some '\n') := by
  obtain ⟨after, ht, hafter⟩ := exists_firstLine_append t.reverse
  refine ⟨after.reverse, ?_, ?_⟩
  · rw [lastLine_eq_reverse, ← List.reverse_append, ← ht, List.reverse_reverse]
  · rw [List.reverse_eq_nil_iff, List.getLast?_reverse]
    exact hafter

theorem lastLine_of_newline_not_mem (t : Text) (h : '\n' ∉ t) : t.lastLine = t := by
  obtain ⟨before, ht, hnil | hlast⟩ := exists_append_lastLine t
  · rw [hnil, List.nil_append] at ht
    exact ht.symm
  · have hmem : '\n' ∈ before := List.mem_of_getLast? hlast
    exact (h (ht ▸ List.mem_append_left _ hmem)).elim

end Text

/-- From the start of a text, the line counts its newlines and the column its last line. -/
theorem Position.advance_start (t : Text) :
    Position.advance {} t = ⟨t.count '\n' + 1, t.lastLine.length + 1, t.length⟩ := by
  by_cases h : '\n' ∈ t
  · simp only [advance, h, if_true, Int.zero_add, Int.add_comm 1]
  · have hcount : t.count '\n' = 0 := List.count_eq_zero.mpr h
    simp only [advance, h, if_false, hcount, Text.lastLine_of_newline_not_mem t h, Int.zero_add,
      Int.add_comm 1, Int.natCast_zero]

/-- The line that the offset `k` of a source falls in, cut there. It starts after the last newline
before that offset, and ends before the first newline from there on. -/
structure LineAt (source : Text) (k : Nat) where
  before : Text
  left : Text
  right : Text
  after : Text
  source_eq : source = before ++ (left ++ right) ++ after
  offset_eq : (before ++ left).length = k
  starts : before = [] ∨ before.getLast? = some '\n'
  ends : after = [] ∨ after.head? = some '\n'
  newline_not_mem : '\n' ∉ left ++ right

namespace LineAt

variable {source : Text} {k : Nat}

/-- The whole line. -/
def line (cut : LineAt source k) : Text := cut.left ++ cut.right

/-- What has been taken of a source leads to an offset in a line, and to the position there. -/
theorem exists_of_append (taken rest : Text) :
    ∃ cut : LineAt (taken ++ rest) taken.length,
      Position.advance {} taken =
        ⟨cut.before.count '\n' + 1, cut.left.length + 1, taken.length⟩ := by
  obtain ⟨before, htaken, hbefore⟩ := taken.exists_append_lastLine
  obtain ⟨after, hrest, hafter⟩ := Text.exists_firstLine_append rest
  have hsource : taken ++ rest = before ++ (taken.lastLine ++ Text.firstLine rest) ++ after := by
    rw [← List.append_assoc before, ← htaken, List.append_assoc, ← hrest]
  have hline : '\n' ∉ taken.lastLine ++ Text.firstLine rest := by
    rw [List.mem_append, not_or]
    exact ⟨taken.newline_not_mem_lastLine, Text.newline_not_mem_firstLine rest⟩
  have hcount : taken.count '\n' = before.count '\n' := by
    calc
      taken.count '\n' = (before ++ taken.lastLine).count '\n' := congrArg _ htaken
      _ = before.count '\n' + taken.lastLine.count '\n' := List.count_append
      _ = before.count '\n' := by
        rw [List.count_eq_zero.mpr taken.newline_not_mem_lastLine, Nat.add_zero]
  refine ⟨⟨before, _, _, after, hsource, by rw [← htaken], hbefore, hafter, hline⟩, ?_⟩
  rw [Position.advance_start, hcount]

theorem le_length (cut : LineAt source k) : k ≤ source.length := by
  have hsource := congrArg List.length cut.source_eq
  have hoffset := cut.offset_eq
  simp only [List.length_append] at hsource hoffset
  omega

theorem getElem?_lines (cut : LineAt source k) :
    source.lines[cut.before.count '\n']? = some cut.line := by
  have h := Text.lines_getElem? _ _ _ cut.starts cut.ends cut.newline_not_mem
  rwa [← cut.source_eq] at h

theorem getElem?_eq (cut : LineAt source k) : source[k]? = (cut.right ++ cut.after).head? := by
  have hsource : source = (cut.before ++ cut.left) ++ (cut.right ++ cut.after) := by
    rw [List.append_assoc cut.before, ← List.append_assoc cut.left, ← List.append_assoc cut.before]
    exact cut.source_eq
  calc
    source[k]? = ((cut.before ++ cut.left) ++ (cut.right ++ cut.after))[k]? :=
      congrArg (·[k]?) hsource
    _ = (cut.right ++ cut.after)[0]? := by
      rw [List.getElem?_append_right (Nat.le_of_eq cut.offset_eq), cut.offset_eq, Nat.sub_self]
    _ = (cut.right ++ cut.after).head? := List.head?_eq_getElem?.symm

/-- The offset is past the line just when the source ends there or a newline is there. -/
theorem length_left_eq_iff (cut : LineAt source k) :
    cut.left.length = cut.line.length ↔ k = source.length ∨ source[k]? = some '\n' := by
  have hend : k = source.length ↔ source[k]? = none := by
    rw [List.getElem?_eq_none_iff]
    exact ⟨fun h => Nat.le_of_eq h.symm, fun h => Nat.le_antisymm cut.le_length h⟩
  rw [hend, line, List.length_append, cut.getElem?_eq]
  cases hright : cut.right with
  | nil =>
    have hnone : cut.after.head? = none ∨ cut.after.head? = some '\n' :=
      cut.ends.imp_left List.head?_eq_none_iff.mpr
    simpa using hnone
  | cons c rest =>
    have hc : c ≠ '\n' := by
      rintro rfl
      apply cut.newline_not_mem
      rw [hright]
      exact List.mem_append_right _ List.mem_cons_self
    simpa using hc

/-- Inside the line the character at the offset is the one after the left part. -/
theorem getElem?_line (cut : LineAt source k) (h : cut.left.length < cut.line.length) :
    cut.line[cut.left.length]? = source[k]? := by
  have hne : cut.right ≠ [] := by
    intro hnil
    rw [line, hnil, List.append_nil] at h
    exact Nat.lt_irrefl _ h
  obtain ⟨c, rest, hright⟩ := List.exists_cons_of_ne_nil hne
  rw [cut.getElem?_eq, line, hright, List.getElem?_append_right (Nat.le_refl _), Nat.sub_self]
  rfl

end LineAt

end Parsing
