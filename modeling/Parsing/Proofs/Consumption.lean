import Mathlib.Data.List.Induction
import Parsing.Parser.Basic

/-!
Taking input off the front. Advancing over a text is advancing over its characters one by one, so
advancing over two texts in turn is advancing over both at once, and the states that consuming
reaches from a state form a preorder. What the input does not start with cannot be consumed.
-/

namespace Parsing

namespace Position

theorem advance_nil (p : Position) : p.advance [] = p := by
  simp [advance]

/-- The last character of a text moves the position that the rest of the text leads to. -/
theorem advance_concat (p : Position) (t : Text) (c : Char) :
    p.advance (t ++ [c]) = (p.advance t).next [c] := by
  by_cases hc : c = '\n'
  · subst c
    have hmem : '\n' ∈ t ++ ['\n'] := by simp
    have hline : Text.lastLine (t ++ ['\n']) = [] := by simp [Text.lastLine]
    by_cases ht : '\n' ∈ t
    · simp [advance, next, ht, hline, Int.add_assoc]
    · have hcount : t.count '\n' = 0 := List.count_eq_zero.mpr ht
      simp [advance, next, ht, hline, hcount, Int.add_assoc]
  · have hne : '\n' ≠ c := Ne.symm hc
    have hline : Text.lastLine (t ++ [c]) = Text.lastLine t ++ [c] := by
      simp [Text.lastLine, hc]
    by_cases ht : '\n' ∈ t
    · simp [advance, next, ht, hc, hline, Int.add_assoc]
    · simp [advance, next, ht, hc, hne, Int.add_assoc]

/-- By induction from the end of the text, where the last newline is looked for. -/
theorem advance_eq_foldl_next (p : Position) (t : Text) :
    p.advance t = t.foldl (fun q c => q.next [c]) p := by
  induction t using List.reverseRecOn with
  | nil => exact advance_nil p
  | append_singleton t c ih =>
    rw [advance_concat, ih, List.foldl_append, List.foldl_cons, List.foldl_nil]

theorem advance_append (p : Position) (a b : Text) :
    p.advance (a ++ b) = (p.advance a).advance b := by
  simp only [advance_eq_foldl_next, List.foldl_append]

/-- One pass over a text, with a count of its newlines and a search for the last of them, does what
advancing by each character in turn does. Texts therefore act on positions: whatever position a
parse starts at, it does not matter where a text is cut. -/
theorem advance_by_characters (p : Position) :
    (∀ t, p.advance t = t.foldl (fun q c => q.next [c]) p) ∧
    ∀ a b, p.advance (a ++ b) = (p.advance a).advance b :=
  ⟨advance_eq_foldl_next p, advance_append p⟩

theorem advance_line (p : Position) (t : Text) : (p.advance t).line = p.line + t.count '\n' := by
  by_cases h : '\n' ∈ t
  · simp only [advance, h, if_true]
  · have hcount : t.count '\n' = 0 := List.count_eq_zero.mpr h
    simp only [advance, h, if_false, hcount, Int.natCast_zero, Int.add_zero]

theorem advance_offset (p : Position) (t : Text) : (p.advance t).offset = p.offset + t.length := by
  unfold advance
  split <;> rfl

end Position

namespace State

/-- Consuming exactly the text leads from the one state to the other. -/
def Takes (s : State) (taken : Text) (t : State) : Prop :=
  s.input = taken ++ t.input ∧ t.pos = s.pos.advance taken

theorem takes_nil (s : State) : s.Takes [] s := ⟨rfl, (Position.advance_nil s.pos).symm⟩

theorem Takes.trans {s t u : State} {a b : Text} (hst : s.Takes a t) (htu : t.Takes b u) :
    s.Takes (a ++ b) u := by
  obtain ⟨hinput, hpos⟩ := hst
  obtain ⟨hinput', hpos'⟩ := htu
  constructor
  · rw [hinput, hinput', List.append_assoc]
  · rw [hpos', hpos, Position.advance_append]

theorem Takes.length_eq {s t : State} {taken : Text} (h : s.Takes taken t) :
    s.input.length = taken.length + t.input.length := by
  rw [h.1, List.length_append]

/-- Consuming some text leads from the one state to the other. -/
def Reaches (s t : State) : Prop := ∃ taken, s.Takes taken t

theorem Reaches.refl (s : State) : s.Reaches s := ⟨[], s.takes_nil⟩

theorem Reaches.trans {s t u : State} (hst : s.Reaches t) (htu : t.Reaches u) : s.Reaches u := by
  obtain ⟨a, ha⟩ := hst
  obtain ⟨b, hb⟩ := htu
  exact ⟨a ++ b, ha.trans hb⟩

/-- What the input starts with can be consumed. -/
theorem consume_append (taken rest : Text) (pos : Position) :
    State.consume ⟨taken ++ rest, pos⟩ taken = .ok ⟨rest, pos.advance taken⟩ := by
  by_cases h : taken = []
  · subst taken
    simp [consume, Position.advance_nil]
  · simp [consume, h]

theorem consume_of_not_isPrefix {s : State} {taken : Text} (h : ¬taken <+: s.input) :
    s.consume taken = .error (.notAtFront taken s.pos) := by
  have hne : taken ≠ [] := by
    rintro rfl
    exact h List.nil_prefix
  simp [consume, hne, h]

theorem consume_eq_ok_iff (s t : State) (taken : Text) :
    s.consume taken = .ok t ↔ s.Takes taken t := by
  obtain ⟨input, pos⟩ := s
  obtain ⟨rest, pos'⟩ := t
  constructor
  · intro h
    by_cases hp : taken <+: input
    · obtain ⟨left, rfl⟩ := hp
      rw [consume_append] at h
      cases h
      exact ⟨rfl, rfl⟩
    · rw [consume_of_not_isPrefix hp] at h
      cases h
  · rintro ⟨hinput, hpos⟩
    simp only at hinput hpos
    rw [hinput, hpos]
    exact consume_append taken rest pos

end State

end Parsing
