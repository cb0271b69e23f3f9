import Mathlib.Data.List.Infix
import Parsing.Proofs.Consumption
import Parsing.Proofs.Overrides

/-!
Where a state can go. A text is refused unless the input starts with it, and cutting a text in two
changes neither what is refused nor the state that consuming leads to. The states that consuming
leads to are told apart by their inputs, which are the suffixes of the first input, so the input of
a target alone says where reanchoring goes, and the shortest way there is the only one.
-/

namespace Parsing

namespace State

/-- The text cannot be consumed, and the fault says so of this text and this position. -/
def Refuses (s : State) (taken : Text) : Prop := s.consume taken = .error (.notAtFront taken s.pos)

theorem consume_of_isPrefix {s : State} {taken : Text} (h : taken <+: s.input) :
    s.consume taken = .ok ⟨s.input.drop taken.length, s.pos.advance taken⟩ := by
  obtain ⟨rest, hrest⟩ := h
  rw [consume_eq_ok_iff]
  refine ⟨?_, rfl⟩
  rw [← hrest, List.drop_left]

theorem refuses_iff (s : State) (taken : Text) : s.Refuses taken ↔ ¬taken <+: s.input := by
  by_cases h : taken <+: s.input
  · simp [Refuses, consume_of_isPrefix h, h]
  · simp [Refuses, consume_of_not_isPrefix h, h]

theorem consume_or_refuses (s : State) (taken : Text) :
    (∃ t, s.consume taken = .ok t) ∨ s.Refuses taken := by
  by_cases h : taken <+: s.input
  · exact .inl ⟨_, consume_of_isPrefix h⟩
  · exact .inr ((refuses_iff s taken).mpr h)

theorem consume_take (s : State) (n : Nat) :
    s.consume (s.input.take n) = .ok ⟨s.input.drop n, s.pos.advance (s.input.take n)⟩ :=
  (consume_eq_ok_iff s _ _).mpr ⟨(List.take_append_drop n s.input).symm, rfl⟩

theorem takes_append_iff (s t : State) (a b : Text) :
    s.Takes (a ++ b) t ↔ ∃ m, s.Takes a m ∧ m.Takes b t := by
  constructor
  · rintro ⟨hinput, hpos⟩
    refine ⟨⟨b ++ t.input, s.pos.advance a⟩, ⟨?_, rfl⟩, rfl, ?_⟩
    · rw [hinput, List.append_assoc]
    · rw [hpos, Position.advance_append]
  · rintro ⟨m, ha, hb⟩
    exact ha.trans hb

theorem consume_append_eq_ok_iff (s t : State) (a b : Text) :
    s.consume (a ++ b) = .ok t ↔ ∃ m, s.consume a = .ok m ∧ m.consume b = .ok t := by
  simp only [consume_eq_ok_iff, takes_append_iff]

/-- A text that is refused does not match in its first part, or else in its second one. -/
theorem refuses_append_iff (s : State) (a b : Text) :
    s.Refuses (a ++ b) ↔ s.Refuses a ∨ ∃ m, s.consume a = .ok m ∧ m.Refuses b := by
  by_cases ha : a <+: s.input
  · have hsecond : a ++ b <+: s.input ↔ b <+: s.input.drop a.length := by
      obtain ⟨rest, hrest⟩ := ha
      rw [← hrest, List.drop_left, List.prefix_append_right_inj]
    simp [refuses_iff, consume_of_isPrefix ha, ha, hsecond]
  · have hboth : ¬a ++ b <+: s.input := fun h => ha ((List.prefix_append a b).trans h)
    simp [refuses_iff, ha, hboth]

end State

namespace Parser

variable {ω α β : Type}

theorem succeed_eq (value : α) (s : State) (taken : Text) :
    (succeed value s taken : Run ω (Reply α)) =
      ⟨[], (s.consume taken).map (Reply.success value)⟩ := by
  rw [succeed, Run.bind_pure_eq]
  rfl

theorem succeed_eq_pure_iff (value : α) (s t : State) (taken : Text) :
    (succeed value s taken : Run ω (Reply α)) = pure (.success value t) ↔
      s.consume taken = .ok t := by
  rw [succeed_eq, Run.pure_def]
  cases s.consume taken <;> simp [Except.map]

theorem succeed_eq_raise_iff (value : α) (s : State) (taken : Text) (fault : Fault) :
    (succeed value s taken : Run ω (Reply α)) = Run.raise fault ↔
      s.consume taken = .error fault := by
  rw [succeed_eq, Run.raise]
  cases s.consume taken <;> simp [Except.map]

end Parser

namespace State

/-- Cutting a text in two makes no difference to consuming it. It is refused just when one of its
parts is, where that part is to be consumed, and otherwise the state is the same, without as many
characters as both parts have and at the position after both. A text is refused just when the input
does not start with it. Success with a value after a text goes the way of the text. -/
theorem consume_in_parts (s : State) (a b : Text) :
    (s.Refuses (a ++ b) ↔ s.Refuses a ∨ ∃ m, s.consume a = .ok m ∧ m.Refuses b) ∧
    (∀ t, s.consume (a ++ b) = .ok t ↔ ∃ m, s.consume a = .ok m ∧ m.consume b = .ok t) ∧
    (∀ t, s.consume (a ++ b) = .ok t →
      t.input = s.input.drop (a.length + b.length) ∧ t.pos = s.pos.advance (a ++ b)) ∧
    (∀ taken, (s.Refuses taken ↔ ¬taken <+: s.input) ∧
      (taken <+: s.input → ∃ t, s.consume taken = .ok t)) ∧
    (∀ n, ∃ t, s.consume (s.input.take n) = .ok t ∧ s.input.take n ++ t.input = s.input) ∧
    ∀ {ω α β : Type} (u : α) (v : β),
      (∀ taken, (∃ t, (Parser.succeed v s taken : Run ω (Reply β)) = pure (.success v t)) ∨
        (Parser.succeed v s taken : Run ω (Reply β)) = Run.raise (.notAtFront taken s.pos)) ∧
      (∀ t, (Parser.succeed v s (a ++ b) : Run ω (Reply β)) = pure (.success v t) ↔
        ∃ m, (Parser.succeed u s a : Run ω (Reply α)) = pure (.success u m) ∧
          (Parser.succeed v m b : Run ω (Reply β)) = pure (.success v t)) ∧
      ((Parser.succeed v s (a ++ b) : Run ω (Reply β)) =
          Run.raise (.notAtFront (a ++ b) s.pos) ↔
        (Parser.succeed u s a : Run ω (Reply α)) = Run.raise (.notAtFront a s.pos) ∨
        ∃ m, (Parser.succeed u s a : Run ω (Reply α)) = pure (.success u m) ∧
          (Parser.succeed v m b : Run ω (Reply β)) = Run.raise (.notAtFront b m.pos)) := by
  refine ⟨s.refuses_append_iff a b, fun t => s.consume_append_eq_ok_iff t a b, ?_, ?_, ?_, ?_⟩
  · intro t h
    obtain ⟨hinput, hpos⟩ := (consume_eq_ok_iff s t _).mp h
    refine ⟨?_, hpos⟩
    rw [hinput, ← List.length_append, List.drop_left]
  · intro taken
    exact ⟨refuses_iff s taken, fun h => ⟨_, consume_of_isPrefix h⟩⟩
  · intro n
    exact ⟨_, consume_take s n, List.take_append_drop n s.input⟩
  · intro ω α β u v
    simp only [Parser.succeed_eq_pure_iff, Parser.succeed_eq_raise_iff]
    exact ⟨s.consume_or_refuses, fun t => s.consume_append_eq_ok_iff t a b,
      s.refuses_append_iff a b⟩

/-- The input goes its own way inside the second part. -/
theorem consume_in_parts_late :
    let s : State := .ofText ['a', 'b', 'x']
    let m : State := ⟨['x'], ⟨1, 3, 2⟩⟩
    s.consume ['a', 'b'] = .ok m ∧ m.Refuses ['c', 'd'] ∧ s.Refuses ['a', 'b', 'c', 'd'] := by
  intro s m
  have hfirst : s.consume ['a', 'b'] = .ok m := rfl
  have hsecond : m.Refuses ['c', 'd'] := rfl
  obtain ⟨hrefuses, -⟩ := consume_in_parts s ['a', 'b'] ['c', 'd']
  exact ⟨hfirst, hsecond, hrefuses.mpr (.inr ⟨m, hfirst, hsecond⟩)⟩

/-! Reanchoring. -/

theorem Reaches.isSuffix {s t : State} (h : s.Reaches t) : t.input <:+ s.input := by
  obtain ⟨taken, hinput, -⟩ := h
  exact ⟨taken, hinput.symm⟩

/-- What was taken on the way is what the inputs differ by. -/
theorem Reaches.eq_of_input {s t t' : State} (h : s.Reaches t) (h' : s.Reaches t')
    (hinput : t.input = t'.input) : t = t' := by
  obtain ⟨taken, hsource, hpos⟩ := h
  obtain ⟨taken', hsource', hpos'⟩ := h'
  have hboth : taken ++ t.input = taken' ++ t.input := by
    rw [← hsource, hinput, ← hsource']
  have htaken : taken = taken' := List.append_cancel_right hboth
  rw [State.mk.injEq]
  exact ⟨hinput, by rw [hpos, hpos', htaken]⟩

theorem reanchor_of_isSuffix {s target : State} (h : target.input <:+ s.input) :
    ∃ t, s.reanchor target = .ok t ∧ s.Reaches t ∧ t.input = target.input := by
  have hconsume := s.consume_take (s.input.length - target.input.length)
  refine ⟨_, ?_, ⟨_, (consume_eq_ok_iff s _ _).mp hconsume⟩, (List.suffix_iff_eq_drop.mp h).symm⟩
  rw [reanchor, if_pos (List.isSuffixOf_iff_suffix.mpr h)]
  exact hconsume

theorem reanchor_eq_ok_iff (s target t : State) :
    s.reanchor target = .ok t ↔ s.Reaches t ∧ t.input = target.input := by
  constructor
  · intro h
    by_cases hsuffix : target.input <:+ s.input
    · obtain ⟨t', hreanchor, ht'⟩ := reanchor_of_isSuffix hsuffix
      cases hreanchor.symm.trans h
      exact ht'
    · simp [reanchor, hsuffix] at h
  · rintro ⟨hreaches, hinput⟩
    obtain ⟨t', hreanchor, hreaches', hinput'⟩ :=
      reanchor_of_isSuffix (hinput ▸ hreaches.isSuffix)
    rw [hreanchor, hreaches.eq_of_input hreaches' (hinput.trans hinput'.symm)]

theorem reanchor_eq_error_iff (s target : State) (fault : Fault) :
    s.reanchor target = .error fault ↔
      ¬target.input <:+ s.input ∧ fault = .unreachable target.pos s.pos := by
  by_cases h : target.input <:+ s.input
  · obtain ⟨t, hreanchor, -⟩ := reanchor_of_isSuffix h
    simp [hreanchor, h]
  · rw [reanchor, if_neg (by rwa [List.isSuffixOf_iff_suffix])]
    simp [h, eq_comm]

/-- Reanchoring is a fault just when the target's input is no suffix of the input there is, and the
fault is always that one. Otherwise it leads to the one state that consuming some text leads to and
that has the target's input, whatever position the target claims. So a state that consuming has led
to stays as it is, and going to a suffix in two steps is going there in one. -/
theorem reanchor_exactly (a b : State) :
    (∀ fault, a.reanchor b = .error fault ↔
      ¬b.input <:+ a.input ∧ fault = .unreachable b.pos a.pos) ∧
    (b.input <:+ a.input → ∃ t, (∀ pos, a.reanchor ⟨b.input, pos⟩ = .ok t) ∧
      (∃ taken, a.consume taken = .ok t) ∧ t.input = b.input ∧
      ∀ t', (∃ taken, a.consume taken = .ok t') → t'.input = b.input → t' = t) ∧
    (∀ taken, taken <+: a.input → ∃ t, a.consume taken = .ok t ∧ a.reanchor t = .ok t) ∧
    ∀ c : State, b.input <:+ a.input → c.input <:+ b.input →
      ∃ m t, a.reanchor b = .ok m ∧ m.reanchor c = .ok t ∧ a.reanchor c = .ok t := by
  refine ⟨a.reanchor_eq_error_iff b, ?_, ?_, ?_⟩
  · intro h
    obtain ⟨t, -, hreaches, hinput⟩ := reanchor_of_isSuffix h
    have hreach : ∀ t' : State, (∃ taken, a.consume taken = .ok t') ↔ a.Reaches t' :=
      fun t' => exists_congr fun taken => consume_eq_ok_iff a t' taken
    refine ⟨t, ?_, (hreach t).mpr hreaches, hinput, ?_⟩
    · exact fun pos => (a.reanchor_eq_ok_iff ⟨b.input, pos⟩ t).mpr ⟨hreaches, hinput⟩
    · intro t' ht' hinput'
      exact ((hreach t').mp ht').eq_of_input hreaches (hinput'.trans hinput.symm)
  · intro taken h
    have hconsume := consume_of_isPrefix h
    refine ⟨_, hconsume, ?_⟩
    rw [reanchor_eq_ok_iff]
    exact ⟨⟨taken, (consume_eq_ok_iff a _ taken).mp hconsume⟩, rfl⟩
  · intro c hb hc
    obtain ⟨m, ham, hreaches, hinput⟩ := reanchor_of_isSuffix hb
    obtain ⟨t, hmt, hreaches', hinput'⟩ := reanchor_of_isSuffix (hinput ▸ hc)
    refine ⟨m, t, ham, hmt, ?_⟩
    rw [reanchor_eq_ok_iff]
    exact ⟨hreaches.trans hreaches', hinput'⟩

/-- Both halves of the input look like the target, and its length says that the first one goes. -/
theorem reanchor_exactly_periodic :
    let a : State := .ofText ['a', 'b', 'a', 'b']
    let b : State := ⟨['a', 'b'], ⟨7, 7, 7⟩⟩
    let t : State := ⟨['a', 'b'], ⟨1, 3, 2⟩⟩
    b.input <:+ a.input ∧ a.consume ['a', 'b'] = .ok t ∧ a.reanchor b = .ok t := by
  intro a b t
  have hsuffix : b.input <:+ a.input := ⟨['a', 'b'], rfl⟩
  have hconsume : a.consume ['a', 'b'] = .ok t := rfl
  obtain ⟨t', hreanchor, -, -, hunique⟩ := (reanchor_exactly a b).2.1 hsuffix
  have ht : t = t' := hunique t ⟨_, hconsume⟩ rfl
  exact ⟨hsuffix, hconsume, ht ▸ hreanchor b.pos⟩

end State

end Parsing
