import Parsing.Proofs.Reanchoring
import Parsing.Proofs.Sequencing
import Parsing.Proofs.Successes

/-!
A text taken at once and the same text taken character by character. Both take it where the input
starts with it, and leave the same state. Where the input does not, they fail in different places:
the one where the text was to start, with as much of the input as the text is long, the other past
what the input has in common with the text, at the character that does not come.
-/

namespace Parsing

namespace Text

/-- The texts that both texts start with are the prefixes of `common`. -/
def LongestCommon (common a b : Text) : Prop := ∀ t, t <+: common ↔ t <+: a ∧ t <+: b

theorem longestCommon_nil {d : Char} {rest b : Text} (h : b.head? ≠ some d) :
    LongestCommon [] (d :: rest) b := by
  intro t
  rw [List.prefix_nil]
  constructor
  · rintro rfl
    exact ⟨List.nil_prefix, List.nil_prefix⟩
  · rintro ⟨ha, hb⟩
    cases t with
    | nil => rfl
    | cons c t =>
      obtain ⟨rfl, -⟩ := List.cons_prefix_cons.mp ha
      obtain ⟨left, rfl⟩ := hb
      exact (h rfl).elim

theorem LongestCommon.cons {common a b : Text} (h : LongestCommon common a b) (c : Char) :
    LongestCommon (c :: common) (c :: a) (c :: b) := by
  intro t
  cases t with
  | nil => simp
  | cons d t =>
    simp only [List.cons_prefix_cons, h t]
    tauto

theorem LongestCommon.append {a b : Text} (h : LongestCommon [] a b) (common : Text) :
    LongestCommon common (common ++ a) (common ++ b) := by
  induction common with
  | nil => exact h
  | cons c common ih => exact ih.cons c

/-- A text that the input does not start with goes another way than the input at some character. -/
theorem exists_append_of_not_isPrefix {t input : Text} (h : ¬t <+: input) :
    ∃ common d rest left, t = common ++ d :: rest ∧ input = common ++ left ∧
      left.head? ≠ some d := by
  induction t generalizing input with
  | nil => exact (h List.nil_prefix).elim
  | cons d t ih =>
    by_cases hd : input.head? = some d
    · obtain ⟨input, rfl⟩ := List.head?_eq_some_iff.mp hd
      have hrest : ¬t <+: input := fun ht => h (List.cons_prefix_cons.mpr ⟨rfl, ht⟩)
      obtain ⟨common, d', rest, left, rfl, rfl, hleft⟩ := ih hrest
      exact ⟨d :: common, d', rest, left, rfl, rfl, hleft⟩
    · exact ⟨[], d, t, input, rfl, rfl, hd⟩

end Text

/-- The message of a recognizer that does not find what it takes. -/
def unexpected (found : Text) : String :=
  if found = [] then "unexpected end of input" else "unexpected " ++ quote found

/-- What is found is shown in quotes, so it does not read as the end of the input. -/
theorem unexpected_eq_end_iff (found : Text) :
    unexpected found = "unexpected end of input" ↔ found = [] := by
  constructor
  · intro h
    by_contra hfound
    rw [unexpected, if_neg hfound, ← String.toList_inj] at h
    have hquote : quote found = String.ofList (found.delimiter :: _) := rfl
    rw [String.toList_append, hquote, String.toList_ofList] at h
    have hhead := congrArg (·[11]?) h
    simp only [Text.delimiter] at hhead
    split at hhead <;> simp at hhead
  · rintro rfl
    rfl

/-- Waits for each character of a text in turn and ends with all of them. -/
def Script.spell {ω σ : Type} (t seen : Text) : Script ω σ (Ending ω Text) :=
  stepAll (t.map fun c => Parser.symbol [c]) seen

namespace Parser

variable {ω σ : Type}

def spelled (t : Text) : Parser ω Text := ofScript (Script.spell t []) ()

theorem parse_text_append (t rest : Text) (pos : Position) :
    (text t : Parser ω Text).parse ⟨t ++ rest, pos⟩ = pure (.success t ⟨rest, pos.advance t⟩) := by
  simp only [text, List.isPrefixOf_iff_prefix, List.prefix_append, if_true]
  rw [succeed_eq_pure_iff, State.consume_append]

theorem parse_text_of_not_isPrefix {t input : Text} (h : ¬t <+: input) (pos : Position) :
    (text t : Parser ω Text).parse ⟨input, pos⟩ =
      pure (.failure ⟨unexpected (input.take t.length), [quote t], pos⟩) := by
  simp only [text, List.isPrefixOf_iff_prefix, h, if_false]
  rfl

theorem parse_satisfy_cons {property : Char → Bool} {c : Char} (hc : property c = true)
    (description : String) (rest : Text) (pos : Position) :
    (satisfy property description : Parser ω Char).parse ⟨c :: rest, pos⟩ =
      pure (.success c ⟨rest, pos.advance [c]⟩) := by
  simp only [satisfy, hc, if_true]
  rw [succeed_eq_pure_iff]
  exact State.consume_append [c] rest pos

theorem parse_symbol_cons (c : Char) (rest : Text) (pos : Position) :
    (symbol [c] : Parser ω Char).parse ⟨c :: rest, pos⟩ =
      pure (.success c ⟨rest, pos.advance [c]⟩) :=
  parse_satisfy_cons (decide_eq_true rfl) (quote [c]) rest pos

theorem parse_anyChar_cons (c : Char) (rest : Text) (pos : Position) :
    (anyChar : Parser ω Char).parse ⟨c :: rest, pos⟩ =
      pure (.success c ⟨rest, pos.advance [c]⟩) :=
  parse_satisfy_cons rfl "any character" rest pos

theorem parse_symbol_of_head_ne {d : Char} {input : Text} (h : input.head? ≠ some d)
    (pos : Position) :
    (symbol [d] : Parser ω Char).parse ⟨input, pos⟩ =
      pure (.failure ⟨unexpected (input.take 1), [quote [d]], pos⟩) := by
  cases input with
  | nil => rfl
  | cons c rest =>
    have hne : [c] ≠ [d] := fun heq => h (by rw [List.head?_cons, List.cons.inj heq |>.1])
    simp only [symbol, satisfy, hne, decide_false]
    rfl

/-- Characters that come are left behind one by one. -/
theorem parse_spell_append (before t seen input : Text) (locals : σ) (pos : Position) :
    (ofScript (Script.spell (before ++ t) seen) locals : Parser ω Text).parse
        ⟨before ++ input, pos⟩ =
      (ofScript (Script.spell t (seen ++ before)) locals).parse
        ⟨input, pos.advance before⟩ := by
  induction before generalizing seen pos with
  | nil => rw [List.append_nil, List.nil_append, List.nil_append, Position.advance_nil]
  | cons c before ih =>
    have hreported := reported_of_message_none (symbol [c] : Parser ω Char) rfl
    calc
      (ofScript (Script.spell (c :: before ++ t) seen) locals).parse ⟨c :: before ++ input, pos⟩
        = (ofScript (Script.spell (before ++ t) (seen ++ [c])) locals).parse
            ⟨before ++ input, pos.advance [c]⟩ := by
          rw [Script.spell, List.cons_append, List.map_cons, Script.stepAll, parse_ofScript_step,
            hreported, List.cons_append, parse_symbol_cons, pure_bind]
          rfl
      _ = (ofScript (Script.spell t (seen ++ (c :: before))) locals).parse
            ⟨input, pos.advance (c :: before)⟩ := by
          rw [ih, List.append_assoc, ← Position.advance_append]
          rfl

theorem parse_spelled_append (t rest : Text) (pos : Position) :
    (spelled t : Parser ω Text).parse ⟨t ++ rest, pos⟩ =
      pure (.success t ⟨rest, pos.advance t⟩) := by
  have h := parse_spell_append (ω := ω) t [] [] rest () pos
  rw [List.append_nil] at h
  exact h

theorem parse_spelled_of_head_ne {d : Char} {left : Text} (h : left.head? ≠ some d)
    (common rest : Text) (pos : Position) :
    (spelled (common ++ d :: rest) : Parser ω Text).parse ⟨common ++ left, pos⟩ =
      pure (.failure ⟨unexpected (left.take 1), [quote [d]], pos.advance common⟩) := by
  have hreported := reported_of_message_none (symbol [d] : Parser ω Char) rfl
  rw [spelled, parse_spell_append, Script.spell, List.map_cons, Script.stepAll,
    parse_ofScript_step, hreported, parse_symbol_of_head_ne h, pure_bind]
  rfl

theorem parse_spelled_of_not_isPrefix {t input : Text} (h : ¬t <+: input) (pos : Position) :
    ∃ common d, common.LongestCommon t input ∧ t[common.length]? = some d ∧
      (spelled t : Parser ω Text).parse ⟨input, pos⟩ =
        pure (.failure ⟨unexpected ((input.drop common.length).take 1), [quote [d]],
          pos.advance common⟩) := by
  obtain ⟨common, d, rest, left, rfl, rfl, hleft⟩ := Text.exists_append_of_not_isPrefix h
  refine ⟨common, d, (Text.longestCommon_nil hleft).append common, by simp, ?_⟩
  rw [List.drop_left]
  exact parse_spelled_of_head_ne hleft common rest pos

theorem succeeds_spelled_iff (t : Text) (s : State) (v : Text) (u : State) :
    (spelled t : Parser ω Text).Succeeds s v u ↔ v = t ∧ s.Takes t u := by
  obtain ⟨input, pos⟩ := s
  by_cases h : t <+: input
  · obtain ⟨rest, rfl⟩ := h
    have htext := congrArg Run.outcome (parse_text_append (ω := ω) t rest pos)
    rw [Succeeds, parse_spelled_append, ← succeeds_text_iff (ω := ω), Succeeds, htext]
  · obtain ⟨common, d, -, -, hfails⟩ := parse_spelled_of_not_isPrefix (ω := ω) h pos
    rw [Succeeds, hfails]
    constructor
    · rintro ⟨⟩
    · rintro ⟨-, hinput, -⟩
      exact (h ⟨u.input, hinput.symm⟩).elim

theorem exists_takes_iff (t : Text) (s : State) : (∃ u, s.Takes t u) ↔ t <+: s.input := by
  constructor
  · rintro ⟨u, hinput, -⟩
    exact ⟨u.input, hinput.symm⟩
  · rintro ⟨rest, hrest⟩
    exact ⟨⟨rest, s.pos.advance t⟩, hrest.symm, rfl⟩

/-- Two texts in turn are taken where the one after the other comes. -/
theorem succeeds_zip_text_iff (a b : Text) (s u : State) :
    (∃ v, ((text a : Parser ω Text).zip (text b)).Succeeds s v u) ↔ s.Takes (a ++ b) u := by
  simp only [succeeds_zip_iff, succeeds_text_iff, State.takes_append_iff]
  constructor
  · rintro ⟨_, _, middle, ⟨-, ha⟩, _, ⟨-, hb⟩, -⟩
    exact ⟨middle, ha, hb⟩
  · rintro ⟨middle, ha, hb⟩
    exact ⟨(a, b), a, middle, ⟨rfl, ha⟩, b, ⟨rfl, hb⟩, rfl⟩

/-- A text is taken at once just where it is taken character by character, which is where the input
starts with it, and both lead to the same value and state. Otherwise the one fails where it stands
and shows as much of the input as the text is long, and the other fails past what the input has in
common with the text and expects the next character of the text. To cut a text in two changes
nothing about where it is taken and where that leads. -/
theorem text_agrees_with_spelled (t : Text) (s : State) :
    ((∃ v u, (text t : Parser ω Text).Succeeds s v u) ↔ t <+: s.input) ∧
    ((∃ v u, (spelled t : Parser ω Text).Succeeds s v u) ↔ t <+: s.input) ∧
    (t <+: s.input →
      (text t : Parser ω Text).parse s =
        pure (.success t ⟨s.input.drop t.length, s.pos.advance t⟩) ∧
      (spelled t : Parser ω Text).parse s =
        pure (.success t ⟨s.input.drop t.length, s.pos.advance t⟩)) ∧
    (¬t <+: s.input → ∃ common d,
      common.LongestCommon t s.input ∧ t[common.length]? = some d ∧
      (text t : Parser ω Text).parse s =
        pure (.failure ⟨unexpected (s.input.take t.length), [quote t], s.pos⟩) ∧
      (unexpected (s.input.take t.length) = "unexpected end of input" ↔ s.input = []) ∧
      (spelled t : Parser ω Text).parse s =
        pure (.failure ⟨unexpected ((s.input.drop common.length).take 1), [quote [d]],
          s.pos.advance common⟩)) ∧
    ∀ a b, a ++ b = t → ∀ u,
      (∃ v, ((text a : Parser ω Text).zip (text b)).Succeeds s v u) ↔
        ∃ v, (text t : Parser ω Text).Succeeds s v u := by
  refine ⟨?_, ?_, ?_, ?_, ?_⟩
  · simp only [succeeds_text_iff, exists_and_left, exists_eq_left, exists_takes_iff]
  · simp only [succeeds_spelled_iff, exists_and_left, exists_eq_left, exists_takes_iff]
  · obtain ⟨input, pos⟩ := s
    rintro ⟨rest, rfl⟩
    rw [List.drop_left]
    exact ⟨parse_text_append t rest pos, parse_spelled_append t rest pos⟩
  · intro h
    have hlength : t.length ≠ 0 := by
      rw [Ne, List.length_eq_zero_iff]
      rintro rfl
      exact h List.nil_prefix
    obtain ⟨common, d, hcommon, hd, hspelled⟩ := parse_spelled_of_not_isPrefix (ω := ω) h s.pos
    refine ⟨common, d, hcommon, hd, parse_text_of_not_isPrefix h s.pos, ?_, hspelled⟩
    rw [unexpected_eq_end_iff, List.take_eq_nil_iff]
    exact or_iff_right hlength
  · rintro a b rfl u
    simp only [succeeds_zip_text_iff, succeeds_text_iff, exists_eq_left]

/-- The input ends in the middle of the text, past a newline. -/
theorem text_agrees_with_spelled_midway :
    let t : Text := ['a', '\n', 'b']
    let s : State := .ofText ['a', '\n']
    ¬t <+: s.input ∧
    (text t : Parser Empty Text).parse s =
      ⟨[], .ok (.failure ⟨"unexpected 'a\\n'", ["'a\\nb'"], ⟨1, 1, 0⟩⟩)⟩ ∧
    (spelled t : Parser Empty Text).parse s =
      ⟨[], .ok (.failure ⟨"unexpected end of input", ["'b'"], ⟨2, 1, 2⟩⟩)⟩ := by
  intro t s
  have hstart : ¬t <+: s.input := by decide
  obtain ⟨-, -, -, hrefused, -⟩ := text_agrees_with_spelled (ω := Empty) t s
  obtain ⟨common, d, hcommon, hd, htext, -, hspelled⟩ := hrefused hstart
  have hinput : s.input <+: common := (hcommon s.input).mpr ⟨by decide, List.prefix_refl _⟩
  have hback : common <+: s.input := ((hcommon common).mp (List.prefix_refl _)).2
  obtain rfl : s.input = common := hinput.eq_of_length_le hback.length_le
  cases hd
  refine ⟨hstart, htext.trans ?_, hspelled.trans ?_⟩
  · cbv
  · cbv

end Parser

end Parsing
