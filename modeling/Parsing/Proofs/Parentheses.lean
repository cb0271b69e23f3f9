import Mathlib.Logic.Function.Iterate
import Parsing.Proofs.Descent
import Parsing.Proofs.Spelling

/-!
Nested parentheses around the letter x, on inputs of any length. The parser follows one reference
for each opening parenthesis that the input starts with and no more, so it always replies. What is
left to do where it comes back from a reference is to close one parenthesis, so a parse is a reply
to what follows the opening parentheses, closed that many times over. It succeeds just on a nest,
with its depth; of everything else it says where it stops being one.
-/

namespace Parsing.Nesting

open Parsing.Parser

/-- So many opening parentheses. -/
def opened (n : Nat) : Text := List.replicate n '('

/-- So many closing parentheses. -/
def closed (n : Nat) : Text := List.replicate n ')'

/-- The nest of the given depth. -/
def nest (n : Nat) : Text := opened n ++ 'x' :: closed n

theorem opened_succ (n : Nat) : opened (n + 1) = '(' :: opened n := List.replicate_succ

theorem closed_succ (n : Nat) : closed (n + 1) = ')' :: closed n := List.replicate_succ

/-- A text starts with some number of a character, after which comes something else. -/
theorem exists_replicate_append (c : Char) (t : Text) :
    ∃ n rest, t = List.replicate n c ++ rest ∧ rest.head? ≠ some c := by
  induction t with
  | nil => exact ⟨0, [], rfl, fun h => by cases h⟩
  | cons d t ih =>
    by_cases hd : d = c
    · subst d
      obtain ⟨n, rest, rfl, hrest⟩ := ih
      exact ⟨n + 1, rest, rfl, hrest⟩
    · exact ⟨0, d :: t, rfl, fun h => hd (Option.some.inj h)⟩

variable {ω : Type}

/-- What is left to do with the reply to the inside of a parenthesis. -/
def close (inside : Run ω (Reply Nat)) : Run ω (Reply Nat) := do
  (← inside).andThen fun n middle => do
    (← (symbol [')']).parse middle).andThen fun _ rest => return .success (n + 1) rest

/-! One descent: the first character decides. -/

theorem parse_within_succ (depth : Nat) (s : State) :
    ((rules : Rules ω fun _ : Unit => Nat).within (depth + 1) ()).parse s = (do
      (← anyChar.parse s).andThen fun c rest =>
        if c = 'x' then return .success 0 rest
        else if c = '(' then close ((rules.within depth ()).parse rest)
        else
          return .failure ⟨"unexpected " ++ quote [c], [quote ['('], quote ['x']], rest.pos⟩) := by
  change (ofScript (nestedScript _) ()).parse s = _
  rw [nestedScript, parse_ofScript_step, reported_of_message_none anyChar rfl]
  congr 1
  funext reply
  congr 1
  funext c rest
  split
  · rfl
  · split
    · rw [parse_ofScript_step, reported_of_message_none _ rfl, parse_defer, pure_bind, close]
      simp only [parse_ofScript_step, reported_of_message_none (symbol [')']) rfl]
      rfl
    · rfl

theorem parse_within_nil (depth : Nat) (pos : Position) :
    ((rules : Rules ω fun _ : Unit => Nat).within (depth + 1) ()).parse ⟨[], pos⟩ =
      pure (.failure ⟨"unexpected end of input", ["any character"], pos⟩) := by
  rw [parse_within_succ]
  rfl

theorem parse_within_x (depth : Nat) (rest : Text) (pos : Position) :
    ((rules : Rules ω fun _ : Unit => Nat).within (depth + 1) ()).parse ⟨'x' :: rest, pos⟩ =
      pure (.success 0 ⟨rest, pos.advance ['x']⟩) := by
  rw [parse_within_succ, parse_anyChar_cons]
  rfl

theorem parse_within_other (depth : Nat) (c : Char) (rest : Text) (pos : Position)
    (hopen : c ≠ '(') (hx : c ≠ 'x') :
    ((rules : Rules ω fun _ : Unit => Nat).within (depth + 1) ()).parse ⟨c :: rest, pos⟩ =
      pure (.failure
        ⟨"unexpected " ++ quote [c], [quote ['('], quote ['x']], pos.advance [c]⟩) := by
  rw [parse_within_succ, parse_anyChar_cons, pure_bind, Reply.andThen_success, if_neg hx,
    if_neg hopen]

/-- A parenthesis opens, and the reply to what it encloses is closed. -/
theorem parse_within_open (depth : Nat) (rest : Text) (pos : Position) :
    ((rules : Rules ω fun _ : Unit => Nat).within (depth + 1) ()).parse ⟨'(' :: rest, pos⟩ =
      close ((rules.within depth ()).parse ⟨rest, pos.advance ['(']⟩) := by
  rw [parse_within_succ, parse_anyChar_cons]
  rfl

/-- A parse descends once for each opening parenthesis and closes as many on the way back. -/
theorem parse_within_opened (depth j : Nat) (rest : Text) (pos : Position) :
    ((rules : Rules ω fun _ : Unit => Nat).within (depth + j) ()).parse ⟨opened j ++ rest, pos⟩ =
      close^[j] ((rules.within depth ()).parse ⟨rest, pos.advance (opened j)⟩) := by
  induction j generalizing pos with
  | zero => rw [opened, List.replicate_zero, Position.advance_nil]; rfl
  | succ j ih =>
    have hpos : pos.advance (opened (j + 1)) = (pos.advance ['(']).advance (opened j) := by
      rw [opened_succ, ← List.singleton_append, Position.advance_append]
    rw [← Nat.add_assoc, opened_succ, List.cons_append, parse_within_open, ih, ← opened_succ, hpos,
      Function.iterate_succ_apply']

/-! The way back. -/

theorem close_failure (e : Failure) :
    close (pure (.failure e) : Run ω (Reply Nat)) = pure (.failure e) := rfl

theorem close_raise (fault : Fault) :
    close (Run.raise fault : Run ω (Reply Nat)) = Run.raise fault := rfl

/-- Parentheses that come are closed one by one. -/
theorem close_closed (i j n : Nat) (rest : Text) (pos : Position) :
    close^[i + j] (pure (.success n ⟨closed i ++ rest, pos⟩) : Run ω (Reply Nat)) =
      close^[j] (pure (.success (n + i) ⟨rest, pos.advance (closed i)⟩)) := by
  induction i generalizing n pos with
  | zero => rw [closed, List.replicate_zero, Position.advance_nil, Nat.zero_add]; rfl
  | succ i ih =>
    have hpos : pos.advance (closed (i + 1)) = (pos.advance [')']).advance (closed i) := by
      rw [closed_succ, ← List.singleton_append, Position.advance_append]
    have hstep : close (pure (.success n ⟨closed (i + 1) ++ rest, pos⟩) : Run ω (Reply Nat)) =
        pure (.success (n + 1) ⟨closed i ++ rest, pos.advance [')']⟩) := by
      rw [closed_succ, List.cons_append, close, pure_bind, Reply.andThen_success,
        parse_symbol_cons]
      rfl
    rw [Nat.add_right_comm, Function.iterate_succ_apply, hstep, ih, hpos, Nat.add_right_comm n 1 i,
      Nat.add_assoc n i 1]

/-- A parenthesis that does not come ends the parse. -/
theorem close_of_head_ne (j n : Nat) (rest : Text) (pos : Position)
    (hrest : rest.head? ≠ some ')') :
    close^[j + 1] (pure (.success n ⟨rest, pos⟩) : Run ω (Reply Nat)) =
      pure (.failure ⟨unexpected (rest.take 1), [quote [')']], pos⟩) := by
  have hstep : close (pure (.success n ⟨rest, pos⟩) : Run ω (Reply Nat)) =
      pure (.failure ⟨unexpected (rest.take 1), [quote [')']], pos⟩) := by
    rw [close, pure_bind, Reply.andThen_success, parse_symbol_of_head_ne hrest]
    rfl
  rw [Function.iterate_succ_apply, hstep, Function.iterate_fixed (close_failure _)]

/-! What the input is, and what is replied to it. -/

/-- How many opening parentheses a text starts with. -/
def leading (t : Text) : Nat := (t.takeWhile (· = '(')).length

theorem leading_opened_append (j : Nat) (rest : Text) (hrest : rest.head? ≠ some '(') :
    leading (opened j ++ rest) = j := by
  induction j with
  | zero =>
    cases rest with
    | nil => rfl
    | cons c rest =>
      have hc : c ≠ '(' := fun h => hrest (congrArg some h)
      simp [leading, opened, hc]
  | succ j ih => simpa [leading, opened_succ] using ih

/-- After so many characters the input from a state stops being a nest, and the failure says how. -/
inductive Breaks (s : State) : Nat → Failure → Prop
  /-- Nothing comes where a nest is to start. -/
  | missing (j : Nat) (hinput : s.input = opened j) :
      Breaks s j ⟨"unexpected end of input", ["any character"], s.pos.advance (opened j)⟩
  /-- No nest starts with the character that comes; the failure is past it. -/
  | other (j : Nat) (c : Char) (rest : Text) (hinput : s.input = opened j ++ c :: rest)
      (hopen : c ≠ '(') (hx : c ≠ 'x') :
      Breaks s (j + 1)
        ⟨"unexpected " ++ quote [c], ["'('", "'x'"], s.pos.advance (opened j ++ [c])⟩
  /-- Fewer parentheses are closed than were opened. -/
  | unclosed (j i : Nat) (rest : Text) (hinput : s.input = opened j ++ 'x' :: closed i ++ rest)
      (hlt : i < j) (hrest : rest.head? ≠ some ')') :
      Breaks s (j + 1 + i)
        ⟨unexpected (rest.take 1), ["')'"], s.pos.advance (opened j ++ 'x' :: closed i)⟩

theorem Breaks.offset_eq {s : State} {k : Nat} {e : Failure} (h : Breaks s k e) :
    e.pos.offset = s.pos.offset + k := by
  cases h <;>
    simp only [Position.advance_offset, opened, closed, List.length_append, List.length_cons,
      List.length_replicate, List.length_nil]
  all_goals omega

/-- The first character after the opening parentheses tells which way to look, and after an x the
number of closing parentheses. -/
theorem takes_nest_or_breaks (s : State) :
    (∃ n t, s.Takes (nest n) t) ∨ ∃ k e, Breaks s k e := by
  obtain ⟨input, pos⟩ := s
  obtain ⟨j, rest, rfl, hrest⟩ := exists_replicate_append '(' input
  cases rest with
  | nil => exact Or.inr ⟨_, _, .missing j (List.append_nil _)⟩
  | cons c rest =>
    have hopen : c ≠ '(' := fun h => hrest (congrArg some h)
    by_cases hx : c = 'x'
    · subst c
      obtain ⟨i, rest, rfl, hclose⟩ := exists_replicate_append ')' rest
      by_cases hlt : i < j
      · refine Or.inr ⟨_, _, .unclosed j i rest ?_ hlt hclose⟩
        rw [List.append_assoc, List.cons_append]
        rfl
      · obtain ⟨more, rfl⟩ := Nat.exists_eq_add_of_le (Nat.not_lt.mp hlt)
        refine Or.inl ⟨j, ⟨closed more ++ rest, pos.advance (nest j)⟩, ?_, rfl⟩
        rw [List.replicate_add, nest, List.append_assoc, List.append_assoc]
        rfl
    · exact Or.inr ⟨_, _, .other j c rest rfl hopen hx⟩

/-- With a reference left for what the opening parentheses enclose, the parse comes back from it. -/
theorem exists_parse_within_opened {depth j : Nat} (hdepth : j < depth) (rest : Text)
    (pos : Position) :
    ∃ left, ((rules : Rules ω fun _ : Unit => Nat).within depth ()).parse ⟨opened j ++ rest, pos⟩ =
      close^[j] ((rules.within (left + 1) ()).parse ⟨rest, pos.advance (opened j)⟩) := by
  obtain ⟨left, rfl⟩ : ∃ left, depth = left + 1 + j := ⟨depth - j - 1, by omega⟩
  exact ⟨left, parse_within_opened (left + 1) j rest pos⟩

/-- A nest is read whatever follows it. -/
theorem parse_within_of_takes {s t : State} {n depth : Nat} (h : s.Takes (nest n) t)
    (hdepth : leading s.input < depth) :
    ((rules : Rules ω fun _ : Unit => Nat).within depth ()).parse s = pure (.success n t) := by
  obtain ⟨input, pos⟩ := s
  obtain ⟨rest, pos'⟩ := t
  obtain ⟨hinput, hpos⟩ := h
  have hnest : nest n ++ rest = opened n ++ 'x' :: (closed n ++ rest) := by
    rw [nest, List.append_assoc, List.cons_append]
  simp only [hnest] at hinput hpos
  subst hinput hpos
  rw [leading_opened_append n _ (by simp)] at hdepth
  obtain ⟨left, hparse⟩ :=
    exists_parse_within_opened (ω := ω) hdepth ('x' :: (closed n ++ rest)) pos
  have hclose := close_closed (ω := ω) n 0 0 rest ((pos.advance (opened n)).advance ['x'])
  rw [hparse, parse_within_x]
  rw [Nat.add_zero, Nat.zero_add, Function.iterate_zero_apply] at hclose
  rw [hclose, ← Position.advance_append, ← Position.advance_append]
  rfl

theorem parse_within_of_breaks {s : State} {k depth : Nat} {e : Failure} (h : Breaks s k e)
    (hdepth : leading s.input < depth) :
    ((rules : Rules ω fun _ : Unit => Nat).within depth ()).parse s = pure (.failure e) := by
  obtain ⟨input, pos⟩ := s
  cases h with
  | missing _ hinput =>
    simp only at hinput
    rw [← List.append_nil (opened k)] at hinput
    subst hinput
    rw [leading_opened_append k [] (by simp)] at hdepth
    obtain ⟨left, hparse⟩ := exists_parse_within_opened (ω := ω) hdepth [] pos
    rw [hparse, parse_within_nil, Function.iterate_fixed (close_failure _)]
  | other j c rest hinput hopen hx =>
    simp only at hinput
    subst hinput
    rw [leading_opened_append j (c :: rest) (by simpa using hopen)] at hdepth
    obtain ⟨left, hparse⟩ := exists_parse_within_opened (ω := ω) hdepth (c :: rest) pos
    rw [hparse, parse_within_other _ c rest _ hopen hx, Function.iterate_fixed (close_failure _),
      ← Position.advance_append]
    rfl
  | unclosed j i rest hinput hlt hrest =>
    have hnest : opened j ++ 'x' :: closed i ++ rest = opened j ++ 'x' :: (closed i ++ rest) := by
      rw [List.append_assoc, List.cons_append]
    simp only [hnest] at hinput
    subst hinput
    rw [leading_opened_append j _ (by simp)] at hdepth
    obtain ⟨left, hparse⟩ :=
      exists_parse_within_opened (ω := ω) hdepth ('x' :: (closed i ++ rest)) pos
    obtain ⟨more, hmore⟩ := Nat.exists_eq_add_of_lt hlt
    rw [Nat.add_assoc] at hmore
    rw [hparse, parse_within_x, hmore, close_closed, close_of_head_ne _ _ _ _ hrest, ← hmore,
      ← Position.advance_append, ← Position.advance_append]
    rfl

theorem parse_within_exhausted {s : State} {depth : Nat} (hdepth : depth ≤ leading s.input) :
    ((rules : Rules ω fun _ : Unit => Nat).within depth ()).parse s = Run.raise .exhausted := by
  obtain ⟨input, pos⟩ := s
  obtain ⟨j, rest, rfl, hrest⟩ := exists_replicate_append '(' input
  have hleading := leading_opened_append j rest hrest
  rw [opened] at hleading
  obtain ⟨more, rfl⟩ := Nat.exists_eq_add_of_le (hleading ▸ hdepth)
  have hparse := parse_within_opened (ω := ω) 0 depth (List.replicate more '(' ++ rest) pos
  rw [Nat.zero_add] at hparse
  rw [List.replicate_add, List.append_assoc]
  exact hparse.trans (Function.iterate_fixed (close_raise _) depth)

theorem leading_le_length (t : Text) : leading t ≤ t.length := (List.takeWhile_prefix _).length_le

/-- The parser of nested parentheses replies to every input. It succeeds on a nest with its depth
and leaves what follows it; every other input stops being a nest at some character, and the failure
is there. The references that a parse follows are as many as there are opening parentheses. -/
theorem nested_recognizes (s : State) :
    (∀ depth, ((rules : Rules ω fun _ : Unit => Nat).within depth ()).parse s =
      if leading s.input < depth then nested.parse s else Run.raise .exhausted) ∧
    (∃ reply, (nested : Parser ω Nat).parse s = pure reply) ∧
    (∀ n t, (nested : Parser ω Nat).parse s = pure (.success n t) ↔ s.Takes (nest n) t) ∧
    (∀ n n' t t', s.Takes (nest n) t → s.Takes (nest n') t' → n = n' ∧ t = t') ∧
    (∀ e, (nested : Parser ω Nat).parse s = pure (.failure e) ↔ ∃ k, Breaks s k e) ∧
    ∀ k e, Breaks s k e → e.pos.offset = s.pos.offset + k := by
  have hdepth : leading s.input < s.input.length + 1 :=
    Nat.lt_succ_of_le (leading_le_length s.input)
  have htakes : ∀ n t, s.Takes (nest n) t → nested.parse s = (pure (.success n t) : Run ω _) :=
    fun n t h => parse_within_of_takes h hdepth
  have hbreaks : ∀ k e, Breaks s k e → nested.parse s = (pure (.failure e) : Run ω _) :=
    fun k e h => parse_within_of_breaks h hdepth
  have hinj : ∀ reply reply', nested.parse s = (pure reply : Run ω _) →
      nested.parse s = (pure reply' : Run ω _) → reply = reply' := by
    intro reply reply' h h'
    simpa [Run.pure_def] using h.symm.trans h'
  refine ⟨fun depth => ?_, ?_, fun n t => ⟨fun hparse => ?_, htakes n t⟩, ?_,
    fun e => ⟨fun hparse => ?_, fun ⟨k, h⟩ => hbreaks k e h⟩, fun k e h => h.offset_eq⟩
  · split
    · rename_i hlt
      rcases takes_nest_or_breaks s with ⟨n, t, h⟩ | ⟨k, e, h⟩
      · rw [htakes n t h, parse_within_of_takes h hlt]
      · rw [hbreaks k e h, parse_within_of_breaks h hlt]
    · rename_i hnot
      exact parse_within_exhausted (Nat.not_lt.mp hnot)
  · rcases takes_nest_or_breaks s with ⟨n, t, h⟩ | ⟨k, e, h⟩
    · exact ⟨_, htakes n t h⟩
    · exact ⟨_, hbreaks k e h⟩
  · rcases takes_nest_or_breaks s with ⟨n', t', h⟩ | ⟨k, e, h⟩
    · cases hinj _ _ hparse (htakes n' t' h)
      exact h
    · cases hinj _ _ hparse (hbreaks k e h)
  · intro n n' t t' h h'
    cases hinj _ _ (htakes n t h) (htakes n' t' h')
    exact ⟨rfl, rfl⟩
  · rcases takes_nest_or_breaks s with ⟨n, t, h⟩ | ⟨k, e', h⟩
    · cases hinj _ _ hparse (htakes n t h)
    · cases hinj _ _ hparse (hbreaks k e' h)
      exact ⟨k, h⟩

/-- Two parentheses in the middle of a text, and two of which one is left open. -/
theorem nested_recognizes_two :
    let s : State := ⟨"((x))y".toList, ⟨3, 7, 20⟩⟩
    let t : State := ⟨['y'], ⟨3, 12, 25⟩⟩
    let s' : State := .ofText "((x)".toList
    let e : Failure := ⟨"unexpected end of input", ["')'"], ⟨1, 5, 4⟩⟩
    (s.Takes (nest 2) t ∧ (nested : Parser Empty Nat).parse s = pure (.success 2 t) ∧
      ∀ n u, s.Takes (nest n) u → n = 2 ∧ u = t) ∧
    Breaks s' 4 e ∧ (nested : Parser Empty Nat).parse s' = pure (.failure e) ∧
      e.pos.offset = s'.pos.offset + 4 := by
  intro s t s' e
  obtain ⟨-, -, hsuccess, hunique, -, -⟩ := nested_recognizes (ω := Empty) s
  obtain ⟨-, -, -, -, hfailure, hoffset⟩ := nested_recognizes (ω := Empty) s'
  have htakes : s.Takes (nest 2) t := ⟨rfl, rfl⟩
  have hbreaks : Breaks s' 4 e := .unclosed 2 1 [] rfl (by decide) (by decide)
  refine ⟨⟨htakes, (hsuccess 2 t).mpr htakes, fun n u h => ?_⟩, hbreaks,
    (hfailure e).mpr ⟨4, hbreaks⟩, hoffset 4 e hbreaks⟩
  exact hunique n 2 u t h htakes

end Parsing.Nesting
