import Parsing.Parser.Character
import Parsing.Proofs.Overrides

/-!
The laws of `map` and `flatMap`, for all callbacks and with records and faults included. Taking
nothing and succeeding is a left unit; on the right it puts the recorded message in. To bracket a
chain of `flatMap` the other way puts in the message of the parser in the middle too, so the two
ways are the same for coherent parsers and differ in the message of a failure for others.
-/

namespace Parsing

namespace Parser

variable {ω α β γ : Type}

/-- A value taken from nowhere is a left unit. -/
theorem parse_result_flatMap (a : α) (f : α → Run ω (Parser ω β)) (s : State) :
    ((result a).flatMap f).parse s = (do (← f a).parse s) := by
  rw [parse_flatMap, reported_of_message_none (result a) rfl]
  exact pure_bind _ _

theorem parse_flatMap_result (m : Parser ω α) (s : State) :
    (m.flatMap fun a => return result a).parse s = m.reported s := by
  simp only [parse_flatMap, pure_bind]
  exact Reply.bind_andThen_success (m.reported s)

theorem parse_map_pure (m : Parser ω α) (s : State) :
    (m.map fun a => return a).parse s = m.reported s := by
  simp only [parse_map, pure_bind]
  exact Reply.bind_andThen_success (m.reported s)

/-- A parser that replies what `m` reports answers as `m` does, without the line of `m`. -/
theorem answer_of_parse_eq_reported (p m : Parser ω α) (hmessage : p.message = none)
    (hparse : ∀ s, p.parse s = m.reported s) (source : Text) :
    (p.answer source).outcome = (m.answer source).outcome ∧
    (m.answer source).entries =
      (p.answer source).entries ++ m.rewordings (m.parse (.ofText source)).outcome := by
  have hnone : ∀ outcome, p.rewordings outcome = [] := by
    intro outcome
    rcases outcome with fault | ⟨a, rest⟩ | e
    · rfl
    · rfl
    · simp only [rewordings, hmessage]
  rw [answer_eq, answer_eq, reported_of_message_none p hmessage, hparse, hnone, List.append_nil]
  exact ⟨rfl, rfl⟩

theorem map_map (m : Parser ω α) (f : α → Run ω β) (g : β → Run ω γ) :
    (m.map f).map g = m.map (fun a => do g (← f a)) := by
  have hparse : ∀ s, ((m.map f).map g).parse s = (m.map fun a => do g (← f a)).parse s := by
    intro s
    rw [parse_map, reported_of_message_none (m.map f) rfl]
    simp only [parse_map, bind_assoc, Reply.andThen_bind_andThen, pure_bind]
    rfl
  exact congrArg (Parser.mk · m.label none) (funext hparse)

theorem map_eq_flatMap (m : Parser ω α) (f : α → Run ω β) :
    m.map f = m.flatMap fun a => return result (← f a) := by
  have hparse : ∀ s, (m.map f).parse s = (m.flatMap fun a => return result (← f a)).parse s := by
    intro s
    simp only [parse_map, parse_flatMap, bind_assoc, pure_bind]
    rfl
  exact congrArg (Parser.mk · m.label none) (funext hparse)

/-- Two steps after the first, bracketed to the left: the reply of the middle parser counts. -/
theorem parse_flatMap_flatMap (m : Parser ω α) (f : α → Run ω (Parser ω β))
    (g : β → Run ω (Parser ω γ)) (s : State) :
    ((m.flatMap f).flatMap g).parse s = (do
      (← m.reported s).andThen fun a middle => do
        let q ← f a
        (← q.parse middle).andThen fun b rest => do (← g b).parse rest) := by
  rw [parse_flatMap, reported_of_message_none (m.flatMap f) rfl]
  simp only [parse_flatMap, bind_assoc, Reply.andThen_bind_andThen]

/-- Bracketed to the right the report of the middle parser counts. -/
theorem flatMap_flatMap (m : Parser ω α) (f : α → Run ω (Parser ω β))
    (g : β → Run ω (Parser ω γ)) :
    (m.flatMap fun a => return (← f a).flatMap g) =
      (m.flatMap fun a => return (← f a).settled).flatMap g := by
  have hparse : ∀ s, (m.flatMap fun a => return (← f a).flatMap g).parse s =
      ((m.flatMap fun a => return (← f a).settled).flatMap g).parse s := by
    intro s
    rw [parse_flatMap_flatMap]
    simp only [parse_flatMap, parse_settled, bind_assoc, pure_bind]
  exact congrArg (Parser.mk · m.label none) (funext hparse)

theorem flatMap_assoc (m : Parser ω α) (f : α → Run ω (Parser ω β)) (g : β → Run ω (Parser ω γ))
    (hf : ∀ a q, (f a).outcome = .ok q → q.Coherent) :
    (m.flatMap f).flatMap g = m.flatMap fun a => return (← f a).flatMap g := by
  have hparse : ∀ s, ((m.flatMap f).flatMap g).parse s =
      (m.flatMap fun a => return (← f a).flatMap g).parse s := by
    intro s
    rw [flatMap_flatMap, parse_flatMap_flatMap, parse_flatMap_flatMap]
    simp only [bind_assoc, pure_bind]
    apply congrArg
    funext reply
    congr 1
    funext a middle
    apply Run.bind_congr_outcome
    intro q hq
    rw [parse_settled, (hf a q hq).reported_eq]
  exact congrArg (Parser.mk · m.label none) (funext hparse)

/-- Under one message no difference is left. -/
theorem withMessage_flatMap_flatMap (m : Parser ω α) (f : α → Run ω (Parser ω β))
    (g : β → Run ω (Parser ω γ)) (message : String) :
    ((m.flatMap f).flatMap g).withMessage message =
      (m.flatMap fun a => return (← f a).flatMap g).withMessage message := by
  have hparse : ∀ s, (((m.flatMap f).flatMap g).withMessage message).parse s =
      ((m.flatMap fun a => return (← f a).flatMap g).withMessage message).parse s := by
    intro s
    simp only [flatMap_flatMap, parse_withMessage, parse_flatMap_flatMap, parse_settled, reported,
      bind_assoc, pure_bind, Reply.andThen_bind_reworded, Reply.reworded_reworded]
  exact congrArg (Parser.mk · m.label (some message)) (funext hparse)

/-- The laws of a monad, for everything that can be seen of a run. For any middle parser the two
bracketings differ at most in the message of a failure, and by no more than the recorded message of
that parser; for a coherent one they are equal. -/
theorem flatMap_laws :
    (∀ (a : α) (f : α → Run ω (Parser ω β)) (s : State),
      ((result a).flatMap f).parse s = (do (← f a).parse s)) ∧
    (∀ (m : Parser ω α) (s : State),
      (m.flatMap fun a => return result a).parse s = m.reported s ∧
      (m.map fun a => return a).parse s = m.reported s) ∧
    (∀ (m : Parser ω α) (source : Text),
      (m.answer source).outcome = ((m.flatMap fun a => return result a).answer source).outcome ∧
      (m.answer source).outcome = ((m.map fun a => return a).answer source).outcome ∧
      (m.answer source).entries =
        ((m.flatMap fun a => return result a).answer source).entries ++
          m.rewordings (m.parse (.ofText source)).outcome ∧
      (m.answer source).entries =
        ((m.map fun a => return a).answer source).entries ++
          m.rewordings (m.parse (.ofText source)).outcome) ∧
    (∀ (m : Parser ω α) (f : α → Run ω β) (g : β → Run ω γ),
      (m.map f).map g = (m.map fun a => do g (← f a)) ∧
      m.map f = m.flatMap fun a => return result (← f a)) ∧
    (∀ (m : Parser ω α) (f : α → Run ω (Parser ω β)) (g : β → Run ω (Parser ω γ)),
      ((∀ a q, (f a).outcome = .ok q → q.Coherent) →
        (m.flatMap f).flatMap g = m.flatMap fun a => return (← f a).flatMap g) ∧
      (m.flatMap fun a => return (← f a).flatMap g) =
        (m.flatMap fun a => return (← f a).settled).flatMap g ∧
      ∀ message, ((m.flatMap f).flatMap g).withMessage message =
        (m.flatMap fun a => return (← f a).flatMap g).withMessage message) ∧
    ∀ (p : Parser ω α) (message : String), (p.withMessage message).Coherent := by
  refine ⟨parse_result_flatMap, ?_, ?_, ?_, ?_, coherent_withMessage⟩
  · exact fun m s => ⟨parse_flatMap_result m s, parse_map_pure m s⟩
  · intro m source
    have hbind := answer_of_parse_eq_reported _ m rfl (parse_flatMap_result m) source
    have hmap := answer_of_parse_eq_reported _ m rfl (parse_map_pure m) source
    exact ⟨hbind.1.symm, hmap.1.symm, hbind.2, hmap.2⟩
  · exact fun m f g => ⟨map_map m f g, map_eq_flatMap m f⟩
  · intro m f g
    refine ⟨flatMap_assoc m f g, flatMap_flatMap m f g, ?_⟩
    exact withMessage_flatMap_flatMap m f g

/-- The same character twice. With a message that replaces the one of the second character the two
bracketings are equal; with one that is only recorded their messages differ. -/
theorem flatMap_laws_twice :
    let again : Char → Parser Empty Text := fun c => (text [c]).withMessage "not the same"
    let noted : Char → Parser Empty Text := fun c => { text [c] with message := "not the same" }
    let count : Text → Run Empty (Parser Empty Nat) := fun t => return result t.length
    (∀ a q, (pure (again a) : Run Empty (Parser Empty Text)).outcome = .ok q → q.Coherent) ∧
    ((anyChar.flatMap fun c => return again c).flatMap count =
      anyChar.flatMap fun c => do return (← pure (again c)).flatMap count) ∧
    (((anyChar.flatMap fun c => return noted c).flatMap count).parse (.ofText ['a', 'b'])).outcome =
      .ok (.failure ⟨"unexpected 'b'", ["'a'"], ⟨1, 2, 1⟩⟩) ∧
    ((anyChar.flatMap fun c => return (noted c).flatMap count).parse (.ofText ['a', 'b'])).outcome =
      .ok (.failure ⟨"not the same", ["'a'"], ⟨1, 2, 1⟩⟩) := by
  intro again noted count
  have hcoherent : ∀ a q, (pure (again a) : Run Empty (Parser Empty Text)).outcome = .ok q →
      q.Coherent := by
    rintro a _ ⟨⟩
    exact coherent_withMessage _ _
  obtain ⟨-, -, -, -, hassoc, -⟩ := flatMap_laws (ω := Empty) (α := Char) (β := Text) (γ := Nat)
  exact ⟨hcoherent, (hassoc anyChar (fun c => return again c) count).1 hcoherent, rfl, rfl⟩

end Parser

end Parsing
