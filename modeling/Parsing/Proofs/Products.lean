import Parsing.Proofs.Coherence
import Parsing.Proofs.Replies
import Parsing.Proofs.Sequencing

/-!
Pairs of parsers. To pair parsers is associative up to the grouping of the values, and a parser that
takes nothing and always succeeds adds its value and nothing else, on either side. No recorded
message is put in on the way, so all this is true of any parsers. Callbacks on the two sides can be
put off until both sides have been read. That moves what the first callback records behind the
second parser, and it changes which parsers report under their recorded message, so it is true of
coherent parsers and of what they end with.
-/

namespace Parsing

namespace Parser

variable {ω α β γ δ : Type}

/-- The grouping of three values makes no other difference. -/
theorem zip_assoc (p : Parser ω α) (q : Parser ω β) (r : Parser ω γ) :
    ((p.zip q).zip r).map (fun t => return (t.1.1, t.1.2, t.2)) = p.zip (q.zip r) := by
  have hparse : ∀ s, (((p.zip q).zip r).map fun t => return (t.1.1, t.1.2, t.2)).parse s =
      (p.zip (q.zip r)).parse s := by
    intro s
    rw [parse_map, reported_of_message_none _ rfl]
    simp only [parse_zip, bind_assoc, pure_bind, Reply.andThen_bind_andThen, Reply.andThen_success]
  exact congrArg (Parser.mk · none none) (funext hparse)

theorem parse_zip_result (p : Parser ω α) (b : β) (s : State) :
    (p.zip (result b)).parse s = (do return (← p.parse s).map fun a => (a, b)) := by
  rw [parse_zip]
  apply congrArg
  funext reply
  cases reply <;> rfl

theorem parse_result_zip (b : β) (p : Parser ω α) (s : State) :
    ((result b).zip p).parse s = (do return (← p.parse s).map fun a => (b, a)) := by
  have hresult : (result b : Parser ω β).parse s = pure (.success b s) := rfl
  rw [parse_zip, hresult, pure_bind, Reply.andThen_success]
  apply congrArg
  funext reply
  cases reply <;> rfl

/-- The first callback is run before the second parser. -/
theorem parse_map_zip_map {p : Parser ω α} {q : Parser ω β} (hp : p.Coherent) (hq : q.Coherent)
    (f : α → Run ω γ) (g : β → Run ω δ) (s : State) :
    ((p.map f).zip (q.map g)).parse s = (do
      (← p.parse s).andThen fun a middle => do
        let c ← f a
        (← q.parse middle).andThen fun b rest => return .success (c, ← g b) rest) := by
  simp only [parse_zip, parse_map, hp.reported_eq, hq.reported_eq, bind_assoc, pure_bind,
    Reply.andThen_bind_andThen, Reply.andThen_success]

/-- Both callbacks are run after both parsers. -/
theorem parse_zip_map (p : Parser ω α) (q : Parser ω β) (f : α → Run ω γ) (g : β → Run ω δ)
    (s : State) :
    ((p.zip q).map fun pair => return (← f pair.1, ← g pair.2)).parse s = (do
      (← p.parse s).andThen fun a middle => do
        (← q.parse middle).andThen fun b rest => return .success (← f a, ← g b) rest) := by
  rw [parse_map, reported_of_message_none _ rfl]
  simp only [parse_zip, bind_assoc, pure_bind, Reply.andThen_bind_andThen, Reply.andThen_success]

/-- A callback that does not raise a fault can be put off. -/
theorem outcome_map_zip_map {p : Parser ω α} {q : Parser ω β} (hp : p.Coherent) (hq : q.Coherent)
    {f : α → Run ω γ} (hf : ∀ a, ∃ c, (f a).outcome = .ok c) (g : β → Run ω δ) (s : State) :
    (((p.map f).zip (q.map g)).parse s).outcome =
      (((p.zip q).map fun pair => return (← f pair.1, ← g pair.2)).parse s).outcome := by
  rw [parse_map_zip_map hp hq, parse_zip_map, Run.outcome_bind, Run.outcome_bind]
  congr 1
  funext reply
  cases reply with
  | failure e => rfl
  | success a middle =>
    obtain ⟨c, hc⟩ := hf a
    rw [Reply.andThen_success, Reply.andThen_success, Run.outcome_bind_of_ok hc, Run.outcome_bind,
      Run.outcome_bind]
    congr 1
    funext reply
    cases reply with
    | failure e => rfl
    | success b rest =>
      rw [Reply.andThen_success, Reply.andThen_success, Run.outcome_bind_of_ok hc]

/-- The laws of pairs: associative and with units for all parsers, and natural for coherent ones. -/
theorem zip_laws :
    (∀ (p : Parser ω α) (q : Parser ω β) (r : Parser ω γ),
      ((p.zip q).zip r).map (fun t => return (t.1.1, t.1.2, t.2)) = p.zip (q.zip r)) ∧
    (∀ (p : Parser ω α) (b : β) (s : State),
      (p.zip (result b)).parse s = (do return (← p.parse s).map fun a => (a, b)) ∧
      ((result b).zip p).parse s = (do return (← p.parse s).map fun a => (b, a))) ∧
    ∀ (p : Parser ω α) (q : Parser ω β) (f : α → Run ω γ) (g : β → Run ω δ),
      p.Coherent → q.Coherent → (∀ a, ∃ c, (f a).outcome = .ok c) →
        (∀ s, (((p.map f).zip (q.map g)).parse s).outcome =
          (((p.zip q).map fun pair => return (← f pair.1, ← g pair.2)).parse s).outcome) ∧
        ∀ source, (((p.map f).zip (q.map g)).answer source).outcome =
          (((p.zip q).map fun pair => return (← f pair.1, ← g pair.2)).answer source).outcome := by
  refine ⟨zip_assoc, fun p b s => ⟨parse_zip_result p b s, parse_result_zip b p s⟩, ?_⟩
  intro p q f g hp hq hf
  refine ⟨outcome_map_zip_map hp hq hf g, fun source => ?_⟩
  rw [answer_of_message_none _ rfl, answer_of_message_none _ rfl]
  exact outcome_map_zip_map hp hq hf g (.ofText source)

/-- Two characters under callbacks that record something. Where the second does not come, the first
callback is run in one of the two only. With a message that is only recorded the failures differ. -/
theorem zip_laws_noted :
    let first : Parser Nat Char := symbol ['a']
    let second : Parser Nat Char := (symbol ['b']).withMessage "no b"
    let noted : Parser Nat Char := { first with message := "noted" }
    let count : Char → Run Nat Nat := fun c => do
      Run.note c.toNat
      return c.toNat
    let early (p : Parser Nat Char) := (p.map count).zip (second.map count)
    let late (p : Parser Nat Char) :=
      (p.zip second).map fun pair => return (← count pair.1, ← count pair.2)
    (first.Coherent ∧ second.Coherent ∧ (∀ a, ∃ c, (count a).outcome = .ok c)) ∧
    (∀ s, ((early first).parse s).outcome = ((late first).parse s).outcome) ∧
    ((early first).parse (.ofText ['a', 'x'])).events = [97] ∧
    ((late first).parse (.ofText ['a', 'x'])).events = [] ∧
    ((early noted).parse (.ofText ['x'])).outcome =
      .ok (.failure ⟨"noted", ["'a'"], {}⟩) ∧
    ((late noted).parse (.ofText ['x'])).outcome =
      .ok (.failure ⟨"unexpected 'x'", ["'a'"], {}⟩) := by
  intro first second noted count early late
  have hfirst : first.Coherent := coherent_of_message_none _ rfl
  have hsecond : second.Coherent := coherent_withMessage _ _
  have hcount : ∀ a, ∃ c, (count a).outcome = .ok c := fun a => ⟨a.toNat, rfl⟩
  obtain ⟨-, -, hnatural⟩ := zip_laws (ω := Nat) (α := Char) (β := Char) (γ := Nat) (δ := Nat)
  have hsame := (hnatural first second count count hfirst hsecond hcount).1
  exact ⟨⟨hfirst, hsecond, hcount⟩, hsame, rfl, rfl, rfl, rfl⟩

end Parser

end Parsing
