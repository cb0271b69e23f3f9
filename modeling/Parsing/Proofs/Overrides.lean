import Parsing.Parser.Combinators
import Parsing.Proofs.Outcomes

/-!
Recorded messages. What a parser replies and what it reports differ in the message of a failure
alone, and for a coherent parser, whose failures come with the recorded message already, they do not
differ at all. A whole text is answered with the report, and a message that was replaced is logged.
-/

namespace Parsing

namespace Run

variable {ω α β : Type}

/-- What follows a run matters only for the value that the run ends with. -/
theorem bind_congr_outcome (x : Run ω α) (f g : α → Run ω β)
    (h : ∀ a, x.outcome = .ok a → f a = g a) : x >>= f = x >>= g := by
  obtain ⟨entries, outcome⟩ := x
  cases outcome with
  | ok a => rw [ok_bind, ok_bind, h a rfl]
  | error fault => rw [error_bind, error_bind]

/-- A function of the value changes neither the records nor a fault. -/
theorem bind_pure_eq (x : Run ω α) (f : α → β) :
    (x >>= fun a => pure (f a)) = ⟨x.entries, x.outcome.map f⟩ := by
  obtain ⟨entries, outcome⟩ := x
  cases outcome with
  | ok a => rw [ok_bind, pure_def, after, List.append_nil]; rfl
  | error fault => rw [error_bind]; rfl

end Run

namespace Reply

variable {ω α β γ : Type}

@[simp]
theorem reworded_none (reply : Reply α) : reply.reworded none = reply := by
  cases reply <;> rfl

/-- A message that is put in last hides the one that was put in before it. -/
@[simp]
theorem reworded_reworded (reply : Reply α) (earlier : Option String) (message : String) :
    (reply.reworded earlier).reworded (some message) = reply.reworded (some message) := by
  cases reply <;> rfl

theorem andThen_success (a : α) (rest : State) (k : α → State → Run ω (Reply β)) :
    (success a rest).andThen k = k a rest := rfl

/-- To go on from a success with that success is to stay. -/
theorem andThen_pure_success (reply : Reply α) :
    reply.andThen (fun a rest => (pure (success a rest) : Run ω (Reply α))) = pure reply := by
  cases reply <;> rfl

theorem bind_andThen_success (x : Run ω (Reply α)) :
    (x >>= fun reply => reply.andThen fun a rest => pure (success a rest)) = x := by
  simp only [andThen_pure_success, bind_pure]

theorem andThen_bind_andThen (reply : Reply α) (f : α → State → Run ω (Reply β))
    (g : β → State → Run ω (Reply γ)) :
    (reply.andThen f >>= fun next => next.andThen g) =
      reply.andThen fun a rest => f a rest >>= fun next => next.andThen g := by
  cases reply with
  | success a rest => rfl
  | failure e => exact pure_bind _ _

theorem andThen_bind_reworded (reply : Reply α) (f : α → State → Run ω (Reply β))
    (message : Option String) :
    (reply.andThen f >>= fun next => pure (next.reworded message)) =
      (reply.reworded message).andThen fun a rest =>
        f a rest >>= fun next => pure (next.reworded message) := by
  cases reply with
  | success a rest => rfl
  | failure e => exact pure_bind _ _

end Reply

namespace Parser

variable {ω α : Type}

/-- Every failure comes with the recorded message, if there is one. -/
def Coherent (p : Parser ω α) : Prop :=
  ∀ s e, (p.parse s).outcome = .ok (.failure e) →
    ∀ message, p.message = some message → e.message = message

theorem coherent_of_message_none (p : Parser ω α) (h : p.message = none) : p.Coherent := by
  intro s e _ message hmessage
  rw [h] at hmessage
  cases hmessage

/-- A message that replaces the one of every failure is recorded as well. -/
theorem coherent_withMessage (p : Parser ω α) (message : String) :
    (p.withMessage message).Coherent := by
  rintro s e hout _ ⟨⟩
  simp only [withMessage, Run.bind_pure_eq] at hout
  generalize (p.parse s).outcome = outcome at hout
  rcases outcome with fault | ⟨a, rest⟩ | e'
  · cases hout
  · cases hout
  · cases hout
    rfl

theorem reported_of_message_none (p : Parser ω α) (h : p.message = none) (s : State) :
    p.reported s = p.parse s := by
  unfold reported
  simp only [h, Reply.reworded_none, bind_pure]

theorem Coherent.reported_eq {p : Parser ω α} (h : p.Coherent) (s : State) :
    p.reported s = p.parse s := by
  calc
    p.reported s = p.parse s >>= pure := by
      apply Run.bind_congr_outcome
      intro reply hout
      cases reply with
      | success a rest => rfl
      | failure e =>
        cases hmessage : p.message with
        | none => rfl
        | some message => rw [← h s e hout message hmessage]; rfl
    _ = p.parse s := bind_pure _

/-- The parser with its recorded message put in, so that none is recorded any more. -/
def settled (p : Parser ω α) : Parser ω α where
  parse := p.reported
  label := p.label

theorem parse_settled (p : Parser ω α) (s : State) : p.settled.parse s = p.reported s := rfl

/-- What `answer` logs about the reply of a parser that records a message. -/
def rewordings (p : Parser ω α) : Except Fault (Reply α) → List (Entry ω)
  | .ok (.failure e) =>
    match p.message with
    | some message => [.line (.reworded p.describe e.pos message e.message)]
    | none => []
  | _ => []

/-- A whole text is answered with the report. The line about a message that was replaced comes after
the records of the parse. -/
theorem answer_eq (p : Parser ω α) (source : Text) :
    p.answer source =
      ⟨(p.reported (.ofText source)).entries ++ p.rewordings (p.parse (.ofText source)).outcome,
        (p.reported (.ofText source)).outcome⟩ := by
  unfold answer reported
  rw [Run.bind_pure_eq]
  obtain ⟨entries, outcome⟩ := p.parse (.ofText source)
  rcases outcome with fault | ⟨a, rest⟩ | e
  · simp only [Run.error_bind, rewordings, List.append_nil]
    rfl
  · simp only [Run.ok_bind, Run.after, Run.pure_def, rewordings]
    rfl
  · cases hmessage : p.message with
    | none =>
      simp only [Run.ok_bind, Run.after, Run.pure_def, rewordings, hmessage]
      rfl
    | some message =>
      simp only [Run.ok_bind, Run.after, Run.pure_def, Run.log, rewordings, hmessage]
      rfl

theorem events_answer (p : Parser ω α) (source : Text) :
    (p.answer source).events = (p.reported (.ofText source)).events := by
  have hlines : ∀ outcome, (Run.mk (p.rewordings outcome) (.ok ())).events = [] := by
    intro outcome
    rcases outcome with fault | ⟨a, rest⟩ | e
    · rfl
    · rfl
    · simp only [rewordings]
      cases p.message <;> rfl
  rw [answer_eq, Run.events, Run.events, List.filterMap_append]
  exact (congrArg _ (hlines _)).trans (List.append_nil _)

end Parser

end Parsing
