import Parsing.Proofs.Coherence
import Parsing.Proofs.Scope

/-!
A message for a sequence is a message for its parts. Whether it is put in once, around a sequence,
or at each parser of the sequence makes no difference to what is replied, answered, recorded and
raised. This holds of every form of sequence, whatever its parsers record as their own messages, and
of scripts of any length.
-/

namespace Parsing

namespace Item

variable {ω α : Type}

/-- What is no parser stays as it is. -/
def withMessage (message : String) : Item ω α → Item ω α
  | parser p => parser (p.withMessage message)
  | stray kind => stray kind

end Item

namespace Ending

variable {ω α : Type}

def withMessage (message : String) : Ending ω α → Ending ω α
  | value a => value a
  | parser p => parser (p.withMessage message)

end Ending

namespace Field

variable {ω ρ β γ : Type}

/-- Puts the message into whatever parser the field is parsed by. -/
def withMessage (message : String) : Field ω ρ β → Field ω ρ β
  | fixed item => fixed (item.withMessage message)
  | chosen choose => chosen fun r => return (← choose r).withMessage message

theorem choice_withMessage (message : String) (field : Field ω ρ β) :
    (field.withMessage message).choice =
      field.choice.map fun choose r => do return (← choose r).withMessage message := by
  cases field with
  | fixed item => cases item <;> rfl
  | chosen choose => rfl

/-- The field added to a parser, unless it is refused. -/
def addTo (field : Field ω ρ β) (p : Parser ω ρ) (key : String) (store : ρ → β → Run ω γ) :
    Except Fault (Parser ω γ) := do
  return p.extend key (← field.choice) store

end Field

namespace Script

variable {ω σ α β : Type}

/-- The script with the message put into every parser that it waits for. -/
def withMessage (message : String) : {α : Type} → Script ω σ α → Script ω σ α
  | _, done a => done a
  | _, act action next => act action fun b => (next b).withMessage message
  | _, await item next => await (item.withMessage message) fun b => (next b).withMessage message
  | _, guarded body cleanup next =>
    guarded (body.withMessage message) cleanup fun b => (next b).withMessage message

end Script

namespace Reply

variable {α : Type}

theorem reworded_success (a : α) (rest : State) (message : Option String) :
    (success a rest).reworded message = success a rest := rfl

end Reply

namespace Parser

variable {ω σ α β γ ρ : Type}

/-- The same reply to every state, and the same answer to every text, up to lines of the log. -/
structure SameResults (p q : Parser ω α) : Prop where
  parse : p.parse = q.parse
  answer : ∀ source, (p.answer source).outcome = (q.answer source).outcome ∧
    (p.answer source).events = (q.answer source).events

theorem sameResults_of_coherent {p q : Parser ω α} (hp : p.Coherent) (hq : q.Coherent)
    (hparse : ∀ s, p.parse s = q.parse s) : p.SameResults q where
  parse := funext hparse
  answer source := by
    rw [hp.outcome_answer, hq.outcome_answer, events_answer, events_answer, hp.reported_eq,
      hq.reported_eq, hparse]
    exact ⟨rfl, rfl⟩

/-- A message hides the one that the parser records. -/
theorem reported_withMessage_eq (p : Parser ω α) (message : String) (s : State) :
    (p.withMessage message).reported s = (p.withMessage message).parse s :=
  (coherent_withMessage p message).reported_eq s

theorem reported_reworded (p : Parser ω α) (message : String) (s : State) :
    (do return (← p.reported s).reworded message : Run ω (Reply α)) =
      (p.withMessage message).parse s := by
  simp only [reported, parse_withMessage, bind_assoc, pure_bind, Reply.reworded_reworded]

/-- A form that goes on from the report of its first parser. -/
theorem withMessage_andThen {p : Parser ω α} {q q' : Parser ω β}
    {k k' : α → State → Run ω (Reply β)} {message : String}
    (hq : ∀ s, q.parse s = (do (← p.reported s).andThen k))
    (hq' : ∀ s, q'.parse s = (do (← (p.withMessage message).reported s).andThen k'))
    (hmessage : q'.message = none)
    (hk : ∀ a rest, (do return (← k a rest).reworded message : Run ω (Reply β)) = k' a rest) :
    (q.withMessage message).SameResults q' := by
  apply sameResults_of_coherent (coherent_withMessage _ _) (coherent_of_message_none _ hmessage)
  intro s
  rw [parse_withMessage, hq, hq', reported_withMessage_eq, ← reported_reworded]
  simp only [bind_assoc, Reply.andThen_bind_reworded, pure_bind, hk]

theorem withMessage_flatMap (p : Parser ω α) (f : α → Run ω (Parser ω β)) (message : String) :
    ((p.flatMap f).withMessage message).SameResults
      ((p.withMessage message).flatMap fun a => return (← f a).withMessage message) := by
  apply withMessage_andThen (parse_flatMap p f) (parse_flatMap _ _) rfl
  intro a rest
  simp only [bind_assoc, pure_bind, parse_withMessage]

theorem withMessage_map (p : Parser ω α) (f : α → Run ω β) (message : String) :
    ((p.map f).withMessage message).SameResults ((p.withMessage message).map f) := by
  apply withMessage_andThen (parse_map p f) (parse_map _ _) rfl
  intro a rest
  simp only [bind_assoc, pure_bind, Reply.reworded_success]

theorem withMessage_transform (p : Parser ω α) (f : α → State → Run ω (β × State))
    (message : String) :
    ((p.transform f).withMessage message).SameResults ((p.withMessage message).transform f) := by
  apply withMessage_andThen (fun _ => rfl) (fun _ => rfl) rfl
  intro a rest
  simp only [bind_assoc, pure_bind, Reply.reworded_success]

theorem withMessage_zip (p : Parser ω α) (q : Parser ω β) (message : String) :
    ((p.zip q).withMessage message).SameResults
      ((p.withMessage message).zip (q.withMessage message)) := by
  apply sameResults_of_coherent (coherent_withMessage _ _) (coherent_of_message_none _ rfl)
  intro s
  simp only [parse_withMessage, parse_zip, bind_assoc, Reply.andThen_bind_reworded, pure_bind,
    Reply.reworded_success]

/-- What is chosen for a field is left alone unless it is a parser. -/
theorem withMessage_extend (p : Parser ω ρ) (key : String) (choose : ρ → Run ω (Item ω β))
    (store : ρ → β → Run ω γ) (message : String) :
    ((p.extend key choose store).withMessage message).SameResults
      ((p.withMessage message).extend key (fun r => return (← choose r).withMessage message)
        store) := by
  apply withMessage_andThen (fun _ => rfl) (fun _ => rfl) rfl
  intro r rest
  simp only [bind_assoc, pure_bind]
  apply congrArg
  funext item
  cases item with
  | stray kind => rfl
  | parser q =>
    simp only [Item.withMessage, parse_withMessage, bind_assoc, Reply.andThen_bind_reworded,
      pure_bind, Reply.reworded_success]

end Parser

theorem Run.attempt_bind_pure {ω α β : Type} (x : Run ω α) (f : α → β) :
    (x >>= fun a => pure (f a)).attempt = x.attempt >>= fun ended => pure (ended.map f) := by
  rw [bind_pure_eq, bind_pure_eq]
  rfl

namespace Script

variable {ω σ α β : Type}

/-- How a script ends, with the message put into its failure if it is one. -/
def rewordEnd (message : String) (ended : σ × Except Fault (Reply α)) :
    σ × Except Fault (Reply α) :=
  (ended.1, ended.2.map (Reply.reworded message))

theorem goOn_reworded (message : String) (locals : σ)
    {next next' : β → State → Run ω (σ × Except Fault (Reply α))} (ended : Except Fault (Reply β))
    (h : ∀ b rest, ended = .ok (.success b rest) →
      next' b rest = next b rest >>= fun last => pure (rewordEnd message last)) :
    goOn locals next' (ended.map (Reply.reworded message)) =
      goOn locals next ended >>= fun last => pure (rewordEnd message last) := by
  rcases ended with fault | ⟨b, rest⟩ | e
  · exact (pure_bind _ _).symm
  · exact h b rest rfl
  · exact (pure_bind _ _).symm

/-- By induction on the script. A failure comes from a step, and the message on record at that step
is hidden by the one that is put in. -/
theorem run_withMessage (message : String) (body : Script ω σ α) (locals : σ) (s : State) :
    (body.withMessage message).run locals s =
      body.run locals s >>= fun ended => pure (rewordEnd message ended) := by
  induction body generalizing locals s with
  | done a => exact (pure_bind _ _).symm
  | act action next ih =>
    rw [withMessage, run, run, bind_assoc]
    apply congrArg
    funext acted
    rcases acted with fault | ⟨b, new⟩
    · exact (pure_bind _ _).symm
    · exact ih b new s
  | await item next ih =>
    cases item with
    | stray kind => exact (pure_bind _ _).symm
    | parser p =>
      rw [withMessage, Item.withMessage, run_await, run_await, Parser.reported_withMessage_eq,
        ← Parser.reported_reworded, Run.attempt_bind_pure, bind_assoc, bind_assoc]
      apply congrArg
      funext ended
      rw [pure_bind]
      exact goOn_reworded message locals ended fun b rest _ => ih b locals rest
  | guarded body cleanup next ihbody ihnext =>
    rw [withMessage, run_guarded, run_guarded, ihbody, bind_assoc, bind_assoc]
    apply congrArg
    funext ended
    obtain ⟨left, ended⟩ := ended
    rw [pure_bind]
    simp only [rewordEnd, bind_assoc]
    apply congrArg
    funext cleaned
    rcases cleaned with fault | ⟨⟩
    · exact (pure_bind _ _).symm
    · exact goOn_reworded message left ended fun b rest _ => ihnext b left rest

end Script

namespace Parser

variable {ω σ α : Type}

/-- The message is put into every parser that the script waits for and into the one that it ends
with. -/
theorem withMessage_ofScript (body : Script ω σ (Ending ω α)) (locals : σ) (message : String) :
    ((ofScript body locals).withMessage message).SameResults
      (ofScript (do return (← body.withMessage message).withMessage message) locals) := by
  apply sameResults_of_coherent (coherent_withMessage _ _) (coherent_of_message_none _ rfl)
  intro s
  rw [parse_withMessage]
  simp only [ofScript, Script.run_bind, Script.run_withMessage, bind_assoc]
  apply congrArg
  funext ended
  obtain ⟨left, ended⟩ := ended
  rcases ended with fault | ⟨_ | _, rest⟩ | e
  · rfl
  · rfl
  · rfl
  · rfl

/-- A message around a sequence and the same message around every parser of it give the same
results. A field that is no parser is refused, or ends the run, in the same way with the message as
without it. -/
theorem withMessage_distributes (message : String) :
    (∀ {α β : Type} (p : Parser ω α) (f : α → Run ω (Parser ω β)),
      ((p.flatMap f).withMessage message).SameResults
        ((p.withMessage message).flatMap fun a => return (← f a).withMessage message)) ∧
    (∀ {α β : Type} (p : Parser ω α) (f : α → Run ω β),
      ((p.map f).withMessage message).SameResults ((p.withMessage message).map f)) ∧
    (∀ {α β : Type} (p : Parser ω α) (q : Parser ω β),
      ((p.zip q).withMessage message).SameResults
        ((p.withMessage message).zip (q.withMessage message))) ∧
    (∀ {ρ β γ : Type} (p : Parser ω ρ) (key : String) (field : Field ω ρ β)
        (store : ρ → β → Run ω γ),
      (∀ fault, field.addTo p key store = .error fault →
        (field.withMessage message).addTo (p.withMessage message) key store = .error fault) ∧
      ∀ q, field.addTo p key store = .ok q → ∃ q',
        (field.withMessage message).addTo (p.withMessage message) key store = .ok q' ∧
          (q.withMessage message).SameResults q') ∧
    (∀ {α β : Type} (p : Parser ω α) (f : α → State → Run ω (β × State)),
      ((p.transform f).withMessage message).SameResults ((p.withMessage message).transform f)) ∧
    ∀ {σ α : Type} (body : Script ω σ (Ending ω α)) (locals : σ),
      ((ofScript body locals).withMessage message).SameResults
        (ofScript (do return (← body.withMessage message).withMessage message) locals) := by
  refine ⟨fun p f => withMessage_flatMap p f message, fun p f => withMessage_map p f message,
    fun p q => withMessage_zip p q message, ?_, fun p f => withMessage_transform p f message,
    fun body locals => withMessage_ofScript body locals message⟩
  intro ρ β γ p key field store
  simp only [Field.addTo, Field.choice_withMessage]
  rcases field.choice with fault | choose
  · exact ⟨fun _ h => h, nofun⟩
  · refine ⟨nofun, ?_⟩
    rintro _ ⟨⟩
    exact ⟨_, rfl, withMessage_extend p key choose store message⟩

/-- A field at the letter y, whose own message is another one, and a field that is no parser. -/
theorem withMessage_distributes_field :
    let p : Parser String (Record String Char) := .emptyRecord
    let store := fun (r : Record String Char) b => (return r.put "key" b : Run String _)
    let letter : Field String (Record String Char) Char :=
      .fixed (.parser ((symbol ['x']).withMessage "no x"))
    let stray : Field String (Record String Char) Char := .fixed (.stray .null)
    ((stray.withMessage "bad").addTo (p.withMessage "bad") "key" store).isOk = false ∧
    ∃ q', (letter.withMessage "bad").addTo (p.withMessage "bad") "key" store = .ok q' ∧
      (q'.answer ['y']).outcome = .ok (.failure ⟨"bad", ["'x'"], {}⟩) := by
  intro p store letter stray
  obtain ⟨-, -, -, hfields, -⟩ := withMessage_distributes (ω := String) "bad"
  obtain ⟨hrefused, -⟩ := hfields p "key" stray store
  obtain ⟨-, hadded⟩ := hfields p "key" letter store
  constructor
  · rw [hrefused (.strayField .null) rfl]
    rfl
  · obtain ⟨q', hq', hsame⟩ := hadded _ rfl
    refine ⟨q', hq', ?_⟩
    rw [← (hsame.answer ['y']).1]
    cbv

end Parser

end Parsing
