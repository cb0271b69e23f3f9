import Mathlib.Logic.Function.Iterate
import Parsing.Nesting
import Parsing.Proofs.Composition
import Parsing.Proofs.Overrides
import Parsing.Proofs.Waiting

/-!
Recorded messages are never out of step in a grammar. A message gets on record where it is put into
the parse function as well, so a parser that is built by the operations of the library, from
recognizers without a record, is coherent. Hence it makes no difference which uses of a parser put
its record in: for the same failure all of them show the same message, expectations and position.
-/

namespace Parsing

namespace Run

variable {ω α β : Type}

theorem outcome_andThen_of_failure {x : Run ω (Reply α)} {e : Failure}
    (h : x.outcome = .ok (.failure e)) (k : α → State → Run ω (Reply β)) :
    (x >>= fun reply => reply.andThen k).outcome = .ok (.failure e) := by
  rw [outcome_bind, h]
  rfl

theorem outcome_andThen_of_success {x : Run ω (Reply α)} {a : α} {t : State}
    (h : x.outcome = .ok (.success a t)) (k : α → State → Run ω (Reply β)) :
    (x >>= fun reply => reply.andThen k).outcome = (k a t).outcome := by
  rw [outcome_bind, h]
  rfl

theorem outcome_bind_of_ok {x : Run ω α} {a : α} (h : x.outcome = .ok a) (f : α → Run ω β) :
    (x >>= f).outcome = (f a).outcome := by
  rw [outcome_bind, h]
  rfl

end Run

/-- What the rules of a grammar record does not depend on what they refer to. -/
def Rules.Steady {ω ι : Type} {α : ι → Type} (rules : Rules ω α) : Prop :=
  ∀ refs refs' i, (rules refs i).message = (rules refs' i).message

/-- The parsers that the operations of the library build from recognizers that record no message.
What `map`, `flatMap`, `zip`, `transform`, `extend`, `defer`, `ofScript` and `withMessageFrom` make
records none either, whatever it is made of, and neither does a reference between rules. So cases of
their own are left for what puts a message on record, or keeps the one that is there. -/
inductive Built {ω : Type} : Given ω
  | unrecorded {α : Type} (p : Parser ω α) (h : p.message = none) : Built α p
  | withMessage {α : Type} (p : Parser ω α) (message : String) : Built α (p.withMessage message)
  | named {α : Type} {p : Parser ω α} (label : String) (hp : Built α p) : Built α (p.named label)
  | rule {ι : Type} {α : ι → Type} (rules : Rules ω α) (hsteady : rules.Steady)
      (hrules : ∀ refs : (i : ι) → Parser ω (α i), (∀ i, (refs i).message = none) →
        ∀ i, Built (α i) (rules refs i))
      (i : ι) : Built (α i) (rules.parser i)

namespace Parser

variable {ω α β γ ρ σ : Type}

theorem coherent_named {p : Parser ω α} (hp : p.Coherent) (label : String) :
    (p.named label).Coherent := hp

/-- The depth that a rule is given for its references changes what it does, but not what it
records. -/
theorem coherent_rule {ι : Type} {R : ι → Type} (rules : Rules ω R) (hsteady : rules.Steady)
    (hrules : ∀ refs : (i : ι) → Parser ω (R i), (∀ i, (refs i).message = none) →
      ∀ i, (rules refs i).Coherent) (i : ι) : (rules.parser i).Coherent := by
  intro s e hout message hmessage
  apply hrules _ (fun _ => rfl) i s e hout message
  exact (hsteady _ _ i).trans hmessage

/-- The uses of a parser all end with the failure, wherever they come to the parser in the state. A
script comes to it with cleanups that are due, which end without a fault. -/
structure FailsInEveryUse (p : Parser ω α) (s : State) (e : Failure) : Prop where
  called : (p.parse s).outcome = .ok (.failure e)
  answered : ∀ source, s = .ofText source → (p.answer source).outcome = .ok (.failure e)
  zipped_first : ∀ {β : Type} (q : Parser ω β), ((p.zip q).parse s).outcome = .ok (.failure e)
  zipped_second : ∀ {β : Type} (q : Parser ω β) (s₀ : State) (b : β), q.Succeeds s₀ b s →
    ((q.zip p).parse s₀).outcome = .ok (.failure e)
  awaited : ∀ {σ β : Type} (body : Script ω σ (Ending ω β)) (locals left : σ) (s₀ : State)
    (entries : List (Entry ω)) (due : List (σ → Run ω Unit)),
    body.Waits (.parser p) locals s₀ entries due left s →
      (Script.closing due left).outcome = .ok () →
        ((ofScript body locals).parse s₀).outcome = .ok (.failure e)
  returned : ∀ {σ : Type} (body : Script ω σ (Ending ω α)) (locals left : σ) (s₀ : State),
    body.Succeeds locals s₀ (.parser p, left) s →
      ((ofScript body locals).parse s₀).outcome = .ok (.failure e)
  deferred : ∀ make : Run ω (Parser ω α), make.outcome = .ok p →
    ((defer make).parse s).outcome = .ok (.failure e)
  chosen : ∀ {β : Type} (q : Parser ω β) (f : β → Run ω (Parser ω α)) (s₀ : State) (b : β),
    q.Succeeds s₀ b s → (f b).outcome = .ok p →
      ((q.flatMap f).parse s₀).outcome = .ok (.failure e)
  field : ∀ {ρ γ : Type} (q : Parser ω ρ) (key : String) (choose : ρ → Run ω (Item ω α))
    (store : ρ → α → Run ω γ) (s₀ : State) (r : ρ), q.Succeeds s₀ r s →
      (choose r).outcome = .ok (.parser p) →
        ((q.extend key choose store).parse s₀).outcome = .ok (.failure e)

/-- Putting in the recorded message changes nothing. -/
theorem Coherent.reworded_eq {p : Parser ω α} (hp : p.Coherent) {s : State} {reply : Reply α}
    (h : (p.parse s).outcome = .ok reply) : reply.reworded p.message = reply := by
  cases reply with
  | success a rest => rfl
  | failure e =>
    cases hmessage : p.message with
    | none => rfl
    | some message =>
      rw [← hp s e h message hmessage]
      rfl

theorem Coherent.outcome_answer {p : Parser ω α} (hp : p.Coherent) (source : Text) :
    (p.answer source).outcome = (p.parse (.ofText source)).outcome := by
  rw [answer_eq, hp.reported_eq]

theorem Coherent.failsInEveryUse {p : Parser ω α} (hp : p.Coherent) {s : State} {e : Failure}
    (h : (p.parse s).outcome = .ok (.failure e)) : p.FailsInEveryUse s e where
  called := h
  answered := by
    rintro source rfl
    exact (hp.outcome_answer source).trans h
  zipped_first q := Run.outcome_andThen_of_failure h _
  zipped_second q s₀ b hq :=
    (Run.outcome_andThen_of_success hq _).trans (Run.outcome_andThen_of_failure h _)
  awaited body locals left s₀ entries due hwaits hclosing := by
    have hfails : p.parse s = ⟨(p.parse s).entries, .ok (.failure e)⟩ := Run.ext rfl h
    have hclosing' : Script.closing due left = ⟨(Script.closing due left).entries, .ok ()⟩ :=
      Run.ext rfl hclosing
    have hmessage : e.reworded p.message = e := Reply.failure.inj (hp.reworded_eq h)
    rw [parse_ofScript_of_waits hwaits (.failure hfails) hclosing', hmessage]
    rfl
  returned body locals left s₀ hbody := by
    have hrun : body.run locals s₀ =
        ⟨(body.run locals s₀).entries, .ok (left, .ok (.success (.parser p) s))⟩ :=
      Run.ext rfl hbody
    rw [parse_ofScript_of_run hrun]
    exact h
  deferred make hmake := (Run.outcome_bind_of_ok hmake _).trans h
  chosen q f s₀ b hq hf := by
    have hreported := (reported_eq_success_iff q s₀ b s).mpr hq
    exact (Run.outcome_andThen_of_success hreported _).trans
      ((Run.outcome_bind_of_ok hf _).trans h)
  field q key choose store s₀ r hq hchoose := by
    have hreported := (reported_eq_success_iff q s₀ r s).mpr hq
    exact (Run.outcome_andThen_of_success hreported _).trans
      ((Run.outcome_bind_of_ok hchoose _).trans (Run.outcome_andThen_of_failure h _))

end Parser

variable {ω α : Type}

/-- By induction on how the parser is built. -/
theorem Built.coherent {p : Parser ω α} (hp : Built α p) : p.Coherent := by
  induction hp with
  | unrecorded p h => exact p.coherent_of_message_none h
  | withMessage p message => exact p.coherent_withMessage message
  | named label _ ih => exact Parser.coherent_named ih label
  | rule rules hsteady _ i ih => exact Parser.coherent_rule rules hsteady ih i

/-- Whatever the operations build is coherent: its failures come with the message that it records,
if it records one. So a whole text is answered with what the parser replies, putting the record in
any number of times makes no difference, and a failure is the same in every use of the parser. -/
theorem message_of_built (p : Parser ω α) (hp : Built α p) :
    (∀ s e message, (p.parse s).outcome = .ok (.failure e) → p.message = some message →
      e.message = message) ∧
    (∀ source, (p.answer source).outcome = (p.parse (.ofText source)).outcome ∧
      (p.answer source).events = (p.parse (.ofText source)).events) ∧
    (∀ s reply n, (p.parse s).outcome = .ok reply →
      (Reply.reworded p.message)^[n] reply = reply) ∧
    ∀ s e, (p.parse s).outcome = .ok (.failure e) → p.FailsInEveryUse s e := by
  have hcoherent := hp.coherent
  refine ⟨?_, ?_, ?_, ?_⟩
  · exact fun s e message hout => hcoherent s e hout message
  · intro source
    refine ⟨hcoherent.outcome_answer source, ?_⟩
    rw [Parser.events_answer, hcoherent.reported_eq]
  · exact fun s reply n hout => Function.iterate_fixed (hcoherent.reworded_eq hout) n
  · exact fun s e hout => hcoherent.failsInEveryUse hout

/-- Nested parentheses under a message: a letter that is out of place fails with that message, be it
alone, before another parser or in a script. -/
theorem message_of_built_nested :
    let p : Parser Empty Nat := (Nesting.nested.withMessage "not nested").named "nesting"
    let e : Failure := ⟨"not nested", ["'('", "'x'"], ⟨1, 3, 2⟩⟩
    Built Nat (Nesting.nested : Parser Empty Nat) ∧ Built Nat p ∧
    (p.answer ['(', 'y']).outcome = .ok (.failure e) ∧
    ((p.zip Parser.anyChar).parse (.ofText ['(', 'y'])).outcome = .ok (.failure e) ∧
    ((Parser.ofScript (return .parser p : Script Empty Unit _) ()).parse
      (.ofText ['(', 'y'])).outcome = .ok (.failure e) := by
  intro p e
  have hnested : Built Nat (Nesting.nested : Parser Empty Nat) := by
    apply Built.rule Nesting.rules (fun _ _ _ => rfl)
    exact fun refs _ i => .named _ (.unrecorded _ rfl)
  have hp : Built Nat p := .named _ (.withMessage _ _)
  have hfails : (p.parse (.ofText ['(', 'y'])).outcome = .ok (.failure e) := by cbv
  obtain ⟨-, hanswer, -, huses⟩ := message_of_built p hp
  have h := huses _ e hfails
  exact ⟨hnested, hp, (hanswer _).1.trans hfails, h.zipped_first _, h.returned _ () () _ rfl⟩

end Parsing
