import Parsing.Nesting
import Parsing.Proofs.Successes

/-!
What grammars are made of. `Composed` is the closure of some given parsers under the recognizers and
combinators, scripts and recursive rules included. Callbacks are arbitrary: only what they give for
values that the parser before them gives has to be composed again. A property that every
construction preserves therefore holds of every grammar, by one induction.
-/

namespace Parsing

/-- A property of parsers of any type of value, read as the parsers that a grammar is given. -/
abbrev Given (ω : Type) := (α : Type) → Parser ω α → Prop

/-- What a grammar may use besides the parsers that it is given. -/
structure Kit (ω : Type) where
  /-- Whether it may take longest runs of characters, which look at the character after them. -/
  spans : Prop
  /-- The ways in which it may change value and state together. -/
  transforms : {α β : Type} → (α → State → Run ω (β × State)) → Prop
  /-- The ways in which it may compute messages. -/
  rewords : (Failure → Run ω String) → Prop
  /-- The faults that its callbacks may end with. -/
  raises : Fault → Prop

/-- No spans, no transformed states, no computed messages, and no callback that raises. -/
def Kit.plain (ω : Type) : Kit ω where
  spans := False
  transforms _ := False
  rewords _ := False
  raises _ := False

def Given.none (ω : Type) : Given ω := fun _ _ => False

/-- The references among the rules of a grammar. -/
inductive Reference {ω ι : Type} {α : ι → Type} (refs : (i : ι) → Parser ω (α i)) : Given ω
  | mk (i : ι) : Reference refs (α i) (refs i)

/-- What holds of the given parsers and of every reference holds of both together. -/
theorem Reference.of_given_or {ω ι : Type} {α : ι → Type} {refs : (i : ι) → Parser ω (α i)}
    {given : Given ω} (property : Given ω) (hgiven : ∀ β q, given β q → property β q)
    (hrefs : ∀ i, property (α i) (refs i)) :
    ∀ β q, given β q ∨ Reference refs β q → property β q := by
  intro β q h
  rcases h with hq | ⟨⟨i⟩⟩
  · exact hgiven β q hq
  · exact hrefs i

namespace Script

variable {ω σ : Type}

/-- However the steps of a script reply, every parser that it waits for is in `steps`, no action or
cleanup ends with a fault outside `raises`, and its value and the last local variables are in
`ends`. Steps reply with values that they give on some input. -/
def Uses (steps : Given ω) (raises : Fault → Prop) :
    {α : Type} → Script ω σ α → σ → (α → σ → Prop) → Prop
  | _, done a, locals, ends => ends a locals
  | _, act action next, locals, ends =>
    (action locals).RaisesOnly raises ∧
      ∀ b new, (action locals).outcome = .ok (b, new) → (next b).Uses steps raises new ends
  | _, await (.stray _) _, _, _ => True
  | _, await (.parser p) next, locals, ends =>
    steps _ p ∧ ∀ b, p.Gives b → (next b).Uses steps raises locals ends
  | _, guarded body cleanup next, locals, ends =>
    (∀ left, (cleanup left).RaisesOnly raises) ∧
      body.Uses steps raises locals fun b left => (next b).Uses steps raises left ends

variable {α β : Type} (steps : Given ω) (raises : Fault → Prop) (locals : σ)

theorem uses_bind (body : Script ω σ α) (f : α → Script ω σ β) (ends : β → σ → Prop) :
    (body >>= f).Uses steps raises locals ends ↔
      body.Uses steps raises locals fun a left => (f a).Uses steps raises left ends := by
  change (body.andThen f).Uses steps raises locals ends ↔ _
  induction body generalizing locals with
  | done a => rfl
  | act action next ih => simp only [andThen, Uses, ih]
  | await item next ih =>
    cases item with
    | stray kind => simp only [andThen, Uses]
    | parser p => simp only [andThen, Uses, ih]
  | guarded body cleanup next ihbody ihnext => simp only [andThen, Uses, ihnext]

theorem uses_pure (a : α) (ends : α → σ → Prop) :
    (pure a : Script ω σ α).Uses steps raises locals ends ↔ ends a locals := Iff.rfl

theorem uses_step (p : Parser ω α) (ends : α → σ → Prop) :
    (step p : Script ω σ α).Uses steps raises locals ends ↔
      steps α p ∧ ∀ b, p.Gives b → ends b locals := Iff.rfl

variable {steps raises}

/-- A success of a script ends as the uses of the script say. -/
theorem ends_of_succeeds (body : Script ω σ α) (ends : α → σ → Prop)
    (huses : body.Uses steps raises locals ends) (s : State) (ended : α × σ) (t : State)
    (h : body.Succeeds locals s ended t) : ends ended.1 ended.2 := by
  induction body generalizing locals s t with
  | done a =>
    obtain ⟨rfl, -⟩ := (succeeds_done_iff _ _ _ _ _).mp h
    exact huses
  | act action next ih =>
    obtain ⟨⟨b, new⟩, hout, hnext⟩ := (succeeds_act_iff _ _ _ _ _ _).mp h
    exact ih b new ends (huses.2 b new hout) s ended t hnext
  | await item next ih =>
    cases item with
    | stray kind => exact (not_succeeds_await_stray _ _ _ _ _ _ h).elim
    | parser p =>
      obtain ⟨b, middle, hstep, hnext⟩ := (succeeds_await_iff _ _ _ _ _ _).mp h
      exact ih b locals ends (huses.2 b hstep.gives) middle ended t hnext
  | guarded body cleanup next ihbody ihnext =>
    obtain ⟨left, middle, hbody, -, hnext⟩ := (succeeds_guarded_iff _ _ _ _ _ _ _).mp h
    have hends := ihbody locals _ huses.2 s left middle hbody
    exact ihnext left.1 left.2 ends hends middle ended t hnext

end Script

open Parsing.Parser in
/-- The grammars over the given parsers, by how they are built. -/
inductive Composed {ω : Type} (kit : Kit ω) : Given ω → (α : Type) → Parser ω α → Prop
  | given {given : Given ω} {α : Type} (p : Parser ω α) (hp : given α p) :
      Composed kit given α p
  | result {given : Given ω} {α : Type} (a : α) : Composed kit given α (.result a)
  | fail {given : Given ω} {α : Type} (message : String) (expected : List String) :
      Composed kit given α (.fail message expected)
  | satisfy {given : Given ω} (property : Char → Bool) (description : String) :
      Composed kit given Char (.satisfy property description)
  | text {given : Given ω} (t : Text) : Composed kit given Text (.text t)
  | span {given : Given ω} (property : Char → Bool) (hspan : kit.spans) :
      Composed kit given Text (.span property)
  | trace {given : Given ω} (label : String) : Composed kit given Unit (.trace label)
  /-- What is no parser can be run, which is a fault. -/
  | stray {given : Given ω} {α : Type} (kind : Kind) :
      Composed kit given α (Item.stray kind).toParser
  | named {given : Given ω} {α : Type} {p : Parser ω α} (label : String)
      (hp : Composed kit given α p) : Composed kit given α (p.named label)
  | withMessage {given : Given ω} {α : Type} {p : Parser ω α} (message : String)
      (hp : Composed kit given α p) : Composed kit given α (p.withMessage message)
  | withMessageFrom {given : Given ω} {α : Type} {p : Parser ω α} (f : Failure → Run ω String)
      (hp : Composed kit given α p) (hf : kit.rewords f)
      (hraises : ∀ e, (f e).RaisesOnly kit.raises) :
      Composed kit given α (p.withMessageFrom f)
  | map {given : Given ω} {α β : Type} {p : Parser ω α} (f : α → Run ω β)
      (hp : Composed kit given α p) (hraises : ∀ a, p.Gives a → (f a).RaisesOnly kit.raises) :
      Composed kit given β (p.map f)
  | flatMap {given : Given ω} {α β : Type} {p : Parser ω α} (f : α → Run ω (Parser ω β))
      (hp : Composed kit given α p) (hraises : ∀ a, p.Gives a → (f a).RaisesOnly kit.raises)
      (hf : ∀ a q, p.Gives a → (f a).outcome = .ok q → Composed kit given β q) :
      Composed kit given β (p.flatMap f)
  | zip {given : Given ω} {α β : Type} {p : Parser ω α} {q : Parser ω β}
      (hp : Composed kit given α p) (hq : Composed kit given β q) :
      Composed kit given (α × β) (p.zip q)
  | transform {given : Given ω} {α β : Type} {p : Parser ω α}
      (f : α → State → Run ω (β × State)) (hp : Composed kit given α p)
      (hf : kit.transforms f) : Composed kit given β (p.transform f)
  | extend {given : Given ω} {ρ β γ : Type} {p : Parser ω ρ} (key : String)
      (choose : ρ → Run ω (Item ω β)) (store : ρ → β → Run ω γ)
      (hp : Composed kit given ρ p)
      (hraises : ∀ r, p.Gives r → (choose r).RaisesOnly kit.raises)
      (hstore : ∀ r b, (store r b).RaisesOnly kit.raises)
      (hchoose : ∀ r q, p.Gives r → (choose r).outcome = .ok (.parser q) →
        Composed kit given β q) :
      Composed kit given γ (p.extend key choose store)
  | defer {given : Given ω} {α : Type} (make : Run ω (Parser ω α))
      (hraises : make.RaisesOnly kit.raises)
      (hmake : ∀ p, make.outcome = .ok p → Composed kit given α p) :
      Composed kit given α (.defer make)
  /-- The parsers that a script waits for, and the one that it may end with, are in `steps`. -/
  | ofScript {given : Given ω} {σ α : Type} (body : Script ω σ (Ending ω α)) (locals : σ)
      (steps : Given ω)
      (huses : body.Uses steps kit.raises locals fun ending _ =>
        ∀ p, ending = .parser p → steps α p)
      (hsteps : ∀ β p, steps β p → Composed kit given β p) :
      Composed kit given α (.ofScript body locals)
  /-- Rules may use the references to one another as given parsers. -/
  | within {given : Given ω} {ι : Type} {α : ι → Type} (rules : Rules ω α)
      (hrules : ∀ (refs : (i : ι) → Parser ω (α i)) (i : ι),
        Composed kit (fun β p => given β p ∨ Reference refs β p) (α i) (rules refs i))
      (depth : Nat) (i : ι) : Composed kit given (α i) (rules.within depth i)
  | rule {given : Given ω} {ι : Type} {α : ι → Type} (rules : Rules ω α)
      (hrules : ∀ (refs : (i : ι) → Parser ω (α i)) (i : ι),
        Composed kit (fun β p => given β p ∨ Reference refs β p) (α i) (rules refs i))
      (i : ι) : Composed kit given (α i) (rules.parser i)

/-- The nested parentheses are built of recognizers, a script and a reference to themselves. -/
theorem Nesting.composed_nested {ω : Type} (kit : Kit ω) (given : Given ω) :
    Composed kit given Nat Nesting.nested := by
  refine Composed.rule rules ?_ ()
  intro refs i
  let steps : Given ω := Composed kit fun β p => given β p ∨ Reference refs β p
  refine Composed.named _ (Composed.ofScript _ _ steps ?_ fun _ _ h => h)
  simp only [nestedScript, Script.uses_bind, Script.uses_step]
  refine ⟨Composed.satisfy _ _, ?_⟩
  intro c _
  split
  · rintro p ⟨⟩
  · split
    · simp only [Script.uses_bind, Script.uses_step, Script.uses_pure]
      refine ⟨Composed.given _ (Or.inr (Reference.mk ())), ?_⟩
      intro depth _
      refine ⟨Composed.satisfy _ _, ?_⟩
      rintro _ _ p ⟨⟩
    · rintro p ⟨⟩
      exact Composed.fail _ _

end Parsing
