import Parsing.Proofs.Composition
import Parsing.Proofs.Descent

/-!
A success depends on nothing but what it takes. Grammars that look at their input only by taking it
give the same value from the same text whatever comes after the text, and leave that as it is. Each
step of a success finds its part of the text by itself, so the parts follow one another in any other
input as well.
-/

namespace Parsing

/-- Wherever the steps lead from a state with a value, they take a text, and they lead from it with
the same value before any other remainder. -/
def Local {α : Type} (steps : State → α → State → Prop) : Prop :=
  ∀ s a t, steps s a t →
    ∃ taken, s.Takes taken t ∧ ∀ r, steps ⟨taken ++ r, s.pos⟩ a ⟨r, t.pos⟩

namespace Local

variable {α β : Type}

theorem of_iff {steps steps' : State → α → State → Prop} (h : Local steps)
    (hiff : ∀ s a t, steps' s a t ↔ steps s a t) : Local steps' := by
  intro s a t hs
  obtain ⟨taken, htakes, hsame⟩ := h s a t ((hiff s a t).mp hs)
  exact ⟨taken, htakes, fun r => (hiff _ _ _).mpr (hsame r)⟩

/-- Steps that are the same whatever is taken stay so under a condition on the value. -/
theorem of_value {steps : State → α → State → Prop} (h : Local steps) (related : α → β → Prop) :
    Local fun s b t => ∃ a, steps s a t ∧ related a b := by
  rintro s b t ⟨a, hs, hab⟩
  obtain ⟨taken, htakes, hsame⟩ := h s a t hs
  exact ⟨taken, htakes, fun r => ⟨a, hsame r, hab⟩⟩

/-- What the first steps take is followed by what the second steps take. -/
theorem comp {first : State → α → State → Prop} {second : α → State → β → State → Prop}
    (hfirst : Local first) (hsecond : ∀ s a t, first s a t → Local (second a)) :
    Local fun s b u => ∃ a t, first s a t ∧ second a t b u := by
  rintro s b u ⟨a, t, hs, ht⟩
  obtain ⟨taken, htakes, hsame⟩ := hfirst s a t hs
  obtain ⟨next, hnext, hsame'⟩ := hsecond s a t hs t b u ht
  refine ⟨taken ++ next, htakes.trans hnext, fun r => ?_⟩
  rw [List.append_assoc]
  exact ⟨a, _, hsame (next ++ r), hsame' r⟩

theorem and {steps : State → α → State → Prop} {condition : Prop} (h : condition → Local steps) :
    Local fun s a t => condition ∧ steps s a t := by
  rintro s a t ⟨hcondition, hs⟩
  obtain ⟨taken, htakes, hsame⟩ := h hcondition s a t hs
  exact ⟨taken, htakes, fun r => ⟨hcondition, hsame r⟩⟩

/-- Each way on is local, whichever is chosen. -/
theorem of_choice {ι : Type*} {choices : ι → Prop} {steps : ι → State → α → State → Prop}
    (h : ∀ i, choices i → Local (steps i)) :
    Local fun s a t => ∃ i, choices i ∧ steps i s a t := by
  rintro s a t ⟨i, hi, hs⟩
  obtain ⟨taken, htakes, hsame⟩ := h i hi s a t hs
  exact ⟨taken, htakes, fun r => ⟨i, hi, hsame r⟩⟩

theorem of_eq (related : α → Prop) : Local fun s a t => related a ∧ s = t := by
  rintro s a _ ⟨ha, rfl⟩
  exact ⟨[], s.takes_nil, fun r => ⟨ha, rfl⟩⟩

theorem of_takes (taken : α → Text) (related : α → Prop) :
    Local fun s a t => s.Takes (taken a) t ∧ related a := by
  rintro s a t ⟨htakes, ha⟩
  exact ⟨taken a, htakes, fun r => ⟨⟨rfl, htakes.2⟩, ha⟩⟩

theorem of_not {steps : State → α → State → Prop} (h : ∀ s a t, ¬steps s a t) : Local steps :=
  fun s a t hs => (h s a t hs).elim

end Local

/-! The recognizers and the combinators. -/

namespace Parser

variable {ω α β γ ρ : Type}

theorem local_result (a : α) : Local (result a : Parser ω α).Succeeds :=
  (Local.of_eq fun b => a = b).of_iff (succeeds_result_iff a)

theorem local_satisfy (property : Char → Bool) (description : String) :
    Local (satisfy property description : Parser ω Char).Succeeds :=
  (Local.of_takes (fun c => [c]) fun c => property c = true).of_iff
    (succeeds_satisfy_iff property description)

theorem local_text (t : Text) : Local (text t : Parser ω Text).Succeeds := by
  apply (Local.of_takes (fun _ => t) fun u => u = t).of_iff
  intro s u rest
  rw [succeeds_text_iff, and_comm]

theorem local_trace (label : String) : Local (trace label : Parser ω Unit).Succeeds := by
  apply (Local.of_eq fun _ => True).of_iff
  intro s u t
  rw [succeeds_trace_iff, true_and]

theorem local_map {p : Parser ω α} (hp : Local p.Succeeds) (f : α → Run ω β) :
    Local (p.map f).Succeeds :=
  (hp.of_value fun a b => (f a).outcome = .ok b).of_iff (succeeds_map_iff p f)

theorem local_flatMap {p : Parser ω α} (hp : Local p.Succeeds) (f : α → Run ω (Parser ω β))
    (hf : ∀ a q, p.Gives a → (f a).outcome = .ok q → Local q.Succeeds) :
    Local (p.flatMap f).Succeeds := by
  refine Local.of_iff (Local.comp hp ?_) (succeeds_flatMap_iff p f)
  intro s a t hs
  exact Local.of_choice fun q hq => hf a q hs.gives hq

theorem local_zip {p : Parser ω α} {q : Parser ω β} (hp : Local p.Succeeds)
    (hq : Local q.Succeeds) : Local (p.zip q).Succeeds := by
  refine Local.of_iff (Local.comp hp ?_) (succeeds_zip_iff p q)
  intro s a t _
  exact hq.of_value fun b pair => (a, b) = pair

theorem local_extend {p : Parser ω ρ} (hp : Local p.Succeeds) (key : String)
    (choose : ρ → Run ω (Item ω β)) (store : ρ → β → Run ω γ)
    (hchoose : ∀ r q, p.Gives r → (choose r).outcome = .ok (.parser q) → Local q.Succeeds) :
    Local (p.extend key choose store).Succeeds := by
  refine Local.of_iff (Local.comp hp ?_) (succeeds_extend_iff p key choose store)
  intro s r t hs
  apply Local.of_choice
  intro q hq
  exact (hchoose r q hs.gives hq).of_value fun b c => (store r b).outcome = .ok c

theorem local_defer (make : Run ω (Parser ω α))
    (hmake : ∀ p, make.outcome = .ok p → Local p.Succeeds) : Local (defer make).Succeeds :=
  (Local.of_choice hmake).of_iff (succeeds_defer_iff make)

end Parser

/-! Scripts and rules. -/

namespace Script

variable {ω σ α : Type} {steps : Given ω} {raises : Fault → Prop}

/-- By induction on the script: what a step takes is followed by what the rest takes. -/
theorem local_of_uses (hsteps : ∀ β p, steps β p → Local p.Succeeds) (body : Script ω σ α)
    (locals : σ) (ends : α → σ → Prop) (huses : body.Uses steps raises locals ends) :
    Local (body.Succeeds locals) := by
  induction body generalizing locals with
  | done a =>
    exact (Local.of_eq fun ended => (a, locals) = ended).of_iff (succeeds_done_iff a locals)
  | act action next ih =>
    refine Local.of_iff (Local.of_choice ?_) (succeeds_act_iff action next locals)
    rintro ⟨b, new⟩ hout
    exact ih b new ends (huses.2 b new hout)
  | await item next ih =>
    cases item with
    | stray kind => exact Local.of_not (not_succeeds_await_stray kind next locals)
    | parser p =>
      refine Local.of_iff (Local.comp (hsteps _ p huses.1) ?_) (succeeds_await_iff p next locals)
      intro s b t hs
      exact ih b locals ends (huses.2 b hs.gives)
  | guarded body cleanup next ihbody ihnext =>
    refine Local.of_iff (Local.comp (ihbody locals _ huses.2) ?_)
      (succeeds_guarded_iff body cleanup next locals)
    intro s left t hs
    apply Local.and
    intro _
    have hends := body.ends_of_succeeds locals _ huses.2 s left t hs
    exact ihnext left.1 left.2 ends hends

end Script

namespace Parser

variable {ω σ α ι : Type} {R : ι → Type}

theorem local_ofScript {steps : Given ω} {raises : Fault → Prop}
    (hsteps : ∀ β p, steps β p → Local p.Succeeds) (body : Script ω σ (Ending ω α)) (locals : σ)
    (huses : body.Uses steps raises locals fun ending _ =>
      ∀ p, ending = .parser p → steps α p) : Local (ofScript body locals).Succeeds := by
  refine Local.of_iff (Local.comp (body.local_of_uses hsteps locals _ huses) ?_)
    (succeeds_ofScript_iff body locals)
  rintro s ⟨ending, left⟩ t hs
  cases ending with
  | value a => exact local_result a
  | parser p => exact hsteps α p (body.ends_of_succeeds locals _ huses s _ t hs p rfl)

theorem local_within (rules : Rules ω R)
    (hrules : ∀ refs : (i : ι) → Parser ω (R i), (∀ i, Local (refs i).Succeeds) →
      ∀ i, Local (rules refs i).Succeeds) (depth : Nat) (i : ι) :
    Local (rules.within depth i).Succeeds := by
  induction depth generalizing i with
  | zero =>
    intro s a t hs
    cases hs
  | succ depth ih =>
    apply hrules
    intro j
    exact local_defer _ fun p hp => by cases hp; exact ih j

/-- Both inputs are parsed within a depth that is enough for either. -/
theorem local_rule (rules : Rules ω R) (hsettled : rules.Settled)
    (hrules : ∀ refs : (i : ι) → Parser ω (R i), (∀ i, Local (refs i).Succeeds) →
      ∀ i, Local (rules refs i).Succeeds) (i : ι) : Local (rules.parser i).Succeeds := by
  have hdepth : ∀ depth s a t, s.input.length < depth →
      ((rules.parser i).Succeeds s a t ↔ (rules.within depth i).Succeeds s a t) := by
    intro depth s a t hlt
    rw [Succeeds, Succeeds, hsettled depth i s hlt]
  intro s a t hs
  obtain ⟨taken, htakes, -⟩ :=
    local_within rules hrules _ i s a t ((hdepth _ s a t (Nat.lt_succ_self _)).mp hs)
  refine ⟨taken, htakes, fun r => ?_⟩
  let depth := s.input.length + (taken ++ r).length + 1
  have hfirst : s.input.length < depth := by omega
  have hsecond : (taken ++ r).length < depth := by omega
  obtain ⟨taken', htakes', hsame⟩ :=
    local_within rules hrules depth i s a t ((hdepth depth s a t hfirst).mp hs)
  have htaken : taken' = taken := List.append_cancel_right (htakes'.1.symm.trans htakes.1)
  rw [htaken] at hsame
  exact (hdepth depth _ a _ hsecond).mpr (hsame r)

end Parser

/-- The grammars that look at their input only by taking it: those that are composed without spans
and without transformed states. The depth of a recursion is given, or it makes no difference. -/
inductive Plain {ω : Type} : Given ω → (α : Type) → Parser ω α → Prop
  | given {given : Given ω} {α : Type} (p : Parser ω α) (hp : given α p) : Plain given α p
  | result {given : Given ω} {α : Type} (a : α) : Plain given α (.result a)
  | fail {given : Given ω} {α : Type} (message : String) (expected : List String) :
      Plain given α (.fail message expected)
  | satisfy {given : Given ω} (property : Char → Bool) (description : String) :
      Plain given Char (.satisfy property description)
  | text {given : Given ω} (t : Text) : Plain given Text (.text t)
  | trace {given : Given ω} (label : String) : Plain given Unit (.trace label)
  | stray {given : Given ω} {α : Type} (kind : Kind) :
      Plain given α (Item.stray kind).toParser
  | named {given : Given ω} {α : Type} {p : Parser ω α} (label : String)
      (hp : Plain given α p) : Plain given α (p.named label)
  | withMessage {given : Given ω} {α : Type} {p : Parser ω α} (message : String)
      (hp : Plain given α p) : Plain given α (p.withMessage message)
  | withMessageFrom {given : Given ω} {α : Type} {p : Parser ω α} (f : Failure → Run ω String)
      (hp : Plain given α p) : Plain given α (p.withMessageFrom f)
  | map {given : Given ω} {α β : Type} {p : Parser ω α} (f : α → Run ω β)
      (hp : Plain given α p) : Plain given β (p.map f)
  | flatMap {given : Given ω} {α β : Type} {p : Parser ω α} (f : α → Run ω (Parser ω β))
      (hp : Plain given α p)
      (hf : ∀ a q, p.Gives a → (f a).outcome = .ok q → Plain given β q) :
      Plain given β (p.flatMap f)
  | zip {given : Given ω} {α β : Type} {p : Parser ω α} {q : Parser ω β}
      (hp : Plain given α p) (hq : Plain given β q) : Plain given (α × β) (p.zip q)
  | extend {given : Given ω} {ρ β γ : Type} {p : Parser ω ρ} (key : String)
      (choose : ρ → Run ω (Item ω β)) (store : ρ → β → Run ω γ) (hp : Plain given ρ p)
      (hchoose : ∀ r q, p.Gives r → (choose r).outcome = .ok (.parser q) → Plain given β q) :
      Plain given γ (p.extend key choose store)
  | defer {given : Given ω} {α : Type} (make : Run ω (Parser ω α))
      (hmake : ∀ p, make.outcome = .ok p → Plain given α p) : Plain given α (.defer make)
  | ofScript {given : Given ω} {σ α : Type} (body : Script ω σ (Ending ω α)) (locals : σ)
      (steps : Given ω)
      (huses : body.Uses steps (fun _ => True) locals fun ending _ =>
        ∀ p, ending = .parser p → steps α p)
      (hsteps : ∀ β p, steps β p → Plain given β p) : Plain given α (.ofScript body locals)
  | within {given : Given ω} {ι : Type} {α : ι → Type} (rules : Rules ω α)
      (hrules : ∀ (refs : (i : ι) → Parser ω (α i)) (i : ι),
        Plain (fun β p => given β p ∨ Reference refs β p) (α i) (rules refs i))
      (depth : Nat) (i : ι) : Plain given (α i) (rules.within depth i)
  | rule {given : Given ω} {ι : Type} {α : ι → Type} (rules : Rules ω α)
      (hsettled : rules.Settled)
      (hrules : ∀ (refs : (i : ι) → Parser ω (α i)) (i : ι),
        Plain (fun β p => given β p ∨ Reference refs β p) (α i) (rules refs i))
      (i : ι) : Plain given (α i) (rules.parser i)

variable {ω α : Type}

/-- By induction on how the grammar is built. -/
theorem Plain.isLocal {given : Given ω} {p : Parser ω α} (hp : Plain given α p)
    (hgiven : ∀ β q, given β q → Local q.Succeeds) : Local p.Succeeds := by
  induction hp with
  | given p hp => exact hgiven _ p hp
  | result a => exact Parser.local_result a
  | fail message expected => exact Local.of_not (Parser.not_succeeds_fail message expected)
  | satisfy property description => exact Parser.local_satisfy property description
  | text t => exact Parser.local_text t
  | trace label => exact Parser.local_trace label
  | stray kind => exact Local.of_not (Parser.not_succeeds_stray kind)
  | named label hp ih => exact ih hgiven
  | @withMessage _ _ p message hp ih =>
    exact (ih hgiven).of_iff (Parser.succeeds_withMessage_iff p message)
  | @withMessageFrom _ _ p f hp ih =>
    exact (ih hgiven).of_iff (Parser.succeeds_withMessageFrom_iff p f)
  | map f hp ih => exact Parser.local_map (ih hgiven) f
  | flatMap f hp hf ih ihf =>
    exact Parser.local_flatMap (ih hgiven) f fun a q ha hout => ihf a q ha hout hgiven
  | zip hp hq ihp ihq => exact Parser.local_zip (ihp hgiven) (ihq hgiven)
  | extend key choose store hp hchoose ih ihchoose =>
    exact Parser.local_extend (ih hgiven) key choose store
      fun r q h hout => ihchoose r q h hout hgiven
  | defer make hmake ih => exact Parser.local_defer make fun p hout => ih p hout hgiven
  | ofScript body locals steps huses hsteps ih =>
    exact Parser.local_ofScript (fun β p h => ih β p h hgiven) body locals huses
  | within rules hrules depth i ih =>
    refine Parser.local_within rules ?_ depth i
    intro refs hrefs j
    exact ih refs j (Reference.of_given_or (fun _ q => Local q.Succeeds) hgiven hrefs)
  | rule rules hsettled hrules i ih =>
    refine Parser.local_rule rules hsettled ?_ i
    intro refs hrefs j
    exact ih refs j (Reference.of_given_or (fun _ q => Local q.Succeeds) hgiven hrefs)

theorem Nesting.plain_nested (given : Given ω) : Plain given Nat Nesting.nested := by
  refine Plain.rule rules progressive_rules.settled ?_ ()
  intro refs i
  let steps : Given ω := Plain fun β p => given β p ∨ Reference refs β p
  refine Plain.named _ (Plain.ofScript _ _ steps ?_ fun _ _ h => h)
  simp only [nestedScript, Script.uses_bind, Script.uses_step]
  refine ⟨Plain.satisfy _ _, ?_⟩
  intro c _
  split
  · rintro p ⟨⟩
  · split
    · simp only [Script.uses_bind, Script.uses_step, Script.uses_pure]
      refine ⟨Plain.given _ (Or.inr (Reference.mk ())), ?_⟩
      intro depth _
      refine ⟨Plain.satisfy _ _, ?_⟩
      rintro _ _ p ⟨⟩
    · rintro p ⟨⟩
      exact Plain.fail _ _

/-- What a successful parse has taken fixes its value and its final position, whatever follows. -/
theorem success_of_taken (given : Given ω) (hgiven : ∀ β q, given β q → Local q.Succeeds)
    (p : Parser ω α) (hp : Plain given α p) (pos : Position) (taken rest rest' : Text) (a : α)
    (pos' : Position) (h : (p.parse ⟨taken ++ rest, pos⟩).outcome = .ok (.success a ⟨rest, pos'⟩)) :
    (p.parse ⟨taken ++ rest', pos⟩).outcome = .ok (.success a ⟨rest', pos'⟩) := by
  obtain ⟨taken', htakes, hsame⟩ := hp.isLocal hgiven _ a _ h
  have htaken : taken = taken' := List.append_cancel_right htakes.1
  rw [htaken]
  exact hsame rest'

/-- One pair of parentheses is read the same way at the end of the input as before a mark. -/
theorem success_of_taken_nested :
    (∀ β q, Given.none Empty β q → Local q.Succeeds) ∧
    Plain (Given.none Empty) Nat Nesting.nested ∧
    ((Nesting.nested : Parser Empty Nat).parse ⟨['(', 'x', ')'] ++ ['!'], {}⟩).outcome =
      .ok (.success 1 ⟨['!'], ⟨1, 4, 3⟩⟩) ∧
    ((Nesting.nested : Parser Empty Nat).parse ⟨['(', 'x', ')'] ++ [], {}⟩).outcome =
      .ok (.success 1 ⟨[], ⟨1, 4, 3⟩⟩) := by
  have hgiven : ∀ β q, Given.none Empty β q → Local q.Succeeds := fun _ _ h => h.elim
  have hplain := Nesting.plain_nested (Given.none Empty)
  have hmark : ((Nesting.nested : Parser Empty Nat).parse ⟨['(', 'x', ')'] ++ ['!'], {}⟩).outcome =
      .ok (.success 1 ⟨['!'], ⟨1, 4, 3⟩⟩) := by cbv
  exact ⟨hgiven, hplain, hmark, success_of_taken _ hgiven _ hplain {} _ _ [] 1 _ hmark⟩

end Parsing
