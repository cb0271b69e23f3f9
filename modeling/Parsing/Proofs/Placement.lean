import Parsing.Proofs.Alike
import Parsing.Proofs.Composition

/-!
Positions make no difference to a parse. They are moved along and reported, but nothing in a grammar
looks at them unless a callback that is shown a state or a failure does. Without such callbacks a
grammar does the same from every position: it records the same events, takes the same text and gives
the same value or the same failure, and all that the position decides is where that is.
-/

namespace Parsing

/-- What may be used where positions make no difference: transformed states and computed messages
that come out the same wherever the state or the failure is. -/
def Kit.placeless (ω : Type) : Kit ω where
  spans := True
  transforms f := ∀ a s s', s.input = s'.input →
    (f a s).Alike (fun x y => x.1 = y.1 ∧ x.2.input = y.2.input) (f a s')
  rewords f := ∀ e e' : Failure, e.Matches e' → (f e).Alike Eq (f e')
  raises _ := True

namespace Parser

variable {ω α β γ ρ : Type}

/-- From two states with the same input the parser goes the same way. -/
def Placeless (p : Parser ω α) : Prop :=
  ∀ s s' : State, s.input = s'.input → (p.parse s).Alike (Reply.InStep s s') (p.parse s')

/-! The recognizers. -/

theorem placeless_result (a : α) : (result a : Parser ω α).Placeless :=
  fun _ _ h => Run.alike_pure (.success a (.refl h))

theorem placeless_fail (message : String) (expected : List String) :
    (fail message expected : Parser ω α).Placeless :=
  fun _ _ h => Run.alike_pure (.failure_here h message expected)

theorem placeless_stray (kind : Kind) : (Item.stray kind : Item ω α).toParser.Placeless :=
  fun _ _ _ => Run.alike_raise rfl

/-- The lines that are logged show positions; a tracer records no event. -/
theorem placeless_trace (label : String) : (trace label : Parser ω Unit).Placeless := by
  intro s s' h
  apply (Run.alike_log _ _).bind
  intro _ _ _ _
  exact Run.alike_pure (.success () (.refl h))

theorem alike_succeed {s s' : State} (h : s.input = s'.input) (a : α) (taken : Text) :
    (succeed a s taken : Run ω (Reply α)).Alike (Reply.InStep s s') (succeed a s' taken) := by
  apply (Run.alike_ofExcept (State.agree_consume h taken)).bind
  intro t t' _ habreast
  exact Run.alike_pure (.success a habreast)

theorem placeless_satisfy (property : Char → Bool) (description : String) :
    (satisfy property description : Parser ω Char).Placeless := by
  intro s s' h
  simp only [satisfy]
  rw [← h]
  split
  · exact Run.alike_pure (.failure_here h _ _)
  · split
    · exact alike_succeed h _ _
    · exact Run.alike_pure (.failure_here h _ _)

theorem placeless_text (t : Text) : (text t : Parser ω Text).Placeless := by
  intro s s' h
  simp only [text]
  rw [← h]
  split
  · exact alike_succeed h _ _
  · exact Run.alike_pure (.failure_here h _ _)

theorem placeless_span (property : Char → Bool) : (span property : Parser ω Text).Placeless := by
  intro s s' h
  simp only [span]
  rw [← h]
  exact alike_succeed h _ _

/-! The combinators. -/

theorem placeless_withMessage {p : Parser ω α} (hp : p.Placeless) (message : String) :
    (p.withMessage message).Placeless := by
  intro s s' h
  apply (hp s s' h).bind
  intro reply reply' _ hreply
  exact Run.alike_pure (hreply.reworded message)

theorem alike_reported {p : Parser ω α} (hp : p.Placeless) {s s' : State}
    (h : s.input = s'.input) :
    (p.reported s).Alike (Reply.InStep s s') (p.reported s') := by
  apply (hp s s' h).bind
  intro reply reply' _ hreply
  exact Run.alike_pure (hreply.reworded p.message)

/-- The message is computed from failures that match. -/
theorem placeless_withMessageFrom {p : Parser ω α} (hp : p.Placeless) (f : Failure → Run ω String)
    (hf : (Kit.placeless ω).rewords f) : (p.withMessageFrom f).Placeless := by
  intro s s' h
  apply (hp s s' h).bind
  intro reply reply' _ hreply
  cases hreply with
  | success a habreast => exact Run.alike_pure (.success a habreast)
  | failure left hmatches habreast =>
    apply (hf _ _ hmatches).bind
    rintro message _ _ rfl
    exact Run.alike_pure (.failure left (hmatches.reworded message) habreast)

theorem placeless_map {p : Parser ω α} (hp : p.Placeless) (f : α → Run ω β) :
    (p.map f).Placeless := by
  intro s s' h
  apply Reply.alike_andThen (alike_reported hp h)
  intro a t t' _ ht
  apply Run.alike_bind_same
  intro b _
  exact Run.alike_pure (.success b (.refl ht))

theorem placeless_flatMap {p : Parser ω α} (hp : p.Placeless) (f : α → Run ω (Parser ω β))
    (hf : ∀ a q, p.Gives a → (f a).outcome = .ok q → q.Placeless) : (p.flatMap f).Placeless := by
  intro s s' h
  apply Reply.alike_andThen (alike_reported hp h)
  intro a t t' hout ht
  have hgives : p.Gives a := ⟨s, t, (reported_eq_success_iff p s a t).mp hout⟩
  apply Run.alike_bind_same
  intro q hq
  exact hf a q hgives hq t t' ht

theorem placeless_zip {p : Parser ω α} {q : Parser ω β} (hp : p.Placeless) (hq : q.Placeless) :
    (p.zip q).Placeless := by
  intro s s' h
  apply Reply.alike_andThen (hp s s' h)
  intro a t t' _ ht
  apply Reply.alike_andThen (hq t t' ht)
  intro b u u' _ hu
  exact Run.alike_pure (.success (a, b) (.refl hu))

/-- The new states have the same input, so re-anchoring them takes the same text. -/
theorem placeless_transform {p : Parser ω α} (hp : p.Placeless)
    (f : α → State → Run ω (β × State)) (hf : (Kit.placeless ω).transforms f) :
    (p.transform f).Placeless := by
  intro s s' h
  apply Reply.alike_andThen (alike_reported hp h)
  intro a t t' _ ht
  apply (hf a t t' ht).bind
  rintro ⟨b, target⟩ ⟨b', target'⟩ _ ⟨rfl, htarget⟩
  apply (Run.alike_ofExcept (State.agree_reanchor ht htarget)).bind
  intro u u' _ hu
  exact Run.alike_pure (.success b hu)

theorem placeless_extend {p : Parser ω ρ} (hp : p.Placeless) (key : String)
    (choose : ρ → Run ω (Item ω β)) (store : ρ → β → Run ω γ)
    (hchoose : ∀ r q, p.Gives r → (choose r).outcome = .ok (.parser q) → q.Placeless) :
    (p.extend key choose store).Placeless := by
  intro s s' h
  apply Reply.alike_andThen (alike_reported hp h)
  intro r t t' hout ht
  have hgives : p.Gives r := ⟨s, t, (reported_eq_success_iff p s r t).mp hout⟩
  apply Run.alike_bind_same
  intro item hitem
  cases item with
  | stray kind => exact Run.alike_raise rfl
  | parser q =>
    apply Reply.alike_andThen (hchoose r q hgives hitem t t' ht)
    intro b u u' _ hu
    apply Run.alike_bind_same
    intro c _
    exact Run.alike_pure (.success c (.refl hu))

theorem placeless_defer (make : Run ω (Parser ω α))
    (hmake : ∀ p, make.outcome = .ok p → p.Placeless) : (defer make).Placeless := by
  intro s s' h
  apply Run.alike_bind_same
  intro p hp
  exact hmake p hp s s' h

end Parser

/-! Scripts and rules. -/

namespace Script

variable {ω σ α β : Type} {steps : Given ω} {raises : Fault → Prop}

/-- How scripts end from two states: with the same local variables, and in step. -/
def EndInStep (s s' : State) :
    σ × Except Fault (Reply α) → σ × Except Fault (Reply α) → Prop
  | (left, ended), (left', ended') => left = left' ∧ Run.Agree (Reply.InStep s s') ended ended'

theorem EndInStep.of_abreast {s s' t t' : State} {x y : σ × Except Fault (Reply α)}
    (h : s.Abreast s' t t') (hxy : EndInStep t t' x y) : EndInStep s s' x y := by
  obtain ⟨hleft, hagree⟩ := hxy
  exact ⟨hleft, hagree.imp fun _ _ hreply => hreply.of_abreast h⟩

theorem alike_goOn {s s' : State} {ended ended' : Except Fault (Reply β)}
    (hagree : Run.Agree (Reply.InStep s s') ended ended') (locals : σ)
    {next : β → State → Run ω (σ × Except Fault (Reply α))}
    (hnext : ∀ b t t', ended = .ok (.success b t) → t.input = t'.input →
      (next b t).Alike (EndInStep t t') (next b t')) :
    (goOn locals next ended).Alike (EndInStep s s') (goOn locals next ended') := by
  cases hagree with
  | error hfault => exact Run.alike_pure ⟨rfl, .error hfault⟩
  | ok hreply =>
    cases hreply with
    | failure rest hmatches habreast =>
      exact Run.alike_pure ⟨rfl, .ok (.failure rest hmatches habreast)⟩
    | success b habreast =>
      exact (hnext b _ _ rfl habreast.1).imp fun _ _ hxy => hxy.of_abreast habreast

/-- By induction on the script. What it does next depends on the values that its steps give, never
on a position. -/
theorem alike_run (hsteps : ∀ β p, steps β p → p.Placeless) (body : Script ω σ α) (locals : σ)
    (ends : α → σ → Prop) (huses : body.Uses steps raises locals ends) {s s' : State}
    (h : s.input = s'.input) :
    (body.run locals s).Alike (EndInStep s s') (body.run locals s') := by
  induction body generalizing locals s s' with
  | done a => exact Run.alike_pure ⟨rfl, .ok (.success a (.refl h))⟩
  | act action next ih =>
    rw [run, run]
    apply Run.alike_bind_same
    intro acted hacted
    rcases acted with fault | ⟨b, new⟩
    · exact Run.alike_pure ⟨rfl, .error rfl⟩
    · exact ih b new ends (huses.2 b new (Except.ok.inj hacted)) h
  | await item next ih =>
    cases item with
    | stray kind => exact Run.alike_pure ⟨rfl, .error rfl⟩
    | parser p =>
      rw [run_await, run_await]
      apply (Parser.alike_reported (hsteps _ p huses.1) h).attempt.bind
      intro ended ended' hout hagree
      apply alike_goOn hagree
      intro b t t' hended ht
      have hreported : (p.reported s).outcome = .ok (.success b t) :=
        (Except.ok.inj hout).trans hended
      have hgives : p.Gives b := ⟨s, t, (Parser.reported_eq_success_iff p s b t).mp hreported⟩
      exact ih b locals ends (huses.2 b hgives) ht
  | guarded body cleanup next ihbody ihnext =>
    rw [run_guarded, run_guarded]
    apply (ihbody locals _ huses.2 h).bind
    rintro ⟨left, ended⟩ ⟨_, ended'⟩ hbody ⟨rfl, hagree⟩
    apply Run.alike_bind_same
    intro cleaned _
    rcases cleaned with fault | _
    · exact Run.alike_pure ⟨rfl, .error rfl⟩
    · apply alike_goOn hagree
      intro b t t' hended ht
      have hsucceeds : body.Succeeds locals s (b, left) t := by
        rw [Succeeds, hbody, hended]
      have hends := body.ends_of_succeeds locals _ huses.2 s (b, left) t hsucceeds
      exact ihnext b left ends hends ht

end Script

namespace Parser

variable {ω σ α ι : Type} {R : ι → Type}

theorem placeless_ofScript {steps : Given ω} {raises : Fault → Prop}
    (hsteps : ∀ β p, steps β p → p.Placeless) (body : Script ω σ (Ending ω α)) (locals : σ)
    (huses : body.Uses steps raises locals fun ending _ =>
      ∀ p, ending = .parser p → steps α p) : (ofScript body locals).Placeless := by
  intro s s' h
  apply (body.alike_run hsteps locals _ huses h).bind
  rintro ⟨left, ended⟩ ⟨_, ended'⟩ hbody ⟨rfl, hagree⟩
  apply Reply.alike_andThen (Run.alike_ofExcept hagree)
  intro ending t t' hended ht
  cases ending with
  | value a => exact Run.alike_pure (.success a (.refl ht))
  | parser p =>
    have hsucceeds : body.Succeeds locals s (.parser p, left) t := by
      rw [Script.Succeeds, hbody, show ended = .ok (.success (.parser p) t) from hended]
    exact hsteps α p (body.ends_of_succeeds locals _ huses s _ t hsucceeds p rfl) t t' ht

theorem placeless_within (rules : Rules ω R)
    (hrules : ∀ refs : (i : ι) → Parser ω (R i), (∀ i, (refs i).Placeless) →
      ∀ i, (rules refs i).Placeless) (depth : Nat) (i : ι) :
    (rules.within depth i).Placeless := by
  induction depth generalizing i with
  | zero => exact fun _ _ _ => Run.alike_raise rfl
  | succ depth ih =>
    apply hrules
    intro j
    exact placeless_defer _ fun p hp => by cases hp; exact ih j

/-- The depth of the recursion depends on the input, so it is the same for both. -/
theorem placeless_rule (rules : Rules ω R)
    (hrules : ∀ refs : (i : ι) → Parser ω (R i), (∀ i, (refs i).Placeless) →
      ∀ i, (rules refs i).Placeless) (i : ι) : (rules.parser i).Placeless := by
  intro s s' h
  simp only [Rules.parser]
  rw [← h]
  exact placeless_within rules hrules _ i s s' h

end Parser

variable {ω α : Type}

/-- By induction on how the grammar is built. -/
theorem Composed.isPlaceless {given : Given ω} {p : Parser ω α}
    (hp : Composed (Kit.placeless ω) given α p) (hgiven : ∀ β q, given β q → q.Placeless) :
    p.Placeless := by
  induction hp with
  | given p hp => exact hgiven _ p hp
  | result a => exact Parser.placeless_result a
  | fail message expected => exact Parser.placeless_fail message expected
  | satisfy property description => exact Parser.placeless_satisfy property description
  | text t => exact Parser.placeless_text t
  | span property hspan => exact Parser.placeless_span property
  | trace label => exact Parser.placeless_trace label
  | stray kind => exact Parser.placeless_stray kind
  | named label hp ih => exact ih hgiven
  | withMessage message hp ih => exact Parser.placeless_withMessage (ih hgiven) message
  | withMessageFrom f hp hf hr ih => exact Parser.placeless_withMessageFrom (ih hgiven) f hf
  | map f hp hr ih => exact Parser.placeless_map (ih hgiven) f
  | flatMap f hp hr hf ih ihf =>
    exact Parser.placeless_flatMap (ih hgiven) f fun a q ha hout => ihf a q ha hout hgiven
  | zip hp hq ihp ihq => exact Parser.placeless_zip (ihp hgiven) (ihq hgiven)
  | transform f hp hf ih => exact Parser.placeless_transform (ih hgiven) f hf
  | extend key choose store hp hr hstore hchoose ih ihchoose =>
    exact Parser.placeless_extend (ih hgiven) key choose store fun r q hr hout =>
      ihchoose r q hr hout hgiven
  | defer make hr hmake ih => exact Parser.placeless_defer make fun p hout => ih p hout hgiven
  | ofScript body locals steps huses hsteps ih =>
    exact Parser.placeless_ofScript (fun β p h => ih β p h hgiven) body locals huses
  | within rules hrules depth i ih =>
    refine Parser.placeless_within rules ?_ depth i
    intro refs hrefs j
    exact ih refs j (Reference.of_given_or (fun _ q => q.Placeless) hgiven hrefs)
  | rule rules hrules i ih =>
    refine Parser.placeless_rule rules ?_ i
    intro refs hrefs j
    exact ih refs j (Reference.of_given_or (fun _ q => q.Placeless) hgiven hrefs)

/-- From any two positions a grammar records the same events and does the same: it succeeds with the
same value, or fails with the same message and expectations, after the same text; or it ends with
the same fault up to the positions in it. -/
theorem parse_from_positions (p : Parser ω α)
    (hp : Composed (Kit.placeless ω) (Given.none ω) α p) (input : Text) (pos pos' : Position) :
    (p.parse ⟨input, pos⟩).events = (p.parse ⟨input, pos'⟩).events ∧
    ((∃ a taken rest, input = taken ++ rest ∧
        (p.parse ⟨input, pos⟩).outcome = .ok (.success a ⟨rest, pos.advance taken⟩) ∧
        (p.parse ⟨input, pos'⟩).outcome = .ok (.success a ⟨rest, pos'.advance taken⟩)) ∨
      (∃ message expected taken left, input = taken ++ left ∧
        (p.parse ⟨input, pos⟩).outcome =
          .ok (.failure ⟨message, expected, pos.advance taken⟩) ∧
        (p.parse ⟨input, pos'⟩).outcome =
          .ok (.failure ⟨message, expected, pos'.advance taken⟩)) ∨
      ∃ fault fault', fault.unplaced = fault'.unplaced ∧
        (p.parse ⟨input, pos⟩).outcome = .error fault ∧
        (p.parse ⟨input, pos'⟩).outcome = .error fault') := by
  have hplaceless := hp.isPlaceless fun _ _ h => h.elim
  obtain ⟨hevents, houtcome⟩ := hplaceless ⟨input, pos⟩ ⟨input, pos'⟩ rfl
  refine ⟨hevents, ?_⟩
  generalize (p.parse ⟨input, pos⟩).outcome = outcome at houtcome
  generalize (p.parse ⟨input, pos'⟩).outcome = outcome' at houtcome
  cases houtcome with
  | error hfault => exact Or.inr (Or.inr ⟨_, _, hfault, rfl, rfl⟩)
  | ok hreply =>
    cases hreply with
    | @success a t t' habreast =>
      obtain ⟨rest, q⟩ := t
      obtain ⟨rest', q'⟩ := t'
      obtain ⟨rfl, taken, ⟨hinput, rfl⟩, ⟨-, rfl⟩⟩ := habreast
      exact Or.inl ⟨a, taken, rest, hinput, rfl, rfl⟩
    | @failure e e' left hmatches habreast =>
      obtain ⟨message, expected, q⟩ := e
      obtain ⟨message', expected', q'⟩ := e'
      obtain ⟨rfl, rfl⟩ := hmatches
      obtain ⟨-, taken, ⟨hinput, rfl⟩, ⟨-, rfl⟩⟩ := habreast
      exact Or.inr (Or.inl ⟨message, expected, taken, left, hinput, rfl, rfl⟩)

/-- Nested parentheses and the character after them, dropped by a transformed state. -/
def Nesting.nestedAndNext : Parser ω Nat :=
  (Nesting.nested.transform fun depth s =>
    return (depth, { s with input := s.input.drop 1 })).withMessageFrom fun e =>
      return "not nested: " ++ e.message

/-- The line break is dropped in the same way from the start of a text as from a position that no
text has. -/
theorem parse_from_positions_nested :
    Composed (Kit.placeless Empty) (Given.none Empty) Nat Nesting.nestedAndNext ∧
    ((Nesting.nestedAndNext : Parser Empty Nat).parse
      ⟨['(', 'x', ')', '\n', '!'], {}⟩).outcome = .ok (.success 1 ⟨['!'], ⟨2, 1, 4⟩⟩) ∧
    ((Nesting.nestedAndNext : Parser Empty Nat).parse
      ⟨['(', 'x', ')', '\n', '!'], ⟨0, -7, 3⟩⟩).outcome =
        .ok (.success 1 ⟨['!'], ⟨1, 1, 7⟩⟩) := by
  have hcomposed : Composed (Kit.placeless Empty) (Given.none Empty) Nat Nesting.nestedAndNext := by
    refine Composed.withMessageFrom _ (Composed.transform _ ?_ ?_) ?_ fun _ _ _ => trivial
    · exact Nesting.composed_nested _ _
    · intro depth s s' h
      exact Run.alike_pure ⟨rfl, congrArg (List.drop 1) h⟩
    · intro e e' h
      exact Run.alike_pure (congrArg _ h.1)
  have hstart : ((Nesting.nestedAndNext : Parser Empty Nat).parse
      ⟨['(', 'x', ')', '\n', '!'], {}⟩).outcome = .ok (.success 1 ⟨['!'], ⟨2, 1, 4⟩⟩) := by cbv
  refine ⟨hcomposed, hstart, ?_⟩
  have h := parse_from_positions _ hcomposed ['(', 'x', ')', '\n', '!'] {} ⟨0, -7, 3⟩
  rcases h.2 with ⟨a, taken, rest, hinput, hout, hout'⟩ | ⟨_, _, _, _, _, hout, -⟩ |
    ⟨_, _, -, hout, -⟩
  · simp only [hstart, Except.ok.injEq, Reply.success.injEq, State.mk.injEq] at hout
    obtain ⟨rfl, rfl, -⟩ := hout
    have htaken : taken = ['(', 'x', ')', '\n'] :=
      List.append_cancel_right (hinput.symm : taken ++ ['!'] = ['(', 'x', ')', '\n'] ++ ['!'])
    rw [hout', htaken]
    rfl
  · rw [hstart] at hout
    cases hout
  · rw [hstart] at hout
    cases hout

end Parsing
