import Parsing.Proofs.Composition
import Parsing.Proofs.Reanchoring
import Parsing.Proofs.Replies

/-!
Positions are right in every grammar. A parser is faithful if it leaves a suffix of its input at the
position after what it took, and reports a failure at the position after some start of its input.
The recognizers are faithful, every construction keeps it, and a grammar that does not `transform`
states never loses track of its input either, unless a callback raises such a fault itself.
-/

namespace Parsing

namespace Fault

/-- The faults of a parser whose next state does not come from its input. -/
def IsDesync : Fault → Prop
  | notAtFront _ _ => True
  | unreachable _ _ => True
  | _ => False

/-- A desync fault is one of `causes`. -/
def Blames (causes : Fault → Prop) (fault : Fault) : Prop := fault.IsDesync → causes fault

end Fault

namespace Reply

variable {α : Type}

/-- A success leaves a state that consuming reaches, and a failure is at the position of one. -/
def From (s : State) : Reply α → Prop
  | success _ rest => s.Reaches rest
  | failure e => ∃ t, s.Reaches t ∧ e.pos = t.pos

theorem From.trans {s t : State} {reply : Reply α} (hst : s.Reaches t) (h : reply.From t) :
    reply.From s := by
  cases reply with
  | success a rest => exact hst.trans h
  | failure e =>
    obtain ⟨u, htu, hpos⟩ := h
    exact ⟨u, hst.trans htu, hpos⟩

theorem From.ends_andThen {ω β : Type} {s : State} {reply : Reply α} {fault : Fault → Prop}
    (h : reply.From s) (k : α → State → Run ω (Reply β))
    (hk : ∀ a rest, reply = .success a rest → (k a rest).Ends (Reply.From rest) fault) :
    (reply.andThen k).Ends (Reply.From s) fault := by
  cases reply with
  | success a rest => exact (hk a rest rfl).imp (fun _ _ hr => hr.trans h) (fun _ _ hf => hf)
  | failure e => exact h

theorem From.reworded {s : State} {reply : Reply α} (h : reply.From s) (message : Option String) :
    (reply.reworded message).From s := by
  cases reply <;> exact h

end Reply

namespace Parser

variable {ω α β γ ρ : Type} {causes : Fault → Prop}

structure Faithful (p : Parser ω α) : Prop where
  success : ∀ s a rest, (p.parse s).outcome = .ok (.success a rest) →
    ∃ taken, s.input = taken ++ rest.input ∧ rest.pos = s.pos.advance taken
  failure : ∀ s e, (p.parse s).outcome = .ok (.failure e) →
    ∃ taken left, s.input = taken ++ left ∧ e.pos = s.pos.advance taken

/-- Whatever desync fault the parser ends with is one of `causes`. -/
def DesyncsOnly (p : Parser ω α) (causes : Fault → Prop) : Prop :=
  ∀ s fault, (p.parse s).outcome = .error fault → fault.IsDesync → causes fault

/-- Both properties, in the form that is carried through the constructions. -/
def Sound (causes : Fault → Prop) (p : Parser ω α) : Prop :=
  ∀ s, (p.parse s).Ends (Reply.From s) (Fault.Blames causes)

theorem sound_iff (p : Parser ω α) : p.Sound causes ↔ p.Faithful ∧ p.DesyncsOnly causes := by
  constructor
  · intro h
    refine ⟨⟨?_, ?_⟩, ?_⟩
    · intro s a rest hout
      exact ((Run.ends_iff _ _ _).mp (h s)).1 _ hout
    · intro s e hout
      obtain ⟨t, ⟨taken, hinput, hpos⟩, he⟩ := ((Run.ends_iff _ _ _).mp (h s)).1 _ hout
      exact ⟨taken, t.input, hinput, he.trans hpos⟩
    · intro s fault hout
      exact ((Run.ends_iff _ _ _).mp (h s)).2 fault hout
  · intro h s
    obtain ⟨hfaithful, hdesync⟩ := h
    rw [Run.ends_iff]
    refine ⟨?_, hdesync s⟩
    intro reply hout
    cases reply with
    | success a rest => exact hfaithful.success s a rest hout
    | failure e =>
      obtain ⟨taken, left, hinput, hpos⟩ := hfaithful.failure s e hout
      exact ⟨⟨left, s.pos.advance taken⟩, ⟨taken, hinput, rfl⟩, hpos⟩

/-! The recognizers. -/

theorem ends_failure (s : State) (message : String) (expected : List String) :
    (return .failure ⟨message, expected, s.pos⟩ : Run ω (Reply α)).Ends
      (Reply.From s) (Fault.Blames causes) := ⟨s, State.Reaches.refl s, rfl⟩

theorem sound_result (a : α) : (result a : Parser ω α).Sound causes :=
  fun s => State.Reaches.refl s

theorem sound_fail (message : String) (expected : List String) :
    (fail message expected : Parser ω α).Sound causes :=
  fun s => ends_failure s message expected

/-- It is enough that a parser takes some text or fails before it takes any. -/
theorem sound_of_meets {p : Parser ω α} {success : State → α → State → Prop}
    {failure : State → Failure → Prop}
    (h : ∀ s, p.Meets s (success s) (failure s) fun _ => False)
    (hsuccess : ∀ s a t, success s a t → s.Reaches t)
    (hfailure : ∀ s e, failure s e → e.pos = s.pos) : p.Sound causes := by
  intro s
  apply (h s).ends
  · exact fun a t ha => hsuccess s a t ha
  · exact fun e he => ⟨s, State.Reaches.refl s, hfailure s e he⟩
  · exact fun f hf => hf.elim

theorem sound_satisfy (property : Char → Bool) (description : String) :
    (satisfy property description : Parser ω Char).Sound causes :=
  sound_of_meets (meets_satisfy property description) (fun _ c _ h => ⟨[c], h.1⟩) fun _ _ h => h.1

theorem sound_text (t : Text) : (text t : Parser ω Text).Sound causes :=
  sound_of_meets (meets_text t) (fun _ _ _ h => ⟨t, h.2⟩) fun _ _ h => h.1

theorem sound_span (property : Char → Bool) : (span property : Parser ω Text).Sound causes :=
  sound_of_meets (meets_span property) (fun _ taken _ h => ⟨taken, h.1⟩) fun _ _ h => h.elim

theorem sound_trace (label : String) : (trace label : Parser ω Unit).Sound causes := by
  intro s
  simp only [trace, Run.ends_bind, Run.ends_log, Run.ends_pure]
  exact State.Reaches.refl s

theorem sound_stray (kind : Kind) : (Item.stray kind : Item ω α).toParser.Sound causes :=
  fun _ h => h.elim

/-! Sequences. What follows a success starts where the success has left the state, so it may only
speak of what that state reaches. -/

theorem ends_parse {p : Parser ω α} (hp : p.Sound causes) (s : State)
    (k : α → State → Run ω (Reply β))
    (hk : ∀ a rest, p.Gives a → (k a rest).Ends (Reply.From rest) (Fault.Blames causes)) :
    (p.parse s >>= fun reply => reply.andThen k).Ends (Reply.From s) (Fault.Blames causes) := by
  rw [Run.ends_bind]
  apply (hp s).imp
  · intro reply hout hfrom
    apply hfrom.ends_andThen
    rintro a rest rfl
    exact hk a rest ⟨s, rest, hout⟩
  · exact fun _ _ h => h

theorem ends_reported {p : Parser ω α} (hp : p.Sound causes) (s : State) :
    (p.reported s).Ends
      (fun reply => reply.From s ∧ ∀ a rest, reply = .success a rest → p.Gives a)
      (Fault.Blames causes) := by
  rw [reported, Run.ends_bind]
  apply (hp s).imp
  · intro reply hout hfrom
    refine ⟨hfrom.reworded p.message, ?_⟩
    intro a rest hreply
    cases reply with
    | success b left =>
      cases hreply
      exact ⟨s, rest, hout⟩
    | failure e => cases hreply
  · exact fun _ _ h => h

theorem ends_reported_andThen {p : Parser ω α} (hp : p.Sound causes) (s : State)
    (k : α → State → Run ω (Reply β))
    (hk : ∀ a rest, p.Gives a → (k a rest).Ends (Reply.From rest) (Fault.Blames causes)) :
    (p.reported s >>= fun reply => reply.andThen k).Ends
      (Reply.From s) (Fault.Blames causes) := by
  rw [Run.ends_bind]
  apply (ends_reported hp s).imp
  · intro reply _ h
    apply h.1.ends_andThen
    intro a rest hreply
    exact hk a rest (h.2 a rest hreply)
  · exact fun _ _ h => h

/-- An override changes neither the success nor the position of a failure. -/
theorem ends_answer {p : Parser ω α} (hp : p.Sound causes) (source : Text) :
    (p.answer source).Ends (Reply.From (.ofText source)) (Fault.Blames causes) := by
  rw [answer, Run.ends_bind]
  apply (hp (.ofText source)).imp
  · intro reply _ hfrom
    cases reply with
    | success a rest => exact hfrom
    | failure e =>
      cases p.message with
      | none => exact hfrom
      | some message =>
        simp only [Run.ends_bind, Run.ends_log, Run.ends_pure]
        exact hfrom
  · exact fun _ _ h => h

theorem sound_withMessage {p : Parser ω α} (hp : p.Sound causes) (message : String) :
    (p.withMessage message).Sound causes := by
  intro s
  simp only [withMessage, Run.ends_bind, Run.ends_pure]
  exact (hp s).imp (fun _ _ h => h.reworded _) (fun _ _ h => h)

theorem sound_withMessageFrom {p : Parser ω α} (hp : p.Sound causes) (f : Failure → Run ω String)
    (hf : ∀ e, (f e).RaisesOnly causes) : (p.withMessageFrom f).Sound causes := by
  intro s
  simp only [withMessageFrom, Run.ends_bind]
  apply (hp s).imp
  · intro reply _ hfrom
    cases reply with
    | success a rest => exact hfrom
    | failure e =>
      simp only [Run.ends_bind, Run.ends_pure]
      exact (hf e).ends (fun _ _ => hfrom) (fun _ h _ => h)
  · exact fun _ _ h => h

theorem sound_map {p : Parser ω α} (hp : p.Sound causes) (f : α → Run ω β)
    (hf : ∀ a, p.Gives a → (f a).RaisesOnly causes) : (p.map f).Sound causes := by
  intro s
  apply ends_reported_andThen hp s
  intro a rest ha
  rw [Run.ends_bind]
  exact (hf a ha).ends (fun _ _ => State.Reaches.refl rest) (fun _ h _ => h)

theorem sound_flatMap {p : Parser ω α} (hp : p.Sound causes) (f : α → Run ω (Parser ω β))
    (hf : ∀ a, p.Gives a → (f a).RaisesOnly causes)
    (hq : ∀ a q, p.Gives a → (f a).outcome = .ok q → q.Sound causes) :
    (p.flatMap f).Sound causes := by
  intro s
  apply ends_reported_andThen hp s
  intro a rest ha
  rw [Run.ends_bind]
  exact (hf a ha).ends (fun q hout => hq a q ha hout rest) (fun _ h _ => h)

theorem sound_zip {p : Parser ω α} {q : Parser ω β} (hp : p.Sound causes) (hq : q.Sound causes) :
    (p.zip q).Sound causes := by
  intro s
  apply ends_parse hp s
  intro a middle _
  apply ends_parse hq middle
  exact fun b rest _ => State.Reaches.refl rest

/-- A new state is reanchored, so that nothing but its input matters. -/
theorem sound_transform {p : Parser ω α} (hp : p.Sound causes)
    (f : α → State → Run ω (β × State)) (hall : ∀ fault, causes fault) :
    (p.transform f).Sound causes := by
  intro s
  apply ends_reported_andThen hp s
  intro a rest _
  rw [Run.ends_bind, Run.ends_iff]
  refine ⟨?_, fun fault _ _ => hall fault⟩
  intro step _
  obtain ⟨b, target⟩ := step
  rw [Run.ends_bind, Run.ends_iff]
  exact ⟨fun t ht => ((rest.reanchor_eq_ok_iff target t).mp ht).1, fun fault _ _ => hall fault⟩

theorem sound_extend {p : Parser ω ρ} (hp : p.Sound causes) (key : String)
    (choose : ρ → Run ω (Item ω β)) (store : ρ → β → Run ω γ)
    (hchoose : ∀ r, p.Gives r → (choose r).RaisesOnly causes)
    (hstore : ∀ r b, (store r b).RaisesOnly causes)
    (hq : ∀ r q, p.Gives r → (choose r).outcome = .ok (.parser q) → q.Sound causes) :
    (p.extend key choose store).Sound causes := by
  intro s
  apply ends_reported_andThen hp s
  intro r middle hr
  rw [Run.ends_bind]
  apply (hchoose r hr).ends
  · intro item hout
    cases item with
    | stray kind => exact fun h => h.elim
    | parser q =>
      apply ends_parse (hq r q hr hout) middle
      intro b rest _
      rw [Run.ends_bind]
      exact (hstore r b).ends (fun _ _ => State.Reaches.refl rest) (fun _ h _ => h)
  · exact fun _ h _ => h

theorem sound_defer (make : Run ω (Parser ω α)) (hraises : make.RaisesOnly causes)
    (hmake : ∀ p, make.outcome = .ok p → p.Sound causes) : (defer make).Sound causes := by
  intro s
  simp only [defer, Run.ends_bind]
  exact hraises.ends (fun p hout => hmake p hout s) (fun _ h _ => h)

end Parser

namespace Script

variable {ω σ α : Type} {causes : Fault → Prop}

/-- How a run of a script from a state may end, with the last local variables. -/
def EndsFrom (causes : Fault → Prop) (s : State) (ends : α → σ → Prop) :
    σ × Except Fault (Reply α) → Prop
  | (left, .ok (.success a rest)) => s.Reaches rest ∧ ends a left
  | (_, .ok (.failure e)) => ∃ t, s.Reaches t ∧ e.pos = t.pos
  | (_, .error fault) => fault.Blames causes

theorem EndsFrom.trans {s t : State} {ends : α → σ → Prop} {ended : σ × Except Fault (Reply α)}
    (hst : s.Reaches t) (h : EndsFrom causes t ends ended) : EndsFrom causes s ends ended := by
  obtain ⟨left, ended⟩ := ended
  rcases ended with fault | ⟨a, rest⟩ | e
  · exact h
  · exact ⟨hst.trans h.1, h.2⟩
  · obtain ⟨u, htu, hpos⟩ := h
    exact ⟨u, hst.trans htu, hpos⟩

/-- By induction on the script: each step starts where the one before it has left the state. -/
theorem ends_run {raises : Fault → Prop} {steps : Given ω}
    (hraises : ∀ fault, raises fault → causes fault)
    (hsteps : ∀ β p, steps β p → p.Sound causes) (body : Script ω σ α) (locals : σ) (s : State)
    (ends : α → σ → Prop) (huses : body.Uses steps raises locals ends) :
    (body.run locals s).Ends (EndsFrom causes s ends) fun _ => False := by
  induction body generalizing locals s with
  | done a => exact ⟨State.Reaches.refl s, huses⟩
  | act action next ih =>
    rw [run, Run.ends_bind, Run.ends_attempt, Run.ends_iff]
    refine ⟨?_, fun fault hout _ => hraises fault (huses.1 fault hout)⟩
    intro step hout
    obtain ⟨b, new⟩ := step
    exact ih b new s ends (huses.2 b new hout)
  | await item next ih =>
    cases item with
    | stray kind => exact fun h => h.elim
    | parser p =>
      rw [run, Run.ends_bind, Run.ends_attempt]
      apply (Parser.ends_reported (hsteps _ p huses.1) s).imp
      · intro reply _ h
        obtain ⟨hfrom, hgives⟩ := h
        cases reply with
        | success b rest =>
          have hnext := ih b locals rest ends (huses.2 b (hgives b rest rfl))
          exact hnext.imp (fun _ _ h => h.trans hfrom) (fun _ _ h => h)
        | failure e => exact hfrom
      · exact fun _ _ h => h
  | guarded body cleanup next ihbody ihnext =>
    rw [run, Run.ends_bind]
    apply (ihbody locals s _ huses.2).imp
    · rintro ⟨left, ended⟩ _ hended
      rw [Run.ends_bind, Run.ends_attempt]
      apply (huses.1 left).ends
      · rintro ⟨⟩ _
        rcases ended with fault | ⟨b, rest⟩ | e
        · exact hended
        · have hnext := ihnext b left rest ends hended.2
          exact hnext.imp (fun _ _ h => h.trans hended.1) (fun _ _ h => h)
        · exact hended
      · exact fun fault h _ => hraises fault h
    · exact fun _ _ h => h

end Script

namespace Parser

variable {ω σ α ι : Type} {causes : Fault → Prop}

theorem sound_ofScript {raises : Fault → Prop} {steps : Given ω}
    (hraises : ∀ fault, raises fault → causes fault)
    (hsteps : ∀ β p, steps β p → p.Sound causes) (body : Script ω σ (Ending ω α)) (locals : σ)
    (huses : body.Uses steps raises locals fun ending _ =>
      ∀ p, ending = .parser p → steps α p) : (ofScript body locals).Sound causes := by
  intro s
  rw [ofScript, Run.ends_bind]
  apply (Script.ends_run hraises hsteps body locals s _ huses).imp
  · rintro ⟨left, ended⟩ _ hended
    rcases ended with fault | ⟨a | p, rest⟩ | e
    · exact hended
    · exact hended.1
    · have hp := hsteps α p (hended.2 p rfl) rest
      exact hp.imp (fun _ _ h => h.trans hended.1) (fun _ _ h => h)
    · exact hended
  · exact fun _ _ h => h.elim

/-- Rules that are sound over sound references are sound at every depth. Descending too deep is a
fault, but no desync. -/
theorem sound_within {R : ι → Type} (rules : Rules ω R)
    (hrules : ∀ refs : (i : ι) → Parser ω (R i), (∀ i, (refs i).Sound causes) →
      ∀ i, (rules refs i).Sound causes) (depth : Nat) (i : ι) :
    (rules.within depth i).Sound causes := by
  induction depth generalizing i with
  | zero => exact fun _ h => h.elim
  | succ depth ih =>
    apply hrules
    intro j
    exact sound_defer _ (fun _ h => by cases h) (fun p h => by cases h; exact ih j)

theorem sound_rule {R : ι → Type} (rules : Rules ω R)
    (hrules : ∀ refs : (i : ι) → Parser ω (R i), (∀ i, (refs i).Sound causes) →
      ∀ i, (rules refs i).Sound causes) (i : ι) : (rules.parser i).Sound causes :=
  fun s => sound_within rules hrules (s.input.length + 1) i s

end Parser

variable {ω α : Type}

theorem sound_given_or_reference {ι : Type} {R : ι → Type} {causes : Fault → Prop}
    {given : Given ω} {refs : (i : ι) → Parser ω (R i)}
    (hgiven : ∀ β q, given β q → q.Sound causes) (hrefs : ∀ i, (refs i).Sound causes) :
    ∀ β q, given β q ∨ Reference refs β q → q.Sound causes :=
  Reference.of_given_or (fun _ q => q.Sound causes) hgiven hrefs

namespace Composed

variable {kit : Kit ω} {given : Given ω}

/-- By induction on how the parser is built. Where rules refer to one another, the references count
as given, and are sound because the recursion is no deeper than some bound. -/
theorem sound {causes : Fault → Prop} (hraises : ∀ fault, kit.raises fault → causes fault)
    (htransforms : ∀ {β γ} (f : β → State → Run ω (γ × State)), kit.transforms f →
      ∀ fault, causes fault) {p : Parser ω α} (hp : Composed kit given α p)
    (hgiven : ∀ β q, given β q → q.Sound causes) : p.Sound causes := by
  have hcallback {β : Type} {x : Run ω β} (h : x.RaisesOnly kit.raises) : x.RaisesOnly causes :=
    fun fault hout => hraises fault (h fault hout)
  induction hp with
  | given p hp => exact hgiven _ p hp
  | result a => exact Parser.sound_result a
  | fail message expected => exact Parser.sound_fail message expected
  | satisfy property description => exact Parser.sound_satisfy property description
  | text t => exact Parser.sound_text t
  | span property hspan => exact Parser.sound_span property
  | trace label => exact Parser.sound_trace label
  | stray kind => exact Parser.sound_stray kind
  | named label hp ih => exact ih hgiven
  | withMessage message hp ih => exact Parser.sound_withMessage (ih hgiven) message
  | withMessageFrom f hp hf hr ih =>
    exact Parser.sound_withMessageFrom (ih hgiven) f fun e => hcallback (hr e)
  | map f hp hr ih => exact Parser.sound_map (ih hgiven) f fun a ha => hcallback (hr a ha)
  | flatMap f hp hr hf ih ihf =>
    exact Parser.sound_flatMap (ih hgiven) f (fun a ha => hcallback (hr a ha))
      fun a q ha hout => ihf a q ha hout hgiven
  | zip hp hq ihp ihq => exact Parser.sound_zip (ihp hgiven) (ihq hgiven)
  | transform f hp hf ih => exact Parser.sound_transform (ih hgiven) f (htransforms f hf)
  | extend key choose store hp hr hstore hchoose ih ihchoose =>
    exact Parser.sound_extend (ih hgiven) key choose store (fun r h => hcallback (hr r h))
      (fun r b => hcallback (hstore r b)) fun r q h hout => ihchoose r q h hout hgiven
  | defer make hr hmake ih =>
    exact Parser.sound_defer make (hcallback hr) fun p hout => ih p hout hgiven
  | ofScript body locals steps huses hsteps ih =>
    exact Parser.sound_ofScript hraises (fun β p h => ih β p h hgiven) body locals huses
  | within rules hrules depth i ih =>
    refine Parser.sound_within rules ?_ depth i
    exact fun refs hrefs j => ih refs j (sound_given_or_reference hgiven hrefs)
  | rule rules hrules i ih =>
    refine Parser.sound_rule rules ?_ i
    exact fun refs hrefs j => ih refs j (sound_given_or_reference hgiven hrefs)

/-- A grammar over faithful parsers is sound if desync faults are left out of account. -/
theorem sound_of_faithful {p : Parser ω α} (hp : Composed kit given α p)
    (hgiven : ∀ β q, given β q → q.Faithful) : p.Sound fun _ => True := by
  apply hp.sound (fun _ _ => trivial) (fun _ _ _ => trivial)
  exact fun β q hq => (Parser.sound_iff q).mpr ⟨hgiven β q hq, fun _ _ _ _ => trivial⟩

end Composed

/-- Every grammar over faithful parsers is faithful, whatever its callbacks do, on every run that
replies. If it transforms no states, then no run of it ends with a desync fault, unless a callback
raises that fault or a given parser ends with it. So a parse of a whole text ends at the position
after what it took, and its failure is at the position after some start of the text. -/
theorem positions_of_composed (kit : Kit ω) (given : Given ω)
    (hgiven : ∀ β q, given β q → q.Faithful) (p : Parser ω α) (hp : Composed kit given α p) :
    p.Faithful ∧
    ((∀ {β γ} (f : β → State → Run ω (γ × State)), ¬ kit.transforms f) →
      (∀ β q, given β q → q.DesyncsOnly kit.raises) → p.DesyncsOnly kit.raises) ∧
    (∀ source a rest, (p.answer source).outcome = .ok (.success a rest) →
      ∃ taken, source = taken ++ rest.input ∧ rest.pos = Position.advance {} taken) ∧
    ∀ source e, (p.answer source).outcome = .ok (.failure e) →
      ∃ taken left, source = taken ++ left ∧ e.pos = Position.advance {} taken := by
  have hsound := hp.sound_of_faithful hgiven
  refine ⟨((Parser.sound_iff p).mp hsound).1, ?_, ?_, ?_⟩
  · intro hplain hdesync
    have h : p.Sound kit.raises := by
      apply hp.sound (fun _ h => h) (fun f hf => (hplain f hf).elim)
      exact fun β q hq => (Parser.sound_iff q).mpr ⟨hgiven β q hq, hdesync β q hq⟩
    exact ((Parser.sound_iff p).mp h).2
  · intro source a rest hout
    exact ((Run.ends_iff _ _ _).mp (Parser.ends_answer hsound source)).1 _ hout
  · intro source e hout
    obtain ⟨t, ⟨taken, hinput, hpos⟩, he⟩ :=
      ((Run.ends_iff _ _ _).mp (Parser.ends_answer hsound source)).1 _ hout
    exact ⟨taken, t.input, hinput, he.trans hpos⟩

/-- The recursive grammar of nested parentheses is composed of recognizers alone. -/
theorem positions_of_nested :
    (∀ β q, Given.none Empty β q → q.Faithful) ∧
    Composed (Kit.plain Empty) (Given.none Empty) Nat Nesting.nested ∧
    (Nesting.nested : Parser Empty Nat).Faithful ∧
    (Nesting.nested : Parser Empty Nat).DesyncsOnly fun _ => False := by
  have hgiven : ∀ β q, Given.none Empty β q → q.Faithful := fun _ _ h => h.elim
  have hnested := Nesting.composed_nested (Kit.plain Empty) (Given.none Empty)
  have h := positions_of_composed _ _ hgiven _ hnested
  exact ⟨hgiven, hnested, h.1, h.2.1 (fun _ h => h) fun _ _ h => h.elim⟩

end Parsing
