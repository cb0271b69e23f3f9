import Parsing.Parser.Recursion
import Parsing.Proofs.Alike
import Parsing.Proofs.Overrides
import Parsing.Script

/-!
Grammars that are built in the same way. `BuiltAlike` relates two grammars step by step: each step
is one operation on parts that are related already, and callbacks may differ as long as they do the
same. The callbacks that change value and state together may also differ in the positions of the
states that they give. None of this shows: from every state such grammars do the same, up to the
positions that a fault comes with. Values are related rather than equal, so that parsers may be
values and be passed around before they are used.
-/

namespace Parsing

theorem State.Abreast.eq {s t t' : State} (h : s.Abreast s t t') : t = t' := by
  obtain ⟨hinput, taken, ⟨-, hpos⟩, ⟨-, hpos'⟩⟩ := h
  rw [State.mk.injEq]
  exact ⟨hinput, by rw [hpos, hpos']⟩

namespace Reply

variable {ω α β γ δ : Type} {value : α → β → Prop} {value' : γ → δ → Prop}

/-- Successes with values that are related, in the same state, or the same failure. -/
inductive Corresponds (value : α → β → Prop) : Reply α → Reply β → Prop
  | success {a : α} {b : β} (t : State) (h : value a b) :
      Corresponds value (.success a t) (.success b t)
  | failure (e : Failure) : Corresponds value (.failure e) (.failure e)

theorem Corresponds.reworded {reply : Reply α} {reply' : Reply β}
    (h : reply.Corresponds value reply') (message : Option String) :
    (reply.reworded message).Corresponds value (reply'.reworded message) := by
  cases h with
  | success t h => exact .success t h
  | failure e => exact .failure _

theorem Corresponds.imp {reply : Reply α} {reply' : Reply β} {wider : α → β → Prop}
    (h : reply.Corresponds value reply') (himp : ∀ a b, value a b → wider a b) :
    reply.Corresponds wider reply' := by
  cases h with
  | success t h => exact .success t (himp _ _ h)
  | failure e => exact .failure e

theorem corresponds_eq {reply reply' : Reply α} (h : reply.Corresponds Eq reply') :
    reply = reply' := by
  cases h with
  | success t h => rw [h]
  | failure e => rfl

/-- What goes on from related values in the same state. -/
theorem alike_andThen_of_corresponds {x : Run ω (Reply α)} {y : Run ω (Reply β)}
    {k : α → State → Run ω (Reply γ)} {k' : β → State → Run ω (Reply δ)}
    (h : x.Alike (Corresponds value) y)
    (hk : ∀ a b t, value a b → (k a t).Alike (Corresponds value') (k' b t)) :
    (x >>= fun reply => reply.andThen k).Alike (Corresponds value')
      (y >>= fun reply => reply.andThen k') := by
  apply h.bind
  intro reply reply' _ hreply
  cases hreply with
  | success t hab => exact hk _ _ t hab
  | failure e => exact Run.alike_pure (.failure e)

end Reply

/-- Relations between parsers, for each way to relate their values. -/
abbrev Correspondence (ω : Type) :=
  (α β : Type) → (α → β → Prop) → Parser ω α → Parser ω β → Prop

/-- No two parsers. -/
def Correspondence.none (ω : Type) : Correspondence ω := fun _ _ _ _ _ => False

/-- The parsers record the same message and do the same from every state. -/
structure Parser.Corresponds {ω : Type} (α β : Type) (value : α → β → Prop) (p : Parser ω α)
    (q : Parser ω β) : Prop where
  message : p.message = q.message
  alike : ∀ s, (p.parse s).Alike (Reply.Corresponds value) (q.parse s)

/-- Parsers that are related, or things of one kind that are no parsers. -/
inductive Item.Corresponds {ω α β : Type} (steps : Correspondence ω) (value : α → β → Prop) :
    Item ω α → Item ω β → Prop
  | parser {p : Parser ω α} {q : Parser ω β} (h : steps α β value p q) :
      Corresponds steps value (.parser p) (.parser q)
  | stray (kind : Kind) : Corresponds steps value (.stray kind) (.stray kind)

inductive Ending.Corresponds {ω α β : Type} (steps : Correspondence ω) (value : α → β → Prop) :
    Ending ω α → Ending ω β → Prop
  | value {a : α} {b : β} (h : value a b) : Corresponds steps value (.value a) (.value b)
  | parser {p : Parser ω α} {q : Parser ω β} (h : steps α β value p q) :
      Corresponds steps value (.parser p) (.parser q)

/-! Parsers. -/

namespace Parser

variable {ω α β γ δ ρ π : Type} {value : α → β → Prop} {value' : γ → δ → Prop}
  {p : Parser ω α} {q : Parser ω β}

theorem Corresponds.reported (h : Corresponds α β value p q) (s : State) :
    (p.reported s).Alike (Reply.Corresponds value) (q.reported s) := by
  apply (h.alike s).bind
  intro reply reply' _ hreply
  rw [h.message]
  exact Run.alike_pure (hreply.reworded q.message)

theorem Corresponds.answer (h : Corresponds α β value p q) (source : Text) :
    (p.answer source).Alike (Reply.Corresponds value) (q.answer source) := by
  obtain ⟨hevents, houtcome⟩ := h.reported (.ofText source)
  constructor
  · rw [events_answer, events_answer, hevents]
  · rw [answer_eq, answer_eq]
    exact houtcome

theorem Corresponds.refl (p : Parser ω α) : Corresponds α α Eq p p where
  message := rfl
  alike s := by
    apply (Run.Alike.refl (p.parse s)).imp
    rintro reply _ rfl
    cases reply with
    | success a t => exact .success t rfl
    | failure e => exact .failure e

theorem Corresponds.imp {wider : α → β → Prop} (h : Corresponds α β value p q)
    (himp : ∀ a b, value a b → wider a b) : Corresponds α β wider p q where
  message := h.message
  alike s := (h.alike s).imp fun _ _ hreply => hreply.imp himp

theorem corresponds_result {a : α} {b : β} (h : value a b) :
    Corresponds α β value (result a : Parser ω α) (result b) where
  message := rfl
  alike s := Run.alike_pure (.success s h)

theorem corresponds_withMessage (h : Corresponds α β value p q) (message : String) :
    Corresponds α β value (p.withMessage message) (q.withMessage message) where
  message := rfl
  alike s := by
    apply (h.alike s).bind
    intro reply reply' _ hreply
    exact Run.alike_pure (hreply.reworded message)

theorem corresponds_withMessageFrom (h : Corresponds α β value p q) {f f' : Failure → Run ω String}
    (hf : ∀ e, (f e).Alike Eq (f' e)) :
    Corresponds α β value (p.withMessageFrom f) (q.withMessageFrom f') where
  message := rfl
  alike s := by
    apply (h.alike s).bind
    intro reply reply' _ hreply
    cases hreply with
    | success t hab => exact Run.alike_pure (.success t hab)
    | failure e =>
      apply (hf e).bind
      rintro message _ _ rfl
      exact Run.alike_pure (.failure _)

theorem corresponds_map (h : Corresponds α β value p q) {f : α → Run ω γ} {f' : β → Run ω δ}
    (hf : ∀ a b, value a b → (f a).Alike value' (f' b)) :
    Corresponds γ δ value' (p.map f) (q.map f') where
  message := rfl
  alike s := by
    apply Reply.alike_andThen_of_corresponds (h.reported s)
    intro a b t hab
    apply (hf a b hab).bind
    intro c d _ hcd
    exact Run.alike_pure (.success t hcd)

theorem corresponds_flatMap (h : Corresponds α β value p q) {f : α → Run ω (Parser ω γ)}
    {f' : β → Run ω (Parser ω δ)}
    (hf : ∀ a b, value a b → (f a).Alike (Corresponds γ δ value') (f' b)) :
    Corresponds γ δ value' (p.flatMap f) (q.flatMap f') where
  message := rfl
  alike s := by
    apply Reply.alike_andThen_of_corresponds (h.reported s)
    intro a b t hab
    apply (hf a b hab).bind
    intro next next' _ hnext
    exact hnext.alike t

theorem corresponds_zip {r : Parser ω γ} {r' : Parser ω δ} (h : Corresponds α β value p q)
    (hr : Corresponds γ δ value' r r') :
    Corresponds (α × γ) (β × δ) (fun x y => value x.1 y.1 ∧ value' x.2 y.2) (p.zip r)
      (q.zip r') where
  message := rfl
  alike s := by
    apply Reply.alike_andThen_of_corresponds (h.alike s)
    intro a b middle hab
    apply Reply.alike_andThen_of_corresponds (hr.alike middle)
    intro c d t hcd
    exact Run.alike_pure (.success t ⟨hab, hcd⟩)

/-- Of the state that a callback gives the input alone counts. -/
theorem corresponds_transform (h : Corresponds α β value p q) {f : α → State → Run ω (γ × State)}
    {f' : β → State → Run ω (δ × State)}
    (hf : ∀ a b, value a b → ∀ s,
      (f a s).Alike (fun x y => value' x.1 y.1 ∧ x.2.input = y.2.input) (f' b s)) :
    Corresponds γ δ value' (p.transform f) (q.transform f') where
  message := rfl
  alike s := by
    apply Reply.alike_andThen_of_corresponds (h.reported s)
    intro a b t hab
    apply (hf a b hab t).bind
    rintro ⟨c, target⟩ ⟨d, target'⟩ _ ⟨hcd, htarget⟩
    apply (Run.alike_ofExcept (State.agree_reanchor rfl htarget)).bind
    intro u u' _ hu
    rw [hu.eq]
    exact Run.alike_pure (.success u' hcd)

theorem corresponds_extend {store : α → γ → Run ω ρ} {store' : β → δ → Run ω π}
    {stored : ρ → π → Prop} (h : Corresponds α β value p q) (key : String)
    {choose : α → Run ω (Item ω γ)} {choose' : β → Run ω (Item ω δ)}
    (hchoose : ∀ a b, value a b →
      (choose a).Alike (Item.Corresponds Corresponds value') (choose' b))
    (hstore : ∀ a b, value a b → ∀ c d, value' c d → (store a c).Alike stored (store' b d)) :
    Corresponds ρ π stored (p.extend key choose store) (q.extend key choose' store') where
  message := rfl
  alike s := by
    apply Reply.alike_andThen_of_corresponds (h.reported s)
    intro a b middle hab
    apply (hchoose a b hab).bind
    intro item item' _ hitem
    cases hitem with
    | stray kind => exact Run.alike_raise rfl
    | parser hr =>
      apply Reply.alike_andThen_of_corresponds (hr.alike middle)
      intro c d t hcd
      apply (hstore a b hab c d hcd).bind
      intro r r' _ hstored
      exact Run.alike_pure (.success t hstored)

theorem corresponds_defer {make : Run ω (Parser ω α)} {make' : Run ω (Parser ω β)}
    (hmake : make.Alike (Corresponds α β value) make') :
    Corresponds α β value (defer make) (defer make') where
  message := rfl
  alike s := by
    apply hmake.bind
    intro r r' _ hr
    exact hr.alike s

end Parser

/-! Scripts. -/

namespace Script

variable {ω σ τ α β γ δ : Type}

/-- The scripts take the same steps, with related parsers to wait for and related values to go on
with. Actions and cleanups do the same from related local variables. -/
inductive Parallel (steps : Correspondence ω) (same : σ → τ → Prop) :
    {α β : Type} → (α → β → Prop) → Script ω σ α → Script ω τ β → Prop
  | done {α β : Type} {value : α → β → Prop} {a : α} {b : β} (h : value a b) :
      Parallel steps same value (.done a) (.done b)
  | act {α β γ δ : Type} {value : α → β → Prop} (acted : γ → δ → Prop)
      {action : σ → Run ω (γ × σ)} {action' : τ → Run ω (δ × τ)} {next : γ → Script ω σ α}
      {next' : δ → Script ω τ β}
      (haction : ∀ l l', same l l' →
        (action l).Alike (fun x y => acted x.1 y.1 ∧ same x.2 y.2) (action' l'))
      (hnext : ∀ c d, acted c d → Parallel steps same value (next c) (next' d)) :
      Parallel steps same value (.act action next) (.act action' next')
  | await {α β γ δ : Type} {value : α → β → Prop} (given : γ → δ → Prop) {p : Parser ω γ}
      {q : Parser ω δ} {next : γ → Script ω σ α} {next' : δ → Script ω τ β}
      (hstep : steps γ δ given p q)
      (hnext : ∀ c d, given c d → Parallel steps same value (next c) (next' d)) :
      Parallel steps same value (.await (.parser p) next) (.await (.parser q) next')
  | stray {α β γ δ : Type} {value : α → β → Prop} (kind : Kind) {next : γ → Script ω σ α}
      {next' : δ → Script ω τ β} :
      Parallel steps same value (.await (.stray kind) next) (.await (.stray kind) next')
  | guarded {α β γ δ : Type} {value : α → β → Prop} (ended : γ → δ → Prop) {body : Script ω σ γ}
      {body' : Script ω τ δ} {cleanup : σ → Run ω Unit} {cleanup' : τ → Run ω Unit}
      {next : γ → Script ω σ α} {next' : δ → Script ω τ β}
      (hbody : Parallel steps same ended body body')
      (hcleanup : ∀ l l', same l l' → (cleanup l).Alike Eq (cleanup' l'))
      (hnext : ∀ c d, ended c d → Parallel steps same value (next c) (next' d)) :
      Parallel steps same value (.guarded body cleanup next) (.guarded body' cleanup' next')

/-- How parallel scripts end. -/
def EndParallel (same : σ → τ → Prop) (value : α → β → Prop)
    (x : σ × Except Fault (Reply α)) (y : τ × Except Fault (Reply β)) : Prop :=
  same x.1 y.1 ∧ Run.Agree (Reply.Corresponds value) x.2 y.2

variable {same : σ → τ → Prop} {value : α → β → Prop} {given : γ → δ → Prop}

theorem parallel_goOn {l : σ} {l' : τ} {ended : Except Fault (Reply γ)}
    {ended' : Except Fault (Reply δ)} (hsame : same l l')
    (hended : Run.Agree (Reply.Corresponds given) ended ended')
    {next : γ → State → Run ω (σ × Except Fault (Reply α))}
    {next' : δ → State → Run ω (τ × Except Fault (Reply β))}
    (hnext : ∀ c d t, given c d → (next c t).Alike (EndParallel same value) (next' d t)) :
    (goOn l next ended).Alike (EndParallel same value) (goOn l' next' ended') := by
  cases hended with
  | error hfault => exact Run.alike_pure ⟨hsame, .error hfault⟩
  | ok hreply =>
    cases hreply with
    | success t hcd => exact hnext _ _ t hcd
    | failure e => exact Run.alike_pure ⟨hsame, .ok (.failure e)⟩

/-- By induction on the steps that the scripts have in common. -/
theorem Parallel.alike_run {steps : Correspondence ω} {body : Script ω σ α} {body' : Script ω τ β}
    (h : Parallel steps same value body body')
    (hsteps : ∀ γ δ given p q, steps γ δ given p q → Parser.Corresponds γ δ given p q) {l : σ}
    {l' : τ} (hsame : same l l') (s : State) :
    (body.run l s).Alike (EndParallel same value) (body'.run l' s) := by
  induction h generalizing l l' s with
  | done h => exact Run.alike_pure ⟨hsame, .ok (.success s h)⟩
  | act acted haction hnext ih =>
    rw [run, run]
    apply (haction l l' hsame).attempt.bind
    intro ended ended' _ hended
    cases hended with
    | error hfault => exact Run.alike_pure ⟨hsame, .error hfault⟩
    | ok h => exact ih _ _ h.1 h.2 s
  | await given hstep hnext ih =>
    rw [run_await, run_await]
    apply ((hsteps _ _ _ _ _ hstep).reported s).attempt.bind
    intro ended ended' _ hended
    exact parallel_goOn hsame hended fun c d t hcd => ih c d hcd hsame t
  | stray kind => exact Run.alike_pure ⟨hsame, .error rfl⟩
  | guarded ended hbody hcleanup hnext ihbody ihnext =>
    rw [run_guarded, run_guarded]
    apply (ihbody hsame s).bind
    rintro ⟨left, ended⟩ ⟨left', ended'⟩ _ ⟨hleft, hended⟩
    apply (hcleanup left left' hleft).attempt.bind
    intro cleaned cleaned' _ hcleaned
    cases hcleaned with
    | error hfault => exact Run.alike_pure ⟨hleft, .error hfault⟩
    | ok _ => exact parallel_goOn hleft hended fun c d t hcd => ihnext c d hcd hleft t

end Script

/-! Parse functions of the caller. -/

/-- What a parse function of the caller does with a state: it acts and runs parsers on states of its
choice, goes on as a function of what they reply, and ends with a reply of its own. -/
inductive Calls (ω α : Type) : Type 1 where
  | ends (reply : Reply α)
  | act {γ : Type} (action : Run ω γ) (next : γ → Calls ω α)
  | call {γ : Type} (p : Parser ω γ) (s : State) (next : Reply γ → Calls ω α)

namespace Calls

variable {ω α β : Type}

def run : Calls ω α → Run ω (Reply α)
  | ends reply => return reply
  | act action next => do (next (← action)).run
  | call p s next => do (next (← p.parse s)).run

/-- The same parse function, with related parsers to run. -/
inductive Parallel (steps : Correspondence ω) (value : α → β → Prop) :
    Calls ω α → Calls ω β → Prop
  | ends {reply : Reply α} {reply' : Reply β} (h : reply.Corresponds value reply') :
      Parallel steps value (.ends reply) (.ends reply')
  | act {γ δ : Type} (acted : γ → δ → Prop) {action : Run ω γ} {action' : Run ω δ}
      {next : γ → Calls ω α} {next' : δ → Calls ω β} (haction : action.Alike acted action')
      (hnext : ∀ c d, acted c d → Parallel steps value (next c) (next' d)) :
      Parallel steps value (.act action next) (.act action' next')
  | call {γ δ : Type} (given : γ → δ → Prop) {p : Parser ω γ} {q : Parser ω δ} (s : State)
      {next : Reply γ → Calls ω α} {next' : Reply δ → Calls ω β} (hstep : steps γ δ given p q)
      (hnext : ∀ reply reply', reply.Corresponds given reply' →
        Parallel steps value (next reply) (next' reply')) :
      Parallel steps value (.call p s next) (.call q s next')

variable {value : α → β → Prop}

theorem Parallel.alike_run {steps : Correspondence ω} {calls : Calls ω α} {calls' : Calls ω β}
    (h : Parallel steps value calls calls')
    (hsteps : ∀ γ δ given p q, steps γ δ given p q → Parser.Corresponds γ δ given p q) :
    calls.run.Alike (Reply.Corresponds value) calls'.run := by
  induction h with
  | ends h => exact Run.alike_pure h
  | act acted haction hnext ih =>
    apply haction.bind
    exact fun c d _ hcd => ih c d hcd
  | call given s hstep hnext ih =>
    apply ((hsteps _ _ _ _ _ hstep).alike s).bind
    exact fun reply reply' _ hreply => ih reply reply' hreply

end Calls

namespace Parser

variable {ω σ τ α β : Type} {value : α → β → Prop}

def calling (calls : State → Calls ω α) : Parser ω α where
  parse s := (calls s).run

theorem corresponds_calling {steps : Correspondence ω} {calls : State → Calls ω α}
    {calls' : State → Calls ω β} (h : ∀ s, (calls s).Parallel steps value (calls' s))
    (hsteps : ∀ γ δ given p q, steps γ δ given p q → Corresponds γ δ given p q) :
    Corresponds α β value (calling calls) (calling calls') where
  message := rfl
  alike s := (h s).alike_run hsteps

theorem corresponds_ofScript {steps : Correspondence ω} {same : σ → τ → Prop}
    {body : Script ω σ (Ending ω α)} {body' : Script ω τ (Ending ω β)} {l : σ} {l' : τ}
    (h : Script.Parallel steps same (Ending.Corresponds steps value) body body') (hsame : same l l')
    (hsteps : ∀ γ δ given p q, steps γ δ given p q → Corresponds γ δ given p q) :
    Corresponds α β value (ofScript body l) (ofScript body' l') where
  message := rfl
  alike s := by
    apply (h.alike_run hsteps hsame s).bind
    rintro ⟨left, ended⟩ ⟨left', ended'⟩ _ ⟨-, hended⟩
    apply Reply.alike_andThen_of_corresponds (Run.alike_ofExcept hended)
    intro ending ending' t hending
    cases hending with
    | value hab => exact Run.alike_pure (.success t hab)
    | parser hr => exact (hsteps _ _ _ _ _ hr).alike t

/-! Rules. -/

variable {ι : Type} {R R' : ι → Type} {values : (i : ι) → R i → R' i → Prop}

theorem corresponds_within {rules : Rules ω R} {rules' : Rules ω R'}
    (h : ∀ refs refs', (∀ i, Corresponds (R i) (R' i) (values i) (refs i) (refs' i)) →
      ∀ i, Corresponds (R i) (R' i) (values i) (rules refs i) (rules' refs' i)) (depth : Nat)
    (i : ι) :
    Corresponds (R i) (R' i) (values i) (rules.within depth i) (rules'.within depth i) := by
  induction depth generalizing i with
  | zero => exact ⟨rfl, fun s => Run.alike_raise rfl⟩
  | succ depth ih =>
    apply h
    intro j
    exact corresponds_defer (Run.alike_pure (ih j))

theorem corresponds_rule {rules : Rules ω R} {rules' : Rules ω R'}
    (h : ∀ refs refs', (∀ i, Corresponds (R i) (R' i) (values i) (refs i) (refs' i)) →
      ∀ i, Corresponds (R i) (R' i) (values i) (rules refs i) (rules' refs' i)) (i : ι) :
    Corresponds (R i) (R' i) (values i) (rules.parser i) (rules'.parser i) where
  message := (corresponds_within h 1 i).message
  alike s := (corresponds_within h (s.input.length + 1) i).alike s

end Parser

/-- The references to the rules of one grammar and those to the rules of the other, rule by rule. -/
inductive References {ω ι : Type} {R R' : ι → Type} (values : (i : ι) → R i → R' i → Prop)
    (refs : (i : ι) → Parser ω (R i)) (refs' : (i : ι) → Parser ω (R' i)) : Correspondence ω
  | mk (i : ι) : References values refs refs' (R i) (R' i) (values i) (refs i) (refs' i)

open Parsing.Parser in
/-- The grammars are built in the same way over the given pairs of parsers. Whatever has no parts
that differ is related to itself. Where callbacks give parsers, `steps` says which of them may come
together, and any relation will do that holds of grammars built in the same way only. -/
inductive BuiltAlike {ω : Type} : Correspondence ω → Correspondence ω
  | given {given : Correspondence ω} {α β : Type} {value : α → β → Prop} {p : Parser ω α}
      {q : Parser ω β} (h : given α β value p q) : BuiltAlike given α β value p q
  | same {given : Correspondence ω} {α : Type} (p : Parser ω α) : BuiltAlike given α α Eq p p
  | imp {given : Correspondence ω} {α β : Type} {value wider : α → β → Prop} {p : Parser ω α}
      {q : Parser ω β} (h : BuiltAlike given α β value p q)
      (himp : ∀ a b, value a b → wider a b) : BuiltAlike given α β wider p q
  | result {given : Correspondence ω} {α β : Type} {value : α → β → Prop} {a : α} {b : β}
      (h : value a b) : BuiltAlike given α β value (.result a) (.result b)
  | named {given : Correspondence ω} {α β : Type} {value : α → β → Prop} {p : Parser ω α}
      {q : Parser ω β} (label : String) (h : BuiltAlike given α β value p q) :
      BuiltAlike given α β value (p.named label) (q.named label)
  | withMessage {given : Correspondence ω} {α β : Type} {value : α → β → Prop} {p : Parser ω α}
      {q : Parser ω β} (message : String) (h : BuiltAlike given α β value p q) :
      BuiltAlike given α β value (p.withMessage message) (q.withMessage message)
  | withMessageFrom {given : Correspondence ω} {α β : Type} {value : α → β → Prop}
      {p : Parser ω α} {q : Parser ω β} (f f' : Failure → Run ω String)
      (h : BuiltAlike given α β value p q) (hf : ∀ e, (f e).Alike Eq (f' e)) :
      BuiltAlike given α β value (p.withMessageFrom f) (q.withMessageFrom f')
  | map {given : Correspondence ω} {α β γ δ : Type} {value : α → β → Prop}
      {value' : γ → δ → Prop} {p : Parser ω α} {q : Parser ω β} (f : α → Run ω γ)
      (f' : β → Run ω δ) (h : BuiltAlike given α β value p q)
      (hf : ∀ a b, value a b → (f a).Alike value' (f' b)) :
      BuiltAlike given γ δ value' (p.map f) (q.map f')
  | flatMap {given : Correspondence ω} {α β γ δ : Type} {value : α → β → Prop}
      {value' : γ → δ → Prop} {p : Parser ω α} {q : Parser ω β} (f : α → Run ω (Parser ω γ))
      (f' : β → Run ω (Parser ω δ)) (steps : Correspondence ω)
      (h : BuiltAlike given α β value p q)
      (hf : ∀ a b, value a b → (f a).Alike (steps γ δ value') (f' b))
      (hsteps : ∀ γ δ value r r', steps γ δ value r r' → BuiltAlike given γ δ value r r') :
      BuiltAlike given γ δ value' (p.flatMap f) (q.flatMap f')
  | zip {given : Correspondence ω} {α β γ δ : Type} {value : α → β → Prop}
      {value' : γ → δ → Prop} {p : Parser ω α} {q : Parser ω β} {r : Parser ω γ}
      {r' : Parser ω δ} (h : BuiltAlike given α β value p q)
      (hr : BuiltAlike given γ δ value' r r') :
      BuiltAlike given (α × γ) (β × δ) (fun x y => value x.1 y.1 ∧ value' x.2 y.2) (p.zip r)
        (q.zip r')
  /-- The callbacks may put any positions in the states that they give. -/
  | transform {given : Correspondence ω} {α β γ δ : Type} {value : α → β → Prop}
      {value' : γ → δ → Prop} {p : Parser ω α} {q : Parser ω β}
      (f : α → State → Run ω (γ × State)) (f' : β → State → Run ω (δ × State))
      (h : BuiltAlike given α β value p q)
      (hf : ∀ a b, value a b → ∀ s,
        (f a s).Alike (fun x y => value' x.1 y.1 ∧ x.2.input = y.2.input) (f' b s)) :
      BuiltAlike given γ δ value' (p.transform f) (q.transform f')
  | extend {given : Correspondence ω} {α β γ δ ρ π : Type} {value : α → β → Prop}
      {value' : γ → δ → Prop} {stored : ρ → π → Prop} {p : Parser ω α} {q : Parser ω β}
      (key : String) (choose : α → Run ω (Item ω γ)) (choose' : β → Run ω (Item ω δ))
      (store : α → γ → Run ω ρ) (store' : β → δ → Run ω π) (steps : Correspondence ω)
      (h : BuiltAlike given α β value p q)
      (hchoose : ∀ a b, value a b →
        (choose a).Alike (Item.Corresponds steps value') (choose' b))
      (hstore : ∀ a b, value a b → ∀ c d, value' c d → (store a c).Alike stored (store' b d))
      (hsteps : ∀ γ δ value r r', steps γ δ value r r' → BuiltAlike given γ δ value r r') :
      BuiltAlike given ρ π stored (p.extend key choose store) (q.extend key choose' store')
  | defer {given : Correspondence ω} {α β : Type} {value : α → β → Prop}
      (make : Run ω (Parser ω α)) (make' : Run ω (Parser ω β)) (steps : Correspondence ω)
      (hmake : make.Alike (steps α β value) make')
      (hsteps : ∀ γ δ value r r', steps γ δ value r r' → BuiltAlike given γ δ value r r') :
      BuiltAlike given α β value (.defer make) (.defer make')
  | calling {given : Correspondence ω} {α β : Type} {value : α → β → Prop}
      (calls : State → Calls ω α) (calls' : State → Calls ω β) (steps : Correspondence ω)
      (hcalls : ∀ s, (calls s).Parallel steps value (calls' s))
      (hsteps : ∀ γ δ value r r', steps γ δ value r r' → BuiltAlike given γ δ value r r') :
      BuiltAlike given α β value (.calling calls) (.calling calls')
  | ofScript {given : Correspondence ω} {σ τ α β : Type} {value : α → β → Prop}
      {body : Script ω σ (Ending ω α)} {body' : Script ω τ (Ending ω β)} {l : σ} {l' : τ}
      (same : σ → τ → Prop) (steps : Correspondence ω)
      (hbody : Script.Parallel steps same (Ending.Corresponds steps value) body body')
      (hsame : same l l')
      (hsteps : ∀ γ δ value r r', steps γ δ value r r' → BuiltAlike given γ δ value r r') :
      BuiltAlike given α β value (.ofScript body l) (.ofScript body' l')
  /-- Rules may use the references to one another as given parsers. -/
  | within {given : Correspondence ω} {ι : Type} {R R' : ι → Type}
      (values : (i : ι) → R i → R' i → Prop) (rules : Rules ω R) (rules' : Rules ω R')
      (hrules : ∀ refs refs' i, BuiltAlike (fun α β value p q =>
          given α β value p q ∨ References values refs refs' α β value p q)
        (R i) (R' i) (values i) (rules refs i) (rules' refs' i)) (depth : Nat) (i : ι) :
      BuiltAlike given (R i) (R' i) (values i) (rules.within depth i) (rules'.within depth i)
  | rule {given : Correspondence ω} {ι : Type} {R R' : ι → Type}
      (values : (i : ι) → R i → R' i → Prop) (rules : Rules ω R) (rules' : Rules ω R')
      (hrules : ∀ refs refs' i, BuiltAlike (fun α β value p q =>
          given α β value p q ∨ References values refs refs' α β value p q)
        (R i) (R' i) (values i) (rules refs i) (rules' refs' i)) (i : ι) :
      BuiltAlike given (R i) (R' i) (values i) (rules.parser i) (rules'.parser i)

theorem References.corresponds_of_given_or {ω ι : Type} {R R' : ι → Type}
    {values : (i : ι) → R i → R' i → Prop} {refs : (i : ι) → Parser ω (R i)}
    {refs' : (i : ι) → Parser ω (R' i)} {given : Correspondence ω}
    (hgiven : ∀ α β value p q, given α β value p q → Parser.Corresponds α β value p q)
    (hrefs : ∀ i, Parser.Corresponds (R i) (R' i) (values i) (refs i) (refs' i)) :
    ∀ α β value p q, given α β value p q ∨ References values refs refs' α β value p q →
      Parser.Corresponds α β value p q := by
  intro α β value p q h
  rcases h with h | ⟨⟨i⟩⟩
  · exact hgiven α β value p q h
  · exact hrefs i

open Parsing.Parser in
/-- By induction on how the grammars are built: every operation takes parts that correspond to
parsers that correspond. -/
theorem BuiltAlike.corresponds {ω α β : Type} {given : Correspondence ω} {value : α → β → Prop}
    {p : Parser ω α} {q : Parser ω β} (h : BuiltAlike given α β value p q)
    (hgiven : ∀ α β value p q, given α β value p q → Corresponds α β value p q) :
    Corresponds α β value p q := by
  induction h with
  | given h => exact hgiven _ _ _ _ _ h
  | same p => exact .refl p
  | imp h himp ih => exact (ih hgiven).imp himp
  | result h => exact corresponds_result h
  | named label h ih => exact ⟨(ih hgiven).message, (ih hgiven).alike⟩
  | withMessage message h ih => exact corresponds_withMessage (ih hgiven) message
  | withMessageFrom f f' h hf ih => exact corresponds_withMessageFrom (ih hgiven) hf
  | map f f' h hf ih => exact corresponds_map (ih hgiven) hf
  | flatMap f f' steps h hf hsteps ih ihsteps =>
    apply corresponds_flatMap (ih hgiven)
    exact fun a b hab => (hf a b hab).imp fun r r' hr => ihsteps _ _ _ r r' hr hgiven
  | zip h hr ih ihr => exact corresponds_zip (ih hgiven) (ihr hgiven)
  | transform f f' h hf ih => exact corresponds_transform (ih hgiven) hf
  | extend key choose choose' store store' steps h hchoose hstore hsteps ih ihsteps =>
    refine corresponds_extend (ih hgiven) key ?_ hstore
    intro a b hab
    apply (hchoose a b hab).imp
    intro item item' hitem
    cases hitem with
    | parser hr => exact .parser (ihsteps _ _ _ _ _ hr hgiven)
    | stray kind => exact .stray kind
  | defer make make' steps hmake hsteps ih =>
    exact corresponds_defer (hmake.imp fun r r' hr => ih _ _ _ r r' hr hgiven)
  | calling calls calls' steps hcalls hsteps ih =>
    exact corresponds_calling hcalls fun γ δ given p q h => ih γ δ given p q h hgiven
  | ofScript same steps hbody hsame hsteps ih =>
    exact corresponds_ofScript hbody hsame fun γ δ given p q h => ih γ δ given p q h hgiven
  | within values rules rules' hrules depth i ih =>
    refine corresponds_within ?_ depth i
    intro refs refs' hrefs j
    exact ih refs refs' j (References.corresponds_of_given_or hgiven hrefs)
  | rule values rules rules' hrules i ih =>
    refine corresponds_rule ?_ i
    intro refs refs' hrefs j
    exact ih refs refs' j (References.corresponds_of_given_or hgiven hrefs)

end Parsing
