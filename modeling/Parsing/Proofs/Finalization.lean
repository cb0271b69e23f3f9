import Mathlib.Data.List.Forall2
import Parsing.Parser.Recursion
import Parsing.Proofs.Successes
import Parsing.Proofs.Waiting

/-!
Cleanups of nested blocks. A script is watched by a script that does the same and marks, besides,
where a block is entered and where its cleanup begins; a parser that runs a script is watched by one
whose steps are watched in turn. Leaving the marks out gives back what is watched, and the marks are
balanced: however a run ends, each block that was entered has been cleaned once, after the blocks
inside it and before the blocks around it.
-/

namespace Parsing

/-- The events of what is watched, and the marks of the blocks. -/
inductive Mark (κ ω : Type) where
  | entered (block : κ)
  | cleaned (block : κ)
  | own (event : ω)

namespace Entry

variable {κ ω : Type}

def lifted : Entry ω → Entry (Mark κ ω)
  | line l => line l
  | event e => event (.own e)

/-- The entry of what is watched, unless the entry is a mark. -/
def unmarked : Entry (Mark κ ω) → Option (Entry ω)
  | event (.own e) => some (event e)
  | event _ => none
  | line l => some (line l)

/-- The mark, unless the entry is one of what is watched. -/
def mark : Entry (Mark κ ω) → Option (Mark κ ω)
  | event (.own _) => none
  | event m => some m
  | line _ => none

theorem unmarked_lifted (entry : Entry ω) :
    (entry.lifted : Entry (Mark κ ω)).unmarked = some entry := by
  cases entry <;> rfl

theorem mark_lifted (entry : Entry ω) : (entry.lifted : Entry (Mark κ ω)).mark = none := by
  cases entry <;> rfl

end Entry

section Balance

variable {κ ω : Type}

/-- Each block that is entered is cleaned, and what is in between is balanced itself. -/
inductive Balanced : List (Entry (Mark κ ω)) → Prop
  | nil : Balanced []
  | entry (entry : Entry ω) {rest : List (Entry (Mark κ ω))} (hrest : Balanced rest) :
      Balanced (entry.lifted :: rest)
  | block (k : κ) {inner rest : List (Entry (Mark κ ω))} (hinner : Balanced inner)
      (hrest : Balanced rest) :
      Balanced (.event (.entered k) :: (inner ++ .event (.cleaned k) :: rest))

/-- What is left open are the pending blocks, the innermost first. -/
inductive Opens : List κ → List (Entry (Mark κ ω)) → Prop
  | nil {entries : List (Entry (Mark κ ω))} (h : Balanced entries) : Opens [] entries
  | cons (k : κ) {pending : List κ} {entries inner : List (Entry (Mark κ ω))}
      (h : Opens pending entries) (hinner : Balanced inner) :
      Opens (k :: pending) (entries ++ .event (.entered k) :: inner)

theorem Balanced.append {first rest : List (Entry (Mark κ ω))} (hfirst : Balanced first)
    (hrest : Balanced rest) : Balanced (first ++ rest) := by
  induction hfirst with
  | nil => exact hrest
  | entry entry _ ih => exact .entry entry ih
  | block k hinner _ _ ih =>
    rw [List.cons_append, List.append_assoc]
    exact .block k hinner ih

theorem balanced_lifted (entries : List (Entry ω)) :
    Balanced (entries.map Entry.lifted : List (Entry (Mark κ ω))) := by
  induction entries with
  | nil => exact .nil
  | cons entry rest ih => exact .entry entry ih

theorem filterMap_mark_lifted (entries : List (Entry ω)) :
    (entries.map Entry.lifted : List (Entry (Mark κ ω))).filterMap Entry.mark = [] := by
  rw [List.filterMap_map]
  simp only [Function.comp_def, Entry.mark_lifted, List.filterMap_none]

variable {pending : List κ} {entries : List (Entry (Mark κ ω))}

theorem Opens.after {first : List (Entry (Mark κ ω))} (hfirst : Balanced first)
    (h : Opens pending entries) : Opens pending (first ++ entries) := by
  induction h with
  | nil h => exact .nil (hfirst.append h)
  | cons k _ hinner ih =>
    rw [← List.append_assoc]
    exact .cons k ih hinner

/-- A block around all that is left open comes last. -/
theorem Opens.enclosed (k : κ) (h : Opens pending entries) :
    Opens (pending ++ [k]) (.event (.entered k) :: entries) := by
  induction h with
  | nil h => exact .cons k (.nil .nil) h
  | cons k' _ hinner ih => exact .cons k' ih hinner

end Balance

namespace Run

variable {κ ω α α' β β' : Type}

def lifted (x : Run ω α) : Run (Mark κ ω) α := ⟨x.entries.map Entry.lifted, x.outcome⟩

/-- The same fault, or values that are related. -/
inductive EndsLike (value : α → α' → Prop) : Except Fault α → Except Fault α' → Prop
  | ok {a : α} {a' : α'} (h : value a a') : EndsLike value (.ok a) (.ok a')
  | error (fault : Fault) : EndsLike value (.error fault) (.error fault)

theorem EndsLike.imp {value value' : α → α' → Prop} {a : Except Fault α} {a' : Except Fault α'}
    (h : EndsLike value a a') (himp : ∀ a a', value a a' → value' a a') : EndsLike value' a a' := by
  cases h with
  | ok h => exact .ok (himp _ _ h)
  | error fault => exact .error fault

/-- The second run is the first one with balanced marks. -/
structure Watched (value : α → α' → Prop) (x : Run ω α) (x' : Run (Mark κ ω) α') : Prop where
  balanced : Balanced x'.entries
  unmarked : x'.entries.filterMap Entry.unmarked = x.entries
  outcome : EndsLike value x.outcome x'.outcome

variable {value : α → α' → Prop} {value' : β → β' → Prop} {x : Run ω α} {x' : Run (Mark κ ω) α'}

theorem watched_pure {a : α} {a' : α'} (h : value a a') :
    (pure a : Run ω α).Watched value (pure a' : Run (Mark κ ω) α') := ⟨.nil, rfl, .ok h⟩

theorem watched_ofExcept {a : Except Fault α} {a' : Except Fault α'} (h : EndsLike value a a') :
    (ofExcept a : Run ω α).Watched value (ofExcept a' : Run (Mark κ ω) α') := ⟨.nil, rfl, h⟩

theorem watched_lifted (x : Run ω α) : x.Watched Eq (x.lifted : Run (Mark κ ω) α) := by
  refine ⟨balanced_lifted _, ?_, ?_⟩
  · simp only [lifted, List.filterMap_map, Function.comp_def, Entry.unmarked_lifted,
      List.filterMap_some]
  · rw [lifted]
    cases x.outcome with
    | ok a => exact .ok rfl
    | error fault => exact .error fault

theorem Watched.attempt (h : x.Watched value x') :
    x.attempt.Watched (EndsLike value) x'.attempt := ⟨h.balanced, h.unmarked, .ok h.outcome⟩

theorem Watched.bind {f : α → Run ω β} {f' : α' → Run (Mark κ ω) β'} (h : x.Watched value x')
    (hf : ∀ a a', value a a' → (f a).Watched value' (f' a')) :
    (x >>= f).Watched value' (x' >>= f') := by
  obtain ⟨entries, outcome⟩ := x
  obtain ⟨entries', outcome'⟩ := x'
  obtain ⟨hbalanced, hunmarked, houtcome⟩ := h
  cases houtcome with
  | ok ha =>
    have hnext := hf _ _ ha
    rw [ok_bind, ok_bind]
    refine ⟨hbalanced.append hnext.balanced, ?_, hnext.outcome⟩
    exact List.filterMap_append.trans (congrArg₂ _ hunmarked hnext.unmarked)
  | error fault =>
    rw [error_bind, error_bind]
    exact ⟨hbalanced, hunmarked, .error fault⟩

/-- The marks of a block are balanced if what comes between them ends without a fault. -/
theorem Watched.block (k : κ) {f : α → Run ω β} {f' : α' → Run (Mark κ ω) β'} {a : α}
    (h : x.Watched value x') (hx : x.outcome = .ok a)
    (hf : ∀ a a', value a a' → (f a).Watched value' (f' a')) :
    (x >>= f).Watched value'
      ((x' >>= fun a' => (f' a').after [.event (.cleaned k)]).after [.event (.entered k)]) := by
  obtain ⟨entries, outcome⟩ := x
  obtain ⟨entries', outcome'⟩ := x'
  obtain ⟨hbalanced, hunmarked, houtcome⟩ := h
  cases houtcome with
  | ok ha =>
    have hnext := hf _ _ ha
    rw [ok_bind, ok_bind]
    refine ⟨.block k hbalanced hnext.balanced, ?_, hnext.outcome⟩
    change List.filterMap _ (entries' ++ _ :: _) = _
    exact List.filterMap_append.trans (congrArg₂ _ hunmarked hnext.unmarked)
  | error fault => cases hx

end Run

/-- Related values with the same rest, or the same failure. -/
inductive Reply.Like {α α' : Type} (value : α → α' → Prop) : Reply α → Reply α' → Prop
  | success {a : α} {a' : α'} (h : value a a') (rest : State) :
      Like value (.success a rest) (.success a' rest)
  | failure (e : Failure) : Like value (.failure e) (.failure e)

theorem Reply.like_of_eq {α : Type} (reply reply' : Reply α) (h : reply = reply') :
    reply.Like Eq reply' := by
  subst h
  cases reply with
  | success a rest => exact .success rfl rest
  | failure e => exact .failure e

/-- A parser with the one that watches it. -/
abbrev Watching (κ ω : Type) := (α : Type) → Parser ω α → Parser (Mark κ ω) α → Prop

namespace Script

variable {κ ω σ α α' β γ : Type}

/-- A cleanup that marks where it begins. -/
def cleaning (k : κ) (cleanup : σ → Run ω Unit) (left : σ) : Run (Mark κ ω) Unit := do
  Run.note (.cleaned k)
  (cleanup left).lifted

/-- A guarded part of a script that marks where it is entered and where its cleanup begins. -/
def block (k : κ) (body : Script (Mark κ ω) σ γ) (cleanup : σ → Run ω Unit)
    (next : γ → Script (Mark κ ω) σ α) : Script (Mark κ ω) σ α :=
  act (fun locals => do Run.note (.entered k); return ((), locals)) fun _ =>
    guarded body (cleaning k cleanup) next

/-- The second script is the first one with all its blocks marked. What the scripts end with is
related, and so are the parsers that they wait for. -/
inductive Watched (steps : Watching κ ω) :
    {α α' : Type} → (α → α' → Prop) → Script ω σ α → Script (Mark κ ω) σ α' → Prop
  | done {α α' : Type} {value : α → α' → Prop} {a : α} {a' : α'} (h : value a a') :
      Watched steps value (done a) (done a')
  | act {α α' γ : Type} {value : α → α' → Prop} (action : σ → Run ω (γ × σ))
      {next : γ → Script ω σ α} {next' : γ → Script (Mark κ ω) σ α'}
      (hnext : ∀ b, Watched steps value (next b) (next' b)) :
      Watched steps value (act action next) (act (fun locals => (action locals).lifted) next')
  | stray {α α' γ : Type} {value : α → α' → Prop} (kind : Kind) (next : γ → Script ω σ α)
      (next' : γ → Script (Mark κ ω) σ α') :
      Watched steps value (await (.stray kind) next) (await (.stray kind) next')
  | step {α α' γ : Type} {value : α → α' → Prop} {p : Parser ω γ} {p' : Parser (Mark κ ω) γ}
      {next : γ → Script ω σ α} {next' : γ → Script (Mark κ ω) σ α'} (hp : steps γ p p')
      (hnext : ∀ b, Watched steps value (next b) (next' b)) :
      Watched steps value (await (.parser p) next) (await (.parser p') next')
  | block {α α' γ : Type} {value : α → α' → Prop} (k : κ) {body : Script ω σ γ}
      {body' : Script (Mark κ ω) σ γ} (cleanup : σ → Run ω Unit) {next : γ → Script ω σ α}
      {next' : γ → Script (Mark κ ω) σ α'} (hbody : Watched steps Eq body body')
      (hnext : ∀ b, Watched steps value (next b) (next' b)) :
      Watched steps value (guarded body cleanup next) (block k body' cleanup next')

end Script

/-- The same value, or a parser with the one that watches it. -/
inductive Ending.Watched {κ ω α : Type} (steps : Watching κ ω) :
    Ending ω α → Ending (Mark κ ω) α → Prop
  | value (a : α) : Watched steps (.value a) (.value a)
  | parser {p : Parser ω α} {p' : Parser (Mark κ ω) α} (hp : steps α p p') :
      Watched steps (.parser p) (.parser p')

namespace Parser

variable {κ ω α : Type}

def lifted (p : Parser ω α) : Parser (Mark κ ω) α where
  parse s := (p.parse s).lifted
  label := p.label
  message := p.message

/-- A parser is watched as it is, or, if it runs a script, by watching the script and the parsers
that the script waits for or ends with. Labels, messages and references are gone through, so a rule
of a grammar is watched at each depth of its references. -/
inductive Watched : Watching κ ω
  | plain {α : Type} (p : Parser ω α) : Watched α p p.lifted
  | script {σ α : Type} {body : Script ω σ (Ending ω α)}
      {body' : Script (Mark κ ω) σ (Ending (Mark κ ω) α)} (locals : σ) (steps : Watching κ ω)
      (hbody : body.Watched steps (Ending.Watched steps) body')
      (hsteps : ∀ β p p', steps β p p' → Watched β p p') :
      Watched α (ofScript body locals) (ofScript body' locals)
  | named {α : Type} {p : Parser ω α} {p' : Parser (Mark κ ω) α} (label : String)
      (hp : Watched α p p') : Watched α (p.named label) (p'.named label)
  | withMessage {α : Type} {p : Parser ω α} {p' : Parser (Mark κ ω) α} (message : String)
      (hp : Watched α p p') : Watched α (p.withMessage message) (p'.withMessage message)
  | defer {α : Type} {p : Parser ω α} {p' : Parser (Mark κ ω) α} (hp : Watched α p p') :
      Watched α (.defer (return p)) (.defer (return p'))
  | rule {ι : Type} {R : ι → Type} {rules : Rules ω R} {rules' : Rules (Mark κ ω) R}
      (hrules : ∀ depth i, Watched (R i) (rules.within depth i) (rules'.within depth i)) (i : ι) :
      Watched (R i) (rules.parser i) (rules'.parser i)

/-- To watch a recursive grammar it is enough to watch its rules for references that are watched. By
induction on the depth: a reference at one depth is a rule at the depth below. -/
theorem watched_rule {ι : Type} {R : ι → Type} {rules : Rules ω R} {rules' : Rules (Mark κ ω) R}
    (h : ∀ refs refs', (∀ i, Watched (R i) (refs i) (refs' i)) →
      ∀ i, Watched (R i) (rules refs i) (rules' refs' i)) (i : ι) :
    Watched (R i) (rules.parser i) (rules'.parser i) := by
  apply Watched.rule
  intro depth
  induction depth with
  | zero => exact fun j => .plain _
  | succ depth ih => exact h _ _ fun j => .defer (ih j)

/-- The parsers reply the same under the same message, and the marks are balanced. -/
structure Mirrors (p : Parser ω α) (p' : Parser (Mark κ ω) α) : Prop where
  parse : ∀ s, (p.parse s).Watched Eq (p'.parse s)
  message : p'.message = p.message

theorem Mirrors.reported {p : Parser ω α} {p' : Parser (Mark κ ω) α} (h : p.Mirrors p')
    (s : State) : (p.reported s).Watched Eq (p'.reported s) := by
  apply (h.parse s).bind
  rintro reply _ rfl
  rw [h.message]
  exact Run.watched_pure rfl

end Parser

namespace Script

variable {κ ω σ α α' β γ : Type}

/-- A script itself never ends in a fault: it tells what it has ended with. -/
theorem exists_outcome_run (body : Script ω σ α) (locals : σ) (s : State) :
    ∃ ended, (body.run locals s).outcome = .ok ended := by
  induction body generalizing locals s with
  | done a => exact ⟨_, rfl⟩
  | act action next ih =>
    rw [run, Run.outcome_attempt_bind]
    rcases (action locals).outcome with fault | ⟨b, new⟩
    · exact ⟨_, rfl⟩
    · exact ih b new s
  | await item next ih =>
    cases item with
    | stray kind => exact ⟨_, rfl⟩
    | parser p =>
      rw [run_await, Run.outcome_attempt_bind]
      rcases (p.reported s).outcome with fault | ⟨b, rest⟩ | e
      · exact ⟨_, rfl⟩
      · exact ih b locals rest
      · exact ⟨_, rfl⟩
  | guarded body cleanup next ihbody ihnext =>
    obtain ⟨⟨left, ended⟩, hbody⟩ := ihbody locals s
    rw [run_guarded, Run.outcome_bind, hbody]
    change ∃ ended, Run.outcome (_ >>= _) = _
    rw [Run.outcome_attempt_bind]
    rcases (cleanup left).outcome with fault | ⟨⟩
    · exact ⟨_, rfl⟩
    · rcases ended with fault | ⟨b, rest⟩ | e
      · exact ⟨_, rfl⟩
      · exact ihnext b left rest
      · exact ⟨_, rfl⟩

/-- The same local variables, and the same end but for the values that are related. -/
def EndsLike (value : α → α' → Prop) (ended : σ × Except Fault (Reply α))
    (ended' : σ × Except Fault (Reply α')) : Prop :=
  ended.1 = ended'.1 ∧ Run.EndsLike (Reply.Like value) ended.2 ended'.2

theorem watched_goOn {value : β → γ → Prop} {value' : α → α' → Prop} (left : σ)
    {next : β → State → Run ω (σ × Except Fault (Reply α))}
    {next' : γ → State → Run (Mark κ ω) (σ × Except Fault (Reply α'))}
    {ended : Except Fault (Reply β)} {ended' : Except Fault (Reply γ)}
    (h : Run.EndsLike (Reply.Like value) ended ended')
    (hnext : ∀ b c rest, value b c → (next b rest).Watched (EndsLike value') (next' c rest)) :
    (goOn left next ended).Watched (EndsLike value') (goOn left next' ended') := by
  cases h with
  | ok hreply =>
    cases hreply with
    | success hvalue rest => exact hnext _ _ rest hvalue
    | failure e => exact Run.watched_pure ⟨rfl, .ok (.failure e)⟩
  | error fault => exact Run.watched_pure ⟨rfl, .error fault⟩

theorem run_block (k : κ) (body : Script (Mark κ ω) σ γ) (cleanup : σ → Run ω Unit)
    (next : γ → Script (Mark κ ω) σ α) (locals : σ) (s : State) :
    (block k body cleanup next).run locals s =
      (body.run locals s >>= fun ended =>
        ((cleanup ended.1).lifted.attempt >>= fun
          | .error fault => return (ended.1, .error fault)
          | .ok () => goOn ended.1 (fun b rest => (next b).run ended.1 rest) ended.2).after
            [.event (.cleaned k)]).after [.event (.entered k)] := by
  have haction : (do Run.note (.entered k); return ((), locals) : Run (Mark κ ω) (Unit × σ)) =
    ⟨[.event (.entered k)], .ok ((), locals)⟩ := rfl
  rw [block, run_act_eq _ s haction, run_guarded]
  apply congrArg (Run.after _)
  apply congrArg
  funext ⟨left, ended⟩
  exact Run.after_bind [.event (.cleaned k)] (cleanup left).lifted.attempt _

/-- A block waits inside what it guards, or for what comes after it, when its cleanup is done. -/
theorem waits_block_cases {item : Item (Mark κ ω) β} {k : κ} {body : Script (Mark κ ω) σ γ}
    {cleanup : σ → Run ω Unit} {next : γ → Script (Mark κ ω) σ α} {locals left : σ} {s t : State}
    {entries : List (Entry (Mark κ ω))} {due : List (σ → Run (Mark κ ω) Unit)}
    (h : (block k body cleanup next).Waits item locals s entries due left t) :
    (∃ inner own, body.Waits item locals s inner own left t ∧
      entries = .event (.entered k) :: inner ∧ due = own ++ [cleaning k cleanup]) ∨
    ∃ inner kept b middle rest, body.run locals s = ⟨inner, .ok (kept, .ok (.success b middle))⟩ ∧
      (next b).Waits item kept middle rest due left t ∧
      entries = .event (.entered k) :: (inner ++
        .event (.cleaned k) :: ((cleanup kept).entries.map Entry.lifted ++ rest)) := by
  rw [block] at h
  cases h with
  | @act _ _ _ _ _ new _ _ _ first rest _ b haction hwaits =>
    have hfirst : [.event (.entered k)] = first := congrArg Run.entries haction
    have hnew : (.ok ((), locals) : Except Fault _) = .ok (b, new) := congrArg Run.outcome haction
    subst hfirst
    cases hnew
    cases hwaits with
    | inside hwaits => exact .inl ⟨_, _, hwaits, rfl, rfl⟩
    | @past _ _ _ _ _ _ kept _ _ middle _ inner own rest _ b hrun hcleanup hwaits =>
      have hown : .event (.cleaned k) :: (cleanup kept).entries.map Entry.lifted = own :=
        congrArg Run.entries hcleanup
      subst hown
      exact .inr ⟨inner, kept, b, middle, rest, hrun, hwaits, rfl⟩

/-- By induction on the script. A block adds its two marks around what is balanced already. -/
theorem Watched.run {steps : Watching κ ω} {value : α → α' → Prop} {body : Script ω σ α}
    {body' : Script (Mark κ ω) σ α'} (h : body.Watched steps value body')
    (hsteps : ∀ β p p', steps β p p' → p.Mirrors p') (locals : σ) (s : State) :
    (body.run locals s).Watched (EndsLike value) (body'.run locals s) := by
  induction h generalizing locals s with
  | done h => exact Run.watched_pure ⟨rfl, .ok (.success h s)⟩
  | act action hnext ih =>
    rw [Script.run, Script.run]
    apply (Run.watched_lifted (action locals)).attempt.bind
    rintro _ _ (@⟨⟨b, new⟩, _, rfl⟩ | ⟨fault⟩)
    · exact ih b new s
    · exact Run.watched_pure ⟨rfl, .error fault⟩
  | stray kind next next' => exact Run.watched_pure ⟨rfl, .error _⟩
  | step hp hnext ih =>
    rw [run_await, run_await]
    apply ((hsteps _ _ _ hp).reported s).attempt.bind
    rintro ended ended' hended
    apply watched_goOn locals (hended.imp Reply.like_of_eq)
    rintro b _ rest rfl
    exact ih b locals rest
  | @block α α' γ value k body body' cleanup next next' hbody hnext ihbody ihnext =>
    obtain ⟨ended, houtcome⟩ := body.exists_outcome_run locals s
    rw [run_guarded, run_block]
    apply (ihbody locals s).block k houtcome
    rintro ⟨left, ended⟩ ⟨_, ended'⟩ ⟨⟨⟩, hended⟩
    apply (Run.watched_lifted (cleanup left)).attempt.bind
    rintro _ _ (@⟨_, _, rfl⟩ | ⟨fault⟩)
    · apply watched_goOn left hended
      rintro b _ rest rfl
      exact ihnext b left rest
    · exact Run.watched_pure ⟨rfl, .error fault⟩

/-- Any way to watch the parsers gives a way to watch the scripts that wait for them. -/
theorem exists_watched {steps : Watching κ ω} {value : α → α' → Prop} (body : Script ω σ α)
    (hvalue : ∀ a, ∃ a', value a a') (hsteps : ∀ β p, ∃ p', steps β p p') (k : κ) :
    ∃ body', body.Watched steps value body' := by
  induction body generalizing α' with
  | done a =>
    obtain ⟨a', ha⟩ := hvalue a
    exact ⟨_, .done ha⟩
  | act action next ih =>
    choose next' hnext using fun b => ih b hvalue
    exact ⟨_, .act action hnext⟩
  | await item next ih =>
    choose next' hnext using fun b => ih b hvalue
    cases item with
    | stray kind => exact ⟨_, .stray kind next next'⟩
    | parser p =>
      obtain ⟨p', hp⟩ := hsteps _ p
      exact ⟨_, .step hp hnext⟩
  | guarded body cleanup next ihbody ihnext =>
    obtain ⟨body', hbody⟩ := ihbody fun b => ⟨b, rfl⟩
    choose next' hnext using fun b => ihnext b hvalue
    exact ⟨_, .block k cleanup hbody hnext⟩

/-- The cleanups mark the blocks, in the same order. -/
abbrev Cleans (due : List (σ → Run (Mark κ ω) Unit)) (pending : List κ) : Prop :=
  List.Forall₂ (fun cleanup k => ∃ inner : σ → Run ω Unit, cleanup = cleaning k inner) due pending

/-- Closing marks nothing but the blocks that are pending, one after another. -/
theorem marks_closing {due : List (σ → Run (Mark κ ω) Unit)} {pending : List κ} {left : σ}
    {last : List (Entry (Mark κ ω))} (h : Cleans due pending)
    (hclosing : closing due left = ⟨last, .ok ()⟩) :
    last.filterMap Entry.mark = pending.map .cleaned := by
  induction h generalizing last with
  | nil =>
    cases hclosing
    rfl
  | @cons cleanup k due pending hcleanup _ ih =>
    obtain ⟨inner, rfl⟩ := hcleanup
    obtain ⟨first, ⟨⟩, rest, hfirst, hrest, rfl⟩ := (Run.bind_eq_ok_iff _ _ _ _).mp hclosing
    have hmark : first.filterMap Entry.mark = [.cleaned k] := by
      have hentries : .event (.cleaned k) :: (inner left).entries.map Entry.lifted = first :=
        congrArg Run.entries hfirst
      rw [← hentries]
      exact congrArg (_ :: ·) (filterMap_mark_lifted _)
    rw [List.filterMap_append, hmark, ih hrest]
    rfl

/-- Where a watched script waits, the cleanups that are due are those of the blocks left open. -/
theorem Watched.opens {steps : Watching κ ω} {value : α → α' → Prop} {body : Script ω σ α}
    {body' : Script (Mark κ ω) σ α'} (h : body.Watched steps value body')
    (hsteps : ∀ β p p', steps β p p' → p.Mirrors p') {item : Item (Mark κ ω) β} {locals left : σ}
    {s t : State} {entries : List (Entry (Mark κ ω))} {due : List (σ → Run (Mark κ ω) Unit)}
    (hwaits : body'.Waits item locals s entries due left t) :
    (∃ pending, Opens pending entries ∧ Cleans due pending) ∧
      ∀ p', item = .parser p' → ∃ p, steps β p p' := by
  induction h generalizing locals s entries due with
  | done h => cases hwaits
  | @act α α' γ value action next next' hnext ih =>
    cases hwaits with
    | @act _ _ _ _ _ _ _ _ _ first rest _ b haction hwaits =>
      obtain ⟨⟨pending, hopens, hcleans⟩, hitem⟩ := ih b hwaits
      have hfirst : (action locals).entries.map Entry.lifted = first :=
        congrArg Run.entries haction
      subst hfirst
      exact ⟨⟨pending, hopens.after (balanced_lifted _), hcleans⟩, hitem⟩
  | stray kind next next' =>
    cases hwaits
    exact ⟨⟨[], .nil .nil, .nil⟩, nofun⟩
  | @step α α' γ value p p' next next' hp hnext ih =>
    cases hwaits with
    | here =>
      refine ⟨⟨[], .nil .nil, .nil⟩, ?_⟩
      rintro _ ⟨⟩
      exact ⟨p, hp⟩
    | @step _ _ _ _ _ _ _ middle _ first rest _ b hstep hwaits =>
      obtain ⟨⟨pending, hopens, hcleans⟩, hitem⟩ := ih b hwaits
      have hfirst := ((hsteps _ _ _ hp).parse s).balanced
      rw [hstep] at hfirst
      exact ⟨⟨pending, hopens.after hfirst, hcleans⟩, hitem⟩
  | @block α α' γ value k body body' cleanup next next' hbody hnext ihbody ihnext =>
    rcases waits_block_cases hwaits with
      ⟨inner, own, hinside, rfl, rfl⟩ | ⟨inner, kept, b, middle, rest, hrun, hpast, rfl⟩
    · obtain ⟨⟨pending, hopens, hcleans⟩, hitem⟩ := ihbody hinside
      refine ⟨⟨pending ++ [k], hopens.enclosed k, ?_⟩, hitem⟩
      exact List.rel_append hcleans (.cons ⟨cleanup, rfl⟩ .nil)
    · obtain ⟨⟨pending, hopens, hcleans⟩, hitem⟩ := ihnext b hpast
      have hinner := (hbody.run hsteps locals s).balanced
      rw [hrun] at hinner
      have hall := hopens.after (.block k hinner (balanced_lifted (cleanup kept).entries))
      rw [List.cons_append, List.append_assoc] at hall
      exact ⟨⟨pending, hall, hcleans⟩, hitem⟩

end Script

namespace Parser

variable {κ ω σ α : Type}

theorem mirrors_lifted (p : Parser ω α) : p.Mirrors (p.lifted : Parser (Mark κ ω) α) :=
  ⟨fun s => Run.watched_lifted (p.parse s), rfl⟩

theorem mirrors_ofScript {steps : Watching κ ω} {body : Script ω σ (Ending ω α)}
    {body' : Script (Mark κ ω) σ (Ending (Mark κ ω) α)}
    (hbody : body.Watched steps (Ending.Watched steps) body')
    (hsteps : ∀ β p p', steps β p p' → p.Mirrors p') (locals : σ) :
    (ofScript body locals).Mirrors (ofScript body' locals) := by
  refine ⟨fun s => ?_, rfl⟩
  apply (hbody.run hsteps locals s).bind
  rintro ⟨left, ended⟩ ⟨_, ended'⟩ ⟨⟨⟩, hended⟩
  apply (Run.watched_ofExcept hended).bind
  rintro _ _ (@⟨_, _, hending, rest⟩ | ⟨e⟩)
  · cases hending with
    | value a => exact Run.watched_pure rfl
    | parser hp => exact (hsteps _ _ _ hp).parse rest
  · exact Run.watched_pure rfl

theorem exists_watched_ending (ending : Ending ω α) :
    ∃ ending' : Ending (Mark κ ω) α, Ending.Watched Watched ending ending' := by
  cases ending with
  | value a => exact ⟨_, .value a⟩
  | parser p => exact ⟨_, .parser (.plain p)⟩

theorem mirrors_withMessage {p : Parser ω α} {p' : Parser (Mark κ ω) α} (h : p.Mirrors p')
    (message : String) : (p.withMessage message).Mirrors (p'.withMessage message) := by
  refine ⟨fun s => ?_, rfl⟩
  apply (h.parse s).bind
  rintro reply _ rfl
  exact Run.watched_pure rfl

/-- By induction on the nesting of scripts. -/
theorem Watched.mirrors {p : Parser ω α} {p' : Parser (Mark κ ω) α} (h : Watched α p p') :
    p.Mirrors p' := by
  induction h with
  | plain p => exact mirrors_lifted p
  | script locals steps hbody _ ih => exact mirrors_ofScript hbody ih locals
  | named label _ ih => exact ⟨ih.parse, ih.message⟩
  | withMessage message _ ih => exact mirrors_withMessage ih message
  | defer _ ih => exact ⟨ih.parse, rfl⟩
  | rule _ i ih => exact ⟨fun s => (ih (s.input.length + 1) i).parse s, (ih 1 i).message⟩

end Parser

variable {κ ω σ α : Type}

/-- However a script ends, its cleanups are done in order. Every script can be watched, and the
marks of the parser that runs it are balanced, whatever its steps run in turn. A parser that the
script ends with starts when all the blocks of the script have been cleaned. Where the script does
not go on from a step, the cleanups that are due are all that follows the step, and they are those
of the blocks left open, the innermost first. A script fails in no other way. -/
theorem cleanups_of_watched (body : Script ω σ (Ending ω α)) (locals : σ) :
    (Nonempty κ → ∃ body' : Script (Mark κ ω) σ (Ending (Mark κ ω) α),
      body.Watched Parser.Watched (Ending.Watched Parser.Watched) body') ∧
    ∀ body' : Script (Mark κ ω) σ (Ending (Mark κ ω) α),
      body.Watched Parser.Watched (Ending.Watched Parser.Watched) body' →
    (∀ s, ((Parser.ofScript body locals).parse s).Watched Eq
      ((Parser.ofScript body' locals).parse s)) ∧
    (∀ s entries left p t,
      body'.run locals s = ⟨entries, .ok (left, .ok (.success (.parser p) t))⟩ →
      Balanced entries ∧ (Parser.ofScript body' locals).parse s = (p.parse t).after entries) ∧
    (∀ (β : Type) (item : Item (Mark κ ω) β) s before due left t own stop last,
      body'.Waits item locals s before due left t → item.Stops t own stop →
      Script.closing due left = ⟨last, .ok ()⟩ →
        (Parser.ofScript body' locals).parse s =
          ⟨before ++ (own ++ last), stop.map .failure⟩ ∧
        Balanced own ∧
        ∃ pending, Opens pending before ∧ last.filterMap Entry.mark = pending.map .cleaned) ∧
    ∀ s left e, (body'.run locals s).outcome = .ok (left, .ok (.failure e)) →
      ∃ (β : Type) (p : Parser (Mark κ ω) β) (before own last : List (Entry (Mark κ ω)))
        (due : List (σ → Run (Mark κ ω) Unit)) (t : State),
        body'.Waits (.parser p) locals s before due left t ∧
          (Item.parser p).Stops t own (.ok e) ∧ Script.closing due left = ⟨last, .ok ()⟩ := by
  have hsteps : ∀ β (p : Parser ω β) (p' : Parser (Mark κ ω) β), Parser.Watched β p p' →
    p.Mirrors p' := fun _ _ _ hp => hp.mirrors
  refine ⟨?_, fun body' h => ⟨(Parser.mirrors_ofScript h hsteps locals).parse, ?_, ?_, ?_⟩⟩
  · rintro ⟨k⟩
    exact body.exists_watched Parser.exists_watched_ending (fun _ p => ⟨_, .plain p⟩) k
  · intro s entries left p t hrun
    have hbalanced := (h.run hsteps locals s).balanced
    rw [hrun] at hbalanced
    exact ⟨hbalanced, Parser.parse_ofScript_of_run hrun⟩
  · intro β item s before due left t own stop last hwaits hstop hclosing
    obtain ⟨⟨pending, hopens, hcleans⟩, hitem⟩ := h.opens hsteps hwaits
    refine ⟨Parser.parse_ofScript_of_waits hwaits hstop hclosing, ?_, pending, hopens,
      Script.marks_closing hcleans hclosing⟩
    cases hstop with
    | failure hp =>
      obtain ⟨p, hwatched⟩ := hitem _ rfl
      have hbalanced := ((hsteps _ _ _ hwatched).parse t).balanced
      rwa [hp] at hbalanced
    | stray kind => exact .nil
  · intro s left e hfails
    exact body'.exists_waits_of_failure locals s left e hfails

/-- A rule takes a parenthesis and refers to itself, in a block. A script runs it in two blocks of
its own: at another letter the blocks of the rule are cleaned first, one for each depth of its
references, and then those of the script, the innermost first. -/
theorem cleanups_of_watched_nested :
    let closed : Unit → Run String Unit := fun _ => Run.note "closed"
    let rules : Rules String (fun _ : Unit => Char) := fun refs _ =>
      .ofScript (.guarded (.await (.parser (.symbol ['('])) fun _ => .step (refs ())) closed
        fun c => .done (.value c)) ()
    let outer : Script String Unit (Ending String Char) :=
      .guarded (.guarded (.step (rules.parser ())) closed .done) closed fun c => .done (.value c)
    let rules' : Rules (Mark Nat String) (fun _ : Unit => Char) := fun refs _ =>
      .ofScript (.block 2 (.await (.parser (Parser.symbol ['(']).lifted) fun _ => .step (refs ()))
        closed fun c => .done (.value c)) ()
    let outer' : Script (Mark Nat String) Unit (Ending (Mark Nat String) Char) :=
      .block 0 (.block 1 (.step (rules'.parser ())) closed .done) closed
        fun c => .done (.value c)
    let opens : Nat → List (Entry (Mark Nat String)) := fun k => [.event (.entered k)]
    let closes : Nat → List (Entry (Mark Nat String)) :=
      fun k => [.event (.cleaned k), .event (.own "closed")]
    outer.Watched Parser.Watched (Ending.Watched Parser.Watched) outer' ∧
    (Parser.ofScript outer' ()).parse (.ofText ['(', 'y']) =
      ⟨opens 0 ++ opens 1 ++
          ((opens 2 ++ opens 2 ++ closes 2 ++ closes 2) ++ (closes 1 ++ closes 0)),
        .ok (.failure ⟨"unexpected 'y'", ["'('"], ⟨1, 2, 1⟩⟩)⟩ := by
  intro closed rules outer rules' outer' opens closes
  have hrule : Parser.Watched Char (rules.parser ()) (rules'.parser ()) := by
    apply Parser.watched_rule (R := fun _ => Char)
    intro refs refs' hrefs _
    exact .script () Parser.Watched (.block 2 closed (.step (.plain _) fun _ =>
      .step (hrefs ()) fun c => .done rfl) fun c => .done (.value c)) fun _ _ _ h => h
  have houter : outer.Watched Parser.Watched (Ending.Watched Parser.Watched) outer' :=
    .block 0 closed (.block 1 closed (.step hrule fun c => .done rfl) fun c => .done rfl)
      fun c => .done (.value c)
  have hwaits : outer'.Waits (.parser (rules'.parser ())) () (.ofText ['(', 'y'])
      (opens 0 ++ (opens 1 ++ []))
      ([] ++ [Script.cleaning 1 closed] ++ [Script.cleaning 0 closed]) () (.ofText ['(', 'y']) :=
    .act rfl (.inside (.act rfl (.inside (.here _ () _))))
  have hfails : (rules'.parser ()).parse (.ofText ['(', 'y']) =
      ⟨opens 2 ++ opens 2 ++ closes 2 ++ closes 2,
        .ok (.failure ⟨"unexpected 'y'", ["'('"], ⟨1, 2, 1⟩⟩)⟩ := by
    clear hrule houter hwaits
    cbv
  obtain ⟨-, -, hstops, -⟩ := (cleanups_of_watched outer ()).2 outer' houter
  have h := hstops _ _ _ _ _ _ _ _ _ (closes 1 ++ closes 0) hwaits (.failure hfails) rfl
  exact ⟨houter, h.1⟩

end Parsing
