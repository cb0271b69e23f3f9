import Parsing.Proofs.Coherence
import Parsing.Proofs.Templates

/-!
Stacks of operations on a parser. A failure of the parser at the bottom goes up through the whole
stack. Its expectations and position stay as they are, and each layer that annotates failures makes
a message of the one that comes from below. Nothing else that the layers are given is run, but for
what a script does before its first step and for its cleanups. A success does not show the layers
that annotate failures.
-/

namespace Parsing

theorem Run.andThen_eq_of_failure {ω α β : Type} {x : Run ω (Reply α)} {entries : List (Entry ω)}
    {e : Failure} (h : x = ⟨entries, .ok (.failure e)⟩) (k : α → State → Run ω (Reply β)) :
    (x >>= fun reply => reply.andThen k) = ⟨entries, .ok (.failure e)⟩ := by
  rw [h, Run.ok_bind]
  simp only [Reply.andThen, Run.pure_def, Run.after, List.append_nil]

namespace Parser

variable {ω α β : Type}

/-- Going on from the report of a parser that succeeds, a parser that does the same cannot be told
apart from it. -/
theorem reported_andThen_congr {p q : Parser ω α} {s t : State}
    (h : ∀ a middle, p.Succeeds s a middle → q.parse s = p.parse s)
    (k : α → State → Run ω (Reply β)) (b : β)
    (hsucceeds : (p.reported s >>= fun reply => reply.andThen k).outcome = .ok (.success b t)) :
    (q.reported s >>= fun reply => reply.andThen k) =
      p.reported s >>= fun reply => reply.andThen k := by
  obtain ⟨a, middle, hreported, -⟩ := (Run.outcome_andThen_eq_ok_iff _ _ _ _).mp hsucceeds
  have hp : p.Succeeds s a middle := (reported_eq_success_iff p s a middle).mp hreported
  rw [reported_eq_of_succeeds hp (h a middle hp)]

theorem parse_withMessage_of_succeeds {p : Parser ω α} {s t : State} {a : α}
    (h : p.Succeeds s a t) (message : String) : (p.withMessage message).parse s = p.parse s := by
  calc
    (p.withMessage message).parse s = p.parse s >>= pure := by
      apply Run.bind_congr_outcome
      intro reply hout
      cases h.symm.trans hout
      rfl
    _ = p.parse s := bind_pure _

theorem parse_withMessageFrom_of_succeeds {p : Parser ω α} {s t : State} {a : α}
    (h : p.Succeeds s a t) (f : Failure → Run ω String) :
    (p.withMessageFrom f).parse s = p.parse s := by
  calc
    (p.withMessageFrom f).parse s = p.parse s >>= pure := by
      apply Run.bind_congr_outcome
      intro reply hout
      cases h.symm.trans hout
      rfl
    _ = p.parse s := bind_pure _

end Parser

/-- How a script starts: it waits for the parser that is to be given, with cleanups that are due, or
it ends before any step, or its first step waits for something else. -/
inductive Start (ω σ α : Type) where
  | waiting (due : List (σ → Run ω Unit)) (left : σ)
  | finished (value : α) (left : σ)
  | elsewhere

namespace Template

variable {ω σ α β : Type}

/-- Runs the script up to its first step. -/
def start : {α : Type} → Template ω σ β α → σ → Run ω (Start ω σ α)
  | _, done a, locals => return .finished a locals
  | _, act action next, locals => do
    let (b, new) ← action locals
    (next b).start new
  | _, await _ _, _ => return .elsewhere
  | _, hole _, locals => return .waiting [] locals
  | _, guarded body cleanup next, locals => do
    match ← body.start locals with
    | .waiting due left => return .waiting (due ++ [cleanup]) left
    | .finished b left => do
      cleanup left
      (next b).start left
    | .elsewhere => return .elsewhere

/-- A script that ends before any step leaves the state alone, whatever parser it is given. -/
theorem run_of_start (body : Template ω σ β α) (p : Parser ω β) (s : State) {locals left : σ}
    {entries : List (Entry ω)} {a : α} (h : body.start locals = ⟨entries, .ok (.finished a left)⟩) :
    (body.fill p).run locals s = ⟨entries, .ok (left, .ok (.success a s))⟩ := by
  induction body generalizing locals left entries with
  | done a =>
    cases h
    rfl
  | act action next ih =>
    obtain ⟨first, ⟨b, new⟩, rest, haction, hnext, rfl⟩ := (Run.bind_eq_ok_iff _ _ _ _).mp h
    rw [fill, Script.run_act_eq _ _ haction, ih b hnext, Run.after]
  | await item next => cases h
  | hole next => cases h
  | guarded body cleanup next ihbody ihnext =>
    rw [start] at h
    obtain ⟨first, started, rest, hbody, hrest, rfl⟩ := (Run.bind_eq_ok_iff _ _ _ _).mp h
    cases started with
    | waiting due left' => cases hrest
    | finished b kept =>
      obtain ⟨own, ⟨⟩, later, hcleanup, hnext, rfl⟩ := (Run.bind_eq_ok_iff _ _ _ _).mp hrest
      rw [fill, Script.run_guarded_eq _ (ihbody hbody) hcleanup]
      change Run.after _ (Script.run _ _ _) = _
      rw [ihnext b hnext, Run.after, List.append_assoc]
    | elsewhere => cases hrest

/-- What is done before the first step depends neither on the parser nor on the state. -/
theorem waits_of_start (body : Template ω σ β α) (p : Parser ω β) (s : State) {locals left : σ}
    {entries : List (Entry ω)} {due : List (σ → Run ω Unit)}
    (h : body.start locals = ⟨entries, .ok (.waiting due left)⟩) :
    (body.fill p).Waits (.parser p) locals s entries due left s := by
  induction body generalizing locals left entries due with
  | done a => cases h
  | act action next ih =>
    obtain ⟨first, ⟨b, new⟩, rest, haction, hnext, rfl⟩ := (Run.bind_eq_ok_iff _ _ _ _).mp h
    exact .act haction (ih b hnext)
  | await item next => cases h
  | hole next =>
    cases h
    exact .here _ locals s
  | guarded body cleanup next ihbody ihnext =>
    rw [start] at h
    obtain ⟨first, started, rest, hbody, hrest, rfl⟩ := (Run.bind_eq_ok_iff _ _ _ _).mp h
    cases started with
    | waiting due' left' =>
      cases hrest
      rw [List.append_nil]
      exact .inside (ihbody hbody)
    | finished b kept =>
      obtain ⟨own, ⟨⟩, later, hcleanup, hnext, rfl⟩ := (Run.bind_eq_ok_iff _ _ _ _).mp hrest
      exact .past (body.run_of_start p s hbody) hcleanup (ihnext b hnext)
    | elsewhere => cases hrest

end Template

/-- A script whose first step waits for a parser that is to be given. -/
structure Opening (ω σ β α : Type) where
  body : Template ω σ β (Ending ω α)
  locals : σ
  before : List (Entry ω)
  due : List (σ → Run ω Unit)
  left : σ
  starts : body.start locals = ⟨before, .ok (.waiting due left)⟩

namespace Opening

variable {ω σ α β : Type}

def toParser (opening : Opening ω σ β α) (p : Parser ω β) : Parser ω α :=
  .ofScript (opening.body.fill p) opening.locals

theorem waits (opening : Opening ω σ β α) (p : Parser ω β) (s : State) :
    (opening.body.fill p).Waits (.parser p) opening.locals s opening.before opening.due
      opening.left s :=
  opening.body.waits_of_start p s opening.starts

end Opening

/-- Operations on top of a parser that is to be given, the last one outermost. -/
inductive Stack (ω α : Type) : Type → Type 1 where
  | base : Stack ω α α
  | map {β γ : Type} (below : Stack ω α β) (f : β → Run ω γ) : Stack ω α γ
  | flatMap {β γ : Type} (below : Stack ω α β) (f : β → Run ω (Parser ω γ)) : Stack ω α γ
  | zip {β γ : Type} (below : Stack ω α β) (q : Parser ω γ) : Stack ω α (β × γ)
  | extend {ρ β γ : Type} (below : Stack ω α ρ) (key : String) (choose : ρ → Run ω (Item ω β))
      (store : ρ → β → Run ω γ) : Stack ω α γ
  | transform {β γ : Type} (below : Stack ω α β) (f : β → State → Run ω (γ × State)) : Stack ω α γ
  | script {σ β γ : Type} (below : Stack ω α β) (opening : Opening ω σ β γ) : Stack ω α γ
  | withMessage {β : Type} (below : Stack ω α β) (message : String) : Stack ω α β
  | withMessageFrom {β : Type} (below : Stack ω α β) (f : Failure → Run ω String) : Stack ω α β
  | named {β : Type} (below : Stack ω α β) (label : String) : Stack ω α β

namespace Stack

variable {ω α β : Type}

def apply (p : Parser ω α) : {β : Type} → Stack ω α β → Parser ω β
  | _, base => p
  | _, map below f => (below.apply p).map f
  | _, flatMap below f => (below.apply p).flatMap f
  | _, zip below q => (below.apply p).zip q
  | _, extend below key choose store => (below.apply p).extend key choose store
  | _, transform below f => (below.apply p).transform f
  | _, script below opening => opening.toParser (below.apply p)
  | _, withMessage below message => (below.apply p).withMessage message
  | _, withMessageFrom below f => (below.apply p).withMessageFrom f
  | _, named below label => (below.apply p).named label

/-- What the layers make of a failure at the bottom, from the inside out. -/
def failing (x : Run ω Failure) : {β : Type} → Stack ω α β → Run ω Failure
  | _, base => x
  | _, map below _ => below.failing x
  | _, flatMap below _ => below.failing x
  | _, zip below _ => below.failing x
  | _, extend below _ _ _ => below.failing x
  | _, transform below _ => below.failing x
  | _, script below opening => Run.after opening.before do
    let e ← below.failing x
    Script.closing opening.due opening.left
    return e
  | _, withMessage below message => do
    let e ← below.failing x
    return { e with message }
  | _, withMessageFrom below f => do
    let e ← below.failing x
    return { e with message := ← f e }
  | _, named below _ => below.failing x

/-- The stack without the layers that annotate failures. -/
def bare : {β : Type} → Stack ω α β → Stack ω α β
  | _, base => base
  | _, map below f => map below.bare f
  | _, flatMap below f => flatMap below.bare f
  | _, zip below q => zip below.bare q
  | _, extend below key choose store => extend below.bare key choose store
  | _, transform below f => transform below.bare f
  | _, script below opening => script below.bare opening
  | _, withMessage below _ => below.bare
  | _, withMessageFrom below _ => below.bare
  | _, named below _ => below.bare

/-- No layer records a message that its failures do not come with. -/
theorem coherent_apply {p : Parser ω α} (hp : p.Coherent) (stack : Stack ω α β) :
    (stack.apply p).Coherent := by
  induction stack with
  | base => exact hp
  | named below label ih => exact Parser.coherent_named ih label
  | withMessage below message => exact Parser.coherent_withMessage _ message
  | _ => exact Parser.coherent_of_message_none _ rfl

theorem failing_script_eq_ok {σ γ : Type} {below : Stack ω α β} {opening : Opening ω σ β γ}
    {x : Run ω Failure} {entries : List (Entry ω)} {e : Failure}
    (h : (below.script opening).failing x = ⟨entries, .ok e⟩) :
    ∃ first last, below.failing x = ⟨first, .ok e⟩ ∧
      Script.closing opening.due opening.left = ⟨last, .ok ()⟩ ∧
      entries = opening.before ++ (first ++ last) := by
  rw [failing, Run.after] at h
  injection h with hentries houtcome
  obtain ⟨first, e₁, rest, hbelow, hrest, hinner⟩ :=
    (Run.bind_eq_ok_iff _ _ _ _).mp (Run.ext rfl houtcome)
  obtain ⟨last, ⟨⟩, _, hclosing, ⟨⟩, rfl⟩ := (Run.bind_eq_ok_iff _ _ _ _).mp hrest
  refine ⟨first, last, hbelow, hclosing, hentries.symm.trans ?_⟩
  exact congrArg (opening.before ++ ·) (hinner.trans (by rw [List.append_nil]))

theorem reported_apply {p : Parser ω α} (hp : p.Coherent) (stack : Stack ω α β) {s : State}
    {run : Run ω (Reply β)} (h : (stack.apply p).parse s = run) :
    (stack.apply p).reported s = run :=
  ((coherent_apply hp stack).reported_eq s).trans h

/-- Only messages are made anew on the way up. -/
theorem failing_site (stack : Stack ω α β) {own entries : List (Entry ω)} {e e' : Failure}
    (h : stack.failing ⟨own, .ok e⟩ = ⟨entries, .ok e'⟩) :
    e'.expected = e.expected ∧ e'.pos = e.pos := by
  induction stack generalizing entries e' with
  | base =>
    cases h
    exact ⟨rfl, rfl⟩
  | script below opening ih =>
    obtain ⟨first, last, hbelow, -, -⟩ := failing_script_eq_ok h
    exact ih hbelow
  | withMessage below message ih =>
    obtain ⟨first, e₁, rest, hbelow, ⟨⟩, -⟩ := (Run.bind_eq_ok_iff _ _ _ _).mp h
    have hsite := ih hbelow
    exact hsite
  | withMessageFrom below f ih =>
    obtain ⟨first, e₁, rest, hbelow, hrest, -⟩ := (Run.bind_eq_ok_iff _ _ _ _).mp h
    obtain ⟨_, message, _, -, ⟨⟩, -⟩ := (Run.bind_eq_ok_iff _ _ _ _).mp hrest
    have hsite := ih hbelow
    exact hsite
  | _ =>
    rename_i ih
    exact ih h

theorem parse_apply_of_failing (stack : Stack ω α β) {p : Parser ω α} (hp : p.Coherent) {s : State}
    {own entries : List (Entry ω)} {e e' : Failure} (hfails : p.parse s = ⟨own, .ok (.failure e)⟩)
    (h : stack.failing ⟨own, .ok e⟩ = ⟨entries, .ok e'⟩) :
    (stack.apply p).parse s = ⟨entries, .ok (.failure e')⟩ := by
  induction stack generalizing entries e' with
  | base =>
    cases h
    exact hfails
  | map below f ih => exact Run.andThen_eq_of_failure (reported_apply hp below (ih h)) _
  | flatMap below f ih => exact Run.andThen_eq_of_failure (reported_apply hp below (ih h)) _
  | zip below q ih => exact Run.andThen_eq_of_failure (ih h) _
  | extend below key choose store ih =>
    exact Run.andThen_eq_of_failure (reported_apply hp below (ih h)) _
  | transform below f ih => exact Run.andThen_eq_of_failure (reported_apply hp below (ih h)) _
  | script below opening ih =>
    obtain ⟨first, last, hbelow, hclosing, rfl⟩ := failing_script_eq_ok h
    rw [apply, Opening.toParser,
      Parser.parse_ofScript_of_waits (opening.waits _ s) (.failure (ih hbelow)) hclosing]
    have hmessage := (coherent_apply hp below).reworded_eq (congrArg Run.outcome (ih hbelow))
    rw [Reply.failure.inj hmessage]
    rfl
  | withMessage below message ih =>
    obtain ⟨first, e₁, rest, hbelow, ⟨⟩, rfl⟩ := (Run.bind_eq_ok_iff _ _ _ _).mp h
    rw [apply, Parser.parse_withMessage, ih hbelow]
    rw [Run.ok_bind]
    rfl
  | withMessageFrom below f ih =>
    obtain ⟨first, e₁, rest, hbelow, hrest, rfl⟩ := (Run.bind_eq_ok_iff _ _ _ _).mp h
    obtain ⟨own, message, _, hf, ⟨⟩, rfl⟩ := (Run.bind_eq_ok_iff _ _ _ _).mp hrest
    rw [apply, Parser.withMessageFrom]
    simp only [ih hbelow, hf, Run.ok_bind]
    rfl
  | named below label ih => exact ih h

/-- Where the stack succeeds, the layers that annotate failures make no difference. By induction on
the stack: each layer has succeeded on a success of what is below it. -/
theorem parse_apply_bare (stack : Stack ω α β) (p : Parser ω α) (s : State) (b : β) (t : State)
    (h : (stack.apply p).Succeeds s b t) :
    (stack.bare.apply p).parse s = (stack.apply p).parse s := by
  induction stack generalizing s t with
  | base => rfl
  | map below f ih => exact Parser.reported_andThen_congr (fun a middle => ih s a middle) _ b h
  | flatMap below f ih => exact Parser.reported_andThen_congr (fun a middle => ih s a middle) _ b h
  | zip below q ih =>
    obtain ⟨a, middle, hbelow, -⟩ := (Parser.succeeds_zip_iff _ _ _ _ _).mp h
    rw [bare, apply, apply, Parser.parse_zip, Parser.parse_zip, ih s a middle hbelow]
  | extend below key choose store ih =>
    exact Parser.reported_andThen_congr (fun a middle => ih s a middle) _ b h
  | transform below f ih =>
    exact Parser.reported_andThen_congr (fun a middle => ih s a middle) _ b h
  | script below opening ih =>
    obtain ⟨ended, middle, hbody, -⟩ := (Parser.succeeds_ofScript_iff _ _ _ _ _).mp h
    have hrun : (opening.body.fill (below.apply p)).run opening.locals s =
        (opening.body.fill (below.bare.apply p)).run opening.locals s :=
      Template.run_fill_of_succeeds ih opening.body _ _ _ _ hbody
    rw [bare, apply, apply, Opening.toParser, Opening.toParser, Parser.ofScript, Parser.ofScript]
    simp only [hrun]
  | withMessage below message ih =>
    have hbelow := (Parser.succeeds_withMessage_iff _ _ _ _ _).mp h
    rw [bare, apply, ih s b t hbelow, Parser.parse_withMessage_of_succeeds hbelow]
  | withMessageFrom below f ih =>
    have hbelow := (Parser.succeeds_withMessageFrom_iff _ _ _ _ _).mp h
    rw [bare, apply, ih s b t hbelow, Parser.parse_withMessageFrom_of_succeeds hbelow]
  | named below label ih => exact ih s b t h

end Stack

variable {ω α β : Type}

/-- A failure at the bottom of a stack goes through all its layers: the whole parser fails with what
the layers make of it, where nothing but the message is made anew, and what is recorded is what is
recorded in making it. A success of the whole parser does not depend on the layers that annotate. -/
theorem failure_through_stack (stack : Stack ω α β) (p : Parser ω α) :
    (p.Coherent → ∀ s own e entries e', p.parse s = ⟨own, .ok (.failure e)⟩ →
      stack.failing ⟨own, .ok e⟩ = ⟨entries, .ok e'⟩ →
        (stack.apply p).parse s = ⟨entries, .ok (.failure e')⟩ ∧
          e'.expected = e.expected ∧ e'.pos = e.pos) ∧
    ∀ s b t, (stack.apply p).Succeeds s b t →
      (stack.bare.apply p).parse s = (stack.apply p).parse s := by
  constructor
  · intro hp s own e entries e' hfails hfailing
    exact ⟨stack.parse_apply_of_failing hp hfails hfailing, stack.failing_site hfailing⟩
  · exact fun s b t h => stack.parse_apply_bare p s b t h

/-- The letter x under a script with a cleanup, a computed message, a function of the value and a
pair, at another letter and at the letter itself. -/
theorem failure_through_stack_five :
    let p : Parser String Char := (Parser.symbol ['x']).withMessage "no x"
    let opening : Opening String Unit Char Char :=
      { body := .guarded (.hole .done) (fun _ => Run.note "closed") fun c => .done (.value c)
        locals := ()
        before := []
        due := [fun _ => Run.note "closed"]
        left := ()
        starts := by cbv }
    let stack : Stack String Char (Text × Char) :=
      .named (.zip (.map (.withMessageFrom (.script .base opening)
        fun e => do Run.note e.message; return e.message ++ "!")
        fun c => do Run.note "mapped"; return [c]) .anyChar) "pair"
    (stack.apply p).parse (.ofText ['y']) =
      ⟨[.event "closed", .event "no x"], .ok (.failure ⟨"no x!", ["'x'"], {}⟩)⟩ ∧
    (stack.bare.apply p).parse (.ofText ['x', 'z']) =
      (stack.apply p).parse (.ofText ['x', 'z']) := by
  intro p opening stack
  constructor
  · have hfails : p.parse (.ofText ['y']) = ⟨[], .ok (.failure ⟨"no x", ["'x'"], {}⟩)⟩ := by cbv
    exact ((failure_through_stack stack p).1 (Parser.coherent_withMessage _ _) _ _ _ _ _ hfails
      rfl).1
  · have hsucceeds :
        (stack.apply p).Succeeds (.ofText ['x', 'z']) (['x'], 'z') ⟨[], ⟨1, 3, 2⟩⟩ := by cbv
    exact (failure_through_stack stack p).2 _ _ _ hsucceeds

end Parsing
