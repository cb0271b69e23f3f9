import Parsing.Parser.Basic

/-!
Scripts: step-by-step bodies of parsers. A script acts on local variables of type `σ`, waits for the
value of a parser and goes on as a function of it, and may guard a part of itself with a cleanup
that is due however that part ends. The cleanup sees the local variables as they are at that moment.
-/

namespace Parsing

inductive Script (ω σ : Type) : Type → Type 1 where
  | done {α : Type} (value : α) : Script ω σ α
  /-- Acts on the local variables. -/
  | act {α β : Type} (action : σ → Run ω (β × σ)) (next : β → Script ω σ α) : Script ω σ α
  /-- Waits for the value that a parser gives from the current state. -/
  | await {α β : Type} (step : Item ω β) (next : β → Script ω σ α) : Script ω σ α
  /-- Runs the cleanup when the body has ended, by itself or because a step went wrong. -/
  | guarded {α β : Type} (body : Script ω σ β) (cleanup : σ → Run ω Unit)
      (next : β → Script ω σ α) : Script ω σ α

/-- What a script ends with: a value, or a parser to run in its place from the final state. -/
inductive Ending (ω α : Type) where
  | value (value : α)
  | parser (p : Parser ω α)

instance {ω α : Type} : Inhabited (Ending ω α) := ⟨.parser default⟩

namespace Script

variable {ω σ α β : Type}

instance [Inhabited α] : Inhabited (Script ω σ α) := ⟨done default⟩

def andThen : Script ω σ α → (α → Script ω σ β) → Script ω σ β
  | done a, f => f a
  | act action next, f => act action fun b => (next b).andThen f
  | await step next, f => await step fun b => (next b).andThen f
  | guarded body cleanup next, f => guarded body cleanup fun b => (next b).andThen f

instance : Monad (Script ω σ) where
  pure := done
  bind := andThen

/-- Runs an action that leaves the local variables alone. -/
def perform (action : Run ω α) : Script ω σ α :=
  act (fun locals => return (← action, locals)) done

def locals : Script ω σ σ := act (fun locals => return (locals, locals)) done

def setLocals (new : σ) : Script ω σ Unit := act (fun _ => return ((), new)) done

def step (p : Parser ω α) : Script ω σ α := await (.parser p) done

/-- Runs a script from the given local variables and state. Steps report under their recorded
message. Gives the local variables at the end and how the script ended: with a fault, or with the
reply of the first step that failed, or with its value in the state that the steps have left. -/
def run : {α : Type} → Script ω σ α → σ → State → Run ω (σ × Except Fault (Reply α))
  | _, done a, locals, s => return (locals, .ok (.success a s))
  | _, act action next, locals, s => do
    match ← (action locals).attempt with
    | .ok (b, locals) => (next b).run locals s
    | .error fault => return (locals, .error fault)
  | _, await (.stray kind) _, locals, _ => return (locals, .error (.strayStep kind))
  | _, await (.parser p) next, locals, s => do
    match ← (p.reported s).attempt with
    | .ok (.success b rest) => (next b).run locals rest
    | .ok (.failure e) => return (locals, .ok (.failure e))
    | .error fault => return (locals, .error fault)
  | _, guarded body cleanup next, locals, s => do
    let (locals, ended) ← body.run locals s
    match ← (cleanup locals).attempt, ended with
    | .error fault, _ => return (locals, .error fault)
    | .ok (), .ok (.success b rest) => (next b).run locals rest
    | .ok (), .ok (.failure e) => return (locals, .ok (.failure e))
    | .ok (), .error fault => return (locals, .error fault)

/-- Goes on from what a part of a script has ended with, which ends the script unless the part
succeeded. -/
def goOn (locals : σ) (next : β → State → Run ω (σ × Except Fault (Reply α))) :
    Except Fault (Reply β) → Run ω (σ × Except Fault (Reply α))
  | .ok (.success b rest) => next b rest
  | .ok (.failure e) => return (locals, .ok (.failure e))
  | .error fault => return (locals, .error fault)

theorem run_await (p : Parser ω β) (next : β → Script ω σ α) (locals : σ) (s : State) :
    (await (.parser p) next).run locals s =
      (p.reported s).attempt >>= goOn locals fun b rest => (next b).run locals rest := by
  rw [run]
  apply congrArg
  funext ended
  rcases ended with fault | ⟨b, rest⟩ | e <;> rfl

theorem run_guarded (body : Script ω σ β) (cleanup : σ → Run ω Unit) (next : β → Script ω σ α)
    (locals : σ) (s : State) :
    (guarded body cleanup next).run locals s = (do
      let (left, ended) ← body.run locals s
      match ← (cleanup left).attempt with
      | .error fault => return (left, .error fault)
      | .ok () => goOn left (fun b rest => (next b).run left rest) ended) := by
  rw [run]
  apply congrArg
  funext ⟨left, ended⟩
  apply congrArg ((cleanup left).attempt >>= ·)
  funext cleaned
  rcases cleaned with fault | ⟨⟩
  · rfl
  · rcases ended with fault | ⟨b, rest⟩ | e <;> rfl

end Script

namespace Parser

variable {ω σ α : Type}

/-- The parser that runs a script, each time from the same local variables. -/
def ofScript (body : Script ω σ (Ending ω α)) (locals : σ) : Parser ω α where
  parse s := do
    let (_, ended) ← body.run locals s
    (← Run.ofExcept ended).andThen fun ending rest =>
      match ending with
      | .value a => return .success a rest
      | .parser p => p.parse rest

end Parser

end Parsing
