import Parsing.Parser.Character
import Parsing.Script

/-!
Scripts without cleanups are nothing but chains of `flatMap`. The chain is read off the script anew
at each run: what stands before a step is done where the function after the step before it is
called, and the last function gives the parser that the script ends with. Both do the same, records
and faults included, and waiting for what is no parser is a fault at that point.
-/

namespace Parsing

namespace Run

variable {ω α β : Type}

/-- To look at an outcome and raise a fault again is to go on from the value. -/
theorem attempt_bind (x : Run ω α) (k : Except Fault α → Run ω β)
    (hraise : ∀ fault, k (.error fault) = raise fault) :
    x.attempt >>= k = x >>= fun a => k (.ok a) := by
  obtain ⟨entries, outcome⟩ := x
  cases outcome with
  | ok a => rw [attempt, ok_bind, ok_bind]
  | error fault =>
    rw [attempt, ok_bind, error_bind, hraise]
    simp [after, raise]

end Run

namespace Ending

variable {ω α : Type}

/-- A value is given by the parser that takes nothing and succeeds with it. -/
def toParser : Ending ω α → Parser ω α
  | value a => .result a
  | parser p => p

theorem parse_toParser (ending : Ending ω α) (s : State) :
    ending.toParser.parse s =
      match ending with
      | value a => return .success a s
      | parser p => p.parse s := by
  cases ending <;> rfl

end Ending

namespace Script

variable {ω σ α β : Type}

/-- No part of the script is guarded by a cleanup. -/
def GuardFree : {α : Type} → Script ω σ α → Prop
  | _, done _ => True
  | _, act _ next => ∀ b, (next b).GuardFree
  | _, await _ next => ∀ b, (next b).GuardFree
  | _, guarded _ _ _ => False

/-- The chain that a script stands for, with `k` in place of what follows the script. Cleanups have
no place in a chain and are left out. -/
def chain : {α : Type} → Script ω σ α → σ → (α → σ → Run ω (Parser ω β)) → Run ω (Parser ω β)
  | _, done a, locals, k => k a locals
  | _, act action next, locals, k => do
    let (b, new) ← action locals
    (next b).chain new k
  | _, await (.stray kind) _, _, _ => Run.raise (.strayStep kind)
  | _, await (.parser p) next, locals, k =>
    return p.flatMap fun b => (next b).chain locals k
  | _, guarded body _ next, locals, k =>
    body.chain locals fun b left => (next b).chain left k

/-- Running the script from the first state, with all steps on the way successful, leads to what
remains of it in the second, and makes the given records. -/
inductive Leads : Script ω σ α → σ → State → List (Entry ω) → Script ω σ α → σ → State → Prop
  | here (body : Script ω σ α) (locals : σ) (s : State) : Leads body locals s [] body locals s
  | act {γ : Type} {action : σ → Run ω (γ × σ)} {next : γ → Script ω σ α} {locals new left : σ}
      {s t : State} {first rest : List (Entry ω)} {b : γ} {body : Script ω σ α}
      (haction : action locals = ⟨first, .ok (b, new)⟩)
      (hnext : Leads (next b) new s rest body left t) :
      Leads (act action next) locals s (first ++ rest) body left t
  | await {γ : Type} {p : Parser ω γ} {next : γ → Script ω σ α} {locals left : σ}
      {s middle t : State} {first rest : List (Entry ω)} {b : γ} {body : Script ω σ α}
      (hstep : p.parse s = ⟨first, .ok (.success b middle)⟩)
      (hnext : Leads (next b) locals middle rest body left t) :
      Leads (await (.parser p) next) locals s (first ++ rest) body left t

/-- What follows a script, be it run or read as a chain. By induction on the script: a step and the
call of `flatMap` look at the same reply. -/
theorem run_chain (body : Script ω σ α) (hfree : body.GuardFree) (locals : σ) (s : State)
    (k : α → σ → Run ω (Parser ω β)) :
    (do
      let (left, ended) ← body.run locals s
      (← Run.ofExcept ended).andThen fun a rest => do (← k a left).parse rest) =
    (do (← body.chain locals k).parse s) := by
  induction body generalizing locals s with
  | done a => simp only [run, chain, pure_bind, Run.ofExcept]; rfl
  | act action next ih =>
    simp only [run, chain, bind_assoc]
    rw [Run.attempt_bind _ _ (fun fault => by simp only [pure_bind]; rfl)]
    apply congrArg
    funext step
    obtain ⟨b, new⟩ := step
    exact ih b (hfree b) new s k
  | await item next ih =>
    cases item with
    | stray kind =>
      simp only [run, chain, pure_bind]
      rfl
    | parser p =>
      simp only [run, chain, bind_assoc, pure_bind, Parser.flatMap]
      rw [Run.attempt_bind _ _ (fun fault => by simp only [pure_bind]; rfl)]
      apply congrArg
      funext reply
      cases reply with
      | success b rest => exact ih b (hfree b) locals rest k
      | failure e =>
        simp only [pure_bind]
        rfl
  | guarded body cleanup next => exact hfree.elim

/-- A run that leads on to another part of the script ends as that part does, after its records. -/
theorem run_of_leads {body last : Script ω σ α} {locals left : σ} {s t : State}
    {entries : List (Entry ω)} (h : body.Leads locals s entries last left t) :
    body.run locals s = (last.run left t).after entries := by
  induction h with
  | here body locals s => exact (Run.after_nil _).symm
  | @act γ action next locals new left s t first rest b body haction hnext ih =>
    calc
      (act action next).run locals s = ((next b).run new s).after first := by
        rw [run, haction, Run.attempt, Run.ok_bind]
      _ = (body.run left t).after (first ++ rest) := by
        rw [ih, Run.after, Run.after, Run.after, List.append_assoc]
  | @await γ p next locals left s middle t first rest b body hstep hnext ih =>
    have hreported : p.reported s = ⟨first, .ok (.success b middle)⟩ := by
      rw [Parser.reported, hstep, Run.ok_bind]
      simp only [Run.after, Run.pure_def, List.append_nil, Reply.reworded]
    calc
      (await (.parser p) next).run locals s = ((next b).run locals middle).after first := by
        rw [run, hreported, Run.attempt, Run.ok_bind]
      _ = (body.run left t).after (first ++ rest) := by
        rw [ih, Run.after, Run.after, Run.after, List.append_assoc]

end Script

namespace Parser

variable {ω σ α β : Type}

/-- To wait for a parser is to run it under its recorded message and to go on from its value. -/
theorem parse_ofScript_step (p : Parser ω β) (next : β → Script ω σ (Ending ω α)) (locals : σ)
    (s : State) :
    (ofScript (Script.step p >>= next) locals).parse s =
      (do (← p.reported s).andThen fun b rest => (ofScript (next b) locals).parse rest) := by
  have hawait : Script.step p >>= next = Script.await (.parser p) next := rfl
  simp only [ofScript, hawait, Script.run, bind_assoc]
  rw [Run.attempt_bind _ _ (fun fault => by simp only [pure_bind]; rfl)]
  apply congrArg
  funext reply
  cases reply with
  | success b rest => rfl
  | failure e =>
    simp only [pure_bind]
    rfl

/-- A script ends with a parser, for a value with the one that succeeds with it. -/
theorem parse_ofScript_eq (body : Script ω σ (Ending ω α)) (locals : σ) (s : State) :
    (ofScript body locals).parse s = (do
      let (_, ended) ← body.run locals s
      (← Run.ofExcept ended).andThen fun ending rest => ending.toParser.parse rest) := by
  apply congrArg (body.run locals s >>= ·)
  funext ⟨left, ended⟩
  apply congrArg (Run.ofExcept ended >>= ·)
  funext reply
  cases reply with
  | success ending rest => exact (ending.parse_toParser rest).symm
  | failure e => rfl

theorem parse_ofScript_chain (body : Script ω σ (Ending ω α)) (locals : σ)
    (hfree : body.GuardFree) (s : State) :
    (ofScript body locals).parse s =
      (defer (body.chain locals fun ending _ => return ending.toParser)).parse s := by
  rw [parse_ofScript_eq, parse_defer, ← body.run_chain hfree locals s]
  simp only [pure_bind]

/-- A script without cleanups is the chain that is read off it at each run: equal as a parser, so
with the same reply, records and faults on every state. Where it comes to wait for what is no
parser, the run ends with that fault after the records of the steps so far. -/
theorem ofScript_eq_chain (body : Script ω σ (Ending ω α)) (locals : σ)
    (hfree : body.GuardFree) :
    ofScript body locals =
      defer (body.chain locals fun ending _ => return ending.toParser) ∧
    ∀ {β : Type} (s t : State) (entries : List (Entry ω)) (kind : Kind)
      (next : β → Script ω σ (Ending ω α)) (left : σ),
      body.Leads locals s entries (.await (.stray kind) next) left t →
        (ofScript body locals).parse s = ⟨entries, .error (.strayStep kind)⟩ := by
  constructor
  · have hparse := funext (parse_ofScript_chain body locals hfree)
    exact congrArg (fun parse => ({ parse } : Parser ω α)) hparse
  · intro β s t entries kind next left hleads
    simp only [ofScript]
    rw [Script.run_of_leads hleads, Run.after_bind, Script.run, pure_bind]
    simp only [Run.ofExcept, Run.error_bind, Run.after, List.append_nil]

/-- One character is read before the script waits for a text. -/
theorem ofScript_eq_chain_stray :
    let body : Script Empty Unit (Ending Empty Char) :=
      .await (.parser anyChar) fun _ => .await (.stray .text) fun c => .done (.value c)
    body.GuardFree ∧
    ofScript body () = defer (body.chain () fun ending _ => return ending.toParser) ∧
    (ofScript body ()).parse (.ofText ['a', 'b']) = ⟨[], .error (.strayStep .text)⟩ := by
  intro body
  have hfree : body.GuardFree := fun _ _ => trivial
  have h := ofScript_eq_chain body () hfree
  refine ⟨hfree, h.1, ?_⟩
  apply h.2 (.ofText ['a', 'b']) ⟨['b'], Position.advance {} ['a']⟩
  have hstep : (anyChar : Parser Empty Char).parse (.ofText ['a', 'b']) =
      ⟨[], .ok (.success 'a' ⟨['b'], Position.advance {} ['a']⟩)⟩ := rfl
  exact Script.Leads.await hstep (.here _ () _)

end Parser

end Parsing
