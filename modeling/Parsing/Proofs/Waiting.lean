import Parsing.Proofs.Chain
import Parsing.Proofs.Overrides

/-!
Where a script stops. A script waits for an item inside the blocks that it has entered and not left
again, and the cleanups of these blocks are due, the innermost first. If the script does not go on
from the item, because it is a parser that fails or no parser at all, then the cleanups that are due
are all that is still done. Every failure of a script comes about in this way.
-/

namespace Parsing

namespace Run

variable {ω α β : Type}

/-- A sequence ends with a value if both runs do, and its records are those of both. -/
theorem bind_eq_ok_iff (x : Run ω α) (f : α → Run ω β) (entries : List (Entry ω)) (b : β) :
    x >>= f = ⟨entries, .ok b⟩ ↔
      ∃ first a rest, x = ⟨first, .ok a⟩ ∧ f a = ⟨rest, .ok b⟩ ∧ entries = first ++ rest := by
  obtain ⟨first, outcome⟩ := x
  cases outcome with
  | ok a =>
    rw [ok_bind]
    constructor
    · intro h
      have hentries : first ++ (f a).entries = entries := congrArg Run.entries h
      have houtcome : (f a).outcome = .ok b := congrArg Run.outcome h
      exact ⟨first, a, (f a).entries, rfl, Run.ext rfl houtcome, hentries.symm⟩
    · rintro ⟨_, _, rest, ⟨⟩, hf, rfl⟩
      rw [hf, after]
  | error fault =>
    rw [error_bind]
    constructor
    · intro h
      cases h
    · rintro ⟨_, _, _, ⟨⟩, _, _⟩

theorem ok_bind_eq_ok (x : Run ω α) (f : α → Run ω β) (first rest : List (Entry ω)) (a : α) (b : β)
    (hx : x = ⟨first, .ok a⟩) (hf : f a = ⟨rest, .ok b⟩) : x >>= f = ⟨first ++ rest, .ok b⟩ :=
  (bind_eq_ok_iff x f _ b).mpr ⟨first, a, rest, hx, hf, rfl⟩

end Run

/-- The script that waits for the item in the state does not go on: the parser fails, or there is no
parser to go on from. -/
inductive Item.Stops {ω β : Type} :
    Item ω β → State → List (Entry ω) → Except Fault Failure → Prop
  | failure {p : Parser ω β} {s : State} {own : List (Entry ω)} {e : Failure}
      (hp : p.parse s = ⟨own, .ok (.failure e)⟩) :
      Stops (.parser p) s own (.ok (e.reworded p.message))
  | stray (kind : Kind) (s : State) : Stops (.stray kind) s [] (.error (.strayStep kind))

theorem Parser.reported_eq_of_parse {ω α : Type} {p : Parser ω α} {s : State}
    {own : List (Entry ω)} {reply : Reply α} (h : p.parse s = ⟨own, .ok reply⟩) :
    p.reported s = ⟨own, .ok (reply.reworded p.message)⟩ := by
  rw [Parser.reported, h, Run.bind_pure_eq]
  rfl

namespace Script

variable {ω σ α β γ : Type}

/-- Running the script from the first state comes to wait for the item in the second. The steps on
the way have succeeded, and the blocks on the way have been left again, but for those whose cleanups
are due. -/
inductive Waits (item : Item ω β) :
    {α : Type} → Script ω σ α → σ → State → List (Entry ω) → List (σ → Run ω Unit) → σ → State →
      Prop
  | here {α : Type} (next : β → Script ω σ α) (locals : σ) (s : State) :
      Waits item (await item next) locals s [] [] locals s
  | act {α γ : Type} {action : σ → Run ω (γ × σ)} {next : γ → Script ω σ α} {locals new left : σ}
      {s t : State} {first rest : List (Entry ω)} {due : List (σ → Run ω Unit)} {b : γ}
      (haction : action locals = ⟨first, .ok (b, new)⟩)
      (hnext : Waits item (next b) new s rest due left t) :
      Waits item (act action next) locals s (first ++ rest) due left t
  | step {α γ : Type} {p : Parser ω γ} {next : γ → Script ω σ α} {locals left : σ}
      {s middle t : State} {first rest : List (Entry ω)} {due : List (σ → Run ω Unit)} {b : γ}
      (hstep : p.parse s = ⟨first, .ok (.success b middle)⟩)
      (hnext : Waits item (next b) locals middle rest due left t) :
      Waits item (await (.parser p) next) locals s (first ++ rest) due left t
  | inside {α γ : Type} {body : Script ω σ γ} {cleanup : σ → Run ω Unit} {next : γ → Script ω σ α}
      {locals left : σ} {s t : State} {entries : List (Entry ω)} {due : List (σ → Run ω Unit)}
      (hbody : Waits item body locals s entries due left t) :
      Waits item (guarded body cleanup next) locals s entries (due ++ [cleanup]) left t
  | past {α γ : Type} {body : Script ω σ γ} {cleanup : σ → Run ω Unit} {next : γ → Script ω σ α}
      {locals kept left : σ} {s middle t : State} {first own rest : List (Entry ω)}
      {due : List (σ → Run ω Unit)} {b : γ}
      (hbody : body.run locals s = ⟨first, .ok (kept, .ok (.success b middle))⟩)
      (hcleanup : cleanup kept = ⟨own, .ok ()⟩)
      (hnext : Waits item (next b) kept middle rest due left t) :
      Waits item (guarded body cleanup next) locals s (first ++ (own ++ rest)) due left t

/-- Runs the cleanups that are due, one after another. -/
def closing : List (σ → Run ω Unit) → σ → Run ω Unit
  | [], _ => return ()
  | cleanup :: outer, left => do
    cleanup left
    closing outer left

theorem closing_concat (due : List (σ → Run ω Unit)) (cleanup : σ → Run ω Unit) (left : σ) :
    closing (due ++ [cleanup]) left = (do closing due left; cleanup left) := by
  induction due with
  | nil => simp only [List.nil_append, closing, pure_bind, bind_pure_unit]
  | cons first outer ih => simp only [List.cons_append, closing, ih, bind_assoc]

/-! What a part of a script ends with, in the script. -/

theorem run_act_eq {action : σ → Run ω (γ × σ)} (next : γ → Script ω σ α) {locals new : σ}
    (s : State) {first : List (Entry ω)} {b : γ}
    (haction : action locals = ⟨first, .ok (b, new)⟩) :
    (act action next).run locals s = ((next b).run new s).after first := by
  rw [run, haction, Run.attempt, Run.ok_bind]

theorem run_step_eq {p : Parser ω γ} (next : γ → Script ω σ α) (locals : σ) {s middle : State}
    {first : List (Entry ω)} {b : γ} (hstep : p.parse s = ⟨first, .ok (.success b middle)⟩) :
    (await (.parser p) next).run locals s = ((next b).run locals middle).after first := by
  rw [run_await, Parser.reported_eq_of_parse hstep, Run.attempt, Run.ok_bind]
  rfl

theorem run_guarded_eq {body : Script ω σ γ} {cleanup : σ → Run ω Unit} (next : γ → Script ω σ α)
    {locals left : σ} {s : State} {first own : List (Entry ω)} {ended : Except Fault (Reply γ)}
    (hbody : body.run locals s = ⟨first, .ok (left, ended)⟩)
    (hcleanup : cleanup left = ⟨own, .ok ()⟩) :
    (guarded body cleanup next).run locals s =
      (goOn left (fun b rest => (next b).run left rest) ended).after (first ++ own) := by
  rw [run_guarded, hbody, Run.ok_bind]
  simp only [hcleanup, Run.attempt, Run.ok_bind]
  rw [Run.after, Run.after, Run.after, List.append_assoc]

/-- A cleanup that raises a fault hides what the block has ended with. -/
theorem run_guarded_of_fault {body : Script ω σ γ} {cleanup : σ → Run ω Unit}
    (next : γ → Script ω σ α) {locals left : σ} {s : State} {first own : List (Entry ω)}
    {ended : Except Fault (Reply γ)} {fault : Fault}
    (hbody : body.run locals s = ⟨first, .ok (left, ended)⟩)
    (hcleanup : cleanup left = ⟨own, .error fault⟩) :
    (guarded body cleanup next).run locals s = ⟨first ++ own, .ok (left, .error fault)⟩ := by
  rw [run_guarded, hbody, Run.ok_bind]
  simp only [hcleanup, Run.attempt, Run.ok_bind, Run.after, Run.pure_def, List.append_nil]

/-- By induction on the way to the item: what has been recorded on it comes first, and each block
around the item adds its cleanup at the end. -/
theorem run_of_waits {item : Item ω β} {body : Script ω σ α} {locals left : σ} {s t : State}
    {entries own last : List (Entry ω)} {due : List (σ → Run ω Unit)} {stop : Except Fault Failure}
    (h : Waits item body locals s entries due left t) (hstop : item.Stops t own stop)
    (hclosing : closing due left = ⟨last, .ok ()⟩) :
    body.run locals s = ⟨entries ++ (own ++ last), .ok (left, stop.map .failure)⟩ := by
  induction h generalizing last with
  | here next locals s =>
    cases hclosing
    cases hstop with
    | failure hp =>
      rw [run_await, Parser.reported_eq_of_parse hp, Run.attempt, Run.ok_bind]
      rfl
    | stray kind => rfl
  | act haction _ ih =>
    rw [run_act_eq _ _ haction, ih hstop hclosing, Run.after, List.append_assoc]
  | step hstep _ ih =>
    rw [run_step_eq _ _ hstep, ih hstop hclosing, Run.after, List.append_assoc]
  | @inside α γ body cleanup next locals left s t entries due _ ih =>
    rw [closing_concat] at hclosing
    obtain ⟨inner, ⟨⟩, outer, hinner, houter, rfl⟩ := (Run.bind_eq_ok_iff _ _ _ _).mp hclosing
    rw [run_guarded_eq next (ih hstop hinner) houter]
    cases stop with
    | ok e => simp [Except.map, goOn, Run.after, Run.pure_def]
    | error fault => simp [Except.map, goOn, Run.after, Run.pure_def]
  | past hbody hcleanup _ ih =>
    rw [run_guarded_eq _ hbody hcleanup]
    change Run.after _ (run _ _ _) = _
    rw [ih hstop hclosing, Run.after]
    simp only [List.append_assoc]

/-- A script fails only where it waits for a parser that fails. By induction on the script: a
failure is that of the part in which the script stops. -/
theorem exists_waits_of_failure (body : Script ω σ α) (locals : σ) (s : State) (left : σ)
    (e : Failure) (h : (body.run locals s).outcome = .ok (left, .ok (.failure e))) :
    ∃ (β : Type) (p : Parser ω β) (before own last : List (Entry ω)) (due : List (σ → Run ω Unit))
      (t : State), Waits (.parser p) body locals s before due left t ∧
        (Item.parser p).Stops t own (.ok e) ∧ closing due left = ⟨last, .ok ()⟩ := by
  induction body generalizing locals s left with
  | done a => cases h
  | act action next ih =>
    rcases haction : action locals with ⟨first, fault | ⟨b, new⟩⟩
    · rw [run, haction, Run.attempt, Run.ok_bind] at h
      cases h
    · rw [run_act_eq next s haction] at h
      obtain ⟨β, p, before, own, last, due, t, hwaits, hrest⟩ := ih b new s left h
      exact ⟨β, p, first ++ before, own, last, due, t, .act haction hwaits, hrest⟩
  | await item next ih =>
    cases item with
    | stray kind => cases h
    | parser p =>
      rcases hp : p.parse s with ⟨own, fault | ⟨b, middle⟩ | e'⟩
      · rw [run_await, Parser.reported, hp, Run.error_bind, Run.attempt, Run.ok_bind] at h
        cases h
      · rw [run_step_eq next locals hp] at h
        obtain ⟨β, q, before, own', last, due, t, hwaits, hrest⟩ := ih b locals middle left h
        exact ⟨β, q, own ++ before, own', last, due, t, .step hp hwaits, hrest⟩
      · rw [run_await, Parser.reported_eq_of_parse hp, Run.attempt, Run.ok_bind] at h
        cases h
        exact ⟨_, p, [], own, [], [], s, .here next locals s, .failure hp, rfl⟩
  | guarded body cleanup next ihbody ihnext =>
    rcases hbody : body.run locals s with ⟨first, fault | ⟨kept, ended⟩⟩
    · rw [run_guarded, hbody, Run.error_bind] at h
      cases h
    · rcases hcleanup : cleanup kept with ⟨own, fault | ⟨⟩⟩
      · rw [run_guarded_of_fault next hbody hcleanup] at h
        cases h
      · rw [run_guarded_eq next hbody hcleanup] at h
        rcases ended with fault | ⟨b, middle⟩ | e'
        · cases h
        · obtain ⟨β, p, before, own', last, due, t, hwaits, hrest⟩ := ihnext b kept middle left h
          exact ⟨β, p, first ++ (own ++ before), own', last, due, t,
            .past hbody hcleanup hwaits, hrest⟩
        · cases h
          obtain ⟨β, p, before, own', last, due, t, hwaits, hstop, hclosing⟩ :=
            ihbody locals s left (congrArg Run.outcome hbody)
          refine ⟨β, p, before, own', last ++ own, due ++ [cleanup], t, .inside hwaits, hstop, ?_⟩
          rw [closing_concat]
          exact Run.ok_bind_eq_ok _ _ _ _ _ _ hclosing hcleanup

end Script

namespace Parser

variable {ω σ α β : Type}

/-- What a script ends with is looked at when all its cleanups have been run. -/
theorem parse_ofScript_of_run {body : Script ω σ (Ending ω α)} {locals left : σ} {s t : State}
    {entries : List (Entry ω)} {ending : Ending ω α}
    (h : body.run locals s = ⟨entries, .ok (left, .ok (.success ending t))⟩) :
    (ofScript body locals).parse s = (ending.toParser.parse t).after entries := by
  simp only [ofScript, h, Run.ok_bind, Run.ofExcept, Run.after_nil]
  cases ending <;> rfl

theorem parse_ofScript_of_waits {item : Item ω β} {body : Script ω σ (Ending ω α)}
    {locals left : σ} {s t : State} {entries own last : List (Entry ω)}
    {due : List (σ → Run ω Unit)} {stop : Except Fault Failure}
    (h : body.Waits item locals s entries due left t) (hstop : item.Stops t own stop)
    (hclosing : Script.closing due left = ⟨last, .ok ()⟩) :
    (ofScript body locals).parse s = ⟨entries ++ (own ++ last), stop.map .failure⟩ := by
  simp only [ofScript, Script.run_of_waits h hstop hclosing, Run.ok_bind]
  cases stop with
  | ok e => simp [Run.ofExcept, Except.map, Run.ok_bind, Reply.andThen, Run.pure_def, Run.after]
  | error fault => simp [Run.ofExcept, Except.map, Run.error_bind, Run.after]

end Parser

end Parsing
