import Parsing.Proofs.Successes
import Parsing.Proofs.Waiting

/-!
Scripts that wait, in some of their steps, for a parser that is still to be given. What such a
script does with one parser and with another differs no more than the reports of the two: nothing
else about a parser that is waited for can be seen from the script.
-/

namespace Parsing

/-- What a parser records as its message does not show where it succeeds. -/
theorem Parser.reported_eq_of_succeeds {ω α : Type} {p q : Parser ω α} {s t : State} {a : α}
    (h : p.Succeeds s a t) (hparse : q.parse s = p.parse s) : q.reported s = p.reported s := by
  rw [Parser.reported, Parser.reported, hparse]
  apply Run.bind_congr_outcome
  intro reply hout
  cases h.symm.trans hout
  rfl

namespace Script

variable {ω σ α γ : Type}

/-! What a script goes on with counts only where it does go on. -/

theorem run_act_congr {action : σ → Run ω (γ × σ)} {next next' : γ → Script ω σ α} {locals : σ}
    {s : State}
    (h : ∀ b new, (action locals).outcome = .ok (b, new) →
      (next b).run new s = (next' b).run new s) :
    (act action next).run locals s = (act action next').run locals s := by
  rw [run, run]
  apply Run.bind_congr_outcome
  intro acted hacted
  cases hacted
  cases hout : (action locals).outcome with
  | error fault => rfl
  | ok acted => exact h acted.1 acted.2 hout

theorem run_await_congr {p q : Parser ω γ} {next next' : γ → Script ω σ α} {locals : σ} {s : State}
    (hreported : p.reported s = q.reported s)
    (h : ∀ b middle, p.Succeeds s b middle →
      (next b).run locals middle = (next' b).run locals middle) :
    (await (.parser p) next).run locals s = (await (.parser q) next').run locals s := by
  rw [run_await, run_await, ← hreported]
  apply Run.bind_congr_outcome
  intro ended hended
  cases hended
  rcases hout : (p.reported s).outcome with fault | ⟨b, middle⟩ | e
  · rfl
  · exact h b middle ((Parser.reported_eq_success_iff p s b middle).mp hout)
  · rfl

theorem run_guarded_congr {body body' : Script ω σ γ} {cleanup : σ → Run ω Unit}
    {next next' : γ → Script ω σ α} {locals : σ} {s : State}
    (hbody : body.run locals s = body'.run locals s)
    (h : ∀ b left middle, body.Succeeds locals s (b, left) middle →
      (cleanup left).outcome = .ok () → (next b).run left middle = (next' b).run left middle) :
    (guarded body cleanup next).run locals s = (guarded body' cleanup next').run locals s := by
  rw [run_guarded, run_guarded, ← hbody]
  apply Run.bind_congr_outcome
  rintro ⟨left, ended⟩ hended
  apply Run.bind_congr_outcome
  intro cleaned hcleaned
  cases hcleaned
  rcases hout : (cleanup left).outcome with fault | ⟨⟩
  · rfl
  · rcases ended with fault | ⟨b, middle⟩ | e
    · rfl
    · exact h b left middle hended hout
    · rfl

end Script

/-- A script in which the steps at `hole` wait for a parser that is given later. -/
inductive Template (ω σ β : Type) : Type → Type 1 where
  | done {α : Type} (value : α) : Template ω σ β α
  | act {α γ : Type} (action : σ → Run ω (γ × σ)) (next : γ → Template ω σ β α) : Template ω σ β α
  | await {α γ : Type} (step : Item ω γ) (next : γ → Template ω σ β α) : Template ω σ β α
  | hole {α : Type} (next : β → Template ω σ β α) : Template ω σ β α
  | guarded {α γ : Type} (body : Template ω σ β γ) (cleanup : σ → Run ω Unit)
      (next : γ → Template ω σ β α) : Template ω σ β α

namespace Template

variable {ω σ α β : Type}

def fill (p : Parser ω β) : {α : Type} → Template ω σ β α → Script ω σ α
  | _, done a => .done a
  | _, act action next => .act action fun b => (next b).fill p
  | _, await item next => .await item fun b => (next b).fill p
  | _, hole next => .await (.parser p) fun b => (next b).fill p
  | _, guarded body cleanup next => .guarded (body.fill p) cleanup fun b => (next b).fill p

open Script (goOn)

/-- Parsers with the same reports make the same script. -/
theorem run_fill_congr {p q : Parser ω β} (h : p.reported = q.reported) (body : Template ω σ β α)
    (locals : σ) (s : State) : (body.fill p).run locals s = (body.fill q).run locals s := by
  induction body generalizing locals s with
  | done a => rfl
  | act action next ih => exact Script.run_act_congr fun b new _ => ih b new s
  | await item next ih =>
    cases item with
    | stray kind => rfl
    | parser r => exact Script.run_await_congr rfl fun b middle _ => ih b locals middle
  | hole next ih => exact Script.run_await_congr (congrFun h s) fun b middle _ => ih b locals middle
  | guarded body cleanup next ihbody ihnext =>
    exact Script.run_guarded_congr (ihbody locals s) fun b left middle _ _ => ihnext b left middle

/-- Where the script succeeds with one parser, it does the same with any parser that does what that
one does where it succeeds. -/
theorem run_fill_of_succeeds {p q : Parser ω β}
    (h : ∀ s b t, p.Succeeds s b t → q.parse s = p.parse s) (body : Template ω σ β α)
    (locals : σ) (s : State) (ended : α × σ) (t : State)
    (hsucceeds : (body.fill p).Succeeds locals s ended t) :
    (body.fill p).run locals s = (body.fill q).run locals s := by
  induction body generalizing locals s t with
  | done a => rfl
  | act action next ih =>
    obtain ⟨acted, hacted, hnext⟩ := (Script.succeeds_act_iff _ _ _ _ _ _).mp hsucceeds
    apply Script.run_act_congr
    intro b new hout
    cases hacted.symm.trans hout
    exact ih b new s ended t hnext
  | await item next ih =>
    cases item with
    | stray kind => rfl
    | parser r =>
      obtain ⟨b, middle, hstep, hnext⟩ := (Script.succeeds_await_iff _ _ _ _ _ _).mp hsucceeds
      apply Script.run_await_congr rfl
      intro b' middle' hstep'
      cases hstep.symm.trans hstep'
      exact ih b locals middle ended t hnext
  | hole next ih =>
    obtain ⟨b, middle, hstep, hnext⟩ := (Script.succeeds_await_iff _ _ _ _ _ _).mp hsucceeds
    apply Script.run_await_congr
    · exact (Parser.reported_eq_of_succeeds hstep (h s b middle hstep)).symm
    · intro b' middle' hstep'
      cases hstep.symm.trans hstep'
      exact ih b locals middle ended t hnext
  | guarded body cleanup next ihbody ihnext =>
    obtain ⟨left, middle, hbody, -, hnext⟩ :=
      (Script.succeeds_guarded_iff _ _ _ _ _ _ _).mp hsucceeds
    apply Script.run_guarded_congr (ihbody locals s left middle hbody)
    intro b left' middle' hbody' _
    cases hbody.symm.trans hbody'
    exact ihnext left.1 left.2 middle ended t hnext

/-- The script stops where it waits for the parser that was given, because that parser fails. -/
structure FailsAtHole (body : Template ω σ β α) (p : Parser ω β) (locals : σ) (s : State)
    (before own last : List (Entry ω)) (due : List (σ → Run ω Unit)) (left : σ) (t : State)
    (e : Failure) : Prop where
  waits : (body.fill p).Waits (.parser p) locals s before due left t
  fails : p.parse t = ⟨own, .ok (.failure e)⟩
  closes : Script.closing due left = ⟨last, .ok ()⟩

namespace FailsAtHole

variable {p : Parser ω β} {locals left : σ} {s t : State} {before own last : List (Entry ω)}
  {due : List (σ → Run ω Unit)} {e : Failure} {γ : Type}

theorem run_eq {body : Template ω σ β α}
    (h : body.FailsAtHole p locals s before own last due left t e) :
    (body.fill p).run locals s =
      ⟨before ++ (own ++ last), .ok (left, .ok (.failure (e.reworded p.message)))⟩ :=
  Script.run_of_waits h.waits (.failure h.fails) h.closes

theorem act {action : σ → Run ω (γ × σ)} {next : γ → Template ω σ β α} {new : σ}
    {first : List (Entry ω)} {b : γ} (haction : action locals = ⟨first, .ok (b, new)⟩)
    (h : (next b).FailsAtHole p new s before own last due left t e) :
    (Template.act action next).FailsAtHole p locals s (first ++ before) own last due left t e :=
  ⟨.act haction h.waits, h.fails, h.closes⟩

theorem step {r : Parser ω γ} {next : γ → Template ω σ β α} {middle : State}
    {first : List (Entry ω)} {b : γ} (hstep : r.parse s = ⟨first, .ok (.success b middle)⟩)
    (h : (next b).FailsAtHole p locals middle before own last due left t e) :
    (await (.parser r) next).FailsAtHole p locals s (first ++ before) own last due left t e :=
  ⟨.step hstep h.waits, h.fails, h.closes⟩

theorem hole {next : β → Template ω σ β α} {middle : State} {first : List (Entry ω)} {b : β}
    (hstep : p.parse s = ⟨first, .ok (.success b middle)⟩)
    (h : (next b).FailsAtHole p locals middle before own last due left t e) :
    (Template.hole next).FailsAtHole p locals s (first ++ before) own last due left t e :=
  ⟨.step hstep h.waits, h.fails, h.closes⟩

theorem inside {body : Template ω σ β γ} {cleanup : σ → Run ω Unit} {next : γ → Template ω σ β α}
    {closed : List (Entry ω)} (h : body.FailsAtHole p locals s before own last due left t e)
    (hcleanup : cleanup left = ⟨closed, .ok ()⟩) :
    (guarded body cleanup next).FailsAtHole p locals s before own (last ++ closed)
      (due ++ [cleanup]) left t e := by
  refine ⟨.inside h.waits, h.fails, ?_⟩
  rw [Script.closing_concat]
  exact Run.ok_bind_eq_ok _ _ _ _ _ _ h.closes hcleanup

theorem past {body : Template ω σ β γ} {cleanup : σ → Run ω Unit} {next : γ → Template ω σ β α}
    {kept : σ} {middle : State} {first closed : List (Entry ω)} {b : γ}
    (hbody : (body.fill p).run locals s = ⟨first, .ok (kept, .ok (.success b middle))⟩)
    (hcleanup : cleanup kept = ⟨closed, .ok ()⟩)
    (h : (next b).FailsAtHole p kept middle before own last due left t e) :
    (guarded body cleanup next).FailsAtHole p locals s (first ++ (closed ++ before)) own last
      due left t e :=
  ⟨.past hbody hcleanup h.waits, h.fails, h.closes⟩

end FailsAtHole

/-- All parsers with the parse function make the same of the script, or in all of them the script
stops because the parse function fails, in one place. -/
def AgreesOrFails (parse : State → Run ω (Reply β)) (body : Template ω σ β α) (locals : σ)
    (s : State) : Prop :=
  (∀ p q : Parser ω β, p.parse = parse → q.parse = parse →
    (body.fill p).run locals s = (body.fill q).run locals s) ∨
  ∃ before own last due left t e, ∀ p : Parser ω β, p.parse = parse →
    body.FailsAtHole p locals s before own last due left t e

section AgreesOrFails

variable {γ : Type} {parse : State → Run ω (Reply β)} {locals : σ} {s : State}

theorem agreesOrFails_act {action : σ → Run ω (γ × σ)} {next : γ → Template ω σ β α}
    (hnext : ∀ b new, (next b).AgreesOrFails parse new s) :
    (act action next).AgreesOrFails parse locals s := by
  rcases hout : (action locals).outcome with fault | ⟨b, new⟩
  · refine Or.inl fun p q _ _ => Script.run_act_congr fun b new hok => ?_
    cases hout.symm.trans hok
  · rcases hnext b new with heq | ⟨before, own, last, due, left, t, e, h⟩
    · refine Or.inl fun p q hp hq => Script.run_act_congr fun b' new' hok => ?_
      cases hout.symm.trans hok
      exact heq p q hp hq
    · exact Or.inr ⟨_, own, last, due, left, t, e, fun p hp => (h p hp).act (Run.ext rfl hout)⟩

theorem agreesOrFails_await {r : Parser ω γ} {next : γ → Template ω σ β α}
    (hnext : ∀ b middle, (next b).AgreesOrFails parse locals middle) :
    (await (.parser r) next).AgreesOrFails parse locals s := by
  by_cases hr : ∃ b middle, r.Succeeds s b middle
  · obtain ⟨b, middle, hstep⟩ := hr
    rcases hnext b middle with heq | ⟨before, own, last, due, left, t, e, h⟩
    · refine Or.inl fun p q hp hq => Script.run_await_congr rfl fun b' middle' hstep' => ?_
      cases hstep.symm.trans hstep'
      exact heq p q hp hq
    · exact Or.inr ⟨_, own, last, due, left, t, e, fun p hp => (h p hp).step (Run.ext rfl hstep)⟩
  · refine Or.inl fun p q _ _ => Script.run_await_congr rfl fun b middle hstep => ?_
    exact (hr ⟨b, middle, hstep⟩).elim

/-- The message on record counts at the hole only if the parse function fails there. -/
theorem agreesOrFails_hole {next : β → Template ω σ β α}
    (hnext : ∀ b middle, (next b).AgreesOrFails parse locals middle) :
    (hole next).AgreesOrFails parse locals s := by
  rcases hs : parse s with ⟨first, fault | ⟨b, middle⟩ | e⟩
  · refine Or.inl fun p q hp hq => Script.run_await_congr ?_ fun b middle hstep => ?_
    · rw [Parser.reported, Parser.reported, hp, hq, hs, Run.error_bind, Run.error_bind]
    · rw [Parser.Succeeds, hp, hs] at hstep
      cases hstep
  · rcases hnext b middle with heq | ⟨before, own, last, due, left, t, e, h⟩
    · refine Or.inl fun p q hp hq => Script.run_await_congr ?_ fun b' middle' hstep => ?_
      · have hq' : q.Succeeds s b middle := by rw [Parser.Succeeds, hq, hs]
        exact Parser.reported_eq_of_succeeds hq' (by rw [hp, hq])
      · rw [Parser.Succeeds, hp, hs] at hstep
        cases hstep
        exact heq p q hp hq
    · refine Or.inr ⟨first ++ before, own, last, due, left, t, e, fun p hp => ?_⟩
      exact (h p hp).hole ((congrFun hp s).trans hs)
  · refine Or.inr ⟨[], first, [], [], locals, s, e, fun p hp => ?_⟩
    exact ⟨.here _ locals s, (congrFun hp s).trans hs, rfl⟩

theorem agreesOrFails_guarded {body : Template ω σ β γ} {cleanup : σ → Run ω Unit}
    {next : γ → Template ω σ β α} (hbody : body.AgreesOrFails parse locals s)
    (hnext : ∀ b kept middle, (next b).AgreesOrFails parse kept middle) :
    (guarded body cleanup next).AgreesOrFails parse locals s := by
  rcases hbody with heq | ⟨before, own, last, due, left, t, e, h⟩
  · by_cases hdone : ∃ first b kept middle, (cleanup kept).outcome = .ok () ∧
      ∀ p : Parser ω β, p.parse = parse →
        (body.fill p).run locals s = ⟨first, .ok (kept, .ok (.success b middle))⟩
    · obtain ⟨first, b, kept, middle, hcleanup, hrun⟩ := hdone
      rcases hnext b kept middle with heq' | ⟨before, own, last, due, left, t, e, h⟩
      · refine Or.inl fun p q hp hq => Script.run_guarded_congr (heq p q hp hq) ?_
        intro b' kept' middle' hsucceeds _
        rw [Script.Succeeds, hrun p hp] at hsucceeds
        cases hsucceeds
        exact heq' p q hp hq
      · exact Or.inr ⟨_, own, last, due, left, t, e, fun p hp =>
          (h p hp).past (hrun p hp) (Run.ext rfl hcleanup)⟩
    · -- What follows the block is not reached with one parser unless it is with all of them.
      refine Or.inl fun p q hp hq => Script.run_guarded_congr (heq p q hp hq) ?_
      intro b kept middle hsucceeds hcleanup
      have hrun : (body.fill p).run locals s =
          ⟨((body.fill p).run locals s).entries, .ok (kept, .ok (.success b middle))⟩ :=
        Run.ext rfl hsucceeds
      exact (hdone ⟨_, b, kept, middle, hcleanup, fun r hr => (heq r p hr hp).trans hrun⟩).elim
  · rcases hcleanup : cleanup left with ⟨closed, fault | ⟨⟩⟩
    · refine Or.inl fun p q hp hq => ?_
      rw [fill, fill, Script.run_guarded_of_fault _ (h p hp).run_eq hcleanup,
        Script.run_guarded_of_fault _ (h q hq).run_eq hcleanup]
    · exact Or.inr ⟨before, own, _, _, left, t, e, fun p hp => (h p hp).inside hcleanup⟩

end AgreesOrFails

/-- By induction on the script: nothing but a failure at the hole tells parsers with one parse
function apart. -/
theorem agreesOrFails (parse : State → Run ω (Reply β)) (body : Template ω σ β α) (locals : σ)
    (s : State) : body.AgreesOrFails parse locals s := by
  induction body generalizing locals s with
  | done a => exact Or.inl fun _ _ _ _ => rfl
  | act action next ih => exact agreesOrFails_act fun b new => ih b new s
  | await item next ih =>
    cases item with
    | stray kind => exact Or.inl fun _ _ _ _ => rfl
    | parser r => exact agreesOrFails_await fun b middle => ih b locals middle
  | hole next ih => exact agreesOrFails_hole fun b middle => ih b locals middle
  | guarded body cleanup next ihbody ihnext =>
    exact agreesOrFails_guarded (ihbody locals s) fun b kept middle => ihnext b kept middle

end Template

end Parsing
