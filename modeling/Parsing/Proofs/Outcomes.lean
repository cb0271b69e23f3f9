import Parsing.Parser.Basic

/-!
How runs end. The outcome passes through a sequence of runs as a value or a fault does, whatever is
recorded on the way. `Run.Ends` says what holds of the value that a run ends with and what of the
fault; statements about every outcome of a parser are made in this form.
-/

namespace Parsing

namespace Run

variable {ω α β : Type}

theorem outcome_bind (x : Run ω α) (f : α → Run ω β) :
    (x >>= f).outcome = x.outcome.bind fun a => (f a).outcome := by
  obtain ⟨entries, outcome⟩ := x
  cases outcome with
  | ok a =>
    rw [ok_bind]
    rfl
  | error fault =>
    rw [error_bind]
    rfl

/-- Every value that the run can end with is in `value`, and every fault in `fault`. -/
def Ends (x : Run ω α) (value : α → Prop) (fault : Fault → Prop) : Prop :=
  match x.outcome with
  | .ok a => value a
  | .error f => fault f

/-- No fault but those in `faults` ends the run. -/
def RaisesOnly (x : Run ω α) (faults : Fault → Prop) : Prop :=
  ∀ fault, x.outcome = .error fault → faults fault

theorem ends_iff (x : Run ω α) (value : α → Prop) (fault : Fault → Prop) :
    x.Ends value fault ↔
      (∀ a, x.outcome = .ok a → value a) ∧ ∀ f, x.outcome = .error f → fault f := by
  unfold Ends
  cases x.outcome with
  | ok a => simp
  | error f => simp

theorem Ends.imp {x : Run ω α} {value value' : α → Prop} {fault fault' : Fault → Prop}
    (h : x.Ends value fault) (hvalue : ∀ a, x.outcome = .ok a → value a → value' a)
    (hfault : ∀ f, x.outcome = .error f → fault f → fault' f) : x.Ends value' fault' := by
  rw [ends_iff] at h ⊢
  exact ⟨fun a ha => hvalue a ha (h.1 a ha), fun f hf => hfault f hf (h.2 f hf)⟩

@[simp]
theorem ends_pure (a : α) (value : α → Prop) (fault : Fault → Prop) :
    (pure a : Run ω α).Ends value fault ↔ value a := Iff.rfl

@[simp]
theorem ends_log (line : LogLine) (value : Unit → Prop) (fault : Fault → Prop) :
    (log line : Run ω Unit).Ends value fault ↔ value () := Iff.rfl

@[simp]
theorem ends_attempt (x : Run ω α) (value : Except Fault α → Prop) (fault : Fault → Prop) :
    x.attempt.Ends value fault ↔ x.Ends (fun a => value (.ok a)) fun f => value (.error f) := by
  unfold Ends attempt
  cases x.outcome <;> rfl

/-- A sequence of two runs ends with what the second ends with, or with the fault of the first. -/
@[simp]
theorem ends_bind (x : Run ω α) (f : α → Run ω β) (value : β → Prop) (fault : Fault → Prop) :
    (x >>= f).Ends value fault ↔ x.Ends (fun a => (f a).Ends value fault) fault := by
  unfold Ends
  rw [outcome_bind]
  cases x.outcome <;> rfl

/-- A run that raises only some faults may be followed by anything that is right for its values. -/
theorem RaisesOnly.ends {x : Run ω α} {faults : Fault → Prop} (h : x.RaisesOnly faults)
    {value : α → Prop} {fault : Fault → Prop} (hvalue : ∀ a, x.outcome = .ok a → value a)
    (hfault : ∀ f, faults f → fault f) : x.Ends value fault := by
  rw [ends_iff]
  exact ⟨hvalue, fun f hf => hfault f (h f hf)⟩

end Run

namespace Reply

variable {ω α β : Type}

@[simp]
theorem ends_andThen_success (a : α) (rest : State) (k : α → State → Run ω (Reply β))
    (value : Reply β → Prop) (fault : Fault → Prop) :
    ((success a rest).andThen k).Ends value fault ↔ (k a rest).Ends value fault := Iff.rfl

end Reply

namespace Parser

variable {ω α : Type}

/-- The parser answers with the value on some input. -/
def Gives (p : Parser ω α) (a : α) : Prop :=
  ∃ s rest, (p.parse s).outcome = .ok (.success a rest)

end Parser

end Parsing
