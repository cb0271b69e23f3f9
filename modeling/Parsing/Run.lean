import Parsing.Fault

/-!
Runs: what is recorded while something is run, in order, and how it ends. A record is a line of the
library's own log or an event of the caller's type `ω`. A run writes records and never reads them,
so the same run gives the same records wherever it stands. Runs form a lawful monad; a fault ends a
run and keeps what was recorded before it.
-/

namespace Parsing

/-- A line of the log. -/
inductive LogLine where
  /-- A failure was reported under another message than its own. -/
  | reworded (parser : String) (pos : Position) (reported replaced : String)
  /-- The input was looked at on its way. -/
  | traced (label : String) (ahead : Text) (pos : Position)
deriving DecidableEq, Inhabited

def LogLine.text : LogLine → String
  | reworded parser pos reported replaced =>
    parser ++ " failed at " ++ pos.describe ++ ", reporting " ++ quote reported.toList ++
      " instead of " ++ quote replaced.toList
  | traced label ahead pos => label ++ ": " ++ quote ahead ++ " at " ++ pos.describe

inductive Entry (ω : Type) where
  | line (line : LogLine)
  | event (event : ω)
deriving DecidableEq, Inhabited

structure Run (ω α : Type) where
  entries : List (Entry ω)
  outcome : Except Fault α

namespace Run

variable {ω α β γ : Type}

instance : Inhabited (Run ω α) := ⟨⟨[], .error default⟩⟩

def log (line : LogLine) : Run ω Unit := ⟨[.line line], .ok ()⟩

def note (event : ω) : Run ω Unit := ⟨[.event event], .ok ()⟩

def raise (fault : Fault) : Run ω α := ⟨[], .error fault⟩

def ofExcept (outcome : Except Fault α) : Run ω α := ⟨[], outcome⟩

/-- The run whose outcome is that of `x`, a fault included; it never ends in a fault itself. -/
def attempt (x : Run ω α) : Run ω (Except Fault α) := ⟨x.entries, .ok x.outcome⟩

/-- Puts records before those of a run. -/
def after (earlier : List (Entry ω)) (x : Run ω α) : Run ω α := ⟨earlier ++ x.entries, x.outcome⟩

/-- Where nothing is recorded before the continuation, the run is the continuation's own. -/
def andThen (x : Run ω α) (f : α → Run ω β) : Run ω β :=
  match x with
  | ⟨[], .ok a⟩ => f a
  | ⟨entries, .ok a⟩ => (f a).after entries
  | ⟨entries, .error fault⟩ => ⟨entries, .error fault⟩

instance : Monad (Run ω) where
  pure a := ⟨[], .ok a⟩
  bind := andThen

def lines (x : Run ω α) : List LogLine :=
  x.entries.filterMap fun | .line l => some l | .event _ => none

def events (x : Run ω α) : List ω :=
  x.entries.filterMap fun | .line _ => none | .event e => some e

@[ext]
theorem ext {x y : Run ω α} (entries : x.entries = y.entries) (outcome : x.outcome = y.outcome) :
    x = y := by
  cases x; cases y; simp_all

theorem pure_def (a : α) : (pure a : Run ω α) = ⟨[], .ok a⟩ := rfl

theorem after_nil (x : Run ω α) : x.after [] = x := by
  simp [after]

theorem ok_bind (entries : List (Entry ω)) (a : α) (f : α → Run ω β) :
    (Run.mk entries (.ok a) >>= f) = (f a).after entries := by
  cases entries with
  | nil => exact (after_nil (f a)).symm
  | cons entry rest => rfl

theorem error_bind (entries : List (Entry ω)) (fault : Fault) (f : α → Run ω β) :
    (Run.mk entries (.error fault) >>= f) = ⟨entries, .error fault⟩ := by
  cases entries <;> rfl

theorem after_bind (earlier : List (Entry ω)) (x : Run ω α) (f : α → Run ω β) :
    x.after earlier >>= f = (x >>= f).after earlier := by
  obtain ⟨entries, outcome⟩ := x
  cases outcome with
  | ok a => simp [after, ok_bind]
  | error fault => simp [after, error_bind]

private theorem id_bind (x : Run ω α) : id <$> x = x := by
  obtain ⟨entries, outcome⟩ := x
  cases outcome with
  | ok a => exact (ok_bind entries a pure).trans (by simp [after, pure_def])
  | error fault => exact error_bind entries fault _

private theorem bind_bind (x : Run ω α) (f : α → Run ω β) (g : β → Run ω γ) :
    x >>= f >>= g = x >>= fun a => f a >>= g := by
  obtain ⟨entries, outcome⟩ := x
  cases outcome with
  | ok a => rw [ok_bind, ok_bind, after_bind]
  | error fault => rw [error_bind, error_bind, error_bind]

instance : LawfulMonad (Run ω) :=
  LawfulMonad.mk' (Run ω) id_bind (fun a f => after_nil (f a) ▸ ok_bind [] a f) bind_bind

end Run

end Parsing
