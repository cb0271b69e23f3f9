import Parsing.Proofs.Consumption
import Parsing.Proofs.Outcomes

/-!
Two runs side by side. `Run.Alike` says that they record the same events and end alike, with values
that are related or with faults that differ in positions only; lines of the log may differ. It
passes through a sequence when what follows related values is alike. `Reply.InStep` relates what is
replied from two states with the same input: the same answer, after the same text.
-/

namespace Parsing

namespace Fault

/-- The fault without the positions that it comes with. -/
def unplaced : Fault → Fault
  | notAtFront taken _ => notAtFront taken {}
  | unreachable _ _ => unreachable {} {}
  | fault => fault

end Fault

namespace Run

variable {ω α β γ δ : Type}

/-- Values that are related, or faults that differ in positions only. -/
inductive Agree (value : α → β → Prop) : Except Fault α → Except Fault β → Prop
  | ok {a : α} {b : β} (h : value a b) : Agree value (.ok a) (.ok b)
  | error {f g : Fault} (h : f.unplaced = g.unplaced) : Agree value (.error f) (.error g)

theorem Agree.imp {value value' : α → β → Prop} {a : Except Fault α} {b : Except Fault β}
    (h : Agree value a b) (himp : ∀ a b, value a b → value' a b) : Agree value' a b := by
  cases h with
  | ok hab => exact .ok (himp _ _ hab)
  | error hfault => exact .error hfault

/-- The same events, and outcomes that agree. -/
structure Alike (value : α → β → Prop) (x : Run ω α) (y : Run ω β) : Prop where
  events : x.events = y.events
  outcome : Agree value x.outcome y.outcome

variable {value : α → β → Prop} {x : Run ω α} {y : Run ω β}

theorem events_bind (x : Run ω α) (f : α → Run ω γ) :
    (x >>= f).events =
      x.events ++ match x.outcome with
        | .ok a => (f a).events
        | .error _ => [] := by
  obtain ⟨entries, outcome⟩ := x
  cases outcome with
  | ok a =>
    rw [ok_bind]
    exact List.filterMap_append
  | error fault =>
    rw [error_bind]
    exact (List.append_nil _).symm

theorem alike_pure {a : α} {b : β} (h : value a b) :
    (pure a : Run ω α).Alike value (pure b) := ⟨rfl, .ok h⟩

theorem alike_raise {f g : Fault} (h : f.unplaced = g.unplaced) :
    (raise f : Run ω α).Alike value (raise g : Run ω β) := ⟨rfl, .error h⟩

theorem alike_ofExcept {a : Except Fault α} {b : Except Fault β} (h : Agree value a b) :
    (ofExcept a : Run ω α).Alike value (ofExcept b) := ⟨rfl, h⟩

theorem alike_log (line line' : LogLine) :
    (log line : Run ω Unit).Alike Eq (log line') := ⟨rfl, .ok rfl⟩

theorem Alike.refl (x : Run ω α) : x.Alike Eq x := by
  refine ⟨rfl, ?_⟩
  cases x.outcome with
  | ok a => exact .ok rfl
  | error fault => exact .error rfl

theorem Alike.imp {value' : α → β → Prop} (h : x.Alike value y)
    (himp : ∀ a b, value a b → value' a b) : x.Alike value' y :=
  ⟨h.events, h.outcome.imp himp⟩

/-- Whatever goes on in the same way from related values. -/
theorem Alike.bind {value' : γ → δ → Prop} {f : α → Run ω γ} {g : β → Run ω δ}
    (h : x.Alike value y)
    (hfg : ∀ a b, x.outcome = .ok a → value a b → (f a).Alike value' (g b)) :
    (x >>= f).Alike value' (y >>= g) := by
  obtain ⟨hevents, houtcome⟩ := h
  constructor
  · rw [events_bind, events_bind, hevents]
    generalize hx : x.outcome = a at houtcome
    generalize y.outcome = b at houtcome
    cases houtcome with
    | ok hab => exact congrArg _ (hfg _ _ hx hab).events
    | error _ => rfl
  · rw [outcome_bind, outcome_bind]
    generalize hx : x.outcome = a at houtcome
    generalize y.outcome = b at houtcome
    cases houtcome with
    | ok hab => exact (hfg _ _ hx hab).outcome
    | error hfault => exact .error hfault

/-- The same run, gone on from in two ways. -/
theorem alike_bind_same {value' : γ → δ → Prop} {f : α → Run ω γ} {g : α → Run ω δ}
    (hfg : ∀ a, x.outcome = .ok a → (f a).Alike value' (g a)) :
    (x >>= f).Alike value' (x >>= g) := by
  apply (Alike.refl x).bind
  rintro a _ hx rfl
  exact hfg a hx

theorem Alike.attempt (h : x.Alike value y) : x.attempt.Alike (Agree value) y.attempt :=
  ⟨h.events, .ok h.outcome⟩

end Run

namespace State

/-- The same text leads from `s` to `t` and from `s'` to `t'`, and the same input remains. -/
def Abreast (s s' t t' : State) : Prop :=
  t.input = t'.input ∧ ∃ taken, s.Takes taken t ∧ s'.Takes taken t'

theorem Abreast.refl {s s' : State} (h : s.input = s'.input) : s.Abreast s' s s' :=
  ⟨h, [], s.takes_nil, s'.takes_nil⟩

theorem Abreast.trans {s s' t t' u u' : State} (h : s.Abreast s' t t') (h' : t.Abreast t' u u') :
    s.Abreast s' u u' := by
  obtain ⟨-, taken, htakes, htakes'⟩ := h
  obtain ⟨hinput, next, hnext, hnext'⟩ := h'
  exact ⟨hinput, taken ++ next, htakes.trans hnext, htakes'.trans hnext'⟩

/-- What can be taken depends on the input alone. -/
theorem agree_consume {s s' : State} (h : s.input = s'.input) (taken : Text) :
    Run.Agree (s.Abreast s') (s.consume taken) (s'.consume taken) := by
  obtain ⟨input, pos⟩ := s
  obtain ⟨input', pos'⟩ := s'
  cases h
  by_cases hprefix : taken <+: input
  · obtain ⟨left, rfl⟩ := hprefix
    rw [consume_append, consume_append]
    exact .ok ⟨rfl, taken, ⟨rfl, rfl⟩, ⟨rfl, rfl⟩⟩
  · rw [consume_of_not_isPrefix hprefix, consume_of_not_isPrefix hprefix]
    exact .error rfl

/-- The position that the target claims for itself makes no difference either. -/
theorem agree_reanchor {s s' target target' : State} (h : s.input = s'.input)
    (htarget : target.input = target'.input) :
    Run.Agree (s.Abreast s') (s.reanchor target) (s'.reanchor target') := by
  unfold reanchor
  rw [← h, ← htarget]
  split
  · exact agree_consume h _
  · exact .error rfl

end State

namespace Failure

/-- The failures differ in their positions at most. -/
def Matches (e e' : Failure) : Prop := e.message = e'.message ∧ e.expected = e'.expected

theorem Matches.reworded {e e' : Failure} (h : e.Matches e') (message : Option String) :
    (e.reworded message).Matches (e'.reworded message) := by
  obtain ⟨hmessage, hexpected⟩ := h
  exact ⟨congrArg message.getD hmessage, hexpected⟩

end Failure

namespace Reply

variable {ω α β : Type} {s s' : State}

/-- Replies from `s` and from `s'`: a success with the same value or the same failure, after the
same text. -/
inductive InStep (s s' : State) : Reply α → Reply α → Prop
  | success (a : α) {t t' : State} (h : s.Abreast s' t t') :
      InStep s s' (.success a t) (.success a t')
  | failure {e e' : Failure} (left : Text) (hmatches : e.Matches e')
      (h : s.Abreast s' ⟨left, e.pos⟩ ⟨left, e'.pos⟩) : InStep s s' (.failure e) (.failure e')

/-- A failure where the two runs are. -/
theorem InStep.failure_here (h : s.input = s'.input) (message : String) (expected : List String) :
    InStep s s' (.failure ⟨message, expected, s.pos⟩ : Reply α)
      (.failure ⟨message, expected, s'.pos⟩) := by
  obtain ⟨input, pos⟩ := s
  obtain ⟨input', pos'⟩ := s'
  cases h
  exact .failure input ⟨rfl, rfl⟩ (.refl rfl)

theorem InStep.of_abreast {t t' : State} {reply reply' : Reply α} (h : s.Abreast s' t t')
    (hreply : InStep t t' reply reply') : InStep s s' reply reply' := by
  cases hreply with
  | success a h' => exact .success a (h.trans h')
  | failure left hmatches h' => exact .failure left hmatches (h.trans h')

theorem InStep.reworded {reply reply' : Reply α} (h : InStep s s' reply reply')
    (message : Option String) : InStep s s' (reply.reworded message) (reply'.reworded message) := by
  cases h with
  | success a h => exact .success a h
  | failure left hmatches h => exact .failure left (hmatches.reworded message) h

/-- What follows a success goes on in step from where that ends. -/
theorem alike_andThen {x x' : Run ω (Reply α)} {k k' : α → State → Run ω (Reply β)}
    (h : x.Alike (InStep s s') x')
    (hk : ∀ a t t', x.outcome = .ok (.success a t) → t.input = t'.input →
      (k a t).Alike (InStep t t') (k' a t')) :
    (x >>= fun reply => reply.andThen k).Alike (InStep s s')
      (x' >>= fun reply => reply.andThen k') := by
  apply h.bind
  intro reply reply' hx hreply
  cases hreply with
  | success a habreast =>
    exact (hk a _ _ hx habreast.1).imp fun _ _ hnext => hnext.of_abreast habreast
  | failure left hmatches habreast => exact Run.alike_pure (.failure left hmatches habreast)

end Reply

end Parsing
