import Parsing.Proofs.Successes

/-!
Loops of parsers. A pass ends the loop with its value, or with what the next pass starts from. A
loop has no bound of its own: `Loops` counts the passes that are run until one ends it, be it with a
failure or a fault. `atMost` is the loop as it runs, under a bound. Where a pass that does not end
the loop takes so many characters or more, the loop ends, and a bound that is large enough for the
input makes no difference.
-/

namespace Parsing

namespace Parser

variable {ω σ α β γ : Type}

/-- What a pass of a loop ends with: the value of the loop, or what the next pass starts from. -/
inductive Pass (σ α : Type) where
  | finished (value : α)
  | next (carried : σ)
deriving DecidableEq

/-- What follows on a pass with the given outcome: the end of the loop, or another pass. -/
def Pass.follow : Except Fault (Reply (Pass σ α)) → Except Fault (Reply α) ⊕ σ × State
  | .error fault => .inl (.error fault)
  | .ok (.failure e) => .inl (.ok (.failure e))
  | .ok (.success (.finished value) t) => .inl (.ok (.success value t))
  | .ok (.success (.next a) t) => .inr (a, t)

/-- From what is carried and from the state, so many passes are run, and so the loop ends. -/
inductive Loops (pass : σ → Parser ω (Pass σ α)) :
    σ → State → Nat → Except Fault (Reply α) → Prop
  | last {a : σ} {s : State} {ended : Except Fault (Reply α)}
      (h : Pass.follow ((pass a).parse s).outcome = .inl ended) : Loops pass a s 1 ended
  | next {a a' : σ} {s t : State} {passes : Nat} {ended : Except Fault (Reply α)}
      (h : (pass a).Succeeds s (.next a') t) (rest : Loops pass a' t passes ended) :
      Loops pass a s (passes + 1) ended

/-- The loop under a bound on its passes, which it is a fault to use up. -/
def atMost (pass : σ → Parser ω (Pass σ α)) : Nat → σ → Parser ω α
  | 0, _ => { parse := fun _ => Run.raise .exhausted }
  | passes + 1, a =>
    { parse := fun s => do
        (← (pass a).parse s).andThen fun ended t =>
          match ended with
          | .finished value => return .success value t
          | .next a' => (atMost pass passes a').parse t }

/-- A pass after which there is another leaves at least so many characters less. -/
def Shortens (pass : σ → Parser ω (Pass σ α)) (count : Nat) : Prop :=
  ∀ a a' s t, (pass a).Succeeds s (.next a') t → t.input.length + count ≤ s.input.length

variable {pass : σ → Parser ω (Pass σ α)}

theorem Pass.follow_eq_inr_iff (outcome : Except Fault (Reply (Pass σ α))) (a : σ) (t : State) :
    follow outcome = .inr (a, t) ↔ outcome = .ok (.success (.next a) t) := by
  rcases outcome with fault | ⟨value | a', t'⟩ | e <;> simp [follow]

theorem outcome_atMost_succ (passes : Nat) (a : σ) (s : State) :
    ((atMost pass (passes + 1) a).parse s).outcome =
      match Pass.follow ((pass a).parse s).outcome with
      | .inl ended => ended
      | .inr (a', t) => ((atMost pass passes a').parse t).outcome := by
  rw [atMost, Run.outcome_bind]
  rcases ((pass a).parse s).outcome with fault | ⟨value | a', t⟩ | e <;> rfl

namespace Loops

/-- A bound that the loop keeps to makes no difference. -/
theorem outcome_atMost {a : σ} {s : State} {passes : Nat} {ended : Except Fault (Reply α)}
    (h : Loops pass a s passes ended) (bound : Nat) (hbound : passes ≤ bound) :
    ((atMost pass bound a).parse s).outcome = ended := by
  induction h generalizing bound with
  | last h =>
    obtain ⟨bound, rfl⟩ := Nat.exists_eq_add_of_le' hbound
    rw [outcome_atMost_succ, h]
  | next h rest ih =>
    obtain ⟨bound, rfl⟩ := Nat.exists_eq_add_of_le' (Nat.le_of_add_left_le hbound)
    rw [outcome_atMost_succ, (Pass.follow_eq_inr_iff _ _ _).mpr h]
    exact ih bound (Nat.le_of_succ_le_succ hbound)

/-- A loop runs in one way only. -/
theorem unique {a : σ} {s : State} {passes passes' : Nat} {ended ended' : Except Fault (Reply α)}
    (h : Loops pass a s passes ended) (h' : Loops pass a s passes' ended') :
    passes' = passes ∧ ended' = ended := by
  induction h generalizing passes' with
  | last h =>
    cases h' with
    | last h' => exact ⟨rfl, Sum.inl.inj (h'.symm.trans h)⟩
    | next h' _ =>
      rw [(Pass.follow_eq_inr_iff _ _ _).mpr h'] at h
      cases h
  | next h _ ih =>
    cases h' with
    | last h' =>
      rw [(Pass.follow_eq_inr_iff _ _ _).mpr h] at h'
      cases h'
    | next h' rest' =>
      cases h.symm.trans h'
      obtain ⟨rfl, rfl⟩ := ih rest'
      exact ⟨rfl, rfl⟩

/-- What each pass takes bounds their number. -/
theorem mul_le {count : Nat} (hshort : Shortens pass count) {a : σ} {s : State} {passes : Nat}
    {ended : Except Fault (Reply α)} (h : Loops pass a s passes ended) :
    count * passes ≤ s.input.length + count := by
  induction h with
  | last h =>
    rw [Nat.mul_one]
    exact Nat.le_add_left _ _
  | next h _ ih =>
    have hlength := hshort _ _ _ _ h
    rw [Nat.mul_succ]
    omega

end Loops

/-- A loop ends whose passes take something. By induction on the input that is left. -/
theorem Shortens.exists_loops {count : Nat} (hshort : Shortens pass count) (hcount : 0 < count)
    (a : σ) (s : State) : ∃ passes ended, Loops pass a s passes ended := by
  induction hlength : s.input.length using Nat.strong_induction_on generalizing a s with
  | h length ih =>
    cases hfollow : Pass.follow ((pass a).parse s).outcome with
    | inl ended => exact ⟨1, ended, .last hfollow⟩
    | inr carried =>
      obtain ⟨a', t⟩ := carried
      have hnext := (Pass.follow_eq_inr_iff _ _ _).mp hfollow
      have hle := hshort a a' s t hnext
      obtain ⟨passes, ended, hrest⟩ := ih t.input.length (by omega) a' t rfl
      exact ⟨passes + 1, ended, .next hnext hrest⟩

/-- Two scripts that wait for the same parser: the one goes on from what the other ends with if it
does so after the parser. -/
theorem parse_step_andThen (p : Parser ω γ) {next : γ → Script ω σ (Ending ω α)}
    {next' : γ → Script ω σ (Ending ω β)} {locals : σ} {k : α → State → Run ω (Reply β)}
    (s : State)
    (h : ∀ c t, (ofScript (next' c) locals).parse t =
      (do (← (ofScript (next c) locals).parse t).andThen k)) :
    (ofScript (Script.step p >>= next') locals).parse s =
      (do (← (ofScript (Script.step p >>= next) locals).parse s).andThen k) := by
  simp only [parse_ofScript_step, bind_assoc, Reply.andThen_bind_andThen, h]

end Parser

end Parsing
