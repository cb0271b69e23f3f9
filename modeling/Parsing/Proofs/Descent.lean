import Parsing.Nesting
import Parsing.Proofs.Successes

/-!
How deep rules descend. Where a rule takes input before it comes to a reference, no descent is
deeper than the input is long, so the depth that the parser of a rule allows for is never reached
and any greater depth gives the same runs.
-/

namespace Parsing

namespace Rules

variable {ω ι : Type} {α : ι → Type}

/-- What a rule does on a state depends on what it refers to only where less input is left. -/
def Progressive (rules : Rules ω α) : Prop :=
  ∀ (targets targets' : (i : ι) → Parser ω (α i)) (s : State),
    (∀ i t, t.input.length < s.input.length → (targets i).parse t = (targets' i).parse t) →
      ∀ i, (rules (fun j => .defer (return targets j)) i).parse s =
        (rules (fun j => .defer (return targets' j)) i).parse s

/-- The bound on the depth of a descent makes no difference. -/
def Settled (rules : Rules ω α) : Prop :=
  ∀ depth i s, s.input.length < depth →
    (rules.within depth i).parse s = (rules.parser i).parse s

theorem Progressive.within_eq {rules : Rules ω α} (h : rules.Progressive) (depth depth' : Nat)
    (i : ι) (s : State) (hdepth : s.input.length < depth) (hdepth' : s.input.length < depth') :
    (rules.within depth i).parse s = (rules.within depth' i).parse s := by
  induction depth generalizing depth' i s with
  | zero => omega
  | succ depth ih =>
    cases depth' with
    | zero => omega
    | succ depth' =>
      apply h
      intro j t ht
      exact ih depth' j t (by omega) (by omega)

theorem Progressive.settled {rules : Rules ω α} (h : rules.Progressive) : rules.Settled := by
  intro depth i s hdepth
  exact h.within_eq depth (s.input.length + 1) i s hdepth (Nat.lt_succ_self _)

end Rules

/-- A parenthesis is taken before what it encloses. -/
theorem Nesting.progressive_rules {ω : Type} :
    (Nesting.rules : Rules ω fun _ : Unit => Nat).Progressive := by
  intro targets targets' s htargets i
  change (Parser.ofScript (nestedScript _) ()).parse s =
    (Parser.ofScript (nestedScript _) ()).parse s
  simp only [nestedScript, Parser.parse_ofScript_step]
  apply Run.bind_congr_outcome
  intro reply hout
  cases reply with
  | failure e => rfl
  | success c t =>
    have htakes : s.Takes [c] t :=
      ((Parser.succeeds_satisfy_iff _ _ s c t).mp
        ((Parser.reported_eq_success_iff _ s c t).mp hout)).1
    have hshort : t.input.length < s.input.length := by
      rw [htakes.length_eq, List.length_singleton]
      omega
    have hreference : (Parser.defer (return targets ())).reported t =
        (Parser.defer (return targets' ())).reported t := by
      rw [Parser.reported_of_message_none _ rfl, Parser.reported_of_message_none _ rfl,
        Parser.parse_defer, Parser.parse_defer, pure_bind, pure_bind, htargets () t hshort]
    simp only [Reply.andThen_success]
    split
    · rfl
    · split
      · rw [Parser.parse_ofScript_step, Parser.parse_ofScript_step, hreference]
      · rfl

end Parsing
