import Mathlib.Data.List.TakeWhile
import Parsing.Parser.Character
import Parsing.Proofs.Consumption
import Parsing.Proofs.Outcomes
import Parsing.Script

/-!
What a parser replies from a state. `Parser.Meets` says of every outcome what holds: of the value
and the state of a success, of a failure, and of a fault. Each combinator meets a specification when
its first parser meets the one in which the rest of it is the postcondition, so the specification of
a grammar is read off the grammar from the outside in.
-/

namespace Parsing

namespace State

/-- The character that comes next, if there is one, does not have the property. -/
def Past (s : State) (property : Char → Bool) : Prop := ∀ c ∈ s.input.head?, property c = false

end State

namespace Reply

variable {α : Type}

def Meets (success : α → State → Prop) (failure : Failure → Prop) : Reply α → Prop
  | .success a t => success a t
  | .failure e => failure e

end Reply

namespace Parser

variable {ω α β γ ρ σ : Type}

def Meets (p : Parser ω α) (s : State) (success : α → State → Prop) (failure : Failure → Prop)
    (fault : Fault → Prop) : Prop :=
  (p.parse s).Ends (Reply.Meets success failure) fault

/-- What the replies of a parser are good for, from the specification it meets. -/
theorem Meets.ends {p : Parser ω α} {s : State} {success : α → State → Prop}
    {failure : Failure → Prop} {fault fault' : Fault → Prop} {value : Reply α → Prop}
    (h : p.Meets s success failure fault) (hsuccess : ∀ a t, success a t → value (.success a t))
    (hfailure : ∀ e, failure e → value (.failure e)) (hfault : ∀ f, fault f → fault' f) :
    (p.parse s).Ends value fault' := by
  unfold Meets at h
  apply h.imp
  · intro reply _ hreply
    cases reply with
    | success a t => exact hsuccess a t hreply
    | failure e => exact hfailure e hreply
  · exact fun f _ hf => hfault f hf

theorem Meets.imp {p : Parser ω α} {s : State} {success success' : α → State → Prop}
    {failure failure' : Failure → Prop} {fault fault' : Fault → Prop}
    (h : p.Meets s success failure fault) (hsuccess : ∀ a t, success a t → success' a t)
    (hfailure : ∀ e, failure e → failure' e) (hfault : ∀ f, fault f → fault' f) :
    p.Meets s success' failure' fault' := h.ends hsuccess hfailure hfault

theorem Meets.imp_success {p : Parser ω α} {s : State} {success success' : α → State → Prop}
    {failure : Failure → Prop} {fault : Fault → Prop} (h : p.Meets s success failure fault)
    (hsuccess : ∀ a t, success a t → success' a t) : p.Meets s success' failure fault :=
  h.imp hsuccess (fun _ he => he) fun _ hf => hf

/-- A parser that always succeeds meets whatever is asked of failures and faults. -/
theorem Meets.of_always {p : Parser ω α} {s : State} {success success' : α → State → Prop}
    {failure : Failure → Prop} {fault : Fault → Prop}
    (h : p.Meets s success (fun _ => False) fun _ => False)
    (hsuccess : ∀ a t, success a t → success' a t) : p.Meets s success' failure fault :=
  h.imp hsuccess (fun _ he => he.elim) fun _ hf => hf.elim

variable {success : β → State → Prop} {failure : Failure → Prop} {fault : Fault → Prop}

theorem Meets.of_success {p : Parser ω β} {s t : State} {b : β}
    (h : p.Meets s success failure fault) (hout : (p.parse s).outcome = .ok (.success b t)) :
    success b t := by
  unfold Meets Run.Ends at h
  rw [hout] at h
  exact h

theorem Meets.of_failure {p : Parser ω β} {s : State} {e : Failure}
    (h : p.Meets s success failure fault) (hout : (p.parse s).outcome = .ok (.failure e)) :
    failure e := by
  unfold Meets Run.Ends at h
  rw [hout] at h
  exact h

theorem Meets.of_fault {p : Parser ω β} {s : State} {f : Fault}
    (h : p.Meets s success failure fault) (hout : (p.parse s).outcome = .error f) : fault f := by
  unfold Meets Run.Ends at h
  rw [hout] at h
  exact h

/-- Where only one reply meets the specification, that is the outcome. -/
theorem Meets.eq_of_unique {p : Parser ω β} {s : State} {reply : Reply β}
    (h : p.Meets s success failure fault) (hsuccess : ∀ b t, success b t → .success b t = reply)
    (hfailure : ∀ e, failure e → .failure e = reply) (hfault : ∀ f, ¬fault f) :
    (p.parse s).outcome = .ok reply := by
  have hends : (p.parse s).Ends (fun r => r = reply) fun _ => False :=
    h.ends hsuccess hfailure fun f hf => (hfault f hf).elim
  unfold Run.Ends at hends
  cases hout : (p.parse s).outcome with
  | ok r =>
    rw [hout] at hends
    rw [hends]
  | error f =>
    rw [hout] at hends
    exact hends.elim

/-- Without a recorded message the answer is the reply as it is. -/
theorem answer_of_message_none (p : Parser ω β) (h : p.message = none) (source : Text) :
    p.answer source = p.parse (.ofText source) := by
  calc
    p.answer source = p.parse (.ofText source) >>= pure := by
      unfold answer
      rw [h]
      apply congrArg
      funext reply
      cases reply <;> rfl
    _ = p.parse (.ofText source) := bind_pure _

/-- Whatever goes on from a reply under the recorded message. -/
theorem ends_of_reported (p : Parser ω α) (s : State) (next : α → State → Run ω (Reply β))
    (h : p.Meets s (fun a t => (next a t).Ends (Reply.Meets success failure) fault)
      (fun e => failure (e.reworded p.message)) fault) :
    (do (← p.reported s).andThen next).Ends (Reply.Meets success failure) fault := by
  unfold reported
  simp only [Run.ends_bind, Run.ends_pure]
  exact h.ends (fun a t ha => ha) (fun e he => he) fun f hf => hf

theorem meets_result (b : β) (s : State) :
    (result b : Parser ω β).Meets s success failure fault ↔ success b s := Iff.rfl

theorem meets_fail (message : String) (expected : List String) (s : State) :
    (fail message expected : Parser ω β).Meets s success failure fault ↔
      failure ⟨message, expected, s.pos⟩ := Iff.rfl

theorem meets_named (p : Parser ω β) (label : String) (s : State) :
    (p.named label).Meets s success failure fault ↔ p.Meets s success failure fault := Iff.rfl

theorem meets_withMessage (p : Parser ω β) (message : String) (s : State)
    (h : p.Meets s success (fun e => failure (e.reworded message)) fault) :
    (p.withMessage message).Meets s success failure fault := by
  unfold Meets withMessage
  simp only [Run.ends_bind, Run.ends_pure]
  exact h.ends (fun a t ha => ha) (fun e he => he) fun f hf => hf

theorem meets_map (p : Parser ω α) (f : α → Run ω β) (s : State)
    (h : p.Meets s (fun a t => (f a).Ends (fun b => success b t) fault)
      (fun e => failure (e.reworded p.message)) fault) :
    (p.map f).Meets s success failure fault := by
  apply ends_of_reported
  apply h.imp_success
  intro a t ha
  rw [Run.ends_bind]
  exact ha

theorem meets_flatMap (p : Parser ω α) (f : α → Run ω (Parser ω β)) (s : State)
    (h : p.Meets s (fun a t => (f a).Ends (fun q => q.Meets t success failure fault) fault)
      (fun e => failure (e.reworded p.message)) fault) :
    (p.flatMap f).Meets s success failure fault := by
  apply ends_of_reported
  apply h.imp_success
  intro a t ha
  rw [Run.ends_bind]
  exact ha

theorem meets_extend_always (p : Parser ω ρ) (key : String) (q : Parser ω γ)
    (store : ρ → γ → Run ω β) (s : State)
    (h : p.Meets s
      (fun r t =>
        q.Meets t (fun c u => (store r c).Ends (fun b => success b u) fault) failure fault)
      (fun e => failure (e.reworded p.message)) fault) :
    (p.extend key (always q) store).Meets s success failure fault := by
  apply ends_of_reported
  apply h.imp_success
  intro r t hr
  rw [always, pure_bind]
  simp only [Run.ends_bind]
  apply hr.ends
  · intro c u hc
    rw [Reply.ends_andThen_success, Run.ends_bind]
    exact hc
  · exact fun e he => he
  · exact fun f hf => hf

/-! Scripts, one step at a time. -/

theorem meets_step (p : Parser ω α) (next : α → Script ω σ (Ending ω β)) (locals : σ) (s : State)
    (h : p.Meets s (fun a t => (ofScript (next a) locals).Meets t success failure fault)
      (fun e => failure (e.reworded p.message)) fault) :
    (ofScript (Script.step p >>= next) locals).Meets s success failure fault := by
  have hawait : Script.step p >>= next = Script.await (.parser p) next := rfl
  unfold Meets ofScript
  simp only [hawait, Script.run, reported, Run.ends_bind, Run.ends_attempt, Run.ends_pure]
  apply h.ends
  · intro a t ha
    simp only [Meets, ofScript, Run.ends_bind] at ha
    exact ha
  · exact fun e he => he
  · exact fun f hf => hf

theorem meets_perform (action : Run ω α) (next : α → Script ω σ (Ending ω β)) (locals : σ)
    (s : State)
    (h : action.Ends (fun a => (ofScript (next a) locals).Meets s success failure fault) fault) :
    (ofScript (Script.perform action >>= next) locals).Meets s success failure fault := by
  have hact : Script.perform action >>= next =
      Script.act (fun locals => do return (← action, locals)) next := rfl
  unfold Meets ofScript
  simp only [hact, Script.run, Run.ends_bind, Run.ends_attempt, Run.ends_pure]
  apply h.imp
  · intro a _ ha
    simp only [Meets, ofScript, Run.ends_bind] at ha
    exact ha
  · exact fun f _ hf => hf

theorem meets_return_value (b : β) (locals : σ) (s : State) :
    (ofScript (pure (.value b) : Script ω σ (Ending ω β)) locals).Meets s success failure fault ↔
      success b s := Iff.rfl

theorem meets_return_next (p : Parser ω β) (locals : σ) (s : State) :
    (ofScript (pure (.parser p) : Script ω σ (Ending ω β)) locals).Meets s success failure fault ↔
      p.Meets s success failure fault := Iff.rfl

/-! Recognizers. -/

theorem meets_remaining (s : State) (success : Text → State → Prop) :
    (remaining : Parser ω Text).Meets s success failure fault ↔ success s.input s := Iff.rfl

theorem ends_succeed_taken (b : β) (s t : State) (taken : Text) (h : s.Takes taken t)
    (hsuccess : success b t) :
    (succeed b s taken : Run ω (Reply β)).Ends (Reply.Meets success failure) fault := by
  unfold succeed
  rw [(State.consume_eq_ok_iff s t taken).mpr h]
  exact hsuccess

theorem meets_satisfy (property : Char → Bool) (description : String) (s : State) :
    (satisfy property description : Parser ω Char).Meets s
      (fun c t => s.Takes [c] t ∧ property c = true)
      (fun e => e.pos = s.pos ∧ s.Past property) (fun _ => False) := by
  obtain ⟨input, pos⟩ := s
  unfold Meets satisfy
  cases input with
  | nil => exact ⟨rfl, fun c hc => by cases hc⟩
  | cons c rest =>
    by_cases hc : property c = true
    · have htakes : State.Takes ⟨c :: rest, pos⟩ [c] ⟨rest, pos.advance [c]⟩ := ⟨rfl, rfl⟩
      simp only [hc, if_true]
      exact ends_succeed_taken c _ _ [c] htakes ⟨htakes, hc⟩
    · simp only [hc]
      refine ⟨rfl, fun d hd => ?_⟩
      cases hd
      exact Bool.eq_false_iff.mpr hc

theorem meets_text (t : Text) (s : State) :
    (text t : Parser ω Text).Meets s (fun taken u => taken = t ∧ s.Takes t u)
      (fun e => e.pos = s.pos ∧ ¬t <+: s.input) (fun _ => False) := by
  obtain ⟨input, pos⟩ := s
  unfold Meets text
  by_cases ht : t.isPrefixOf input = true
  · obtain ⟨rest, rfl⟩ := List.isPrefixOf_iff_prefix.mp ht
    have htakes : State.Takes ⟨t ++ rest, pos⟩ t ⟨rest, pos.advance t⟩ := ⟨rfl, rfl⟩
    simp only [ht, if_true]
    exact ends_succeed_taken t _ _ t htakes ⟨rfl, htakes⟩
  · simp only [ht]
    exact ⟨rfl, fun hprefix => ht (List.isPrefixOf_iff_prefix.mpr hprefix)⟩

/-- A span ends where the property does. -/
theorem meets_span (property : Char → Bool) (s : State) :
    (span property : Parser ω Text).Meets s
      (fun taken t => s.Takes taken t ∧ (∀ c ∈ taken, property c = true) ∧ t.Past property)
      (fun _ => False) (fun _ => False) := by
  obtain ⟨input, pos⟩ := s
  have htakes : State.Takes ⟨input, pos⟩ (input.takeWhile property)
      ⟨input.dropWhile property, pos.advance (input.takeWhile property)⟩ :=
    ⟨List.takeWhile_append_dropWhile.symm, rfl⟩
  refine ends_succeed_taken _ _ _ _ htakes ⟨htakes, ?_, ?_⟩
  · exact fun c hc => List.mem_takeWhile_imp hc
  · intro c hc
    have hhead := List.head?_dropWhile_not property input
    rw [Option.mem_def.mp hc] at hhead
    simpa using hhead

end Parser

end Parsing
