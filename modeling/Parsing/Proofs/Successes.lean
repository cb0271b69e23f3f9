import Parsing.Parser.Recursion
import Parsing.Proofs.Chain
import Parsing.Proofs.Overrides
import Parsing.Proofs.Replies

/-!
When a parser succeeds, with which value and where. For each construction this is a condition on its
parts: the parts succeed one after another, and the callbacks between them end with what the next
part is made of. Records and recorded messages play no part in it.
-/

namespace Parsing

namespace Run

variable {ω α β : Type}

theorem outcome_bind_eq_ok_iff (x : Run ω α) (f : α → Run ω β) (b : β) :
    (x >>= f).outcome = .ok b ↔ ∃ a, x.outcome = .ok a ∧ (f a).outcome = .ok b := by
  rw [outcome_bind]
  cases x.outcome with
  | ok a => simp [Except.bind]
  | error fault => simp [Except.bind]

/-- Past a reply only its success leads to a success. -/
theorem outcome_andThen_eq_ok_iff (x : Run ω (Reply α)) (k : α → State → Run ω (Reply β)) (b : β)
    (t : State) :
    (x >>= fun reply => reply.andThen k).outcome = .ok (.success b t) ↔
      ∃ a middle, x.outcome = .ok (.success a middle) ∧
        (k a middle).outcome = .ok (.success b t) := by
  rw [outcome_bind_eq_ok_iff]
  constructor
  · rintro ⟨reply, hx, hk⟩
    cases reply with
    | success a middle => exact ⟨a, middle, hx, hk⟩
    | failure e => cases hk
  · rintro ⟨a, middle, hx, hk⟩
    exact ⟨.success a middle, hx, hk⟩

theorem outcome_attempt_bind (x : Run ω α) (k : Except Fault α → Run ω β) :
    (x.attempt >>= k).outcome = (k x.outcome).outcome := by
  rw [outcome_bind]
  rfl

theorem outcome_success_eq_ok_iff (x : Run ω β) (rest : State) (b : β) (t : State) :
    (x >>= fun b => pure (Reply.success b rest)).outcome = .ok (.success b t) ↔
      x.outcome = .ok b ∧ rest = t := by
  rw [outcome_bind_eq_ok_iff]
  constructor
  · rintro ⟨b', hx, hpure⟩
    cases hpure
    exact ⟨hx, rfl⟩
  · rintro ⟨hx, rfl⟩
    exact ⟨b, hx, rfl⟩

end Run

namespace Parser

variable {ω α β γ ρ : Type}

def Succeeds (p : Parser ω α) (s : State) (a : α) (t : State) : Prop :=
  (p.parse s).outcome = .ok (.success a t)

theorem Succeeds.gives {p : Parser ω α} {s t : State} {a : α} (h : p.Succeeds s a t) : p.Gives a :=
  ⟨s, t, h⟩

theorem outcome_reworded_eq_success_iff (x : Run ω (Reply α)) (message : Option String) (a : α)
    (t : State) :
    (x >>= fun reply => pure (reply.reworded message)).outcome = .ok (.success a t) ↔
      x.outcome = .ok (.success a t) := by
  rw [Run.bind_pure_eq]
  generalize x.outcome = outcome
  rcases outcome with fault | ⟨b, rest⟩ | e <;> simp [Except.map, Reply.reworded]

theorem reported_eq_success_iff (p : Parser ω α) (s : State) (a : α) (t : State) :
    (p.reported s).outcome = .ok (.success a t) ↔ p.Succeeds s a t := by
  rw [reported, outcome_reworded_eq_success_iff, Succeeds]

theorem outcome_succeed {s t : State} {taken : Text} (a : α) (h : s.Takes taken t) :
    (succeed a s taken : Run ω (Reply α)).outcome = .ok (.success a t) := by
  rw [succeed, (State.consume_eq_ok_iff s t taken).mpr h, Run.bind_pure_eq]
  rfl

theorem succeeds_result_iff (a : α) (s : State) (b : α) (t : State) :
    (result a : Parser ω α).Succeeds s b t ↔ a = b ∧ s = t := by
  simp [Succeeds, result, Run.pure_def]

theorem not_succeeds_fail (message : String) (expected : List String) (s : State) (a : α)
    (t : State) : ¬(fail message expected : Parser ω α).Succeeds s a t := by
  simp [Succeeds, fail, Run.pure_def]

theorem not_succeeds_stray (kind : Kind) (s : State) (a : α) (t : State) :
    ¬(Item.stray kind : Item ω α).toParser.Succeeds s a t := by
  simp [Succeeds, Item.toParser, Run.raise]

theorem succeeds_trace_iff (label : String) (s : State) (u : Unit) (t : State) :
    (trace label : Parser ω Unit).Succeeds s u t ↔ s = t := by
  rw [Succeeds, trace, Run.outcome_bind]
  simp [Run.log, Except.bind, Run.pure_def]

theorem succeeds_satisfy_iff (property : Char → Bool) (description : String) (s : State) (c : Char)
    (t : State) :
    (satisfy property description : Parser ω Char).Succeeds s c t ↔
      s.Takes [c] t ∧ property c = true := by
  constructor
  · exact fun h => (meets_satisfy property description s).of_success h
  · rintro ⟨htakes, hc⟩
    have hinput : s.input = c :: t.input := htakes.1
    simp only [Succeeds, satisfy, hinput, hc, if_true]
    exact outcome_succeed c htakes

theorem succeeds_text_iff (taken : Text) (s : State) (u : Text) (t : State) :
    (text taken : Parser ω Text).Succeeds s u t ↔ u = taken ∧ s.Takes taken t := by
  constructor
  · exact fun h => (meets_text taken s).of_success h
  · rintro ⟨rfl, htakes⟩
    have hprefix : u.isPrefixOf s.input = true :=
      List.isPrefixOf_iff_prefix.mpr ⟨t.input, htakes.1.symm⟩
    simp only [Succeeds, text, hprefix, if_true]
    exact outcome_succeed u htakes

/-- A span takes nothing where the property does not hold of what comes next. -/
theorem succeeds_span_nil (property : Char → Bool) (s : State) (h : s.Past property) :
    (span property : Parser ω Text).Succeeds s [] s := by
  have htaken : s.input.takeWhile property = [] := by
    cases hinput : s.input with
    | nil => rfl
    | cons c rest =>
      have hc : property c = false := h c (by rw [hinput]; rfl)
      exact List.takeWhile_cons_of_neg (by rw [hc]; exact Bool.false_ne_true)
  simp only [Succeeds, span, htaken]
  exact outcome_succeed [] s.takes_nil

theorem succeeds_withMessage_iff (p : Parser ω α) (message : String) (s : State) (a : α)
    (t : State) : (p.withMessage message).Succeeds s a t ↔ p.Succeeds s a t := by
  rw [Succeeds, parse_withMessage, outcome_reworded_eq_success_iff, Succeeds]

theorem succeeds_withMessageFrom_iff (p : Parser ω α) (f : Failure → Run ω String) (s : State)
    (a : α) (t : State) : (p.withMessageFrom f).Succeeds s a t ↔ p.Succeeds s a t := by
  simp only [Succeeds, withMessageFrom, Run.outcome_bind_eq_ok_iff]
  constructor
  · rintro ⟨reply, hp, hout⟩
    cases reply with
    | success b rest =>
      cases hout
      exact hp
    | failure e =>
      obtain ⟨message, -, hfailure⟩ := (Run.outcome_bind_eq_ok_iff _ _ _).mp hout
      cases hfailure
  · exact fun hp => ⟨_, hp, rfl⟩

theorem succeeds_map_iff (p : Parser ω α) (f : α → Run ω β) (s : State) (b : β) (t : State) :
    (p.map f).Succeeds s b t ↔ ∃ a, p.Succeeds s a t ∧ (f a).outcome = .ok b := by
  rw [Succeeds, parse_map, Run.outcome_andThen_eq_ok_iff]
  simp only [reported_eq_success_iff, Run.outcome_success_eq_ok_iff]
  constructor
  · rintro ⟨a, middle, hp, hf, rfl⟩
    exact ⟨a, hp, hf⟩
  · rintro ⟨a, hp, hf⟩
    exact ⟨a, t, hp, hf, rfl⟩

theorem succeeds_flatMap_iff (p : Parser ω α) (f : α → Run ω (Parser ω β)) (s : State) (b : β)
    (t : State) :
    (p.flatMap f).Succeeds s b t ↔
      ∃ a middle, p.Succeeds s a middle ∧
        ∃ q, (f a).outcome = .ok q ∧ q.Succeeds middle b t := by
  rw [Succeeds, parse_flatMap, Run.outcome_andThen_eq_ok_iff]
  simp only [reported_eq_success_iff, Run.outcome_bind_eq_ok_iff, Succeeds]

theorem succeeds_zip_iff (p : Parser ω α) (q : Parser ω β) (s : State) (pair : α × β) (t : State) :
    (p.zip q).Succeeds s pair t ↔
      ∃ a middle, p.Succeeds s a middle ∧ ∃ b, q.Succeeds middle b t ∧ (a, b) = pair := by
  rw [Succeeds, parse_zip]
  simp only [Run.outcome_andThen_eq_ok_iff, Succeeds]
  constructor
  · rintro ⟨a, middle, hp, b, rest, hq, hpure⟩
    cases hpure
    exact ⟨a, middle, hp, b, hq, rfl⟩
  · rintro ⟨a, middle, hp, b, hq, rfl⟩
    exact ⟨a, middle, hp, b, t, hq, rfl⟩

theorem succeeds_defer_iff (make : Run ω (Parser ω α)) (s : State) (a : α) (t : State) :
    (defer make).Succeeds s a t ↔ ∃ p, make.outcome = .ok p ∧ p.Succeeds s a t := by
  rw [Succeeds, parse_defer, Run.outcome_bind_eq_ok_iff]
  rfl

/-- The field is parsed by a parser; what is no parser in its place is a fault. -/
theorem succeeds_extend_iff (p : Parser ω ρ) (key : String) (choose : ρ → Run ω (Item ω β))
    (store : ρ → β → Run ω γ) (s : State) (c : γ) (t : State) :
    (p.extend key choose store).Succeeds s c t ↔
      ∃ r middle, p.Succeeds s r middle ∧
        ∃ q, (choose r).outcome = .ok (.parser q) ∧
          ∃ b, q.Succeeds middle b t ∧ (store r b).outcome = .ok c := by
  simp only [Succeeds, extend]
  rw [Run.outcome_andThen_eq_ok_iff]
  simp only [reported_eq_success_iff, Run.outcome_bind_eq_ok_iff]
  constructor
  · rintro ⟨r, middle, hp, item, hchoose, hitem⟩
    cases item with
    | stray kind => cases hitem
    | parser q =>
      obtain ⟨b, rest, hq, hout⟩ := (Run.outcome_andThen_eq_ok_iff _ _ _ _).mp hitem
      obtain ⟨hstore, rfl⟩ := (Run.outcome_success_eq_ok_iff _ _ _ _).mp hout
      exact ⟨r, middle, hp, q, hchoose, b, hq, hstore⟩
  · rintro ⟨r, middle, hp, q, hchoose, b, hq, hstore⟩
    refine ⟨r, middle, hp, .parser q, hchoose, ?_⟩
    rw [Run.outcome_andThen_eq_ok_iff]
    exact ⟨b, t, hq, (Run.outcome_success_eq_ok_iff _ _ _ _).mpr ⟨hstore, rfl⟩⟩

end Parser

/-! Scripts. -/

namespace Script

variable {ω σ α β : Type}

/-- The script ends with a value and the local variables that it leaves. -/
def Succeeds (body : Script ω σ α) (locals : σ) (s : State) (ended : α × σ) (t : State) : Prop :=
  (body.run locals s).outcome = .ok (ended.2, .ok (.success ended.1 t))

theorem succeeds_done_iff (a : α) (locals : σ) (s : State) (ended : α × σ) (t : State) :
    (done a : Script ω σ α).Succeeds locals s ended t ↔ (a, locals) = ended ∧ s = t := by
  rw [Succeeds, run, Run.pure_def]
  constructor
  · intro h
    cases h
    exact ⟨rfl, rfl⟩
  · rintro ⟨rfl, rfl⟩
    rfl

theorem succeeds_act_iff (action : σ → Run ω (β × σ)) (next : β → Script ω σ α) (locals : σ)
    (s : State) (ended : α × σ) (t : State) :
    (act action next).Succeeds locals s ended t ↔
      ∃ acted, (action locals).outcome = .ok acted ∧
        (next acted.1).Succeeds acted.2 s ended t := by
  rw [Succeeds, run, Run.outcome_attempt_bind]
  cases (action locals).outcome with
  | error fault => simp [Run.pure_def]
  | ok acted => simp [Succeeds]

/-- Only a success is gone on from to a success. -/
theorem outcome_goOn_eq_iff (locals : σ) (next : β → State → Run ω (σ × Except Fault (Reply α)))
    (ended : Except Fault (Reply β)) (left : σ) (a : α) (t : State) :
    (goOn locals next ended).outcome = .ok (left, .ok (.success a t)) ↔
      ∃ b middle, ended = .ok (.success b middle) ∧
        (next b middle).outcome = .ok (left, .ok (.success a t)) := by
  rcases ended with fault | ⟨b, middle⟩ | e <;> simp [goOn, Run.pure_def]

theorem succeeds_await_iff (p : Parser ω β) (next : β → Script ω σ α) (locals : σ) (s : State)
    (ended : α × σ) (t : State) :
    (await (.parser p) next).Succeeds locals s ended t ↔
      ∃ b middle, p.Succeeds s b middle ∧ (next b).Succeeds locals middle ended t := by
  simp only [Succeeds, run_await, Run.outcome_attempt_bind, outcome_goOn_eq_iff,
    Parser.reported_eq_success_iff]

theorem not_succeeds_await_stray (kind : Kind) (next : β → Script ω σ α) (locals : σ) (s : State)
    (ended : α × σ) (t : State) :
    ¬(await (.stray kind) next).Succeeds locals s ended t := by
  simp [Succeeds, run, Run.pure_def]

theorem succeeds_guarded_iff (body : Script ω σ β) (cleanup : σ → Run ω Unit)
    (next : β → Script ω σ α) (locals : σ) (s : State) (ended : α × σ) (t : State) :
    (guarded body cleanup next).Succeeds locals s ended t ↔
      ∃ left middle, body.Succeeds locals s left middle ∧ (cleanup left.2).outcome = .ok () ∧
        (next left.1).Succeeds left.2 middle ended t := by
  simp only [Succeeds, run_guarded, Run.outcome_bind_eq_ok_iff, Run.outcome_attempt_bind]
  constructor
  · rintro ⟨⟨kept, reply⟩, hbody, hout⟩
    cases hcleanup : (cleanup kept).outcome with
    | error fault => simp [hcleanup, Run.pure_def] at hout
    | ok u =>
      simp only [hcleanup] at hout
      obtain ⟨b, middle, rfl, hnext⟩ := (outcome_goOn_eq_iff _ _ _ _ _ _).mp hout
      exact ⟨(b, kept), middle, hbody, hcleanup, hnext⟩
  · rintro ⟨⟨b, kept⟩, middle, hbody, hcleanup, hnext⟩
    refine ⟨(kept, .ok (.success b middle)), hbody, ?_⟩
    rw [hcleanup]
    exact hnext

end Script

namespace Parser

variable {ω σ α : Type}

theorem succeeds_ofScript_iff (body : Script ω σ (Ending ω α)) (locals : σ) (s : State) (a : α)
    (t : State) :
    (ofScript body locals).Succeeds s a t ↔
      ∃ ended middle, body.Succeeds locals s ended middle ∧
        ended.1.toParser.Succeeds middle a t := by
  simp only [Succeeds, ofScript, Run.outcome_bind_eq_ok_iff, Ending.parse_toParser]
  constructor
  · rintro ⟨⟨left, ended⟩, hbody, reply, hended, hout⟩
    cases hended
    cases reply with
    | success ending middle => exact ⟨(ending, left), middle, hbody, hout⟩
    | failure e => cases hout
  · rintro ⟨⟨ending, left⟩, middle, hbody, hout⟩
    exact ⟨(left, .ok (.success ending middle)), hbody, _, rfl, hout⟩

end Parser

end Parsing
