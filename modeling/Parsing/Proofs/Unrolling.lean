import Parsing.Proofs.Chain
import Parsing.Proofs.Finalization
import Parsing.Proofs.Loops
import Parsing.Proofs.Scope

/-!
Scripts that loop without a bound. A script is finite, and so has no loops of its own; a looping
script may repeat a pass, anywhere and inside other loops, until a pass ends the loop. How it ends
is a relation, for it need not end. Unrolled to a depth it is a script, and wherever it ends, all
scripts that it is unrolled to from some depth on do the same, records included. So what is true of
the runs of all scripts is true of its runs. Without cleanups it ends, besides, wherever a depth is
not used up.
-/

namespace Parsing

open Parsing.Parser (Pass)

/-- Scripts with loops. A loop carries a value from one pass to the next; a pass that is finished
ends the loop, be it that the loop is left or that the whole script is to return. -/
inductive Looping (ω σ : Type) : Type → Type 1 where
  /-- A part without loops. -/
  | plain {α : Type} (body : Script ω σ α) : Looping ω σ α
  | andThen {α β : Type} (first : Looping ω σ β) (next : β → Looping ω σ α) : Looping ω σ α
  | guarded {α : Type} (body : Looping ω σ α) (cleanup : σ → Run ω Unit) : Looping ω σ α
  | loop {ρ α : Type} (pass : ρ → Looping ω σ (Pass ρ α)) (carried : ρ) : Looping ω σ α

namespace Looping

variable {ω σ α : Type}

/-- From the local variables and the state, the looping script ends, with the records, the local
variables and what a script ends with. A failure or fault in a pass ends the loop as well. -/
inductive Ends : {α : Type} → Looping ω σ α → σ → State →
    List (Entry ω) → σ → Except Fault (Reply α) → Prop
  | plain {α : Type} {body : Script ω σ α} {locals left : σ} {s : State}
      {entries : List (Entry ω)} {ended : Except Fault (Reply α)}
      (h : body.run locals s = ⟨entries, .ok (left, ended)⟩) :
      Ends (.plain body) locals s entries left ended
  | andThen {α β : Type} {first : Looping ω σ β} {next : β → Looping ω σ α}
      {locals middle left : σ} {s t : State} {before rest : List (Entry ω)} {b : β}
      {ended : Except Fault (Reply α)}
      (hfirst : Ends first locals s before middle (.ok (.success b t)))
      (hnext : Ends (next b) middle t rest left ended) :
      Ends (.andThen first next) locals s (before ++ rest) left ended
  | stopped {α β : Type} {first : Looping ω σ β} (next : β → Looping ω σ α) {locals left : σ}
      {s : State} {entries : List (Entry ω)} {stop : Except Fault Failure}
      (hfirst : Ends first locals s entries left (stop.map .failure)) :
      Ends (.andThen first next) locals s entries left (stop.map .failure)
  | cleaned {α : Type} {body : Looping ω σ α} {cleanup : σ → Run ω Unit} {locals left : σ}
      {s : State} {entries own : List (Entry ω)} {ended : Except Fault (Reply α)}
      (hbody : Ends body locals s entries left ended) (hcleanup : cleanup left = ⟨own, .ok ()⟩) :
      Ends (.guarded body cleanup) locals s (entries ++ own) left ended
  | uncleaned {α : Type} {body : Looping ω σ α} {cleanup : σ → Run ω Unit} {locals left : σ}
      {s : State} {entries own : List (Entry ω)} {ended : Except Fault (Reply α)} {fault : Fault}
      (hbody : Ends body locals s entries left ended)
      (hcleanup : cleanup left = ⟨own, .error fault⟩) :
      Ends (.guarded body cleanup) locals s (entries ++ own) left (.error fault)
  | finished {ρ α : Type} {pass : ρ → Looping ω σ (Pass ρ α)} {a : ρ} {locals left : σ}
      {s t : State} {entries : List (Entry ω)} {value : α}
      (hpass : Ends (pass a) locals s entries left (.ok (.success (.finished value) t))) :
      Ends (.loop pass a) locals s entries left (.ok (.success value t))
  | again {ρ α : Type} {pass : ρ → Looping ω σ (Pass ρ α)} {a a' : ρ} {locals middle left : σ}
      {s t : State} {before rest : List (Entry ω)} {ended : Except Fault (Reply α)}
      (hpass : Ends (pass a) locals s before middle (.ok (.success (.next a') t)))
      (hrest : Ends (.loop pass a') middle t rest left ended) :
      Ends (.loop pass a) locals s (before ++ rest) left ended
  | broken {ρ α : Type} {pass : ρ → Looping ω σ (Pass ρ α)} {a : ρ} {locals left : σ}
      {s : State} {entries : List (Entry ω)} {stop : Except Fault Failure}
      (hpass : Ends (pass a) locals s entries left (stop.map .failure)) :
      Ends (.loop pass a) locals s entries left (stop.map .failure)

/-- The script down to a depth, each pass of a loop one deeper than the one before it. It is a fault
to go deeper. -/
def unroll : Nat → {α : Type} → Looping ω σ α → Script ω σ α
  | _, _, plain body => body
  | 0, _, _ => Script.perform (Run.raise .exhausted)
  | depth + 1, _, andThen first next => (first.unroll depth).andThen fun b => (next b).unroll depth
  | depth + 1, _, guarded body cleanup => .guarded (body.unroll depth) cleanup .done
  | depth + 1, _, loop pass a => ((pass a).unroll depth).andThen fun
    | .finished value => .done value
    | .next a' => (loop pass a').unroll depth

theorem unroll_plain (body : Script ω σ α) (depth : Nat) : (plain body).unroll depth = body := by
  cases depth <;> rfl

end Looping

theorem Run.after_pure {ω α : Type} (entries : List (Entry ω)) (a : α) :
    (pure a : Run ω α).after entries = ⟨entries, .ok a⟩ := by
  rw [after, pure_def, List.append_nil]

namespace Script

variable {ω σ α β γ : Type}

/-- Scripts that wait for the same parser are the same if they are after it. -/
theorem step_andThen_congr {p : Parser ω γ} {next : γ → Script ω σ α} {f : α → Script ω σ β}
    {next' : γ → Script ω σ β} (h : ∀ c, (next c).andThen f = next' c) :
    (step p >>= next).andThen f = step p >>= next' :=
  congrArg (await (.parser p)) (funext h)

theorem run_andThen_of_success {body : Script ω σ α} (f : α → Script ω σ β) {locals left : σ}
    {s t : State} {before : List (Entry ω)} {a : α}
    (h : body.run locals s = ⟨before, .ok (left, .ok (.success a t))⟩) :
    (body.andThen f).run locals s = ((f a).run left t).after before := by
  change (body >>= f).run locals s = _
  rw [run_bind, h, Run.ok_bind]
  rfl

theorem run_andThen_of_stop {body : Script ω σ α} (f : α → Script ω σ β) {locals left : σ}
    {s : State} {entries : List (Entry ω)} {stop : Except Fault Failure}
    (h : body.run locals s = ⟨entries, .ok (left, stop.map .failure)⟩) :
    (body.andThen f).run locals s = ⟨entries, .ok (left, stop.map .failure)⟩ := by
  change (body >>= f).run locals s = _
  rw [run_bind, h, Run.ok_bind]
  cases stop <;> exact Run.after_pure entries _

theorem run_raise (fault : Fault) (locals : σ) (s : State) :
    (perform (Run.raise fault) : Script ω σ α).run locals s =
      ⟨[], .ok (locals, .error fault)⟩ := by
  rw [perform, run]
  rfl

/-- What comes of two scripts: the first stops, or the second goes on from it. -/
theorem run_andThen_cases {body : Script ω σ α} {f : α → Script ω σ β} {locals left : σ}
    {s : State} {entries : List (Entry ω)} {ended : Except Fault (Reply β)}
    (h : (body.andThen f).run locals s = ⟨entries, .ok (left, ended)⟩) :
    (∃ stop : Except Fault Failure, ended = stop.map .failure ∧
      body.run locals s = ⟨entries, .ok (left, stop.map .failure)⟩) ∨
    ∃ before middle a t rest, body.run locals s = ⟨before, .ok (middle, .ok (.success a t))⟩ ∧
      (f a).run middle t = ⟨rest, .ok (left, ended)⟩ ∧ entries = before ++ rest := by
  change (body >>= f).run locals s = _ at h
  rw [run_bind] at h
  obtain ⟨before, ⟨middle, fault | ⟨a, t⟩ | e⟩, rest, hbody, hnext, rfl⟩ :=
    (Run.bind_eq_ok_iff _ _ _ _).mp h
  · cases hnext
    rw [List.append_nil]
    exact .inl ⟨.error fault, rfl, hbody⟩
  · exact .inr ⟨before, middle, a, t, rest, hbody, hnext, rfl⟩
  · cases hnext
    rw [List.append_nil]
    exact .inl ⟨.ok e, rfl, hbody⟩

/-- A block with nothing after it ends as what is in it. -/
theorem run_guarded_done {body : Script ω σ α} {cleanup : σ → Run ω Unit} {locals left : σ}
    {s : State} {entries own : List (Entry ω)} {ended : Except Fault (Reply α)}
    (hbody : body.run locals s = ⟨entries, .ok (left, ended)⟩)
    (hcleanup : cleanup left = ⟨own, .ok ()⟩) :
    (guarded body cleanup done).run locals s = ⟨entries ++ own, .ok (left, ended)⟩ := by
  rw [run_guarded_eq done hbody hcleanup]
  rcases ended with fault | ⟨a, t⟩ | e <;> exact Run.after_pure (entries ++ own) _

theorem guardFree_step_andThen {p : Parser ω γ} {next : γ → Script ω σ α}
    (h : ∀ c, (next c).GuardFree) : (step p >>= next).GuardFree := h

theorem guardFree_andThen {body : Script ω σ α} {f : α → Script ω σ β} (hbody : body.GuardFree)
    (hf : ∀ a, (f a).GuardFree) : (body.andThen f).GuardFree := by
  induction body with
  | done a => exact hf a
  | act action next ih => exact fun b => ih b (hbody b) hf
  | await item next ih => exact fun b => ih b (hbody b) hf
  | guarded body cleanup next => exact hbody.elim

end Script

namespace Looping

variable {ω σ α : Type}

/-- Where a depth is one more than another, from some other one on. -/
theorem exists_least_of_succ {property : Nat → Prop} (least : Nat)
    (h : ∀ depth, least ≤ depth → property (depth + 1)) :
    ∃ least, ∀ depth, least ≤ depth → property depth := by
  refine ⟨least + 1, fun depth hdepth => ?_⟩
  obtain ⟨depth, rfl⟩ := Nat.exists_eq_add_of_le' (Nat.le_of_add_left_le hdepth)
  exact h depth (Nat.le_of_succ_le_succ hdepth)

/-- From some depth on the script does what the looping script does. By induction on the way to the
end; a part of it and a later pass need one less than the whole. -/
theorem Ends.exists_least {body : Looping ω σ α} {locals left : σ} {s : State}
    {entries : List (Entry ω)} {ended : Except Fault (Reply α)}
    (h : body.Ends locals s entries left ended) :
    ∃ least, ∀ depth, least ≤ depth →
      (body.unroll depth).run locals s = ⟨entries, .ok (left, ended)⟩ := by
  induction h with
  | plain h =>
    refine ⟨0, fun depth _ => ?_⟩
    rwa [unroll_plain]
  | andThen _ _ ihfirst ihnext =>
    obtain ⟨least, hfirst⟩ := ihfirst
    obtain ⟨least', hnext⟩ := ihnext
    apply exists_least_of_succ (max least least')
    intro depth hdepth
    obtain ⟨hleast, hleast'⟩ := Nat.max_le.mp hdepth
    rw [unroll, Script.run_andThen_of_success _ (hfirst depth hleast), hnext depth hleast']
    rfl
  | stopped next _ ihfirst =>
    obtain ⟨least, hfirst⟩ := ihfirst
    apply exists_least_of_succ least
    exact fun depth hleast => Script.run_andThen_of_stop _ (hfirst depth hleast)
  | cleaned _ hcleanup ihbody =>
    obtain ⟨least, hbody⟩ := ihbody
    apply exists_least_of_succ least
    exact fun depth hleast => Script.run_guarded_done (hbody depth hleast) hcleanup
  | uncleaned _ hcleanup ihbody =>
    obtain ⟨least, hbody⟩ := ihbody
    apply exists_least_of_succ least
    exact fun depth hleast => Script.run_guarded_of_fault _ (hbody depth hleast) hcleanup
  | finished _ ihpass =>
    obtain ⟨least, hpass⟩ := ihpass
    apply exists_least_of_succ least
    intro depth hleast
    rw [unroll, Script.run_andThen_of_success _ (hpass depth hleast)]
    exact Run.after_pure _ _
  | again _ _ ihpass ihrest =>
    obtain ⟨least, hpass⟩ := ihpass
    obtain ⟨least', hrest⟩ := ihrest
    apply exists_least_of_succ (max least least')
    intro depth hdepth
    obtain ⟨hleast, hleast'⟩ := Nat.max_le.mp hdepth
    rw [unroll, Script.run_andThen_of_success _ (hpass depth hleast), hrest depth hleast']
    rfl
  | broken _ ihpass =>
    obtain ⟨least, hpass⟩ := ihpass
    apply exists_least_of_succ least
    exact fun depth hleast => Script.run_andThen_of_stop _ (hpass depth hleast)

/-- A looping script ends in one way only. -/
theorem Ends.unique {body : Looping ω σ α} {locals left left' : σ} {s : State}
    {entries entries' : List (Entry ω)} {ended ended' : Except Fault (Reply α)}
    (h : body.Ends locals s entries left ended) (h' : body.Ends locals s entries' left' ended') :
    entries' = entries ∧ left' = left ∧ ended' = ended := by
  obtain ⟨least, hrun⟩ := h.exists_least
  obtain ⟨least', hrun'⟩ := h'.exists_least
  have hboth := (hrun' _ (Nat.le_max_right least least')).symm.trans (hrun _ (Nat.le_max_left _ _))
  cases hboth
  exact ⟨rfl, rfl, rfl⟩

/-- No part of the looping script is guarded by a cleanup. -/
def GuardFree : {α : Type} → Looping ω σ α → Prop
  | _, plain body => body.GuardFree
  | _, andThen first next => first.GuardFree ∧ ∀ b, (next b).GuardFree
  | _, guarded _ _ => False
  | _, loop pass _ => ∀ a, (pass a).GuardFree

/-- What stops a script is the same fault for the whole. -/
theorem stop_ne_exhausted {β : Type} {stop : Except Fault Failure}
    (h : (stop.map .failure : Except Fault (Reply α)) ≠ .error .exhausted) :
    (stop.map .failure : Except Fault (Reply β)) ≠ .error .exhausted := by
  rcases stop with fault | e
  · rintro ⟨⟩
    exact h rfl
  · exact nofun

theorem GuardFree.unroll {body : Looping ω σ α} (h : body.GuardFree) (depth : Nat) :
    (body.unroll depth).GuardFree := by
  induction depth generalizing α with
  | zero =>
    cases body with
    | plain body => exact h
    | _ => exact fun _ => trivial
  | succ depth ih =>
    cases body with
    | plain body => exact h
    | andThen first next => exact Script.guardFree_andThen (ih h.1) fun b => ih (h.2 b)
    | guarded body cleanup => exact h.elim
    | loop pass a =>
      apply Script.guardFree_andThen (ih (h a))
      intro ended
      cases ended with
      | finished value => trivial
      | next a' =>
        have hloop : (loop pass a').GuardFree := h
        exact ih hloop

/-- A script that does not go as deep as it may does what the looping script does. By induction on
the depth. A cleanup may raise a fault where the depth has been used up, and so hide it; so there is
to be none. -/
theorem GuardFree.ends {body : Looping ω σ α} (hfree : body.GuardFree) {depth : Nat}
    {locals left : σ} {s : State} {entries : List (Entry ω)} {ended : Except Fault (Reply α)}
    (h : (body.unroll depth).run locals s = ⟨entries, .ok (left, ended)⟩)
    (hdepth : ended ≠ .error .exhausted) : body.Ends locals s entries left ended := by
  induction depth generalizing α locals s entries left with
  | zero =>
    cases body with
    | plain body => exact .plain h
    | guarded body cleanup => exact hfree.elim
    | andThen | loop =>
      cases (Script.run_raise .exhausted locals s).symm.trans h
      exact (hdepth rfl).elim
  | succ depth ih =>
    cases body with
    | plain body => exact .plain h
    | guarded body cleanup => exact hfree.elim
    | andThen first next =>
      rcases Script.run_andThen_cases h with
        ⟨stop, rfl, hfirst⟩ | ⟨before, middle, b, t, rest, hfirst, hnext, rfl⟩
      · exact .stopped next (ih hfree.1 hfirst (stop_ne_exhausted hdepth))
      · exact .andThen (ih hfree.1 hfirst nofun) (ih (hfree.2 b) hnext hdepth)
    | loop pass a =>
      rcases Script.run_andThen_cases h with
        ⟨stop, rfl, hpass⟩ | ⟨before, middle, value | a', t, rest, hpass, hrest, rfl⟩
      · exact .broken (ih (hfree a) hpass (stop_ne_exhausted hdepth))
      · cases hrest
        rw [List.append_nil]
        exact .finished (ih (hfree a) hpass nofun)
      · have hloop : (loop pass a').GuardFree := hfree
        exact .again (ih (hfree a) hpass nofun) (ih hloop hrest hdepth)

end Looping

/-- The reply of the parser that runs a script, from what the script ends with. -/
theorem Parser.parse_ofScript_of_ends {ω σ α : Type} {body : Script ω σ (Ending ω α)}
    {locals left : σ} {s : State} {entries : List (Entry ω)}
    {ended : Except Fault (Reply (Ending ω α))}
    (h : body.run locals s = ⟨entries, .ok (left, ended)⟩) :
    (ofScript body locals).parse s = (do
      (← (⟨entries, ended⟩ : Run ω _)).andThen fun ending rest => ending.toParser.parse rest) := by
  have hentries : (⟨entries, ended⟩ : Run ω _) = (Run.ofExcept ended).after entries := by
    rw [Run.after, Run.ofExcept, List.append_nil]
  rw [parse_ofScript_eq, h, Run.ok_bind, hentries, Run.after_bind]

namespace Looping

variable {ω σ α : Type}

/-- What the parser that runs the looping script comes to on the state, if it comes to anything. -/
def Replies (body : Looping ω σ (Ending ω α)) (locals : σ) (s : State)
    (reply : Run ω (Reply α)) : Prop :=
  ∃ entries left ended, body.Ends locals s entries left ended ∧
    reply = (do
      (← (⟨entries, ended⟩ : Run ω _)).andThen fun ending rest => ending.toParser.parse rest)

theorem Replies.unique {body : Looping ω σ (Ending ω α)} {locals : σ} {s : State}
    {reply reply' : Run ω (Reply α)} (h : body.Replies locals s reply)
    (h' : body.Replies locals s reply') : reply' = reply := by
  obtain ⟨entries, left, ended, hends, rfl⟩ := h
  obtain ⟨entries', left', ended', hends', rfl⟩ := h'
  obtain ⟨rfl, -, rfl⟩ := hends.unique hends'
  rfl

/-- Without cleanups, what comes of a depth that is not used up comes of the looping script. -/
theorem GuardFree.replies {body : Looping ω σ (Ending ω α)} (hfree : body.GuardFree) {depth : Nat}
    {locals : σ} {s : State}
    (h : ((Parser.ofScript (body.unroll depth) locals).parse s).outcome ≠ .error .exhausted) :
    body.Replies locals s ((Parser.ofScript (body.unroll depth) locals).parse s) := by
  obtain ⟨⟨left, ended⟩, houtcome⟩ := (body.unroll depth).exists_outcome_run locals s
  have hrun : (body.unroll depth).run locals s = ⟨_, .ok (left, ended)⟩ := Run.ext rfl houtcome
  have hparse := Parser.parse_ofScript_of_ends hrun
  refine ⟨_, left, ended, hfree.ends hrun ?_, hparse⟩
  rintro rfl
  rw [hparse, Run.error_bind] at h
  exact h rfl

/-- Wherever a parser that runs a looping script comes to a reply or a fault, parsers that run
scripts do the same, those that it is unrolled to from some depth on. So what scripts do it does:
without cleanups it is the chain of its steps, and where its blocks are marked, the marks are
balanced, as for the script. -/
theorem replies_of_unrolled (body : Looping ω σ (Ending ω α)) (locals : σ) (s : State)
    (reply : Run ω (Reply α)) (h : body.Replies locals s reply) :
    ∃ least, ∀ depth, least ≤ depth →
      (Parser.ofScript (body.unroll depth) locals).parse s = reply ∧
      (body.GuardFree →
        (Parser.defer ((body.unroll depth).chain locals fun ending _ =>
          return ending.toParser)).parse s = reply) ∧
      ∀ {κ : Type} (marked : Script (Mark κ ω) σ (Ending (Mark κ ω) α)),
        (body.unroll depth).Watched Parser.Watched (Ending.Watched Parser.Watched) marked →
          reply.Watched Eq ((Parser.ofScript marked locals).parse s) := by
  obtain ⟨entries, left, ended, hends, rfl⟩ := h
  obtain ⟨least, hrun⟩ := hends.exists_least
  refine ⟨least, fun depth hleast => ?_⟩
  have hparse := Parser.parse_ofScript_of_ends (hrun depth hleast)
  refine ⟨hparse, fun hfree => ?_, fun marked hmarked => ?_⟩
  · rw [← hparse]
    exact (Parser.parse_ofScript_chain _ locals (hfree.unroll depth) s).symm
  · rw [← hparse]
    exact (Parser.mirrors_ofScript hmarked (fun _ _ _ hp => hp.mirrors) locals).parse s

end Looping

end Parsing
