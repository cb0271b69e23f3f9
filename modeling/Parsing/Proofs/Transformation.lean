import Parsing.Proofs.Counterparts
import Parsing.Proofs.Reanchoring
import Parsing.Proofs.Successes
import Parsing.Proofs.Waiting

/-!
Changes of value and state together. Whatever states the callbacks give, their inputs alone count:
two changes one after the other are one change, and no position that a callback makes up is seen by
anything that is built on top. A change adds no failures to those of its parser, and the only fault
of its own is that of an input that the parser has not left.
-/

namespace Parsing

namespace Parser

variable {ω α β γ : Type}

/-- What the callback leaves of the input is a suffix of it. -/
def DropsOnly (f : α → State → Run ω (β × State)) : Prop :=
  ∀ a s b target, (f a s).outcome = .ok (b, target) → target.input <:+ s.input

/-- The value and the input that the callback gives depend on the value and the input it is shown,
not on the position. -/
def IgnoresPosition (f : α → State → Run ω (β × State)) : Prop :=
  ∀ a s s' b target, s.input = s'.input → (f a s).outcome = .ok (b, target) →
    ∃ target', (f a s').outcome = .ok (b, target') ∧ target'.input = target.input

/-- One callback after the other. The second is shown the state as the first gives it. -/
def fused (f : α → State → Run ω (β × State)) (g : β → State → Run ω (γ × State)) (a : α)
    (s : State) : Run ω (γ × State) := do
  let (b, target) ← f a s
  g b target

theorem outcome_fused_eq_ok_iff (f : α → State → Run ω (β × State))
    (g : β → State → Run ω (γ × State)) (a : α) (s : State) (given : γ × State) :
    (fused f g a s).outcome = .ok given ↔
      ∃ b target, (f a s).outcome = .ok (b, target) ∧ (g b target).outcome = .ok given := by
  rw [fused, Run.outcome_bind_eq_ok_iff]
  exact Prod.exists

/-! What a change of value and state gives. -/

theorem parse_transform (p : Parser ω α) (f : α → State → Run ω (β × State)) (s : State) :
    (p.transform f).parse s =
      (do
        (← p.reported s).andThen fun a rest => do
          let (b, target) ← f a rest
          return .success b (← Run.ofExcept (rest.reanchor target))) := rfl

theorem outcome_transform_of_success {p : Parser ω α} {f : α → State → Run ω (β × State)}
    {s rest target : State} {a : α} {b : β} (hp : p.Succeeds s a rest)
    (hgiven : (f a rest).outcome = .ok (b, target)) :
    ((p.transform f).parse s).outcome = (rest.reanchor target).map (Reply.success b) := by
  have hreported := (reported_eq_success_iff p s a rest).mpr hp
  rw [parse_transform, Run.outcome_bind, hreported]
  simp only [Except.bind, Reply.andThen]
  rw [Run.outcome_bind, hgiven]
  simp only [Except.bind]
  rw [Run.bind_pure_eq]
  rfl

theorem succeeds_transform_iff (p : Parser ω α) (f : α → State → Run ω (β × State)) (s : State)
    (b : β) (t : State) :
    (p.transform f).Succeeds s b t ↔
      ∃ a rest target, p.Succeeds s a rest ∧ (f a rest).outcome = .ok (b, target) ∧
        rest.reanchor target = .ok t := by
  rw [Succeeds, parse_transform, Run.outcome_andThen_eq_ok_iff]
  simp only [reported_eq_success_iff, Run.outcome_bind_eq_ok_iff]
  constructor
  · rintro ⟨a, rest, hp, ⟨b', target⟩, hgiven, t', hreanchor, hpure⟩
    cases hpure
    exact ⟨a, rest, target, hp, hgiven, hreanchor⟩
  · rintro ⟨a, rest, target, hp, hgiven, hreanchor⟩
    exact ⟨a, rest, hp, (b, target), hgiven, t, hreanchor, rfl⟩

/-- Where the callback drops nothing but input, it succeeds whenever its parser does. -/
theorem DropsOnly.exists_succeeds {f : α → State → Run ω (β × State)} (hf : DropsOnly f)
    {p : Parser ω α} {s rest target : State} {a : α} {b : β} (hp : p.Succeeds s a rest)
    (hgiven : (f a rest).outcome = .ok (b, target)) :
    ∃ t, (p.transform f).Succeeds s b t ∧ rest.Reaches t ∧ t.input = target.input := by
  obtain ⟨t, hreanchor, ht⟩ := State.reanchor_of_isSuffix (hf a rest b target hgiven)
  exact ⟨t, (succeeds_transform_iff p f s b t).mpr ⟨a, rest, target, hp, hgiven, hreanchor⟩, ht⟩

theorem DropsOnly.fused {f : α → State → Run ω (β × State)} {g : β → State → Run ω (γ × State)}
    (hf : DropsOnly f) (hg : DropsOnly g) : DropsOnly (fused f g) := by
  intro a s c last h
  obtain ⟨b, target, hfirst, hsecond⟩ := (outcome_fused_eq_ok_iff f g a s (c, last)).mp h
  exact (hg b target c last hsecond).trans (hf a s b target hfirst)

/-- In the two ways the second callback is shown one input at two positions, and reanchoring in two
steps leads where reanchoring in one does. -/
theorem succeeds_fused_iff (p : Parser ω α) {f : α → State → Run ω (β × State)}
    {g : β → State → Run ω (γ × State)} (hf : DropsOnly f) (hg : DropsOnly g)
    (hpos : IgnoresPosition g) (s : State) (c : γ) (t : State) :
    ((p.transform f).transform g).Succeeds s c t ↔ (p.transform (fused f g)).Succeeds s c t := by
  constructor
  · intro h
    obtain ⟨b, middle, last, hfirst, hsecond, hreanchor⟩ := (succeeds_transform_iff _ g s c t).mp h
    obtain ⟨a, rest, target, hp, hgiven, hmiddle⟩ :=
      (succeeds_transform_iff p f s b middle).mp hfirst
    obtain ⟨hreaches, hinput⟩ := (State.reanchor_eq_ok_iff rest target middle).mp hmiddle
    obtain ⟨hreaches', hinput'⟩ := (State.reanchor_eq_ok_iff middle last t).mp hreanchor
    -- `g` is shown `middle` here and `target` in the fused callback, which have the same input
    obtain ⟨last', hshown, hlast⟩ := hpos b middle target c last hinput hsecond
    have hfused : (fused f g a rest).outcome = .ok (c, last') :=
      (outcome_fused_eq_ok_iff f g a rest _).mpr ⟨b, target, hgiven, hshown⟩
    have ht : rest.reanchor last' = .ok t :=
      (State.reanchor_eq_ok_iff rest last' t).mpr
        ⟨hreaches.trans hreaches', hinput'.trans hlast.symm⟩
    exact (succeeds_transform_iff p _ s c t).mpr ⟨a, rest, last', hp, hfused, ht⟩
  · intro h
    obtain ⟨a, rest, last, hp, hfused, ht⟩ := (succeeds_transform_iff p _ s c t).mp h
    obtain ⟨b, target, hgiven, hshown⟩ := (outcome_fused_eq_ok_iff f g a rest _).mp hfused
    obtain ⟨middle, hfirst, hreaches, hinput⟩ := hf.exists_succeeds hp hgiven
    obtain ⟨last', hsecond, hlast⟩ := hpos b target middle c last hinput.symm hshown
    obtain ⟨t', hsucceeds, hreaches', hinput'⟩ := hg.exists_succeeds hfirst hsecond
    obtain ⟨hreach, hleft⟩ := (State.reanchor_eq_ok_iff rest last t).mp ht
    -- both ways lead from `rest` to the same input, and there is one state to be reached with it
    have hsame : t' = t := (hreaches.trans hreaches').eq_of_input hreach
      (by rw [hinput', hlast, hleft])
    rwa [hsame] at hsucceeds

/-! Failures and faults. -/

theorem reported_eq_failure_iff (p : Parser ω α) (s : State) (entries : List (Entry ω))
    (e' : Failure) :
    p.reported s = ⟨entries, .ok (.failure e')⟩ ↔
      ∃ e, p.parse s = ⟨entries, .ok (.failure e)⟩ ∧ e.reworded p.message = e' := by
  constructor
  · intro h
    rw [reported, Run.bind_pure_eq] at h
    rcases hp : p.parse s with ⟨own, fault | ⟨a, rest⟩ | e⟩
    · rw [hp] at h
      cases h
    · rw [hp] at h
      cases h
    · rw [hp] at h
      cases h
      exact ⟨e, rfl, rfl⟩
  · rintro ⟨e, hp, rfl⟩
    exact reported_eq_of_parse hp

/-- No callback fails, so the failures are those of the parser, and with them what is recorded. -/
theorem parse_transform_eq_failure_iff (p : Parser ω α) (f : α → State → Run ω (β × State))
    (s : State) (entries : List (Entry ω)) (e : Failure) :
    (p.transform f).parse s = ⟨entries, .ok (.failure e)⟩ ↔
      p.reported s = ⟨entries, .ok (.failure e)⟩ := by
  rw [parse_transform]
  rcases p.reported s with ⟨own, fault | ⟨a, rest⟩ | e'⟩
  · rw [Run.error_bind]
    exact ⟨nofun, nofun⟩
  · rw [Run.ok_bind]
    refine ⟨fun h => ?_, nofun⟩
    have hout := congrArg Run.outcome h
    simp only [Reply.andThen, Run.after, Run.outcome_bind_eq_ok_iff] at hout
    obtain ⟨given, -, t, -, hpure⟩ := hout
    cases hpure
  · rw [Run.ok_bind]
    simp [Reply.andThen, Run.after, Run.pure_def]

theorem parse_transform_twice_eq_failure_iff (p : Parser ω α) (f : α → State → Run ω (β × State))
    (g : β → State → Run ω (γ × State)) (s : State) (entries : List (Entry ω)) (e : Failure) :
    ((p.transform f).transform g).parse s = ⟨entries, .ok (.failure e)⟩ ↔
      p.reported s = ⟨entries, .ok (.failure e)⟩ := by
  have hmessage : (p.transform f).message = none := rfl
  rw [parse_transform_eq_failure_iff, reported_of_message_none _ hmessage,
    parse_transform_eq_failure_iff]

theorem outcome_fused_transform_iff (p : Parser ω α) {f : α → State → Run ω (β × State)}
    {g : β → State → Run ω (γ × State)} (hf : DropsOnly f) (hg : DropsOnly g)
    (hpos : IgnoresPosition g) (s : State) (reply : Reply γ) :
    (((p.transform f).transform g).parse s).outcome = .ok reply ↔
      ((p.transform (fused f g)).parse s).outcome = .ok reply := by
  cases reply with
  | success c t => exact succeeds_fused_iff p hf hg hpos s c t
  | failure e =>
    have hsame : ∀ entries, ((p.transform f).transform g).parse s = ⟨entries, .ok (.failure e)⟩ ↔
        (p.transform (fused f g)).parse s = ⟨entries, .ok (.failure e)⟩ := by
      intro entries
      rw [parse_transform_twice_eq_failure_iff, parse_transform_eq_failure_iff]
    constructor
    · exact fun h => congrArg Run.outcome ((hsame _).mp (Run.ext rfl h))
    · exact fun h => congrArg Run.outcome ((hsame _).mpr (Run.ext rfl h))

/-- If neither the parser nor the callback raises anything, then reanchoring may. -/
theorem outcome_transform_eq_error_iff (p : Parser ω α) (f : α → State → Run ω (β × State))
    (s : State) {reply : Reply α} (hp : (p.parse s).outcome = .ok reply)
    (hf : ∀ a rest, reply = .success a rest → ∃ given, (f a rest).outcome = .ok given)
    (fault : Fault) :
    ((p.transform f).parse s).outcome = .error fault ↔
      ∃ a rest b target, p.Succeeds s a rest ∧ (f a rest).outcome = .ok (b, target) ∧
        ¬target.input <:+ rest.input ∧ fault = .unreachable target.pos rest.pos := by
  constructor
  · intro h
    cases reply with
    | failure e =>
      have hreported : (p.reported s).outcome = .ok (.failure (e.reworded p.message)) := by
        rw [reported, Run.bind_pure_eq, hp]
        rfl
      rw [parse_transform, Run.outcome_bind, hreported] at h
      cases h
    | success a rest =>
      obtain ⟨⟨b, target⟩, hgiven⟩ := hf a rest rfl
      rw [outcome_transform_of_success hp hgiven] at h
      cases hreanchor : rest.reanchor target with
      | ok t =>
        rw [hreanchor] at h
        cases h
      | error other =>
        rw [hreanchor] at h
        cases h
        exact ⟨a, rest, b, target, hp, hgiven, (State.reanchor_eq_error_iff _ _ _).mp hreanchor⟩
  · rintro ⟨a, rest, b, target, hsucceeds, hgiven, hunreachable⟩
    rw [outcome_transform_of_success hsucceeds hgiven,
      (State.reanchor_eq_error_iff _ _ _).mpr hunreachable]
    rfl

/-- Of the states that callbacks give, the inputs alone count. Two changes one after the other are
one: if the callbacks drop nothing but input, and the second ignores positions, then both ways reply
the same, and they succeed if the parser does and the callbacks give something. Whatever the
callbacks are, both ways fail as the parser does, under the message that it records. Grammars that
are built in the same way, but for the positions that callbacks give, do the same from every state
and answer every text the same, up to the positions that a fault comes with. A change raises a fault
of its own just when the parser succeeds and the callback gives an input that is no suffix of what
the parser has left. -/
theorem inputs_alone_count :
    (∀ {α β γ : Type} (p : Parser ω α) (f : α → State → Run ω (β × State))
        (g : β → State → Run ω (γ × State)), DropsOnly f → DropsOnly g → IgnoresPosition g → ∀ s,
      (∀ reply, (((p.transform f).transform g).parse s).outcome = .ok reply ↔
        ((p.transform (fused f g)).parse s).outcome = .ok reply) ∧
      ∀ a rest b target c last, p.Succeeds s a rest → (f a rest).outcome = .ok (b, target) →
        (g b target).outcome = .ok (c, last) →
          ∃ t, ((p.transform f).transform g).Succeeds s c t ∧
            (p.transform (fused f g)).Succeeds s c t ∧ rest.Reaches t ∧ t.input = last.input) ∧
    (∀ {α β γ : Type} (p : Parser ω α) (f : α → State → Run ω (β × State))
        (g : β → State → Run ω (γ × State)) (s : State) (entries : List (Entry ω)) (e' : Failure),
      (((p.transform f).transform g).parse s = ⟨entries, .ok (.failure e')⟩ ↔
        ∃ e, p.parse s = ⟨entries, .ok (.failure e)⟩ ∧ e.reworded p.message = e') ∧
      ((p.transform (fused f g)).parse s = ⟨entries, .ok (.failure e')⟩ ↔
        ∃ e, p.parse s = ⟨entries, .ok (.failure e)⟩ ∧ e.reworded p.message = e')) ∧
    (∀ {α : Type} (p q : Parser ω α), BuiltAlike (Correspondence.none ω) α α Eq p q →
      (∀ s, (p.parse s).Alike Eq (q.parse s)) ∧
      ∀ source, (p.answer source).Alike Eq (q.answer source)) ∧
    ∀ {α β : Type} (p : Parser ω α) (f : α → State → Run ω (β × State)) (s : State)
        (reply : Reply α), (p.parse s).outcome = .ok reply →
      (∀ a rest, reply = .success a rest → ∃ given, (f a rest).outcome = .ok given) →
        ∀ fault, ((p.transform f).parse s).outcome = .error fault ↔
          ∃ a rest b target, p.Succeeds s a rest ∧ (f a rest).outcome = .ok (b, target) ∧
            ¬target.input <:+ rest.input ∧ fault = .unreachable target.pos rest.pos := by
  refine ⟨?_, ?_, ?_, ?_⟩
  · intro α β γ p f g hf hg hpos s
    constructor
    · exact outcome_fused_transform_iff p hf hg hpos s
    · intro a rest b target c last hp hgiven hshown
      have hboth : (fused f g a rest).outcome = .ok (c, last) :=
        (outcome_fused_eq_ok_iff f g a rest _).mpr ⟨b, target, hgiven, hshown⟩
      obtain ⟨t, hsucceeds, ht⟩ := (hf.fused hg).exists_succeeds hp hboth
      exact ⟨t, (succeeds_fused_iff p hf hg hpos s c t).mpr hsucceeds, hsucceeds, ht⟩
  · intro α β γ p f g s entries e'
    rw [parse_transform_twice_eq_failure_iff, parse_transform_eq_failure_iff]
    exact ⟨reported_eq_failure_iff p s entries e', reported_eq_failure_iff p s entries e'⟩
  · intro α p q h
    have hcorresponds := h.corresponds nofun
    constructor
    · exact fun s => (hcorresponds.alike s).imp fun _ _ => Reply.corresponds_eq
    · exact fun source => (hcorresponds.answer source).imp fun _ _ => Reply.corresponds_eq
  · intro α β p f s reply hp hf fault
    exact outcome_transform_eq_error_iff p f s hp hf fault

/-- A line feed and the character after it are dropped, with positions that are off, and the place
after them is asked for. A callback that puts a character in front is refused. -/
theorem inputs_alone_count_lines :
    let s : State := .ofText ['a', '\n', 'b', 'c']
    let drop (pos : Position) (c : Char) (s : State) : Run String (Char × State) :=
      return (c, ⟨s.input.drop 1, pos⟩)
    let insert (c : Char) (s : State) : Run String (Char × State) :=
      return (c, ⟨'x' :: s.input, {}⟩)
    let skipping (pos : Position) : Parser String (Char × Position) :=
      (anyChar.transform (drop pos)).zip position
    (anyChar.transform (fused (drop ⟨7, 7, 7⟩) (drop {}))).Succeeds s 'a' ⟨['c'], ⟨2, 2, 3⟩⟩ ∧
    ((skipping ⟨7, 7, 7⟩).answer s.input).Alike Eq ((skipping {}).answer s.input) ∧
    ((anyChar.transform insert).parse s).outcome = .error (.unreachable {} ⟨1, 2, 1⟩) := by
  intro s drop insert skipping
  obtain ⟨hfused, -, halike, hfault⟩ := inputs_alone_count (ω := String)
  refine ⟨?_, ?_, ?_⟩
  · have hdrops (pos : Position) : DropsOnly (drop pos) := by
      rintro c s _ _ ⟨⟩
      exact List.drop_suffix 1 s.input
    have hignores (pos : Position) : IgnoresPosition (drop pos) := by
      rintro c s s' _ _ hinput ⟨⟩
      exact ⟨_, rfl, congrArg (List.drop 1) hinput.symm⟩
    obtain ⟨hreply, -⟩ := hfused anyChar _ _ (hdrops ⟨7, 7, 7⟩) (hdrops {}) (hignores {}) s
    exact (hreply _).mp (by cbv)
  · have hzip :
        BuiltAlike (Correspondence.none String) _ _ Eq (skipping ⟨7, 7, 7⟩) (skipping {}) := by
      refine .imp (.zip (.transform (drop ⟨7, 7, 7⟩) (drop {}) (.same anyChar) ?_) (.same position))
        fun x y h => Prod.ext h.1 h.2
      rintro c _ rfl s
      exact Run.alike_pure ⟨rfl, rfl⟩
    exact (halike _ _ hzip).2 s.input
  · have hp : (anyChar.parse s : Run String _).outcome =
        .ok (.success 'a' ⟨['\n', 'b', 'c'], ⟨1, 2, 1⟩⟩) := by cbv
    refine (hfault anyChar insert s _ hp ?_ _).mpr ?_
    · exact fun c rest _ => ⟨_, rfl⟩
    · exact ⟨'a', _, 'a', _, hp, rfl, by decide, rfl⟩

end Parser

end Parsing
