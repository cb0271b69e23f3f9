import Parsing.Proofs.Settings.Acceptance
import Parsing.Proofs.Unrolling

/-!
The passes of the loop that reads settings. The loop has no counter: it ends where no input remains,
where a pass fails or comes to a fault, or with a repeated name. White space between settings may be
empty, but what a pass reads before there is another has a character of a name, the sign and a
character of a value. So a text takes at most one pass more than a third of its length.
-/

namespace Parsing

namespace Settings

open Parsing.Parser Script

variable {ω : Type}

/-- One pass of the loop, after the settings that have been read. -/
def passScript (doc : Document) : Script ω Unit (Ending ω (Pass Document Document)) := do
  let rest ← step remaining
  if rest = [] then return .value (.finished doc)
  else
    let entry ← step setting
    if doc.keys.contains entry.name then
      return .parser (fail ("duplicate setting " ++ quote entry.name) [])
    else
      let _ ← step blankLines
      return .value (.next (doc.put entry.name entry.value))

def pass (ω : Type) (doc : Document) : Parser ω (Pass Document Document) :=
  ofScript (passScript doc) ()

/-- The loop of the grammar is the loop of its passes, records included. -/
theorem parse_settingsScript (passes : Nat) (doc : Document) (s : State) :
    (ofScript (settingsScript passes doc) () : Parser ω Document).parse s =
      (atMost (pass ω) passes doc).parse s := by
  induction passes generalizing doc s with
  | zero =>
    simp only [settingsScript, perform, ofScript, Script.run, Run.raise, Run.error_bind]
    rfl
  | succ passes ih =>
    apply parse_step_andThen
    intro rest t
    split
    · rfl
    · apply parse_step_andThen
      intro entry u
      simp only [List.contains_iff_mem]
      split
      · rfl
      · apply parse_step_andThen
        intro blank v
        exact ih _ v

/-- One pass as a part of a looping script, which it finishes with the ending of the whole. -/
def readingScript (doc : Document) : Script ω Unit (Pass Document (Ending ω Document)) := do
  let rest ← step remaining
  if rest = [] then return .finished (.value doc)
  else
    let entry ← step setting
    if doc.keys.contains entry.name then
      return .finished (.parser (fail ("duplicate setting " ++ quote entry.name) []))
    else
      let _ ← step blankLines
      return .next (doc.put entry.name entry.value)

def reading (doc : Document) : Looping ω Unit (Ending ω Document) :=
  .loop (fun doc => .plain (readingScript doc)) doc

/-- The grammar reads with the loop that has no bound, unrolled as far as the input can need. -/
theorem unroll_reading (passes : Nat) (doc : Document) :
    (reading doc : Looping ω Unit _).unroll passes = settingsScript passes doc := by
  induction passes generalizing doc with
  | zero => rfl
  | succ passes ih =>
    rw [reading, Looping.unroll, Looping.unroll_plain, readingScript, settingsScript]
    apply Script.step_andThen_congr
    intro rest
    by_cases hrest : rest = []
    · rw [if_pos hrest, if_pos hrest]
      rfl
    · rw [if_neg hrest, if_neg hrest]
      apply Script.step_andThen_congr
      intro entry
      by_cases hname : entry.name ∈ doc.keys
      · rw [if_pos (List.contains_iff_mem.mpr hname), if_pos hname]
        rfl
      · rw [if_neg (mt List.contains_iff_mem.mp hname), if_neg hname]
        apply Script.step_andThen_congr
        intro _
        exact ih _

/-- What is taken has a character that starts a name, the sign and a character that starts a value,
in this order. -/
def TakesSetting (s t : State) : Prop :=
  ∃ c a b d e, s.Takes (c :: a ++ '=' :: b ++ d :: e) t ∧ isNameStart c = true ∧
    isValueStart d = true

theorem TakesSetting.length_le {s t : State} (h : TakesSetting s t) :
    t.input.length + 3 ≤ s.input.length := by
  obtain ⟨c, a, b, d, e, htakes, -, -⟩ := h
  have hlength := htakes.length_eq
  simp only [List.length_append, List.length_cons] at hlength
  omega

theorem TakesSetting.takes {s t u : State} {taken : Text} (h : TakesSetting s t)
    (htaken : t.Takes taken u) : TakesSetting s u := by
  obtain ⟨c, a, b, d, e, htakes, hc, hd⟩ := h
  refine ⟨c, a, b, d, e ++ taken, ?_, hc, hd⟩
  have hall := htakes.trans htaken
  rwa [List.append_assoc, List.cons_append] at hall

/-- The next character is taken, with the property, and possibly more. -/
def TakesFirst (property : Char → Bool) (s t : State) : Prop :=
  ∃ c rest, s.Takes (c :: rest) t ∧ property c = true

theorem TakesFirst.takes {property : Char → Bool} {s t u : State} {taken : Text}
    (h : TakesFirst property s t) (htaken : t.Takes taken u) : TakesFirst property s u := by
  obtain ⟨c, rest, htakes, hc⟩ := h
  exact ⟨c, rest ++ taken, htakes.trans htaken, hc⟩

/-- A name, the sign and a value make up a setting. -/
theorem TakesSetting.of_first {s t u v : State} (hname : TakesFirst isNameStart s t)
    (hsign : TakesFirst (· = '=') t u) (hvalue : TakesFirst isValueStart u v) :
    TakesSetting s v := by
  obtain ⟨c, a, hs, hc⟩ := hname
  obtain ⟨sign, b, ht, hsign⟩ := hsign
  obtain ⟨d, e, hu, hd⟩ := hvalue
  obtain rfl := of_decide_eq_true hsign
  exact ⟨c, a, b, d, e, (hs.trans ht).trans hu, hc, hd⟩

theorem takesFirst_satisfy (property : Char → Bool) (description : String) (s : State) :
    (satisfy property description : Parser ω Char).Meets s (fun _ t => TakesFirst property s t)
      (fun _ => True) fun _ => True := by
  apply (meets_satisfy property description s).imp
  · exact fun c t h => ⟨c, [], h⟩
  · exact fun _ _ => trivial
  · exact fun _ _ => trivial

theorem takesFirst_identifier (s : State) :
    (identifier : Parser ω Text).Meets s (fun _ t => TakesFirst isNameStart s t)
      (fun _ => True) fun _ => True := by
  rw [identifier, meets_named]
  apply meets_step
  apply (takesFirst_satisfy isNameStart "identifier" s).imp_success
  intro c t hfirst
  apply meets_step
  rw [meets_named]
  apply (meets_span isNameRest t).of_always
  intro rest u hrest
  rw [meets_return_value]
  exact hfirst.takes hrest.1

theorem takesFirst_equalsSign (s : State) :
    (equalsSign : Parser ω Char).Meets s (fun _ t => TakesFirst (· = '=') s t)
      (fun _ => True) fun _ => True := by
  apply meets_withMessage
  apply meets_lexeme
  apply (takesFirst_satisfy _ _ s).imp_success
  intro c t hfirst taken u htaken _ _
  obtain ⟨d, rest, htakes, hd⟩ := hfirst.takes htaken
  simp only [decide_eq_true_eq, List.cons.injEq, and_true] at hd
  exact ⟨d, rest, htakes, decide_eq_true hd⟩

theorem takesFirst_value (s : State) :
    (value : Parser ω Scalar).Meets s (fun _ t => TakesFirst isValueStart s t)
      (fun _ => True) fun _ => True := by
  rw [value, meets_named]
  apply meets_step
  apply (takesFirst_satisfy isValueStart "value" s).imp_success
  intro c t hfirst
  split
  · apply meets_step
    rw [meets_named]
    apply (meets_span isTextBody t).of_always
    intro body u hbody
    apply meets_step
    apply meets_withMessage
    apply (meets_satisfy _ _ u).imp
    · intro quote v hquote
      rw [meets_return_value]
      exact (hfirst.takes hbody.1).takes hquote.1
    · exact fun _ _ => trivial
    · exact fun _ _ => trivial
  · apply meets_step
    rw [meets_named]
    apply (meets_span isDigit t).of_always
    intro rest u hrest
    apply meets_perform
    rw [Run.ends_iff]
    exact ⟨fun v _ => hfirst.takes hrest.1, fun _ _ => trivial⟩

theorem takesSetting_setting (s : State) :
    (setting : Parser ω Setting).Meets s (fun _ t => TakesSetting s t) (fun _ => True)
      fun _ => True := by
  apply meets_extend_always
  apply meets_extend_always
  apply meets_extend_always
  rw [meets_result]
  apply meets_lexeme
  apply (takesFirst_identifier s).imp_success
  intro name t hname taken t' htaken _ _
  rw [Run.ends_pure]
  apply (takesFirst_equalsSign t').imp_success
  intro sign u hsign
  rw [Run.ends_pure]
  apply meets_lexeme
  apply (takesFirst_value u).imp_success
  intro v w hvalue taken' w' htaken' _ _
  rw [Run.ends_pure]
  exact .of_first (hname.takes htaken) hsign (hvalue.takes htaken')

/-- A pass after which there is another reads a setting and the white space after it. -/
theorem takesSetting_pass (doc : Document) (s : State) :
    (pass ω doc).Meets s
      (fun ended t => ∀ doc', ended = .next doc' → TakesSetting s t) (fun _ => True)
      fun _ => True := by
  apply meets_step
  rw [meets_remaining]
  split
  · rw [meets_return_value]
    intro doc' h
    cases h
  · apply meets_step
    apply (takesSetting_setting s).imp_success
    intro entry t hsetting
    split
    · rw [meets_return_next, meets_fail]
      trivial
    · apply meets_step
      rw [blankLines, meets_named]
      apply (meets_span isSpace t).of_always
      intro blank u hblank
      rw [meets_return_value]
      exact fun _ _ => hsetting.takes hblank.1

theorem takesSetting_of_next (doc doc' : Document) (s t : State)
    (h : (pass ω doc).Succeeds s (.next doc') t) : TakesSetting s t :=
  (takesSetting_pass doc s).of_success h doc' rfl

theorem shortens_pass : Shortens (pass ω) 3 :=
  fun doc doc' s t h => (takesSetting_of_next doc doc' s t h).length_le

/-- The answer to a text is what the loop comes to after the white space at the front. -/
theorem outcome_answer (text taken : Text) (s : State)
    (h : (blankLines : Parser ω Text).Succeeds (.ofText text) taken s) :
    ((document : Parser ω Document).answer text).outcome =
      ((atMost (pass ω) (s.input.length / 3 + 1) []).parse s).outcome := by
  rw [answer_of_message_none document rfl, ← parse_settingsScript]
  change ((ofScript documentScript () : Parser ω Document).parse (.ofText text)).outcome = _
  rw [documentScript, parse_ofScript_step, Run.outcome_bind,
    (reported_eq_success_iff _ _ _ _).mpr h]
  simp only [Except.bind, Reply.andThen_success]
  rw [parse_ofScript_step]
  rfl

theorem guardFree_reading (doc : Document) : (reading doc : Looping ω Unit _).GuardFree := by
  intro doc
  apply Script.guardFree_step_andThen
  intro rest
  split
  · trivial
  · apply Script.guardFree_step_andThen
    intro entry
    split
    · trivial
    · exact fun _ => trivial

/-- The loop ends from wherever it starts. -/
theorem exists_loops (doc : Document) (s : State) :
    ∃ passes ended, Loops (pass ω) doc s passes ended ∧
      passes ≤ s.input.length / 3 + 1 := by
  obtain ⟨passes, ended, hloops⟩ :=
    (shortens_pass (ω := ω)).exists_loops (Nat.succ_pos 2) doc s
  have hle := hloops.mul_le shortens_pass
  exact ⟨passes, ended, hloops, by omega⟩

/-- The white space that comes next is read, be there any or none. -/
theorem exists_succeeds_blankLines (s : State) :
    ∃ taken t, (blankLines : Parser ω Text).Succeeds s taken t ∧ s.Takes taken t := by
  have htaken : s.Takes (s.input.takeWhile isSpace)
      ⟨s.input.dropWhile isSpace, s.pos.advance (s.input.takeWhile isSpace)⟩ :=
    ⟨List.takeWhile_append_dropWhile.symm, rfl⟩
  exact ⟨_, _, outcome_succeed _ htaken, htaken⟩

/-- The loop that has no bound comes to a reply on every text, and to one only: the answer of the
grammar, which goes through the loop under a bound. -/
theorem answer_of_reading (text : Text) :
    ∃ taken s reply, (blankLines : Parser ω Text).Succeeds (.ofText text) taken s ∧
      (reading [] : Looping ω Unit _).Replies () s reply ∧
      (∀ reply', (reading [] : Looping ω Unit _).Replies () s reply' → reply' = reply) ∧
      ((document : Parser ω Document).answer text).outcome = reply.outcome := by
  obtain ⟨taken, s, hblank, -⟩ := exists_succeeds_blankLines (ω := ω) (.ofText text)
  have hanswer := outcome_answer text taken s hblank
  rw [← parse_settingsScript, ← unroll_reading] at hanswer
  have hreplies : (reading []).Replies () s
      ((ofScript ((reading []).unroll (s.input.length / 3 + 1)) () : Parser ω _).parse s) := by
    apply (guardFree_reading []).replies
    intro hexhausted
    rw [← hanswer, answer_of_message_none document rfl] at hexhausted
    cases ((meets_document text).of_fault hexhausted).1
  exact ⟨taken, s, _, hblank, hreplies, fun _ h => hreplies.unique h, hanswer⟩

/-- The loop that reads settings ends. A pass after which there is another takes a character of a
name, the sign and a character of a value, for white space need not be there. So a text takes at
most one pass more than a third of its length, in one way only; the parse of the text comes to the
same, and so does the loop under any bound that allows for these passes. The only fault is a digit
outside decimal notation, and no input is left after a success. -/
theorem loop_ends (text : Text) :
    (∀ (doc doc' : Document) (s t : State),
      (pass ω doc).Succeeds s (.next doc') t →
        TakesSetting s t ∧ t.input.length + 3 ≤ s.input.length) ∧
    (∀ s : State, (s.Past isSpace → (blankLines : Parser ω Text).Succeeds s [] s) ∧
      (s.Past isBlank → (blanks : Parser ω Text).Succeeds s [] s)) ∧
    ∃ taken s, (blankLines : Parser ω Text).Succeeds (.ofText text) taken s ∧
      ∃ passes ended, Loops (pass ω) [] s passes ended ∧
        passes ≤ text.length / 3 + 1 ∧
        (∀ passes' ended', Loops (pass ω) [] s
          passes' ended' → passes' = passes ∧ ended' = ended) ∧
        (∀ bound, passes ≤ bound →
          ((ofScript (settingsScript bound []) () : Parser ω Document).parse s).outcome = ended) ∧
        ((document : Parser ω Document).answer text).outcome = ended ∧
        (∀ fault, ended = .error fault → fault = .notDecimal) ∧
        ∀ doc rest, ended = .ok (.success doc rest) → rest.input = [] := by
  refine ⟨fun doc doc' s t h => ?_, fun s => ⟨?_, ?_⟩, ?_⟩
  · have hsetting := takesSetting_of_next doc doc' s t h
    exact ⟨hsetting, hsetting.length_le⟩
  · exact succeeds_span_nil isSpace s
  · exact succeeds_span_nil isBlank s
  · obtain ⟨taken, s, hblank, htaken⟩ := exists_succeeds_blankLines (ω := ω) (.ofText text)
    obtain ⟨passes, ended, hloops, hpasses⟩ := exists_loops (ω := ω) [] s
    have hlength : text.length = taken.length + s.input.length := htaken.length_eq
    have hended : ((document : Parser ω Document).answer text).outcome = ended := by
      rw [outcome_answer text taken s hblank]
      exact hloops.outcome_atMost _ hpasses
    have hparse : ((document : Parser ω Document).parse (.ofText text)).outcome = ended := by
      rw [← hended, answer_of_message_none document rfl]
    have hmeets := meets_document (ω := ω) text
    refine ⟨taken, s, hblank, passes, ended, hloops, by omega, fun passes' ended' h => ?_,
      fun bound hbound => ?_, hended, ?_, ?_⟩
    · exact hloops.unique h
    · rw [parse_settingsScript]
      exact hloops.outcome_atMost bound hbound
    · rintro fault rfl
      exact (hmeets.of_fault hparse).1
    · rintro doc rest rfl
      rw [(hmeets.of_success hparse).layout.2.2]

/-- A setting of three characters, and the pass after it that finds no input. -/
theorem loop_ends_one :
    let text := "a=1".toList
    let rest : State := ⟨[], ⟨1, 4, 3⟩⟩
    TakesSetting (.ofText text) rest ∧ text.length / 3 + 1 = 2 ∧
    ∃ ended, Loops (pass Empty) [] (.ofText text) 2 ended ∧
      ((document : Parser Empty Document).answer text).outcome = ended ∧
      ended = .ok (.success [(['a'], .number 1)] rest) := by
  intro text rest
  obtain ⟨hnext, hspace, taken, s, hblank, passes, ended, -, -, hunique, -, hended, -, -⟩ :=
    loop_ends (ω := Empty) text
  have hfirst : (pass Empty []).Succeeds (.ofText text) (.next [(['a'], .number 1)]) rest := by
    unfold Parser.Succeeds
    decide +kernel
  have hlast : Pass.follow ((pass Empty [(['a'], .number 1)]).parse rest).outcome =
      .inl (.ok (.success [(['a'], .number 1)] rest)) := by decide +kernel
  have hpast : (State.ofText text).Past isSpace := by
    intro c hc
    obtain rfl : 'a' = c := Option.some.inj hc
    decide +kernel
  cases hblank.symm.trans ((hspace _).1 hpast)
  have hboth : Loops (pass Empty) [] (.ofText text) 2 _ := .next hfirst (.last hlast)
  obtain ⟨-, rfl⟩ := hunique _ _ hboth
  exact ⟨(hnext _ _ _ _ hfirst).1, by decide +kernel, _, hboth, hended, rfl⟩

end Settings

end Parsing
