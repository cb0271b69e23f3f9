import Parsing.Proofs.Settings.Acceptance

/-!
Where the settings parser fails. The failure is at the first character that no text with the same
beginning can have, or at the end of a text that has to go on; or else it is just after the first
setting to repeat a name. A repetition is reported as such wherever the setting plainly ends there.
-/

namespace Parsing.Settings

open Place Parsing.Parser

variable {ω : Type}

/-- A failure is where nothing can be right any more: some text goes on from what stands before it,
and none goes on from there with the character that comes next. -/
def StopsShort (text : Text) (k : Nat) : Prop :=
  Viable (text.take k) ∧
    (k = text.length ∧ (∀ doc, ¬Layout text doc) ∨
      k < text.length ∧ ¬Viable (text.take (k + 1)))

/-- The first setting to repeat a name, with the blanks after it, goes up to here and no further. -/
def StopsAfterRepeat (text : Text) (k : Nat) (name : Text) : Prop :=
  EndsInRepeat (text.take k) name ∧
    (k < text.length → ¬EndsInRepeat (text.take (k + 1)) name)

theorem not_viable_concat (taken : Text) (c : Char) (h : (scan taken).step c = stuck) :
    ¬Viable (taken ++ [c]) := by
  rw [viable_iff, scan_append]
  exact fun hne => hne h

theorem take_succ_append_cons (a rest : Text) (c : Char) :
    (a ++ c :: rest).take (a.length + 1) = a ++ [c] := by
  rw [List.append_cons, List.take_left' (by simp)]

theorem stopsShort_of_blocked (text : Text) (pos : Position)
    (h : Blocked (between []) (.ofText text) pos) :
    ∃ k ≤ text.length, pos = Position.advance {} (text.take k) ∧ StopsShort text k := by
  obtain ⟨q, t, hscans, hpos, hne, _, hend, hstuck⟩ := h
  obtain ⟨taken, rfl, htaken, rfl⟩ := hscans.exists_taken
  have htake : (taken ++ t.input).take taken.length = taken := List.take_left
  refine ⟨taken.length, by simp, by rw [htake, hpos, htaken], ?_⟩
  unfold StopsShort
  rw [htake]
  refine ⟨(viable_iff taken).mpr hne, ?_⟩
  cases hinput : t.input with
  | nil =>
    refine Or.inl ⟨by simp, fun doc hlayout => ?_⟩
    rw [List.append_nil] at hlayout
    have hnone := hend hinput
    rw [document_scan taken doc hlayout] at hnone
    cases hnone
  | cons c rest =>
    refine Or.inr ⟨by simp, ?_⟩
    rw [take_succ_append_cons]
    exact not_viable_concat taken c (hstuck c (by rw [hinput]; rfl)).1

theorem stopsAfterRepeat_of_repeated (text : Text) (e : Failure)
    (h : Repeated (between []) (.ofText text) e) :
    ∃ k ≤ text.length, ∃ name,
      e = ⟨"duplicate setting " ++ quote name, [], Position.advance {} (text.take k)⟩ ∧
        StopsAfterRepeat text k name := by
  obtain ⟨q, t, name, hscans, hrepeats, hstop, rfl⟩ := h
  obtain ⟨taken, rfl, htaken, rfl⟩ := hscans.exists_taken
  have htake : (taken ++ t.input).take taken.length = taken := List.take_left
  refine ⟨taken.length, by simp, name, by rw [htake, htaken], ?_⟩
  unfold StopsAfterRepeat
  rw [htake]
  refine ⟨(endsInRepeat_iff taken name).mpr hrepeats, fun hlt => ?_⟩
  cases hinput : t.input with
  | nil => simp [hinput] at hlt
  | cons c rest =>
    rw [take_succ_append_cons, endsInRepeat_iff, scan_append]
    intro hagain
    obtain ⟨earlier, value, hclosed, _⟩ := hagain
    have hnone : ((scan taken).after [c]).closed? = none := (hstop c (by rw [hinput]; rfl)).1
    rw [hnone] at hclosed
    cases hclosed

/-! A parse does not end before a repetition, and does not get past it either. -/

section

variable {u w name : Text}

/-- Where the scanner is stuck at what comes next, the text up to a repetition has been taken. -/
theorem exists_after_of_stuck {q : Place} {t : State} (hne : scan u ≠ stuck)
    (hscans : Scans (between []) (.ofText (u ++ w)) q t)
    (hstuck : ∀ c ∈ t.input.head?, q.step c = stuck) :
    ∃ more, q = (scan u).after more ∧ w = more ++ t.input := by
  obtain ⟨taken, htext, _, rfl⟩ := hscans.exists_taken
  rcases List.append_eq_append_iff.mp htext with ⟨more, rfl, hw⟩ | ⟨left, rfl, hinput⟩
  · exact ⟨more, scan_append u more, hw⟩
  · cases left with
    | nil => exact ⟨[], by rw [List.append_nil]; rfl, hinput.symm⟩
    | cons c left =>
      have hc := hstuck c (by rw [hinput]; rfl)
      rw [scan_append, after_cons, hc, after_stuck] at hne
      exact (hne rfl).elim

theorem not_blocked_of_repeats (hrepeats : (scan u).Repeats name) (pos : Position) :
    ¬Blocked (between []) (.ofText (u ++ w)) pos := by
  intro hblocked
  obtain ⟨q, t, hscans, _, hne, hnodup, _, hstuck⟩ := hblocked
  obtain ⟨more, rfl, _⟩ :=
    exists_after_of_stuck hrepeats.ne_stuck hscans fun c hc => (hstuck c hc).1
  have hprefix := names_after (scan u) more hne
  exact hrepeats.not_nodup (hnodup.sublist hprefix.sublist)

theorem not_undecodable_of_repeats (hrepeats : (scan u).Repeats name)
    (hstop : ∀ c ∈ w.head?, ((scan u).step c).closed? = none)
    (hdigit : ∀ c ∈ w.head?, isDigit c = true → ¬(scan u).AwaitsDigit) :
    ¬Undecodable (between []) (.ofText (u ++ w)) := by
  intro hundecodable
  obtain ⟨q, t, c, doc, name', hscans, hhead, hc, hstuck, hnodup, hplace⟩ := hundecodable
  have hstuck' : ∀ d ∈ t.input.head?, q.step d = stuck := by
    intro d hd
    rw [hhead] at hd
    cases hd
    exact hstuck
  have hawaits := awaitsDigit_of_value hplace
  obtain ⟨more, rfl, rfl⟩ := exists_after_of_stuck hrepeats.ne_stuck hscans hstuck'
  cases more with
  | nil =>
    exact hdigit c hhead hc hawaits
  | cons d more =>
    have hne : (scan u).after (d :: more) ≠ stuck := by
      rcases hplace with h | ⟨digits, h⟩
      · rw [h]
        exact fun h => by cases h
      · rw [h]
        exact fun h => by cases h
    have hprefix := names_after (scan u) (d :: more) hne
    have hnodup' : ((scan u).after (d :: more)).names.Nodup := by
      rcases hplace with hsign | ⟨digits, hdigits⟩
      · rw [hsign]
        exact hnodup
      · by_cases hmem : name' ∈ doc.keys
        · have hagain : ((scan u).after (d :: more)).Repeats name' :=
            ⟨doc, _, by rw [hdigits]; rfl, hnodup, hmem⟩
          have hstop' : ∀ c ∈ (d :: more).head?, ((scan u).step c).closed? = none := hstop
          cases hrepeats.eq_nil hstop' hagain
        · rw [hdigits, names, ← List.concat_eq_append]
          exact (List.nodup_concat doc.keys name').mpr ⟨hmem, hnodup⟩
    exact hrepeats.not_nodup (hnodup'.sublist hprefix.sublist)

theorem eq_of_repeated {e : Failure} (hrepeats : (scan u).Repeats name)
    (hstop : ∀ c ∈ w.head?, ((scan u).step c).closed? = none)
    (h : Repeated (between []) (.ofText (u ++ w)) e) :
    e = ⟨"duplicate setting " ++ quote name, [], Position.advance {} u⟩ := by
  obtain ⟨q, t, name', hscans, hrepeats', hstop', rfl⟩ := h
  obtain ⟨taken, htext, hpos, rfl⟩ := hscans.exists_taken
  have heq : taken = u := by
    rcases List.append_eq_append_iff.mp htext with ⟨more, rfl, rfl⟩ | ⟨left, rfl, hinput⟩
    · rw [scan_append] at hrepeats'
      have hnil : more = [] := by
        apply hrepeats.eq_nil _ hrepeats'
        intro c hc
        apply hstop
        rw [List.head?_append, hc]
        rfl
      rw [hnil, List.append_nil]
    · rw [scan_append] at hrepeats
      have hnil : left = [] := by
        apply hrepeats'.eq_nil _ hrepeats
        intro c hc
        refine (hstop' c ?_).1
        rw [hinput, List.head?_append, hc]
        rfl
      rw [hnil, List.append_nil]
  subst heq
  rw [hrepeats.name_eq hrepeats', hpos]

end

/-- After a setting that is the first to repeat a name, where nothing lengthens it. -/
theorem answer_repeat (u w name : Text) (hrepeat : EndsInRepeat u name)
    (hw : ∀ c ∈ w.head?, isDigit c = false ∧ c ≠ ' ' ∧ c ≠ '\t') :
    ((document : Parser ω Document).answer (u ++ w)).outcome =
      .ok (.failure ⟨"duplicate setting " ++ quote name, [], Position.advance {} u⟩) := by
  have hrepeats := (endsInRepeat_iff u name).mp hrepeat
  have hstop : ∀ c ∈ w.head?, ((scan u).step c).closed? = none := by
    intro c hc
    obtain ⟨hdigit, hblank⟩ := hw c hc
    obtain ⟨earlier, value, hclosed, _⟩ := hrepeats
    have hdecimal : isDecimal c = false := isDecimal_eq_false c hdigit
    have hblank' : isBlank c = false := by simp [isBlank, hblank]
    rw [step_of_document _ _ (document_of_closed _ _ hclosed) c hdecimal hblank']
    exact closed_opening _ c
  have hdigit : ∀ c ∈ w.head?, isDigit c = true → ¬(scan u).AwaitsDigit := by
    intro c hc h
    rw [(hw c hc).1] at h
    cases h
  rw [answer_of_message_none document rfl]
  apply (meets_document (u ++ w)).eq_of_unique
  · intro doc t hfinished
    obtain ⟨hlayout, hnodup, _⟩ := hfinished.layout
    have hprefix := names_of_layout u w doc hlayout
    exact (hrepeats.not_nodup (hnodup.sublist hprefix.sublist)).elim
  · intro e hfailure
    rcases hfailure with hblocked | hrepeated
    · exact (not_blocked_of_repeats hrepeats e.pos hblocked).elim
    · rw [eq_of_repeated hrepeats hstop hrepeated]
  · intro f hf
    exact not_undecodable_of_repeats hrepeats hstop hdigit hf.2

/-- Every failure is where the text up to it can still be right and the next character cannot, or
else just after the first setting to repeat a name; and there it is whenever that setting is
followed by the end of the text or by what lengthens neither its digits nor its blanks. -/
theorem answer_failure_site :
    (∀ (text : Text) (e : Failure),
      ((document : Parser ω Document).answer text).outcome = .ok (.failure e) →
        ∃ k : Nat, k ≤ text.length ∧ e.pos.offset = k ∧
          e.pos = Position.advance {} (text.take k) ∧
          (StopsShort text k ∨
            ∃ name, e.message = "duplicate setting " ++ quote name ∧ e.expected = [] ∧
              StopsAfterRepeat text k name)) ∧
    ∀ u w name : Text, EndsInRepeat u name →
      (∀ c ∈ w.head?, isDigit c = false ∧ c ≠ ' ' ∧ c ≠ '\t') →
        ((document : Parser ω Document).answer (u ++ w)).outcome =
          .ok (.failure ⟨"duplicate setting " ++ quote name, [], Position.advance {} u⟩) := by
  refine ⟨fun text e hout => ?_, answer_repeat⟩
  rw [answer_of_message_none document rfl] at hout
  have hoffset : ∀ k ≤ text.length, (Position.advance {} (text.take k)).offset = k := by
    intro k hk
    rw [Position.advance_offset, List.length_take, Nat.min_eq_left hk]
    exact Int.zero_add _
  rcases (meets_document text).of_failure hout with hblocked | hrepeated
  · obtain ⟨k, hk, hpos, hstops⟩ := stopsShort_of_blocked text e.pos hblocked
    exact ⟨k, hk, by rw [hpos, hoffset k hk], hpos, Or.inl hstops⟩
  · obtain ⟨k, hk, name, rfl, hstops⟩ := stopsAfterRepeat_of_repeated text e hrepeated
    exact ⟨k, hk, hoffset k hk, rfl, Or.inr ⟨name, rfl, rfl, hstops⟩⟩

/-- A string that goes on to the end of the text, and a name that is set again on a second line. -/
theorem answer_failure_site_two :
    let text := "x = \"y".toList
    let e : Failure := ⟨"unterminated string", [quote ['"']], ⟨1, 7, 6⟩⟩
    let u := "a=1\n a = 2 ".toList
    ((document : Parser Empty Document).answer text).outcome = .ok (.failure e) ∧
      (∃ k : Nat, k ≤ text.length ∧ e.pos.offset = k ∧
        e.pos = Position.advance {} (text.take k) ∧
        (StopsShort text k ∨
          ∃ name, e.message = "duplicate setting " ++ quote name ∧ e.expected = [] ∧
            StopsAfterRepeat text k name)) ∧
      EndsInRepeat u ['a'] ∧
      ((document : Parser Empty Document).answer (u ++ ['b'])).outcome =
        .ok (.failure ⟨"duplicate setting " ++ quote ['a'], [], ⟨2, 8, 11⟩⟩) := by
  intro text e u
  have hout : ((document : Parser Empty Document).answer text).outcome = .ok (.failure e) := by
    decide +kernel
  have hrepeat : EndsInRepeat u ['a'] :=
    (endsInRepeat_iff u ['a']).mpr ⟨[(['a'], .number 1)], .number 2, rfl, by decide, by decide⟩
  have hnext : ∀ c ∈ ['b'].head?, isDigit c = false ∧ c ≠ ' ' ∧ c ≠ '\t' := by
    intro c hc
    cases hc
    decide +kernel
  have h := answer_failure_site (ω := Empty)
  exact ⟨hout, h.1 text e hout, hrepeat, h.2 u ['b'] ['a'] hrepeat hnext⟩

end Parsing.Settings
