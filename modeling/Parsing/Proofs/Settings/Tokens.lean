import Parsing.Proofs.Replies
import Parsing.Proofs.Settings.Reading

/-!
The parsers of a single setting beside the scanner. Each takes what leads the scanner through one
token and fails where the scanner has come to and cannot go on, so the place of a failure needs no
account of its own. A run of digits that the scanner leaves too early is the one source of faults.
-/

namespace Parsing.Settings

open Place Parsing.Parser Script

variable {ω : Type}

/-- Some text that the input starts with leads the scanner from the one place to the other. -/
def Scans (q : Place) (s : State) (q' : Place) (t : State) : Prop :=
  ∃ taken, s.Takes taken t ∧ q.after taken = q'

theorem Scans.refl (q : Place) (s : State) : Scans q s q s := ⟨[], s.takes_nil, rfl⟩

theorem Scans.trans {q q' q'' : Place} {s t u : State} (hst : Scans q s q' t)
    (htu : Scans q' t q'' u) : Scans q s q'' u := by
  obtain ⟨a, ha, rfl⟩ := hst
  obtain ⟨b, hb, rfl⟩ := htu
  exact ⟨a ++ b, ha.trans hb, after_append q a b⟩

theorem Scans.length_le {q q' : Place} {s t : State} (h : Scans q s q' t) :
    t.input.length ≤ s.input.length := by
  obtain ⟨taken, htakes, _⟩ := h
  have hlength := htakes.length_eq
  omega

/-- The parse stops at a position up to which all is well, names included, and from where the
scanner cannot go on. A digit that the scanner does not read where digits stand is no such stop. -/
def Blocked (q : Place) (s : State) (pos : Position) : Prop :=
  ∃ q' t, Scans q s q' t ∧ pos = t.pos ∧ q' ≠ stuck ∧ q'.names.Nodup ∧
    (t.input = [] → q'.document? = none) ∧
      ∀ c ∈ t.input.head?, q'.step c = stuck ∧ (isDigit c = true → ¬q'.AwaitsDigit)

/-- The digits of a value go on with one outside decimal notation. -/
def Undecodable (q : Place) (s : State) : Prop :=
  ∃ q' t c doc name, Scans q s q' t ∧ t.input.head? = some c ∧ isDigit c = true ∧
    q'.step c = stuck ∧ doc.keys.Nodup ∧
      (q' = afterSign doc name ∨ ∃ digits, q' = inDigits doc name digits)

theorem Blocked.of_scans {q q' : Place} {s t : State} {pos : Position} (hscans : Scans q s q' t)
    (h : Blocked q' t pos) : Blocked q s pos := by
  obtain ⟨q'', u, hu, hrest⟩ := h
  exact ⟨q'', u, hscans.trans hu, hrest⟩

theorem Undecodable.of_scans {q q' : Place} {s t : State} (hscans : Scans q s q' t)
    (h : Undecodable q' t) : Undecodable q s := by
  obtain ⟨q'', u, c, doc, name, hu, hrest⟩ := h
  exact ⟨q'', u, c, doc, name, hscans.trans hu, hrest⟩

/-- The settings so far have been read, and what comes next opens a new setting, is white space, or
is neither. -/
structure Opens (doc : Document) (q : Place) (s : State) : Prop where
  document : q.document? = some doc
  step : ∀ c ∈ s.input.head?, q.step c = opening doc c
  digit : ∀ c ∈ s.input.head?, isDigit c = true → ¬q.AwaitsDigit

theorem meets_blanks (s : State) :
    (blanks : Parser ω Text).Meets s
      (fun taken t => s.Takes taken t ∧ IsBlanks taken ∧ t.Past isBlank) (fun _ => False)
      (fun _ => False) := by
  rw [blanks, meets_named]
  apply (meets_span isBlank s).imp_success
  intro taken t h
  rw [isBlanks_iff]
  exact h

/-- A lexeme ends after the blanks that follow its token. -/
theorem meets_lexeme {α : Type} {p : Parser ω α} {s : State} {success : α → State → Prop}
    {failure : Failure → Prop} {fault : Fault → Prop}
    (h : p.Meets s
      (fun a t => ∀ taken u, t.Takes taken u → IsBlanks taken → u.Past isBlank → success a u)
      (fun e => failure (e.reworded p.message)) fault) :
    (lexeme p).Meets s success failure fault := by
  apply meets_flatMap
  apply h.imp_success
  intro a t ha
  rw [Run.ends_pure]
  apply meets_map
  apply (meets_blanks t).of_always
  intro taken u hu
  exact ha taken u hu.1 hu.2.1 hu.2.2

/-- A name starts where the settings before it have been read and nothing else can follow. -/
theorem meets_identifier (doc : Document) (q : Place) (s : State) (hopens : Opens doc q s)
    (hnodup : doc.keys.Nodup) (hspace : s.Past isSpace) (hne : s.input ≠ []) :
    (identifier : Parser ω Text).Meets s
      (fun name t => Scans q s (inName doc name) t ∧ t.Past isNameRest ∧
        t.input.length < s.input.length)
      (fun e => Blocked q s e.pos) (fun _ => False) := by
  rw [identifier, meets_named]
  apply meets_step
  apply (meets_satisfy isNameStart "identifier" s).imp
  · intro c t h
    obtain ⟨hc, hstart⟩ := h
    apply meets_step
    rw [meets_named]
    apply (meets_span isNameRest t).of_always
    intro rest u h
    obtain ⟨hrest, hnames, hpast⟩ := h
    rw [meets_return_value]
    have hname : IsName (c :: rest) := (isName_cons_iff c rest).mpr ⟨hstart, hnames⟩
    have htakes : s.Takes (c :: rest) u := hc.trans hrest
    have hlength := htakes.length_eq
    rw [List.length_cons] at hlength
    exact ⟨⟨c :: rest, htakes, after_name q doc hopens.document _ hname⟩, hpast, by omega⟩
  · intro e h
    obtain ⟨hpos, hpast⟩ := h
    refine ⟨q, s, Scans.refl q s, hpos, ?_, ?_, fun h => (hne h).elim, ?_⟩
    · rintro rfl
      cases hopens.document
    · rw [names_of_document q doc hopens.document]
      exact hnodup
    · intro c hc
      refine ⟨?_, hopens.digit c hc⟩
      rw [hopens.step c hc, opening, hspace c hc, hpast c hc]
      rfl
  · exact fun f hf => hf

theorem meets_equalsSign (doc : Document) (name : Text) (q : Place) (s : State)
    (hnodup : doc.keys.Nodup) (hplace : q = inName doc name ∨ q = afterName doc name)
    (hsign : q.step '=' = afterSign doc name)
    (hstuck : ∀ c ∈ s.input.head?, c ≠ '=' → q.step c = stuck) :
    (equalsSign : Parser ω Char).Meets s
      (fun _ u => Scans q s (afterSign doc name) u ∧ u.Past isBlank ∧
        u.input.length < s.input.length)
      (fun e => Blocked q s e.pos) (fun _ => False) := by
  apply meets_withMessage
  apply meets_lexeme
  apply (meets_satisfy _ _ s).imp
  · intro c t h taken u htaken hblanks hpast
    obtain ⟨hc, heq⟩ := h
    have hc' : c = '=' := by simpa using heq
    subst hc'
    have htakes : s.Takes ('=' :: taken) u := hc.trans htaken
    have hlength := htakes.length_eq
    rw [List.length_cons] at hlength
    refine ⟨⟨'=' :: taken, htakes, ?_⟩, hpast, by omega⟩
    rw [after_cons, hsign]
    exact after_sign_blanks doc name taken hblanks
  · intro e h
    obtain ⟨hpos, hpast⟩ := h
    refine ⟨q, s, Scans.refl q s, hpos, ?_, ?_, fun _ => ?_, fun c hc => ⟨hstuck c hc ?_, ?_⟩⟩
    · rcases hplace with rfl | rfl <;> exact fun h => by cases h
    · rcases hplace with rfl | rfl <;> exact hnodup
    · rcases hplace with rfl | rfl <;> rfl
    · rintro rfl
      have hne := hpast '=' hc
      simp at hne
    · rcases hplace with rfl | rfl <;> exact fun _ h => h
  · exact fun f hf => hf

/-- What a value leads to: the setting has ended, and blanks apart the next one is opened. -/
def Ended (doc : Document) (q : Place) (s : State) (q' : Place) (t : State) : Prop :=
  Scans q s q' t ∧ q'.closed? = some doc ∧
    (∀ c ∈ t.input.head?, (isBlank c = false → q'.step c = opening doc c) ∧
      (isDigit c = true → ¬q'.AwaitsDigit)) ∧
    t.input.length < s.input.length

theorem Ended.of_scans {doc : Document} {q q' q'' : Place} {s t u : State}
    (hscans : Scans q s q' t) (h : Ended doc q' t q'' u) : Ended doc q s q'' u := by
  obtain ⟨hu, hclosed, hopens, hlength⟩ := h
  have hle := hscans.length_le
  exact ⟨hscans.trans hu, hclosed, hopens, by omega⟩

/-- The body of a string goes on to its closing quote, to the end of the line or of the text. -/
theorem meets_closing (doc : Document) (name body : Text) (s : State) (hnodup : doc.keys.Nodup)
    (hend : s.Past isTextBody) :
    ((symbol ['"'] : Parser ω Char).withMessage "unterminated string").Meets s
      (fun _ t => Ended (doc ++ [(name, .text body)]) (inQuotes doc name body) s
        (afterValue (doc ++ [(name, .text body)])) t)
      (fun e => Blocked (inQuotes doc name body) s e.pos) (fun _ => False) := by
  apply meets_withMessage
  apply (meets_satisfy _ _ s).imp
  · intro c t h
    obtain ⟨htakes, heq⟩ := h
    have hc : c = '"' := by simpa using heq
    subst hc
    have hlength := htakes.length_eq
    rw [List.length_singleton] at hlength
    refine ⟨⟨['"'], htakes, rfl⟩, rfl, fun c _ => ⟨?_, fun _ h => h⟩, by omega⟩
    exact leaving_eq_opening _ c
  · intro e h
    obtain ⟨hpos, hmissing⟩ := h
    refine ⟨_, s, Scans.refl _ s, hpos, by simp, hnodup, fun _ => rfl,
      fun c hc => ⟨?_, fun _ h => h⟩⟩
    have hquote : c ≠ '"' := by
      have hc' := hmissing c hc
      simpa using hc'
    have hline : c = '\n' := by
      have hc' := hend c hc
      simpa [isTextBody, hquote] using hc'
    subst hline
    rfl
  · exact fun f hf => hf

/-- After the sign or in a number the scanner is stuck at a digit outside decimal notation. -/
theorem undecodable_of_digits (doc : Document) (name : Text) (s t : State) (digits : Text)
    (htakes : s.Takes digits t) (hnodup : doc.keys.Nodup)
    (hdigits : ∀ c ∈ digits, isDigit c = true) (hread : readDecimal digits = none) :
    Undecodable (afterSign doc name) s := by
  obtain ⟨first, c, rest, rfl, hfirst, hc⟩ := exists_of_readDecimalFrom_none digits 0 hread
  have hdigit : isDigit c = true := hdigits c (by simp)
  have hspace : isSpace c = false := isSpace_eq_false_of_isDigit c hdigit
  have hblank : isBlank c = false := isBlank_eq_false_of_isDigit c hdigit
  have hstart : isNameStart c = false := isNameStart_eq_false_of_isDigit c hdigit
  have hquote : c ≠ '"' := by
    rintro rfl
    revert hdigit
    decide
  have htaken : s.Takes first ⟨c :: rest ++ t.input, s.pos.advance first⟩ := by
    refine ⟨?_, rfl⟩
    rw [htakes.1, List.append_assoc]
  refine ⟨_, _, c, doc, name, ⟨first, htaken, rfl⟩, rfl, hdigit, ?_, hnodup, ?_⟩
  · by_cases hne : first = []
    · subst hne
      change (afterSign doc name).step c = stuck
      simp only [Place.step, hblank, hquote, hc]
      rfl
    · rw [after_sign_digits doc name first hne hfirst]
      simp only [Place.step, leaving, opening, hblank, hspace, hstart, hc]
      rfl
  · by_cases hne : first = []
    · subst hne
      exact Or.inl rfl
    · exact Or.inr ⟨first, after_sign_digits doc name first hne hfirst⟩

/-- Digits give a number where all of them are decimal, and a fault elsewhere. -/
theorem ends_numberOf (doc : Document) (name : Text) (s t : State) (digits : Text)
    (htakes : s.Takes digits t) (hne : digits ≠ []) (hnodup : doc.keys.Nodup)
    (hdigits : ∀ c ∈ digits, isDigit c = true) (hend : t.Past isDigit) :
    (numberOf digits : Run ω Scalar).Ends
      (fun v => ∃ q', Ended (doc ++ [(name, v)]) (afterSign doc name) s q' t)
      (fun f => f = .notDecimal ∧ Undecodable (afterSign doc name) s) := by
  unfold numberOf
  cases hread : readDecimal digits with
  | none => exact ⟨rfl, undecodable_of_digits doc name s t digits htakes hnodup hdigits hread⟩
  | some n =>
    have hdecimal := isDecimal_of_readDecimalFrom digits 0 n hread
    rw [readDecimal_eq digits hdecimal] at hread
    cases hread
    have hafter := after_sign_digits doc name digits hne hdecimal
    have hpositive := List.length_pos_iff.mpr hne
    have hlength := htakes.length_eq
    refine ⟨_, ⟨digits, htakes, hafter⟩, rfl, fun c hc => ?_, by omega⟩
    have hdigit : isDigit c = false := hend c hc
    have hdecimal' : isDecimal c = false := isDecimal_eq_false c hdigit
    refine ⟨step_of_document (inDigits doc name digits) _ rfl c hdecimal', fun h => ?_⟩
    rw [hdigit] at h
    cases h

theorem blocked_of_value_missing (doc : Document) (name : Text) (s : State)
    (hnodup : doc.keys.Nodup) (hpast : s.Past isBlank) (hnone : s.Past isValueStart) :
    Blocked (afterSign doc name) s s.pos := by
  refine ⟨_, s, Scans.refl _ s, rfl, by simp, hnodup, fun _ => rfl, fun c hc => ?_⟩
  have hstart := hnone c hc
  simp only [isValueStart, Bool.or_eq_false_iff, decide_eq_false_iff_not] at hstart
  obtain ⟨hquote, hdigit⟩ := hstart
  have hdecimal : isDecimal c = false := isDecimal_eq_false c hdigit
  refine ⟨?_, fun h => ?_⟩
  · simp only [Place.step, hpast c hc, hquote, hdecimal]
    rfl
  · rw [hdigit] at h
    cases h

/-- A value goes up to its closing quote or past the last of its digits. -/
theorem meets_value (doc : Document) (name : Text) (s : State) (hnodup : doc.keys.Nodup)
    (hpast : s.Past isBlank) :
    (value : Parser ω Scalar).Meets s
      (fun v t => ∃ q', Ended (doc ++ [(name, v)]) (afterSign doc name) s q' t)
      (fun e => Blocked (afterSign doc name) s e.pos)
      (fun f => f = .notDecimal ∧ Undecodable (afterSign doc name) s) := by
  rw [value, meets_named]
  apply meets_step
  apply (meets_satisfy isValueStart "value" s).imp
  · intro first t h
    obtain ⟨hfirst, hstart⟩ := h
    by_cases hquote : first = '"'
    · subst hquote
      rw [if_pos rfl]
      apply meets_step
      rw [meets_named]
      apply (meets_span isTextBody t).of_always
      intro body u h
      obtain ⟨hbody, hinside, hend⟩ := h
      have hinside' : ∀ c ∈ body, c ≠ '"' ∧ c ≠ '\n' := by
        intro c hc
        have hc' := hinside c hc
        simpa [isTextBody] using hc'
      have hscans : Scans (afterSign doc name) s (inQuotes doc name body) u :=
        ⟨'"' :: body, hfirst.trans hbody, after_sign_quote doc name body hinside'⟩
      apply meets_step
      apply (meets_closing doc name body u hnodup hend).imp
      · exact fun c v hv => ⟨_, hv.of_scans hscans⟩
      · exact fun e he => he.of_scans hscans
      · exact fun f hf => hf.elim
    · rw [if_neg hquote]
      have hdigit : isDigit first = true := by simpa [isValueStart, hquote] using hstart
      apply meets_step
      rw [meets_named]
      apply (meets_span isDigit t).of_always
      intro rest u h
      obtain ⟨hrest, hdigits, hend⟩ := h
      have hall : ∀ c ∈ first :: rest, isDigit c = true := by
        rw [List.forall_mem_cons]
        exact ⟨hdigit, hdigits⟩
      apply meets_perform
      exact ends_numberOf doc name s u (first :: rest) (hfirst.trans hrest) (by simp) hnodup
        hall hend
  · intro e h
    obtain ⟨hpos, hnone⟩ := h
    change Blocked (afterSign doc name) s e.pos
    rw [hpos]
    exact blocked_of_value_missing doc name s hnodup hpast hnone
  · exact fun f hf => hf.elim

end Parsing.Settings
