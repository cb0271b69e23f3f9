import Parsing.Proofs.Settings.FailureSite

/-!
When the settings parser ends with a fault. A value is recognized by its digits, but read as decimal
notation, and some digits have no place in that: superscripts, circled digits and others. Where such
a digit stands in the first value of which it can be a part, the parse ends with a fault instead of
a failure. There is no other way to a fault, so a text without such digits always gets a reply.
-/

namespace Parsing.Settings

open Place Parsing.Parser

variable {ω : Type}

/-- The text ends with the sign of a setting, but for blanks, and up to that setting no name is set
twice. -/
def EndsInSign (t : Text) : Prop :=
  ∃ (before name blanks after : Text) (doc : Document),
    t = before ++ name ++ blanks ++ '=' :: after ∧ Layout before doc ∧ doc.keys.Nodup ∧
      IsName name ∧ IsBlanks blanks ∧ IsBlanks after

/-- After the sign of a setting, and decimal digits if any, comes a digit that is not decimal. -/
def HasUnreadableNumber (text : Text) : Prop :=
  ∃ (head digits rest : Text) (c : Char), text = head ++ digits ++ c :: rest ∧ EndsInSign head ∧
    (∀ d ∈ digits, isDecimal d = true) ∧ isDigit c = true ∧ isDecimal c = false

theorem scan_of_endsInSign (t : Text) (h : EndsInSign t) :
    ∃ doc name, scan t = afterSign doc name ∧ doc.keys.Nodup := by
  obtain ⟨before, name, blanks, after, doc, rfl, hbefore, hnodup, hname, hblanks, hafter⟩ := h
  refine ⟨doc, name, ?_, hnodup⟩
  have hdocument := document_scan before doc hbefore
  rw [scan_append, scan_append, scan_append, after_name _ doc hdocument name hname, after_cons,
    after_sign doc name blanks hblanks, after_sign_blanks doc name after hafter]

theorem endsInSign_of_reads (t name : Text) (doc : Document) (h : Reads t (afterSign doc name))
    (hnodup : doc.keys.Nodup) : EndsInSign t := by
  cases h with
  | afterSign before _ blanks after _ hbefore hname hblanks hafter =>
    exact ⟨before, name, blanks, after, doc, rfl, hbefore, hnodup, hname, hblanks, hafter⟩

/-- Where a digit may come next, the scanner is not stuck at a decimal one. -/
theorem isDecimal_eq_false_of_stuck {q : Place} {c : Char} (hplace : q.AwaitsDigit)
    (hstuck : q.step c = stuck) : isDecimal c = false := by
  rw [← Bool.not_eq_true]
  intro hdecimal
  cases q with
  | afterSign doc name =>
    rw [step_sign_decimal doc name c hdecimal] at hstuck
    cases hstuck
  | inDigits doc name digits =>
    simp only [Place.step, hdecimal, if_true] at hstuck
    cases hstuck
  | between | inName | afterName | inQuotes | afterValue | stuck => exact hplace

theorem hasUnreadableNumber_of_undecodable (text : Text)
    (h : Undecodable (between []) (.ofText text)) : HasUnreadableNumber text := by
  obtain ⟨q, t, c, doc, name, hscans, hhead, hdigit, hstuck, hnodup, hplace⟩ := h
  obtain ⟨taken, rfl, _, rfl⟩ := hscans.exists_taken
  obtain ⟨rest, hinput⟩ := List.head?_eq_some_iff.mp hhead
  have hdecimal := isDecimal_eq_false_of_stuck (awaitsDigit_of_value hplace) hstuck
  have hreads := reads_scan taken
  rw [hinput]
  rcases hplace with hsign | ⟨digits, hdigits⟩
  · rw [hsign] at hreads
    have hends := endsInSign_of_reads taken name doc hreads hnodup
    exact ⟨taken, [], rest, c, by rw [List.append_nil], hends, (fun d hd => by cases hd), hdigit,
      hdecimal⟩
  · rw [hdigits] at hreads
    cases hreads with
    | inDigits head _ _ _ hsign _ hall =>
      exact ⟨head, digits, rest, c, rfl, endsInSign_of_reads head name doc hsign hnodup, hall,
        hdigit, hdecimal⟩

theorem undecodable_of_hasUnreadableNumber (text : Text) (h : HasUnreadableNumber text) :
    Undecodable (between []) (.ofText text) := by
  obtain ⟨head, digits, rest, c, rfl, hhead, hdigits, hdigit, hdecimal⟩ := h
  obtain ⟨doc, name, hscan, hnodup⟩ := scan_of_endsInSign head hhead
  let pos := Position.advance {} head
  have hscans : Scans (between []) (.ofText (head ++ digits ++ c :: rest)) (afterSign doc name)
      ⟨digits ++ c :: rest, pos⟩ := ⟨head, ⟨List.append_assoc _ _ _, rfl⟩, hscan⟩
  have htakes : State.Takes ⟨digits ++ c :: rest, pos⟩ (digits ++ [c])
      ⟨rest, pos.advance (digits ++ [c])⟩ := ⟨List.append_cons _ _ _, rfl⟩
  have hall : ∀ d ∈ digits ++ [c], isDigit d = true := by
    rw [List.forall_mem_append, List.forall_mem_singleton]
    exact ⟨fun d hd => isDigit_of_isDecimal d (hdigits d hd), hdigit⟩
  have hread : readDecimal (digits ++ [c]) = none := by
    rw [Option.eq_none_iff_forall_ne_some]
    intro n hn
    have hc := isDecimal_of_readDecimalFrom _ 0 n hn c (by simp)
    rw [hdecimal] at hc
    cases hc
  exact (undecodable_of_digits doc name _ _ _ htakes hnodup hall hread).of_scans hscans

/-! Where the digits of a value cannot be read, the parse does not fail before or after. -/

theorem not_blocked_of_undecodable (text : Text) (pos : Position)
    (h : Undecodable (between []) (.ofText text)) : ¬Blocked (between []) (.ofText text) pos := by
  intro hblocked
  obtain ⟨q, t, c, _, _, hscans, hhead, hdigit, hstuck, _, hplace⟩ := h
  obtain ⟨taken, rfl, _, rfl⟩ := hscans.exists_taken
  obtain ⟨q', t', hscans', _, hne, _, _, hstop⟩ := hblocked
  have hawaits := awaitsDigit_of_value hplace
  have hne' : scan taken ≠ stuck := by
    intro h
    rw [h] at hawaits
    exact hawaits
  obtain ⟨more, rfl, hinput⟩ := exists_after_of_stuck hne' hscans' fun c hc => (hstop c hc).1
  cases more with
  | nil =>
    rw [hinput] at hhead
    exact (hstop c hhead).2 hdigit hawaits
  | cons d more =>
    rw [hinput] at hhead
    cases hhead
    rw [after_cons, hstuck, after_stuck] at hne
    exact hne rfl

theorem not_repeated_of_undecodable (text : Text) (e : Failure)
    (h : Undecodable (between []) (.ofText text)) : ¬Repeated (between []) (.ofText text) e := by
  intro hrepeated
  obtain ⟨q, t, name, hscans, hrepeats, hstop, rfl⟩ := hrepeated
  obtain ⟨taken, rfl, _, rfl⟩ := hscans.exists_taken
  exact not_undecodable_of_repeats hrepeats (fun c hc => (hstop c hc).1)
    (fun c hc => (hstop c hc).2) h

/-- A parse of settings ends with a fault just when the digits of a value go on with one outside
decimal notation. So every text whose digits are decimal is replied to. -/
theorem answer_fault_iff (text : Text) :
    (∀ fault,
      ((document : Parser ω Document).answer text).outcome = .error fault ↔
        fault = .notDecimal ∧ HasUnreadableNumber text) ∧
    ((∀ c ∈ text, isDigit c = true → isDecimal c = true) →
      ∃ reply, ((document : Parser ω Document).answer text).outcome = .ok reply) := by
  have hmeets := meets_document (ω := ω) text
  rw [answer_of_message_none document rfl]
  have hfault : ∀ fault, ((document : Parser ω Document).parse (.ofText text)).outcome =
      .error fault ↔ fault = .notDecimal ∧ HasUnreadableNumber text := by
    intro fault
    constructor
    · intro hout
      obtain ⟨hnot, hundecodable⟩ := hmeets.of_fault hout
      exact ⟨hnot, hasUnreadableNumber_of_undecodable text hundecodable⟩
    · rintro ⟨rfl, hnumber⟩
      have hundecodable := undecodable_of_hasUnreadableNumber text hnumber
      rcases hout : ((document : Parser ω Document).parse (.ofText text)).outcome with
        f | ⟨doc, t⟩ | e
      · rw [(hmeets.of_fault hout).1]
      · have hlayout := (hmeets.of_success hout).layout.1
        exact (not_undecodable_of_layout text doc hlayout hundecodable).elim
      · rcases hmeets.of_failure hout with hblocked | hrepeated
        · exact (not_blocked_of_undecodable text e.pos hundecodable hblocked).elim
        · exact (not_repeated_of_undecodable text e hundecodable hrepeated).elim
  refine ⟨hfault, fun hdecimal => ?_⟩
  cases hout : ((document : Parser ω Document).parse (.ofText text)).outcome with
  | ok reply => exact ⟨reply, rfl⟩
  | error fault =>
    obtain ⟨-, head, digits, rest, c, rfl, -, -, hdigit, hnot⟩ := (hfault fault).mp hout
    have hc := hdecimal c (by simp) hdigit
    rw [hnot] at hc
    cases hc

/-- A decimal digit and a superscript, and a digit of another script. -/
theorem answer_fault_superscript :
    let text := ['a', '=', '1', '²']
    let text' := ['a', '=', '٣']
    HasUnreadableNumber text ∧
      ((document : Parser Empty Document).answer text).outcome = .error .notDecimal ∧
      (∀ c ∈ text', isDigit c = true → isDecimal c = true) ∧
      ∃ reply, ((document : Parser Empty Document).answer text').outcome = .ok reply := by
  intro text text'
  have hsign : EndsInSign ['a', '='] :=
    ⟨[], ['a'], [], [], [], rfl, .spaces [] (fun c hc => by cases hc), List.nodup_nil,
      (isName_cons_iff 'a' []).mpr ⟨by decide +kernel, fun d hd => by cases hd⟩, isBlanks_nil,
      isBlanks_nil⟩
  have hnumber : HasUnreadableNumber text :=
    ⟨['a', '='], ['1'], [], '²', rfl, hsign, List.forall_mem_singleton.mpr (by decide +kernel),
      by decide +kernel, by decide +kernel⟩
  have hdecimal : ∀ c ∈ text', isDigit c = true → isDecimal c = true := by
    simp only [text', List.forall_mem_cons]
    exact ⟨by decide +kernel, by decide +kernel, by decide +kernel, fun c hc => by cases hc⟩
  have hfault := (answer_fault_iff (ω := Empty) text).1 .notDecimal
  exact ⟨hnumber, hfault.mpr ⟨rfl, hnumber⟩, hdecimal, (answer_fault_iff text').2 hdecimal⟩

/-- A superscript alone is taken for the start of a value, and no reply is given. -/
theorem no_reply_to_superscript :
    let answered := ((document : Parser Empty Document).answer ['a', '=', '²']).outcome
    answered = .error .notDecimal ∧ ∀ reply, answered ≠ .ok reply := by
  intro answered
  have hfault : answered = .error .notDecimal := by decide +kernel
  refine ⟨hfault, fun reply => ?_⟩
  rw [hfault]
  exact fun h => by cases h

end Parsing.Settings
