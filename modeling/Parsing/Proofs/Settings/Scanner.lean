import Mathlib.Data.List.Induction
import Parsing.Proofs.Settings.Language

/-!
A scanner of settings that goes through a text character by character. Its place says in which
token the next character falls and what has been read so far. The scanner is deterministic, so it
settles what the language leaves open: a text that writes down a document leads to a place with that
document, and to no other. The names that have been read only grow on the way.
-/

namespace Parsing.Settings

inductive Place where
  /-- Before, between or after settings. -/
  | between (doc : Document)
  | inName (doc : Document) (name : Text)
  | afterName (doc : Document) (name : Text)
  | afterSign (doc : Document) (name : Text)
  | inQuotes (doc : Document) (name body : Text)
  | inDigits (doc : Document) (name digits : Text)
  /-- After a setting and blanks. -/
  | afterValue (doc : Document)
  | stuck
deriving DecidableEq

namespace Place

/-- The place after a character that is part of no setting yet. -/
def opening (doc : Document) (c : Char) : Place :=
  if isSpace c then between doc
  else if isNameStart c then inName doc [c]
  else stuck

def leaving (doc : Document) (c : Char) : Place :=
  if isBlank c then afterValue doc else opening doc c

def step : Place → Char → Place
  | between doc, c => opening doc c
  | inName doc name, c =>
    if isNameRest c then inName doc (name ++ [c])
    else if isBlank c then afterName doc name
    else if c = '=' then afterSign doc name
    else stuck
  | afterName doc name, c =>
    if isBlank c then afterName doc name
    else if c = '=' then afterSign doc name
    else stuck
  | afterSign doc name, c =>
    if isBlank c then afterSign doc name
    else if c = '"' then inQuotes doc name []
    else if isDecimal c then inDigits doc name [c]
    else stuck
  | inQuotes doc name body, c =>
    if c = '"' then afterValue (doc ++ [(name, .text body)])
    else if c = '\n' then stuck
    else inQuotes doc name (body ++ [c])
  | inDigits doc name digits, c =>
    if isDecimal c then inDigits doc name (digits ++ [c])
    else leaving (doc ++ [(name, .number (numeral digits))]) c
  | afterValue doc, c => leaving doc c
  | stuck, _ => stuck

/-- A digit may come next. -/
def AwaitsDigit : Place → Prop
  | afterSign _ _ => True
  | inDigits _ _ _ => True
  | _ => False

theorem awaitsDigit_of_value {q : Place} {doc : Document} {name : Text}
    (h : q = afterSign doc name ∨ ∃ digits, q = inDigits doc name digits) : q.AwaitsDigit := by
  rcases h with rfl | ⟨digits, rfl⟩
  · trivial
  · trivial

/-- The place that a text leads to. -/
def after (q : Place) (t : Text) : Place := t.foldl step q

/-- The settings that have been read, where a setting has ended and only blanks stand after it. -/
def closed? : Place → Option Document
  | inDigits doc name digits => some (doc ++ [(name, .number (numeral digits))])
  | afterValue doc => some doc
  | _ => none

/-- The settings that have been read, where the text may end. -/
def document? : Place → Option Document
  | between doc => some doc
  | q => q.closed?

/-- The names of the settings whose values have been read, if only in part as digits may be. -/
def names : Place → List Text
  | between doc => doc.keys
  | inName doc _ => doc.keys
  | afterName doc _ => doc.keys
  | afterSign doc _ => doc.keys
  | inQuotes doc _ _ => doc.keys
  | inDigits doc name _ => doc.keys ++ [name]
  | afterValue doc => doc.keys
  | stuck => []

theorem after_append (q : Place) (a b : Text) : q.after (a ++ b) = (q.after a).after b :=
  List.foldl_append

theorem after_cons (q : Place) (c : Char) (t : Text) : q.after (c :: t) = (q.step c).after t := rfl

theorem after_stuck (t : Text) : stuck.after t = stuck := by
  induction t with
  | nil => rfl
  | cons c t ih => exact ih

theorem document_of_closed (q : Place) (doc : Document) (h : q.closed? = some doc) :
    q.document? = some doc := by
  cases q with
  | between => cases h
  | _ => exact h

theorem names_of_document (q : Place) (doc : Document) (h : q.document? = some doc) :
    q.names = doc.keys := by
  cases q with
  | between d | afterValue d =>
    cases h
    rfl
  | inDigits d name digits =>
    cases h
    simp [names, Record.keys]
  | inName | afterName | afterSign | inQuotes | stuck => cases h

theorem closed_opening (doc : Document) (c : Char) : (opening doc c).closed? = none := by
  unfold opening
  split_ifs <;> rfl

theorem leaving_eq_opening (doc : Document) (c : Char) (h : isBlank c = false) :
    leaving doc c = opening doc c := by
  rw [leaving, h]
  rfl

/-- Where a text may end, a character that neither lengthens a number nor is a blank opens what
comes next. -/
theorem step_of_document (q : Place) (doc : Document) (h : q.document? = some doc) (c : Char)
    (hdecimal : isDecimal c = false) (hblank : isBlank c = false) :
    q.step c = opening doc c := by
  cases q with
  | between d =>
    cases h
    rfl
  | afterValue d =>
    cases h
    exact leaving_eq_opening doc c hblank
  | inDigits d name digits =>
    cases h
    simp only [step, hdecimal]
    exact leaving_eq_opening _ c hblank
  | inName | afterName | afterSign | inQuotes | stuck => cases h

theorem step_name_start (q : Place) (doc : Document) (h : q.document? = some doc) (c : Char)
    (hc : isNameStart c = true) : q.step c = inName doc [c] := by
  have hrest := isNameRest_of_isNameStart c hc
  have hdecimal := isDecimal_eq_false c (isDigit_eq_false_of_isNameStart c hc)
  rw [step_of_document q doc h c hdecimal (isBlank_eq_false_of_isNameRest c hrest)]
  simp only [opening, isSpace_eq_false_of_isNameRest c hrest, hc]
  rfl

theorem document_leaving_space (doc : Document) (c : Char) (hc : isSpace c = true) :
    (leaving doc c).document? = some doc := by
  unfold leaving opening
  rw [if_pos hc]
  split
  · rfl
  · rfl

theorem document_step_space (q : Place) (doc : Document) (h : q.document? = some doc) (c : Char)
    (hc : isSpace c = true) : (q.step c).document? = some doc := by
  cases q with
  | between d =>
    cases h
    simp only [step, opening, hc]
    rfl
  | afterValue d =>
    cases h
    exact document_leaving_space doc c hc
  | inDigits d name digits =>
    cases h
    simp only [step, isDecimal_eq_false_of_isSpace c hc]
    exact document_leaving_space _ c hc
  | inName | afterName | afterSign | inQuotes | stuck => cases h

/-! Runs of like characters: they leave a place as it is, or are added to what it has read. -/

theorem after_fixed (q : Place) (t : Text) (h : ∀ c ∈ t, q.step c = q) : q.after t = q := by
  induction t with
  | nil => rfl
  | cons c t ih =>
    rw [after_cons, h c List.mem_cons_self]
    exact ih fun d hd => h d (List.mem_cons_of_mem c hd)

theorem after_growing (grown : Text → Place) (read t : Text)
    (h : ∀ c ∈ t, ∀ read, (grown read).step c = grown (read ++ [c])) :
    (grown read).after t = grown (read ++ t) := by
  induction t generalizing read with
  | nil => rw [List.append_nil]; rfl
  | cons c t ih =>
    rw [after_cons, h c List.mem_cons_self,
      ih (read ++ [c]) fun d hd => h d (List.mem_cons_of_mem c hd), List.append_assoc]
    rfl

theorem after_spaces (q : Place) (doc : Document) (h : q.document? = some doc) (w : Text)
    (hw : IsSpaces w) : (q.after w).document? = some doc := by
  induction w generalizing q with
  | nil => exact h
  | cons c w ih =>
    have hstep := document_step_space q doc h c (hw c List.mem_cons_self)
    exact ih (q.step c) hstep fun d hd => hw d (List.mem_cons_of_mem c hd)

theorem after_name (q : Place) (doc : Document) (h : q.document? = some doc) (name : Text)
    (hname : IsName name) : q.after name = inName doc name := by
  cases name with
  | nil => exact hname.elim
  | cons c rest =>
    obtain ⟨hc, hrest⟩ := (isName_cons_iff c rest).mp hname
    rw [after_cons, step_name_start q doc h c hc]
    apply after_growing (inName doc) [c] rest
    intro d hd read
    simp only [step, hrest d hd, if_true]

/-- Blanks end a name, and no blanks leave it open. -/
theorem after_blanks (doc : Document) (name blanks : Text) (h : IsBlanks blanks) :
    (inName doc name).after blanks =
      if blanks = [] then inName doc name else afterName doc name := by
  rw [isBlanks_iff] at h
  cases blanks with
  | nil => rfl
  | cons c blanks =>
    have hc : isBlank c = true := h c List.mem_cons_self
    have hname : isNameRest c = false := isNameRest_eq_false_of_isBlank c hc
    have hstep : (inName doc name).step c = afterName doc name := by
      simp only [step, hname, hc]
      rfl
    rw [after_cons, hstep]
    apply after_fixed
    intro d hd
    simp only [step, h d (List.mem_cons_of_mem c hd), if_true]

theorem after_sign (doc : Document) (name blanks : Text) (h : IsBlanks blanks) :
    ((inName doc name).after blanks).step '=' = afterSign doc name := by
  have hname : isNameRest '=' = false := by decide
  have hblank : isBlank '=' = false := by decide
  rw [after_blanks doc name blanks h]
  split
  · simp only [step, hname, hblank]
    rfl
  · simp only [step, hblank]
    rfl

theorem after_sign_blanks (doc : Document) (name blanks : Text) (h : IsBlanks blanks) :
    (afterSign doc name).after blanks = afterSign doc name := by
  rw [isBlanks_iff] at h
  apply after_fixed
  intro c hc
  simp only [step, h c hc, if_true]

theorem after_sign_quote (doc : Document) (name body : Text)
    (h : ∀ c ∈ body, c ≠ '"' ∧ c ≠ '\n') :
    (afterSign doc name).after ('"' :: body) = inQuotes doc name body := by
  have hstep : (afterSign doc name).step '"' = inQuotes doc name [] := rfl
  rw [after_cons, hstep]
  apply after_growing (inQuotes doc name) [] body
  intro c hc read
  simp only [step, (h c hc).1, (h c hc).2, if_false]

theorem step_sign_decimal (doc : Document) (name : Text) (c : Char) (h : isDecimal c = true) :
    (afterSign doc name).step c = inDigits doc name [c] := by
  have hblank : isBlank c = false := isBlank_eq_false_of_isDigit c (isDigit_of_isDecimal c h)
  have hquote : c ≠ '"' := by
    rintro rfl
    revert h
    decide
  simp only [step, hblank, hquote, h]
  rfl

theorem after_sign_digits (doc : Document) (name digits : Text) (hne : digits ≠ [])
    (h : ∀ c ∈ digits, isDecimal c = true) :
    (afterSign doc name).after digits = inDigits doc name digits := by
  cases digits with
  | nil => exact (hne rfl).elim
  | cons c rest =>
    rw [after_cons, step_sign_decimal doc name c (h c List.mem_cons_self)]
    apply after_growing (inDigits doc name) [c] rest
    intro d hd read
    simp only [step, h d (List.mem_cons_of_mem c hd), if_true]

theorem after_value (doc : Document) (name written : Text) (value : Scalar)
    (h : ValueText written value) :
    ((afterSign doc name).after written).closed? = some (doc ++ [(name, value)]) := by
  cases h with
  | quoted body hbody =>
    rw [after_append, after_sign_quote doc name body hbody]
    rfl
  | digits _ hne hdigits =>
    rw [after_sign_digits doc name written hne hdigits]
    rfl

theorem after_setting (q : Place) (doc : Document) (h : q.document? = some doc)
    (written name : Text) (value : Scalar) (hwritten : SettingText written name value) :
    (q.after written).closed? = some (doc ++ [(name, value)]) := by
  cases hwritten with
  | mk _ before blanks text _ hname hbefore hblanks hvalue =>
    rw [after_append, after_append, after_append, after_name q doc h name hname, after_cons,
      after_sign doc name before hbefore, after_sign_blanks doc name blanks hblanks]
    exact after_value doc name text value hvalue

/-- A blank after a setting. -/
theorem step_closed_blank (q : Place) (doc : Document) (h : q.closed? = some doc) (c : Char)
    (hc : isBlank c = true) : q.step c = afterValue doc := by
  cases q with
  | afterValue d =>
    cases h
    simp only [step, leaving, hc, if_true]
  | inDigits d name digits =>
    cases h
    simp only [step, leaving, isDecimal_eq_false_of_isSpace c (isSpace_of_isBlank c hc), hc]
    rfl
  | between | inName | afterName | afterSign | inQuotes | stuck => cases h

theorem after_closed_blanks (q : Place) (doc : Document) (h : q.closed? = some doc)
    (blanks : Text) (hblanks : IsBlanks blanks) (hne : blanks ≠ []) :
    q.after blanks = afterValue doc := by
  rw [isBlanks_iff] at hblanks
  cases blanks with
  | nil => exact (hne rfl).elim
  | cons c blanks =>
    rw [after_cons, step_closed_blank q doc h c (hblanks c List.mem_cons_self)]
    apply after_fixed
    intro d hd
    exact step_closed_blank (afterValue doc) doc rfl d (hblanks d (List.mem_cons_of_mem c hd))

theorem closed_after_blanks (q : Place) (doc : Document) (h : q.closed? = some doc)
    (blanks : Text) (hblanks : IsBlanks blanks) : (q.after blanks).closed? = some doc := by
  by_cases hne : blanks = []
  · subst hne
    exact h
  · rw [after_closed_blanks q doc h blanks hblanks hne]
    rfl

theorem after_layout (q : Place) (old : Document) (h : q.document? = some old) (t : Text)
    (doc : Document) (ht : Layout t doc) : (q.after t).document? = some (old ++ doc) := by
  induction ht generalizing q old with
  | spaces w hw =>
    rw [List.append_nil]
    exact after_spaces q old h w hw
  | setting w written t name value doc hw hwritten ht ih =>
    have hspaces := after_spaces q old h w hw
    have hsetting := after_setting _ old hspaces written name value hwritten
    rw [after_append, after_append, ih _ _ (document_of_closed _ _ hsetting), List.append_assoc]
    rfl

/-! Names are only added, and one of them with every setting that ends. -/

theorem names_opening (doc : Document) (c : Char) (h : opening doc c ≠ stuck) :
    (opening doc c).names = doc.keys := by
  unfold opening at h ⊢
  split
  · rfl
  · split
    · rfl
    · simp_all

theorem names_leaving (doc : Document) (c : Char) (h : leaving doc c ≠ stuck) :
    (leaving doc c).names = doc.keys := by
  unfold leaving at h ⊢
  split
  · rfl
  · rename_i hblank
    rw [if_neg hblank] at h
    exact names_opening doc c h

theorem names_step (q : Place) (c : Char) (h : q.step c ≠ stuck) :
    q.names <+: (q.step c).names := by
  cases q with
  | between doc =>
    rw [step, names_opening doc c h]
    exact List.prefix_rfl
  | afterValue doc =>
    rw [step, names_leaving doc c h]
    exact List.prefix_rfl
  | inDigits doc name digits =>
    simp only [step] at h ⊢
    split
    · exact List.prefix_rfl
    · rename_i hdecimal
      rw [if_neg hdecimal] at h
      rw [names_leaving _ c h, Record.keys_concat]
      exact List.prefix_rfl
  | inQuotes doc name body =>
    simp only [step]
    split
    · simp [names, Record.keys_concat]
    · split
      · simp_all [step]
      · exact List.prefix_rfl
  | inName doc name | afterName doc name | afterSign doc name =>
    simp only [step] at h ⊢
    split_ifs at h ⊢ <;> simp_all [names]
  | stuck => exact (h rfl).elim

/-- A step that ends a setting adds its name. -/
theorem names_lt_step (q : Place) (c : Char) (hopen : q.closed? = none)
    (hclosed : (q.step c).closed? ≠ none) : q.names.length < (q.step c).names.length := by
  cases q with
  | inDigits | afterValue => cases hopen
  | stuck => exact (hclosed rfl).elim
  | between doc => exact (hclosed (closed_opening doc c)).elim
  | inName doc name | afterName doc name =>
    simp only [step] at hclosed
    split_ifs at hclosed <;> exact (hclosed rfl).elim
  | afterSign doc name | inQuotes doc name body =>
    simp only [step] at hclosed ⊢
    split_ifs at hclosed ⊢ <;> simp_all [names, closed?, Record.keys_concat]

theorem ne_stuck_of_after (q : Place) (t : Text) (h : q.after t ≠ stuck) : q ≠ stuck := by
  rintro rfl
  exact h (after_stuck t)

theorem ne_stuck_of_closed (q : Place) (h : q.closed? ≠ none) : q ≠ stuck := by
  rintro rfl
  exact h rfl

theorem names_after (q : Place) (t : Text) (h : q.after t ≠ stuck) :
    q.names <+: (q.after t).names := by
  induction t generalizing q with
  | nil => exact List.prefix_rfl
  | cons c t ih =>
    have hstep : q.step c ≠ stuck := ne_stuck_of_after (q.step c) t h
    exact (names_step q c hstep).trans (ih (q.step c) h)

/-- From where no setting has just ended, the end of a setting adds a name. -/
theorem names_lt_after (q : Place) (t : Text) (hopen : q.closed? = none)
    (hclosed : (q.after t).closed? ≠ none) : q.names.length < (q.after t).names.length := by
  induction t generalizing q with
  | nil => exact (hclosed hopen).elim
  | cons c t ih =>
    have hafter : q.after (c :: t) ≠ stuck := ne_stuck_of_closed _ hclosed
    have hstep : q.step c ≠ stuck := ne_stuck_of_after (q.step c) t hafter
    by_cases hnext : (q.step c).closed? = none
    · have hlater := ih (q.step c) hnext hclosed
      have hnames := (names_step q c hstep).length_le
      rw [after_cons]
      omega
    · have hnow := names_lt_step q c hopen hnext
      have hnames := (names_after (q.step c) t hafter).length_le
      rw [after_cons]
      omega

/-- A setting has just ended, but for blanks, that is the first to repeat a name. -/
def Repeats (q : Place) (name : Text) : Prop :=
  ∃ (earlier : Document) (value : Scalar), q.closed? = some (earlier ++ [(name, value)]) ∧
    earlier.keys.Nodup ∧ name ∈ earlier.keys

/-- The names up to the first repetition, the last of them among those before it. -/
theorem Repeats.exists_names {q : Place} {name : Text} (h : q.Repeats name) :
    ∃ earlier, q.names = earlier ++ [name] ∧ earlier.Nodup ∧ name ∈ earlier := by
  obtain ⟨earlier, value, hclosed, hnodup, hmem⟩ := h
  refine ⟨earlier.keys, ?_, hnodup, hmem⟩
  rw [names_of_document q _ (document_of_closed q _ hclosed), Record.keys_concat]

theorem Repeats.not_nodup {q : Place} {name : Text} (h : q.Repeats name) : ¬q.names.Nodup := by
  obtain ⟨earlier, hnames, _, hmem⟩ := h.exists_names
  rw [hnames]
  intro hnodup
  exact (List.nodup_append.mp hnodup).2.2 name hmem name (List.mem_singleton.mpr rfl) rfl

theorem Repeats.ne_stuck {q : Place} {name : Text} (h : q.Repeats name) : q ≠ stuck := by
  obtain ⟨_, _, hclosed, _⟩ := h
  apply ne_stuck_of_closed
  rw [hclosed]
  exact Option.some_ne_none _

theorem Repeats.name_eq {q : Place} {name name' : Text} (h : q.Repeats name)
    (h' : q.Repeats name') : name = name' := by
  obtain ⟨earlier, hnames, _⟩ := h.exists_names
  obtain ⟨earlier', hnames', _⟩ := h'.exists_names
  rw [hnames] at hnames'
  exact List.singleton_inj.mp (List.append_inj_right' hnames' rfl)

/-- A text that goes on after the end of the first setting to repeat a name does not end in the
first such setting again. -/
theorem Repeats.eq_nil {q : Place} {name name' : Text} {t : Text} (h : q.Repeats name)
    (hstop : ∀ c ∈ t.head?, (q.step c).closed? = none) (h' : (q.after t).Repeats name') :
    t = [] := by
  cases t with
  | nil => rfl
  | cons c t =>
    have hclosed : ((q.step c).after t).closed? ≠ none := by
      obtain ⟨earlier, value, hclosed, _⟩ := h'
      rw [after_cons] at hclosed
      rw [hclosed]
      exact Option.some_ne_none _
    have hafter := ne_stuck_of_closed _ hclosed
    have hstep := names_step q c (ne_stuck_of_after _ t hafter)
    have hlt := names_lt_after (q.step c) t (hstop c rfl) hclosed
    have hprefix := hstep.trans (names_after (q.step c) t hafter)
    obtain ⟨earlier, hnames, hnodup, _⟩ := h'.exists_names
    rw [after_cons] at hnames
    rw [hnames] at hlt hprefix
    rcases List.prefix_concat_iff.mp hprefix with heq | hprefix
    · have hle := hstep.length_le
      rw [heq] at hle
      omega
    · exact (h.not_nodup (hnodup.sublist hprefix.sublist)).elim

end Place

/-- The place that a whole text leads to. -/
def scan (t : Text) : Place := (Place.between []).after t

theorem scan_append (a b : Text) : scan (a ++ b) = (scan a).after b :=
  Place.after_append (.between []) a b

theorem document_scan (t : Text) (doc : Document) (h : Layout t doc) :
    (scan t).document? = some doc :=
  Place.after_layout (.between []) [] rfl t doc h

/-- All ways to divide a text into settings mean the same document. -/
theorem layout_unique (t : Text) (doc doc' : Document) (h : Layout t doc) (h' : Layout t doc') :
    doc = doc' := by
  have heq := document_scan t doc h
  rw [document_scan t doc' h'] at heq
  exact (Option.some.inj heq).symm

end Parsing.Settings
