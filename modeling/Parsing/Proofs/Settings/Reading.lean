import Parsing.Proofs.Settings.Scanner

/-!
What the place of the scanner tells of the text that has been read. A text writes down a document
just when the scanner ends with that document, and some text completes it to one just when the
scanner is not stuck. A place after the first setting to repeat a name has read just that.
-/

namespace Parsing.Settings

open Place

/-- The texts that lead to a place, from settings that have been read to the token at hand. -/
inductive Reads : Text → Place → Prop
  | between (t : Text) (doc : Document) (ht : Layout t doc) : Reads t (between doc)
  | inName (t name : Text) (doc : Document) (ht : Layout t doc) (hname : IsName name) :
      Reads (t ++ name) (inName doc name)
  | afterName (t name before : Text) (doc : Document) (ht : Layout t doc) (hname : IsName name)
      (hbefore : IsBlanks before) : Reads (t ++ name ++ before) (afterName doc name)
  | afterSign (t name before after : Text) (doc : Document) (ht : Layout t doc)
      (hname : IsName name) (hbefore : IsBlanks before) (hafter : IsBlanks after) :
      Reads (t ++ name ++ before ++ '=' :: after) (afterSign doc name)
  | inQuotes (head name body : Text) (doc : Document) (hhead : Reads head (afterSign doc name))
      (hbody : ∀ c ∈ body, c ≠ '"' ∧ c ≠ '\n') :
      Reads (head ++ '"' :: body) (inQuotes doc name body)
  | inDigits (head name digits : Text) (doc : Document)
      (hhead : Reads head (afterSign doc name)) (hne : digits ≠ [])
      (hdigits : ∀ c ∈ digits, isDecimal c = true) :
      Reads (head ++ digits) (inDigits doc name digits)
  | afterValue (t written blanks name : Text) (value : Scalar) (doc : Document)
      (ht : Layout t doc) (hwritten : SettingText written name value)
      (hblanks : IsBlanks blanks) :
      Reads (t ++ written ++ blanks) (afterValue (doc ++ [(name, value)]))
  | stuck (t : Text) : Reads t stuck

namespace Reads

/-- A value after the sign completes a setting. -/
theorem exists_setting (head name written : Text) (value : Scalar) (doc : Document)
    (hhead : Reads head (Place.afterSign doc name)) (hwritten : ValueText written value) :
    ∃ t setting, head ++ written = t ++ setting ∧ Layout t doc ∧
      SettingText setting name value := by
  cases hhead with
  | afterSign t _ before after _ ht hname hbefore hafter =>
    refine ⟨t, name ++ before ++ '=' :: after ++ written, ?_, ht,
      .mk name before after written value hname hbefore hafter hwritten⟩
    simp only [List.append_assoc, List.cons_append]

theorem opening (t : Text) (doc : Document) (ht : Layout t doc) (c : Char) :
    Reads (t ++ [c]) (Place.opening doc c) := by
  unfold Place.opening
  split
  · rename_i hspace
    apply Reads.between
    exact layout_append_spaces t [c] doc ht (List.forall_mem_singleton.mpr hspace)
  · split
    · rename_i hstart
      apply Reads.inName t [c] doc ht
      exact (isName_cons_iff c []).mpr ⟨hstart, fun d hd => by cases hd⟩
    · exact .stuck _

theorem leaving (t written blanks name : Text) (value : Scalar) (doc : Document)
    (ht : Layout t doc) (hwritten : SettingText written name value) (hblanks : IsBlanks blanks)
    (c : Char) :
    Reads (t ++ written ++ blanks ++ [c]) (Place.leaving (doc ++ [(name, value)]) c) := by
  unfold Place.leaving
  split
  · rename_i hblank
    rw [List.append_assoc (t ++ written)]
    have hblanks' := isBlanks_concat blanks c hblanks hblank
    exact .afterValue t written _ name value doc ht hwritten hblanks'
  · apply Reads.opening
    apply layout_append_spaces _ blanks
    · exact layout_append_setting t written name value doc ht hwritten
    · exact isSpaces_of_isBlanks blanks hblanks

/-! One lemma for each token that a character may fall into. -/

theorem step_afterName (t name before : Text) (doc : Document) (ht : Layout t doc)
    (hname : IsName name) (hbefore : IsBlanks before) (c : Char) :
    Reads (t ++ name ++ before ++ [c]) ((Place.afterName doc name).step c) := by
  simp only [Place.step]
  split
  · rename_i hblank
    rw [List.append_assoc]
    exact .afterName t name _ doc ht hname (isBlanks_concat before c hbefore hblank)
  · split
    · rename_i hsign
      subst hsign
      exact .afterSign t name before [] doc ht hname hbefore isBlanks_nil
    · exact .stuck _

/-- A character that does not go on with a name is read as if there were blanks before it. -/
theorem step_inName (t name : Text) (doc : Document) (ht : Layout t doc) (hname : IsName name)
    (c : Char) : Reads (t ++ name ++ [c]) ((Place.inName doc name).step c) := by
  by_cases hrest : isNameRest c = true
  · rw [Place.step, if_pos hrest, List.append_assoc]
    exact .inName t _ doc ht (isName_concat name c hname hrest)
  · have h := step_afterName t name [] doc ht hname isBlanks_nil c
    rw [List.append_nil] at h
    rw [Place.step, if_neg hrest]
    exact h

theorem step_afterSign (t name before after : Text) (doc : Document) (ht : Layout t doc)
    (hname : IsName name) (hbefore : IsBlanks before) (hafter : IsBlanks after) (c : Char) :
    Reads (t ++ name ++ before ++ '=' :: after ++ [c]) ((Place.afterSign doc name).step c) := by
  have hhead := Reads.afterSign t name before after doc ht hname hbefore hafter
  simp only [Place.step]
  split
  · rename_i hblank
    rw [List.append_assoc, List.cons_append]
    exact .afterSign t name before _ doc ht hname hbefore (isBlanks_concat after c hafter hblank)
  · split
    · rename_i hquote
      subst hquote
      exact .inQuotes _ name [] doc hhead fun d hd => by cases hd
    · split
      · rename_i hdecimal
        exact .inDigits _ name [c] doc hhead (List.cons_ne_nil c [])
          (List.forall_mem_singleton.mpr hdecimal)
      · exact .stuck _

theorem step_inQuotes (head name body : Text) (doc : Document)
    (hhead : Reads head (Place.afterSign doc name)) (hbody : ∀ c ∈ body, c ≠ '"' ∧ c ≠ '\n')
    (c : Char) : Reads (head ++ '"' :: body ++ [c]) ((Place.inQuotes doc name body).step c) := by
  rw [List.append_assoc, List.cons_append]
  simp only [Place.step]
  split
  · rename_i hquote
    subst hquote
    obtain ⟨t, setting, heq, ht, hsetting⟩ :=
      exists_setting head name _ _ doc hhead (.quoted body hbody)
    have h := Reads.afterValue t setting [] name _ doc ht hsetting isBlanks_nil
    rw [List.append_nil, ← heq] at h
    exact h
  · split
    · exact .stuck _
    · rename_i hquote hline
      have hinside : ∀ d ∈ [c], d ≠ '"' ∧ d ≠ '\n' :=
        List.forall_mem_singleton.mpr ⟨hquote, hline⟩
      exact .inQuotes head name _ doc hhead (List.forall_mem_append.mpr ⟨hbody, hinside⟩)

theorem step_inDigits (head name digits : Text) (doc : Document)
    (hhead : Reads head (Place.afterSign doc name)) (hne : digits ≠ [])
    (hdigits : ∀ c ∈ digits, isDecimal c = true) (c : Char) :
    Reads (head ++ digits ++ [c]) ((Place.inDigits doc name digits).step c) := by
  simp only [Place.step]
  split
  · rename_i hdecimal
    rw [List.append_assoc]
    have hlast : ∀ d ∈ [c], isDecimal d = true := List.forall_mem_singleton.mpr hdecimal
    exact .inDigits head name _ doc hhead (by simp) (List.forall_mem_append.mpr ⟨hdigits, hlast⟩)
  · obtain ⟨t, setting, heq, ht, hsetting⟩ :=
      exists_setting head name _ _ doc hhead (.digits digits hne hdigits)
    have h := leaving t setting [] name _ doc ht hsetting isBlanks_nil c
    rw [List.append_nil, ← heq] at h
    exact h

/-- The scanner reads one character more. -/
theorem step (t : Text) (q : Place) (h : Reads t q) (c : Char) : Reads (t ++ [c]) (q.step c) := by
  cases h with
  | between _ doc ht => exact opening t doc ht c
  | inName t name doc ht hname => exact step_inName t name doc ht hname c
  | afterName t name before doc ht hname hbefore =>
    exact step_afterName t name before doc ht hname hbefore c
  | afterSign t name before after doc ht hname hbefore hafter =>
    exact step_afterSign t name before after doc ht hname hbefore hafter c
  | inQuotes head name body doc hhead hbody =>
    exact step_inQuotes head name body doc hhead hbody c
  | inDigits head name digits doc hhead hne hdigits =>
    exact step_inDigits head name digits doc hhead hne hdigits c
  | afterValue t written blanks name value doc ht hwritten hblanks =>
    exact leaving t written blanks name value doc ht hwritten hblanks c
  | stuck => exact .stuck _

end Reads

theorem reads_scan (t : Text) : Reads t (scan t) := by
  induction t using List.reverseRecOn with
  | nil => exact .between [] [] (.spaces [] fun c hc => by cases hc)
  | append_singleton t c ih =>
    have h := ih.step t (scan t) c
    rw [scan_append]
    exact h

namespace Reads

/-- Where a setting has just ended, that setting and the blanks after it are the end of the text. -/
theorem exists_of_closed (t : Text) (q : Place) (h : Reads t q) (doc : Document)
    (hclosed : q.closed? = some doc) :
    ∃ before written blanks name value earlier,
      t = before ++ written ++ blanks ∧ doc = earlier ++ [(name, value)] ∧
        Layout before earlier ∧ SettingText written name value ∧ IsBlanks blanks := by
  cases h with
  | inDigits head name digits earlier hhead hne hdigits =>
    cases hclosed
    obtain ⟨before, setting, heq, hbefore, hsetting⟩ :=
      exists_setting head name _ _ earlier hhead (.digits digits hne hdigits)
    exact ⟨before, setting, [], name, _, earlier, by rw [List.append_nil, heq], rfl, hbefore,
      hsetting, isBlanks_nil⟩
  | afterValue before written blanks name value earlier hbefore hwritten hblanks =>
    cases hclosed
    exact ⟨before, written, blanks, name, value, earlier, rfl, rfl, hbefore, hwritten, hblanks⟩
  | between | inName | afterName | afterSign | inQuotes | stuck => cases hclosed

theorem layout_of_document (t : Text) (q : Place) (h : Reads t q) (doc : Document)
    (hdocument : q.document? = some doc) : Layout t doc := by
  by_cases hclosed : q.closed? = some doc
  · obtain ⟨before, written, blanks, name, value, earlier, rfl, rfl, hbefore, hwritten, hblanks⟩ :=
      exists_of_closed t q h doc hclosed
    apply layout_append_spaces _ blanks
    · exact layout_append_setting before written name value earlier hbefore hwritten
    · exact isSpaces_of_isBlanks blanks hblanks
  · cases h with
    | between _ d ht =>
      cases hdocument
      exact ht
    | _ => exact (hclosed hdocument).elim

end Reads

theorem document_scan_iff (t : Text) (doc : Document) :
    (scan t).document? = some doc ↔ Layout t doc := by
  constructor
  · exact (reads_scan t).layout_of_document t (scan t) doc
  · exact document_scan t doc

theorem exists_document_after_sign (q : Place) (doc : Document) (name : Text)
    (h : q.step '=' = afterSign doc name) : ∃ rest doc, (q.after rest).document? = some doc := by
  have hzero : ∀ c ∈ ['0'], isDecimal c = true := List.forall_mem_singleton.mpr (by decide)
  have hvalue : ValueText ['0'] (.number (numeral ['0'])) :=
    .digits _ (List.cons_ne_nil _ _) hzero
  refine ⟨'=' :: ['0'], doc ++ [(name, .number (numeral ['0']))], ?_⟩
  rw [after_cons, h]
  exact document_of_closed _ _ (after_value doc name _ _ hvalue)

/-- From every place but the stuck one some text ends the setting at hand. -/
theorem exists_document_after (q : Place) (h : q ≠ stuck) :
    ∃ rest doc, (q.after rest).document? = some doc := by
  have hblank : isBlank '=' = false := by decide
  cases q with
  | between doc | afterValue doc => exact ⟨[], doc, rfl⟩
  | inDigits doc name digits => exact ⟨[], _, rfl⟩
  | inName doc name =>
    exact exists_document_after_sign _ doc name (after_sign doc name [] isBlanks_nil)
  | afterName doc name =>
    apply exists_document_after_sign _ doc name
    simp only [Place.step, hblank]
    rfl
  | afterSign doc name => exact ⟨['"', '"'], _, rfl⟩
  | inQuotes doc name body => exact ⟨['"'], _, rfl⟩
  | stuck => exact (h rfl).elim

/-- Some text goes on from this one to write down a document. -/
def Viable (t : Text) : Prop := ∃ rest doc, Layout (t ++ rest) doc

theorem viable_iff (t : Text) : Viable t ↔ scan t ≠ stuck := by
  constructor
  · intro hviable hstuck
    obtain ⟨rest, doc, h⟩ := hviable
    have hdocument := document_scan _ doc h
    rw [scan_append, hstuck, after_stuck] at hdocument
    cases hdocument
  · intro h
    obtain ⟨rest, doc, hdocument⟩ := exists_document_after (scan t) h
    refine ⟨rest, doc, (document_scan_iff _ doc).mp ?_⟩
    rw [scan_append]
    exact hdocument

/-- The text ends with a setting, but for blanks, and that setting is the first to repeat a name. -/
def EndsInRepeat (t name : Text) : Prop :=
  ∃ (before written blanks : Text) (value : Scalar) (earlier : Document),
    t = before ++ written ++ blanks ∧ Layout before earlier ∧ SettingText written name value ∧
      IsBlanks blanks ∧ earlier.keys.Nodup ∧ name ∈ earlier.keys

theorem endsInRepeat_iff (t name : Text) : EndsInRepeat t name ↔ (scan t).Repeats name := by
  constructor
  · intro h
    obtain ⟨before, written, blanks, value, earlier, rfl, hbefore, hwritten, hblanks, hrepeat⟩ := h
    refine ⟨earlier, value, ?_, hrepeat⟩
    rw [scan_append, scan_append]
    apply closed_after_blanks _ _ _ blanks hblanks
    exact after_setting _ earlier (document_scan before earlier hbefore) written name value hwritten
  · intro h
    obtain ⟨doc, value, hclosed, hnodup, hmem⟩ := h
    obtain ⟨before, written, blanks, name', value', earlier, rfl, hdoc, hbefore, hwritten,
      hblanks⟩ := (reads_scan t).exists_of_closed t _ _ hclosed
    obtain ⟨hearlier, hlast⟩ := List.append_inj' hdoc rfl
    cases hearlier
    cases hlast
    exact ⟨before, written, blanks, value, doc, rfl, hbefore, hwritten, hblanks, hnodup, hmem⟩

end Parsing.Settings
