import Parsing.Proofs.Settings.Printing

/-!
Documents of numbers. The printed form of such a document is itself a source, which writes down the
very document: names are read whole up to the space after them, and the digits of a number give the
number. So the command line brings every source of numbers, in whatever layout and with digits of
whatever script, to one form that it then leaves as it is.
-/

namespace Parsing

namespace Settings

theorem isDecimal_of_mem_toDigits (n : Nat) : ∀ c ∈ Nat.toDigits 10 n, isDecimal c = true := by
  intro c hc
  rw [isDecimal, decimalValue_of_isDigit c (isDigit_of_mem_toDigits n c hc), Option.isSome_some]

theorem numeral_toDigits (n : Nat) : numeral (Nat.toDigits 10 n) = n := by
  have hread := readDecimal_eq _ (isDecimal_of_mem_toDigits n)
  rw [readDecimal_toDigits] at hread
  exact (Option.some.inj hread).symm

/-- The line of a number is a setting. -/
theorem settingText_line (name : Text) (n : Nat) (hname : IsName name) :
    SettingText (line (name, .number n)) name (.number n) := by
  have hblank : IsBlanks [' '] := List.forall_mem_singleton.mpr (Or.inl rfl)
  have hvalue := ValueText.digits _ Nat.toDigits_ne_nil (isDecimal_of_mem_toDigits n)
  rw [numeral_toDigits] at hvalue
  have hsetting := SettingText.mk name [' '] [' '] _ _ hname hblank hblank hvalue
  rw [List.append_assoc, List.append_assoc] at hsetting
  rw [line, List.append_assoc]
  exact hsetting

/-- All values of the document are numbers. -/
def Document.Numeric (doc : Document) : Prop := ∀ entry ∈ doc, ∃ n, entry.2 = .number n

/-- By induction on the settings. The newline that ends a line is the white space before the next
setting or after the last one. -/
theorem layout_printed (doc : Document) (hnames : doc.WellNamed) (hnumbers : doc.Numeric) :
    Layout doc.printed doc := by
  induction doc with
  | nil => exact .spaces [] fun c hc => by cases hc
  | cons entry doc ih =>
    obtain ⟨name, value⟩ := entry
    obtain ⟨hname, hnames'⟩ := List.forall_mem_cons.mp hnames
    obtain ⟨⟨n, rfl⟩, hnumbers'⟩ := List.forall_mem_cons.mp hnumbers
    have hnewline : IsSpaces ['\n'] := List.forall_mem_singleton.mpr (by decide)
    have hrest := layout_spaces_append ['\n'] _ doc hnewline (ih hnames' hnumbers')
    rw [printed_cons]
    exact .setting [] _ _ name _ doc (fun c hc => by cases hc) (settingText_line name n hname) hrest

/-- Of white space only spaces and newlines are printed. -/
theorem eq_of_mem_printed (doc : Document) (hnames : doc.WellNamed) (hnumbers : doc.Numeric)
    (c : Char) (hc : isSpace c = true) (hmem : c ∈ doc.printed) : c = ' ' ∨ c = '\n' := by
  obtain ⟨⟨name, value⟩, hentry, hmem⟩ := List.mem_flatMap.mp hmem
  obtain ⟨n, hn⟩ := hnumbers _ hentry
  have hname : c ∉ name := not_mem_of_isName (hnames _ hentry) hc
  have hvalue : c ∉ value.printed := by
    intro h
    rw [show value = .number n from hn] at h
    have hdecimal := isDecimal_of_mem_toDigits n c h
    rw [isDecimal_eq_false_of_isSpace c hc] at hdecimal
    cases hdecimal
  have hequals : c ≠ '=' := by
    rintro rfl
    cases hc
  simpa [hname, hvalue, hequals] using hmem

variable {ω : Type}

/-- A source of numbers is brought to a form that reads as the same settings and is printed as it
is. It has no carriage returns, so nothing of it is changed when it is read from a file. -/
theorem report_of_numbers (text : Text) (doc : Document) (rest : State)
    (hanswer : ((document : Parser ω Document).answer text).outcome = .ok (.success doc rest))
    (hnumbers : doc.Numeric) :
    ∃ r, (report text : Run ω Report).outcome = .ok r ∧ r.exitCode = 0 ∧
      ((document : Parser ω Document).answer r.output.toList).outcome =
        .ok (.success doc ⟨[], Position.advance {} r.output.toList⟩) ∧
      (report r.output.toList : Run ω Report).outcome = .ok r ∧ '\r' ∉ r.output.toList := by
  have hnames := wellNamed_of_success hanswer
  have hnodup := (((answer_success_iff text).1 doc rest).mp hanswer).2.1
  have hlayout := layout_printed doc hnames hnumbers
  have hprinted : ((document : Parser ω Document).answer doc.printed).outcome =
      .ok (.success doc ⟨[], Position.advance {} doc.printed⟩) :=
    ((answer_success_iff doc.printed).1 doc _).mpr ⟨hlayout, hnodup, rfl⟩
  refine ⟨_, report_of_success hanswer, rfl, ?_, ?_, ?_⟩
  · rw [String.toList_ofList]
    exact hprinted
  · rw [String.toList_ofList]
    exact report_of_success hprinted
  · rw [String.toList_ofList]
    intro hreturn
    rcases eq_of_mem_printed doc hnames hnumbers '\r' (by decide) hreturn with h | h <;> cases h

/-- Digits of another script, a leading zero and blanks in odd places. -/
theorem report_of_numbers_two :
    let text := ['w', '=', '٠', '٧', '\t', '\n', '\n'] ++ " h =12".toList
    let doc : Document := [(['w'], .number 7), (['h'], .number 12)]
    let printed := "w = 7\nh = 12\n"
    ((document : Parser Empty Document).answer text).outcome =
        .ok (.success doc ⟨[], ⟨3, 7, 13⟩⟩) ∧
      doc.Numeric ∧
      (report text : Run Empty Report).outcome = .ok ⟨printed, 0⟩ ∧
      ((document : Parser Empty Document).answer printed.toList).outcome =
        .ok (.success doc ⟨[], ⟨3, 1, 13⟩⟩) ∧
      (report printed.toList : Run Empty Report).outcome = .ok ⟨printed, 0⟩ := by
  intro text doc printed
  have hanswer : ((document : Parser Empty Document).answer text).outcome =
      .ok (.success doc ⟨[], ⟨3, 7, 13⟩⟩) := by decide +kernel
  have hnumbers : doc.Numeric := by
    refine List.forall_mem_cons.mpr ⟨⟨7, rfl⟩, ?_⟩
    exact List.forall_mem_singleton.mpr ⟨12, rfl⟩
  have hprinted : (report text : Run Empty Report).outcome = .ok ⟨printed, 0⟩ := by decide +kernel
  obtain ⟨r, hreport, -, hagain, hreport', -⟩ := report_of_numbers text doc _ hanswer hnumbers
  cases hprinted.symm.trans hreport
  have hend : Position.advance {} printed.toList = ⟨3, 1, 13⟩ := by decide +kernel
  exact ⟨hanswer, hnumbers, hprinted, hend ▸ hagain, hreport'⟩

end Settings

end Parsing
