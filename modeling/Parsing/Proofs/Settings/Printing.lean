import Parsing.Proofs.Quotation
import Parsing.Proofs.Rendering
import Parsing.Proofs.Settings.Acceptance

/-!
The printed form of a document and what the command line makes of a source. A document that was read
is printed on one line for each setting, since neither names nor values have newlines, and its lines
tell the settings: the first space ends the name, and a value starts with a digit if it is a number
and with a quote if it is a text. The command line prints the document of a source that is accepted
and the rendered failure of any other, and no two documents are printed alike.
-/

namespace Parsing

namespace Settings

/-! Numbers. -/

theorem decimalValue_of_isDigit (c : Char) (h : c.isDigit = true) :
    decimalValue c = some (c.toNat - '0'.toNat) := by
  have hbounds : 0x30 ≤ c.toNat ∧ c.toNat < 0x30 + 10 :=
    (Char.isDigit_iff_toNat.mp h).imp id Nat.lt_succ_of_le
  have hfind : decimalZeros.find? (fun first => first ≤ c.toNat ∧ c.toNat < first + 10) =
      some 0x30 := List.find?_cons_of_pos (decide_eq_true hbounds)
  rw [decimalValue, hfind]
  rfl

theorem readDecimalFrom_eq_ofDigitChars (digits : Text) (acc : Nat)
    (h : ∀ c ∈ digits, c.isDigit = true) :
    readDecimalFrom acc digits = some (Nat.ofDigitChars 10 digits acc) := by
  induction digits generalizing acc with
  | nil => rfl
  | cons c digits ih =>
    obtain ⟨hc, hdigits⟩ := List.forall_mem_cons.mp h
    rw [readDecimalFrom, decimalValue_of_isDigit c hc, Nat.ofDigitChars_cons, Nat.mul_comm 10]
    exact ih _ hdigits

theorem isDigit_of_mem_toDigits (n : Nat) : ∀ c ∈ Nat.toDigits 10 n, c.isDigit = true :=
  fun _ hc => Nat.isDigit_of_mem_toDigits (by decide) (by decide) hc

/-- A number is read back from what is printed for it. -/
theorem readDecimal_toDigits (n : Nat) : readDecimal (Nat.toDigits 10 n) = some n := by
  rw [readDecimal, readDecimalFrom_eq_ofDigitChars _ _ (isDigit_of_mem_toDigits n),
    Nat.ofDigitChars_ten_toDigits]

/-! Values. -/

theorem newline_not_mem_printed (value : Scalar) : '\n' ∉ value.printed := by
  cases value with
  | number n =>
    intro h
    have hdigit := isDigit_of_mem_toDigits n '\n' h
    cases hdigit
  | text t => exact Text.newline_not_mem_quoted t

/-- A number is never printed as a text is, and no two values of a kind are printed alike. -/
theorem printed_injective : Function.Injective Scalar.printed := by
  have hapart : ∀ n t, Scalar.printed (.number n) ≠ Scalar.printed (.text t) := by
    intro n t h
    have hdelimiter : t.delimiter ∈ Nat.toDigits 10 n := by
      rw [show Nat.toDigits 10 n = t.quoted from h]
      exact List.mem_cons_self
    have hdigit := isDigit_of_mem_toDigits n _ hdelimiter
    rcases Text.delimiter_eq t with hquote | hquote <;> rw [hquote] at hdigit <;> cases hdigit
  intro v w h
  cases v with
  | number n =>
    cases w with
    | number m =>
      have hread := congrArg readDecimal h
      rw [Scalar.printed, Scalar.printed, readDecimal_toDigits, readDecimal_toDigits] at hread
      rw [Option.some.inj hread]
    | text t => exact (hapart n t h).elim
  | text t =>
    cases w with
    | number n => exact (hapart n t h.symm).elim
    | text u => rw [Text.quoted_injective h]

/-! Lines. -/

/-- The line of a setting: name, equals sign and value between single spaces. -/
def line (entry : Text × Scalar) : Text := entry.1 ++ [' ', '=', ' '] ++ entry.2.printed

theorem newline_not_mem_line (name : Text) (value : Scalar) (hname : IsName name) :
    '\n' ∉ line (name, value) := by
  have hname' : '\n' ∉ name := not_mem_of_isName hname (by decide)
  simp [line, hname', newline_not_mem_printed value]

/-- The name on a line ends at the first space. -/
theorem takeWhile_line (name : Text) (value : Scalar) (hname : IsName name) :
    (line (name, value)).takeWhile (· ≠ ' ') = name := by
  have hspace : ∀ c ∈ name, decide (c ≠ ' ') = true := by
    intro c hc
    rw [decide_eq_true_iff]
    rintro rfl
    exact not_mem_of_isName hname (by decide) hc
  rw [line, List.append_assoc, List.takeWhile_append_of_pos hspace]
  exact List.append_nil name

theorem line_inj {name name' : Text} {value value' : Scalar} (hname : IsName name)
    (hname' : IsName name') (h : line (name, value) = line (name', value')) :
    (name, value) = (name', value') := by
  obtain rfl : name = name' := by
    rw [← takeWhile_line name value hname, h, takeWhile_line name' value' hname']
  have hvalue : value = value' := printed_injective (List.append_cancel_left h)
  rw [hvalue]

/-! Documents. -/

/-- All names of the document are names of settings. -/
def Document.WellNamed (doc : Document) : Prop := ∀ entry ∈ doc, IsName entry.1

theorem wellNamed_of_layout (t : Text) (doc : Document) (h : Layout t doc) : doc.WellNamed := by
  induction h with
  | spaces w hw => exact fun entry hentry => by cases hentry
  | setting w written t name value doc hw hwritten ht ih =>
    cases hwritten with
    | mk _ before after text _ hname => exact List.forall_mem_cons.mpr ⟨hname, ih⟩

theorem printed_cons (name : Text) (value : Scalar) (doc : Document) :
    Document.printed ((name, value) :: doc) = line (name, value) ++ '\n' :: doc.printed := by
  rw [Document.printed, List.flatMap_cons, ← Document.printed, line]
  simp only [List.append_assoc, List.singleton_append]

/-- A document is printed on as many lines as it has settings, in their order. -/
theorem lines_printed (doc : Document) (h : doc.WellNamed) :
    Text.lines doc.printed = doc.map line ++ [[]] := by
  induction doc with
  | nil => rfl
  | cons entry doc ih =>
    obtain ⟨name, value⟩ := entry
    obtain ⟨hname, hdoc⟩ := List.forall_mem_cons.mp h
    rw [printed_cons, Text.lines_append_newline,
      Text.lines_of_newline_not_mem _ (newline_not_mem_line name value hname), ih hdoc]
    rfl

theorem map_line_inj {doc doc' : Document} (hdoc : doc.WellNamed) (hdoc' : doc'.WellNamed)
    (h : doc.map line = doc'.map line) : doc = doc' := by
  induction doc generalizing doc' with
  | nil => exact (List.map_eq_nil_iff.mp h.symm).symm
  | cons entry doc ih =>
    cases doc' with
    | nil => cases h
    | cons entry' doc' =>
      obtain ⟨hentry, hdoc⟩ := List.forall_mem_cons.mp hdoc
      obtain ⟨hentry', hdoc'⟩ := List.forall_mem_cons.mp hdoc'
      obtain ⟨hline, hlines⟩ := List.cons.inj h
      rw [ih hdoc hdoc' hlines, show entry = entry' from line_inj hentry hentry' hline]

/-- The printed form of a document that was read loses nothing. -/
theorem document_printed_inj {doc doc' : Document} (hdoc : doc.WellNamed)
    (hdoc' : doc'.WellNamed) (h : doc.printed = doc'.printed) : doc = doc' := by
  have hlines := congrArg Text.lines h
  rw [lines_printed doc hdoc, lines_printed doc' hdoc'] at hlines
  exact map_line_inj hdoc hdoc' (List.append_cancel_right hlines)

/-! Reports. -/

variable {ω : Type}

theorem report_of_success {text : Text} {doc : Document} {rest : State}
    (h : ((document : Parser ω Document).answer text).outcome = .ok (.success doc rest)) :
    (report text : Run ω Report).outcome = .ok ⟨String.ofList doc.printed, 0⟩ := by
  rw [outcome_report, h]
  rfl

theorem wellNamed_of_success {text : Text} {doc : Document} {rest : State}
    (h : ((document : Parser ω Document).answer text).outcome = .ok (.success doc rest)) :
    doc.WellNamed :=
  wellNamed_of_layout text doc (((answer_success_iff text).1 doc rest).mp h).1

/-- The command line tells by its exit code whether the source is accepted. It prints a line for
each setting of a source that is accepted, in their order, and the rendered failure of any other.
Sources that are accepted and printed alike have the same settings. -/
theorem report_faithful :
    (∀ text reply, ((document : Parser ω Document).answer text).outcome = .ok reply →
      ∃ r, (report text : Run ω Report).outcome = .ok r ∧
        (r.exitCode = 0 ↔ ∃ doc rest, reply = .success doc rest) ∧
        (r.exitCode = 1 ↔ ∃ e, reply = .failure e) ∧
        (∀ doc rest, reply = .success doc rest →
          Layout text doc ∧ r.output.toList = doc.flatMap (fun entry => line entry ++ ['\n']) ∧
            Text.lines r.output.toList = doc.map line ++ [[]]) ∧
        ∀ e, reply = .failure e →
          ∃ picture, e.render text = .ok picture ∧ r.output = picture ++ "\n") ∧
    ∀ text text' doc doc' rest rest' r r',
      ((document : Parser ω Document).answer text).outcome = .ok (.success doc rest) →
      ((document : Parser ω Document).answer text').outcome = .ok (.success doc' rest') →
      (report text : Run ω Report).outcome = .ok r →
      (report text' : Run ω Report).outcome = .ok r' → r.output = r'.output → doc = doc' := by
  constructor
  · intro text reply hanswer
    cases reply with
    | success doc rest =>
      have hlayout := (((answer_success_iff text).1 doc rest).mp hanswer).1
      have hlines := lines_printed doc (wellNamed_of_success hanswer)
      refine ⟨_, report_of_success hanswer, ⟨fun _ => ⟨doc, rest, rfl⟩, fun _ => rfl⟩,
        ⟨nofun, nofun⟩, ?_, nofun⟩
      rintro _ _ ⟨⟩
      rw [String.toList_ofList]
      exact ⟨hlayout, rfl, hlines⟩
    | failure e =>
      obtain ⟨r, hreport, k, cut, picture, hpoints, hrender, rfl⟩ :=
        exists_report_of_failure text e hanswer
      refine ⟨_, hreport, ⟨nofun, nofun⟩, ⟨fun _ => ⟨e, rfl⟩, fun _ => rfl⟩, nofun, ?_⟩
      rintro _ ⟨⟩
      exact ⟨picture, hrender, rfl⟩
  · intro text text' doc doc' rest rest' r r' hanswer hanswer' hreport hreport' houtput
    cases (report_of_success hanswer).symm.trans hreport
    cases (report_of_success hanswer').symm.trans hreport'
    apply document_printed_inj (wellNamed_of_success hanswer) (wellNamed_of_success hanswer')
    exact String.ofList_injective houtput

/-- Two layouts of the same settings, with digits of two scripts, and a source without a sign. -/
theorem report_faithful_two :
    let text := "a = 1\nb = \"it's\"\n".toList
    let text' := ['a', '=', '١', '\n', '\n'] ++ "  b=\"it's\"".toList
    let doc : Document := [(['a'], .number 1), (['b'], .text "it's".toList)]
    let r : Report := ⟨"a = 1\nb = \"it's\"\n", 0⟩
    let wrong := "a".toList
    let e : Failure := ⟨"expected '=' after setting name", ["'='"], ⟨1, 2, 1⟩⟩
    (((document : Parser Empty Document).answer text).outcome = .ok (.success doc ⟨[], ⟨3, 1, 17⟩⟩) ∧
      (report text : Run Empty Report).outcome = .ok r ∧
      Text.lines r.output.toList = ["a = 1".toList, "b = \"it's\"".toList, []]) ∧
    (∃ doc', ((document : Parser Empty Document).answer text').outcome =
        .ok (.success doc' ⟨[], ⟨3, 11, 15⟩⟩) ∧
      (report text' : Run Empty Report).outcome = .ok r ∧ doc = doc') ∧
    ((document : Parser Empty Document).answer wrong).outcome = .ok (.failure e) ∧
    ∃ r', (report wrong : Run Empty Report).outcome = .ok r' ∧ r'.exitCode = 1 := by
  intro text text' doc r wrong e
  have hanswer : ((document : Parser Empty Document).answer text).outcome =
      .ok (.success doc ⟨[], ⟨3, 1, 17⟩⟩) := by decide +kernel
  have hanswer' : ((document : Parser Empty Document).answer text').outcome =
      .ok (.success doc ⟨[], ⟨3, 11, 15⟩⟩) := by decide +kernel
  have hwrong : ((document : Parser Empty Document).answer wrong).outcome = .ok (.failure e) := by
    decide +kernel
  have hreport : (report text : Run Empty Report).outcome = .ok r := by decide +kernel
  have hreport' : (report text' : Run Empty Report).outcome = .ok r := by decide +kernel
  obtain ⟨hreports, hinjective⟩ := report_faithful (ω := Empty)
  obtain ⟨_, hprinted, -, -, hlines, -⟩ := hreports text _ hanswer
  cases hreport.symm.trans hprinted
  obtain ⟨failed, hfailed, -, hcode, -⟩ := hreports wrong _ hwrong
  have hsame := hinjective text text' doc doc _ _ r r hanswer hanswer' hreport hreport' rfl
  exact ⟨⟨hanswer, hreport, (hlines doc _ rfl).2.2⟩, ⟨doc, hanswer', hreport', hsame⟩, hwrong,
    failed, hfailed, hcode.mpr ⟨e, rfl⟩⟩

end Settings

end Parsing
