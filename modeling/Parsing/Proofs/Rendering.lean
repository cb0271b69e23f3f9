import Parsing.Proofs.Faithful
import Parsing.Proofs.Lines
import Parsing.Proofs.Settings.Acceptance
import Parsing.Settings.Report

/-!
Rendered failures. A failure at the position after some start of a source is on a line that the
source has, so its rendering never falls back on an empty line and never counts lines from the end.
It shows that line, with the caret under the character at which the parse failed, or one past the
end of the line where that character is a newline or is missing. All failures of grammars are such
failures, and so is everything that the command line prints when it fails.
-/

namespace Parsing

/-- A margin no longer than a text that is there can be made. -/
theorem Text.repeated_of_le (count room : Nat) (h : count ≤ room) :
    Text.repeated [' '] count room = .ok (List.replicate count ' ') := by
  have hword : ¬((count : Int) < -0x8000000000000000 ∨
      (0x8000000000000000 ≤ (count : Int) ∧ (room : Int) < count)) := by omega
  have hmemory : ¬max room longest < (count : Int).toNat * [' '].length := by
    rw [Int.toNat_natCast, List.length_singleton, Nat.mul_one]
    exact Nat.not_lt.mpr (Nat.le_trans h (Nat.le_max_left room longest))
  rw [repeated, if_neg hword, if_neg (List.cons_ne_nil _ _), if_neg hmemory, Int.toNat_natCast,
    List.flatten_replicate_singleton]

namespace Failure

/-- What the rendering of the failure shows: the line that is cut at the place of the failure, and
the caret under the character there. -/
structure PointsAt (e : Failure) {source : Text} {k : Nat} (cut : LineAt source k) : Prop where
  offset_eq : e.pos.offset = k
  offset_le : k ≤ source.length
  line_pos : 1 ≤ e.pos.line
  line_le : e.pos.line ≤ source.lines.length
  column_eq : e.pos.column - 1 = (k : Int) - cut.before.length
  column_le : e.pos.column - 1 ≤ cut.line.length
  render_eq : e.render source =
    .ok (e.describe ++ "\n" ++ String.ofList cut.line ++ "\n" ++
      String.ofList (List.replicate (e.pos.column - 1).toNat ' ') ++ "^")
  past_iff : e.pos.column - 1 = cut.line.length ↔ k = source.length ∨ source[k]? = some '\n'
  under : e.pos.column - 1 < cut.line.length →
    cut.line[(e.pos.column - 1).toNat]? = source[k]?

theorem sourceLine_of_getElem? (source line : Text) (index : Nat)
    (h : source.lines[index]? = some line) : sourceLine source (index + 1) = .ok line := by
  have hpositive : ¬(index : Int) + 1 ≤ 0 := by omega
  have hindex : (index : Int) + 1 - 1 = index := by omega
  have hbounds : ¬(index : Int) < 0 := by omega
  simp only [sourceLine, hpositive, if_false, hindex, hbounds, Int.toNat_natCast,
    List.getD_eq_getElem?_getD, h, Option.getD_some]

/-- It is enough that the position is the one that the cut tells. -/
theorem pointsAt_of_pos (e : Failure) {source : Text} {k : Nat} (cut : LineAt source k)
    (hpos : e.pos = ⟨cut.before.count '\n' + 1, cut.left.length + 1, k⟩) : e.PointsAt cut := by
  have hline : e.pos.line = cut.before.count '\n' + 1 := by rw [hpos]
  have hcolumn : e.pos.column - 1 = cut.left.length := by
    rw [hpos]
    exact Int.add_sub_cancel _ 1
  have hoffset := cut.offset_eq
  have hlength : cut.line.length = cut.left.length + cut.right.length := List.length_append
  rw [List.length_append] at hoffset
  have hlines := cut.getElem?_lines
  obtain ⟨hindex, -⟩ := List.getElem?_eq_some_iff.mp hlines
  have hle := cut.le_length
  refine ⟨by rw [hpos], hle, by omega, by omega, by omega, by omega, ?_, ?_, ?_⟩
  · have hshown : sourceLine source e.pos.line = .ok cut.line := by
      rw [hline]
      exact sourceLine_of_getElem? _ _ _ hlines
    have hmargin : cut.left.length ≤ source.length := by omega
    rw [render, hshown, hcolumn, Text.repeated_of_le _ _ hmargin, Int.toNat_natCast]
    rfl
  · rw [hcolumn, Int.natCast_inj]
    exact cut.length_left_eq_iff
  · rw [hcolumn, Int.toNat_natCast, Int.ofNat_lt]
    exact cut.getElem?_line

/-- A failure at the position after some start of the source points there. -/
theorem exists_pointsAt (e : Failure) (source : Text)
    (h : ∃ taken rest, source = taken ++ rest ∧ e.pos = Position.advance {} taken) :
    ∃ (k : Nat) (cut : LineAt source k), e.PointsAt cut := by
  obtain ⟨taken, rest, rfl, hpos⟩ := h
  obtain ⟨cut, hcut⟩ := LineAt.exists_of_append taken rest
  exact ⟨taken.length, cut, pointsAt_of_pos e cut (hpos.trans hcut)⟩

end Failure

namespace Settings

variable {ω : Type}

/-- A failure of the settings parser is at the position after some start of the text. -/
theorem exists_taken_of_failure (text : Text) (e : Failure)
    (hout : ((document : Parser ω Document).answer text).outcome = .ok (.failure e)) :
    ∃ taken rest, text = taken ++ rest ∧ e.pos = Position.advance {} taken := by
  rw [Parser.answer_of_message_none document rfl] at hout
  rcases (meets_document text).of_failure hout with hblocked | hrepeated
  · obtain ⟨q, t, hscans, hpos, -⟩ := hblocked
    obtain ⟨taken, htext, htaken, -⟩ := hscans.exists_taken
    exact ⟨taken, t.input, htext, hpos.trans htaken⟩
  · obtain ⟨q, t, name, hscans, -, -, rfl⟩ := hrepeated
    obtain ⟨taken, htext, htaken, -⟩ := hscans.exists_taken
    exact ⟨taken, t.input, htext, htaken⟩

/-- A report is made of what the settings parser answers. -/
theorem outcome_report (text : Text) :
    (report text : Run ω Report).outcome =
      ((document : Parser ω Document).answer text).outcome.bind fun reply =>
        Report.ofOutcome text reply.value? := by
  rw [report, Run.outcome_bind, Parser.evaluate, Run.outcome_bind]
  cases ((document : Parser ω Document).answer text).outcome <;> rfl

/-- The report is the rendering of the failure, which points at the place of the failure. -/
def Report.Shows (r : Report) (source : Text) (e : Failure) : Prop :=
  ∃ (k : Nat) (cut : LineAt source k) (picture : String),
    e.PointsAt cut ∧ e.render source = .ok picture ∧ r = ⟨picture ++ "\n", 1⟩

theorem exists_report_of_failure (source : Text) (e : Failure)
    (hout : ((document : Parser ω Document).answer source).outcome = .ok (.failure e)) :
    ∃ r, (report source : Run ω Report).outcome = .ok r ∧ r.Shows source e := by
  obtain ⟨k, cut, hpoints⟩ := e.exists_pointsAt source (exists_taken_of_failure source e hout)
  refine ⟨⟨_ ++ "\n", 1⟩, ?_, k, cut, _, hpoints, hpoints.render_eq, rfl⟩
  rw [outcome_report, hout]
  change Report.ofOutcome source (.error e) = _
  rw [Report.ofOutcome, hpoints.render_eq]
  rfl

/-- Only failures are reported with another exit code than 0. -/
theorem exists_failure_of_report (source : Text) (r : Report)
    (hout : (report source : Run ω Report).outcome = .ok r) (hcode : r.exitCode ≠ 0) :
    ∃ e, ((document : Parser ω Document).answer source).outcome = .ok (.failure e) := by
  rw [outcome_report] at hout
  rcases hanswer : ((document : Parser ω Document).answer source).outcome with
    fault | ⟨doc, rest⟩ | e
  · rw [hanswer] at hout
    cases hout
  · rw [hanswer] at hout
    cases hout
    exact (hcode rfl).elim
  · exact ⟨e, rfl⟩

end Settings

variable {ω α : Type}

/-- Every failure of a grammar over faithful parsers is rendered over the line that it is in, with
the caret under the character that it is at or one past the end of the line. The command line
renders every failure of the settings parser so, and prints nothing else when it fails. -/
theorem render_of_composed (kit : Kit ω) (given : Given ω)
    (hgiven : ∀ β q, given β q → q.Faithful) (p : Parser ω α) (hp : Composed kit given α p) :
    (∀ source e, (p.answer source).outcome = .ok (.failure e) →
      ∃ (k : Nat) (cut : LineAt source k), e.PointsAt cut) ∧
    (∀ source e,
      ((Settings.document : Parser ω Settings.Document).answer source).outcome =
        .ok (.failure e) →
      ∃ r, (Settings.report source : Run ω Settings.Report).outcome = .ok r ∧ r.Shows source e) ∧
    ∀ source r, (Settings.report source : Run ω Settings.Report).outcome = .ok r →
      r.exitCode ≠ 0 →
        ∃ e,
          ((Settings.document : Parser ω Settings.Document).answer source).outcome =
            .ok (.failure e) ∧ r.Shows source e := by
  have hsound := hp.sound_of_faithful hgiven
  refine ⟨?_, Settings.exists_report_of_failure, ?_⟩
  · intro source e hout
    obtain ⟨t, ⟨taken, hinput, hpos⟩, he⟩ :=
      ((Run.ends_iff _ _ _).mp (Parser.ends_answer hsound source)).1 _ hout
    exact e.exists_pointsAt source ⟨taken, t.input, hinput, he.trans hpos⟩
  · intro source r hout hcode
    obtain ⟨e, he⟩ := Settings.exists_failure_of_report source r hout hcode
    obtain ⟨r', hout', hshows⟩ := Settings.exists_report_of_failure source e he
    rw [hout] at hout'
    cases hout'
    exact ⟨e, he, hshows⟩

/-- A parenthesis that is not closed on its line, and a setting without its sign. -/
theorem render_of_nested :
    let source := "((x)\n)".toList
    let e : Failure := ⟨"unexpected '\\n'", ["')'"], ⟨1, 5, 4⟩⟩
    let text := "width = 80\nheight 5\n".toList
    let e' : Failure := ⟨"expected '=' after setting name", ["'='"], ⟨2, 8, 18⟩⟩
    (∀ β q, Given.none Empty β q → q.Faithful) ∧
    Composed (Kit.plain Empty) (Given.none Empty) Nat Nesting.nested ∧
    ((Nesting.nested : Parser Empty Nat).answer source).outcome = .ok (.failure e) ∧
    (∃ (k : Nat) (cut : LineAt source k), e.PointsAt cut) ∧
    ((Settings.document : Parser Empty Settings.Document).answer text).outcome =
      .ok (.failure e') ∧
    (∃ r, (Settings.report text : Run Empty Settings.Report).outcome = .ok r ∧
      r.exitCode ≠ 0 ∧ r.Shows text e') ∧
    e'.render text =
      .ok ("Parse error at line 2, column 8: expected '=' after setting name (expected '=')\n" ++
        "height 5\n       ^") := by
  intro source e text e'
  have hgiven : ∀ β q, Given.none Empty β q → q.Faithful := fun _ _ h => h.elim
  have hnested := Nesting.composed_nested (Kit.plain Empty) (Given.none Empty)
  have hfails : ((Nesting.nested : Parser Empty Nat).answer source).outcome =
      .ok (.failure e) := by decide +kernel
  have hfails' : ((Settings.document : Parser Empty Settings.Document).answer text).outcome =
      .ok (.failure e') := by decide +kernel
  obtain ⟨hpoints, hreports, hprinted⟩ := render_of_composed _ _ hgiven _ hnested
  obtain ⟨r, hreport, hshows⟩ := hreports text e' hfails'
  have hcode : r.exitCode ≠ 0 := by
    obtain ⟨_, _, _, _, _, rfl⟩ := hshows
    exact Nat.one_ne_zero
  obtain ⟨e'', hfails'', hshows'⟩ := hprinted text r hreport hcode
  cases hfails'.symm.trans hfails''
  exact ⟨hgiven, hnested, hfails, hpoints source e hfails, hfails', ⟨r, hreport, hcode, hshows'⟩,
    by decide +kernel⟩

end Parsing
