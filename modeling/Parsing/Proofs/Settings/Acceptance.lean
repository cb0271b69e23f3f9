import Parsing.Proofs.Settings.Documents

/-!
The settings parser accepts the texts that write down a document with distinct names, and nothing
else, and gives that document at the end of the text. It does so whatever white space stands between
the settings and however a text may be divided, for all divisions mean the same.
-/

namespace Parsing.Settings

open Place Parsing.Parser

variable {ω : Type}

/-- Where the scanner and the input have come to is told by what has been taken. -/
theorem Scans.exists_taken {text : Text} {q : Place} {t : State}
    (h : Scans (between []) (.ofText text) q t) :
    ∃ taken, text = taken ++ t.input ∧ t.pos = Position.advance {} taken ∧ q = scan taken := by
  obtain ⟨taken, ⟨hinput, hpos⟩, hafter⟩ := h
  exact ⟨taken, hinput, hpos, hafter.symm⟩

theorem ne_stuck_of_layout (taken rest : Text) (doc : Document) (h : Layout (taken ++ rest) doc) :
    scan taken ≠ stuck := (viable_iff taken).mp ⟨rest, doc, h⟩

/-- Up to any point of a text that writes down a document, its first names have been read. -/
theorem names_of_layout (taken rest : Text) (doc : Document) (h : Layout (taken ++ rest) doc) :
    (scan taken).names <+: doc.keys := by
  have hdocument := document_scan _ doc h
  rw [← names_of_document _ doc hdocument, scan_append]
  apply names_after
  rw [← scan_append]
  exact ne_stuck_of_layout _ [] doc (by rwa [List.append_nil])

theorem not_blocked_of_layout (text : Text) (doc : Document) (pos : Position)
    (h : Layout text doc) : ¬Blocked (between []) (.ofText text) pos := by
  intro hblocked
  obtain ⟨q, t, hscans, _, _, _, hend, hstuck⟩ := hblocked
  obtain ⟨taken, rfl, _, rfl⟩ := hscans.exists_taken
  cases hinput : t.input with
  | nil =>
    have hnone := hend hinput
    rw [hinput, List.append_nil] at h
    rw [document_scan taken doc h] at hnone
    cases hnone
  | cons c rest =>
    have hc := (hstuck c (by rw [hinput]; rfl)).1
    have hlayout : Layout ((taken ++ [c]) ++ rest) doc := by
      rwa [hinput, List.append_cons] at h
    apply ne_stuck_of_layout _ rest doc hlayout
    rw [scan_append]
    exact hc

theorem not_repeated_of_layout (text : Text) (doc : Document) (e : Failure)
    (h : Layout text doc) (hnodup : doc.keys.Nodup) : ¬Repeated (between []) (.ofText text) e := by
  intro hrepeated
  obtain ⟨q, t, name, hscans, hrepeats, _⟩ := hrepeated
  obtain ⟨taken, rfl, _, rfl⟩ := hscans.exists_taken
  have hnames := names_of_layout taken t.input doc h
  exact hrepeats.not_nodup (hnodup.sublist hnames.sublist)

theorem not_undecodable_of_layout (text : Text) (doc : Document) (h : Layout text doc) :
    ¬Undecodable (between []) (.ofText text) := by
  intro hundecodable
  obtain ⟨q, t, c, _, _, hscans, hhead, _, hstuck, _⟩ := hundecodable
  obtain ⟨taken, rfl, _, rfl⟩ := hscans.exists_taken
  obtain ⟨rest, hinput⟩ := List.head?_eq_some_iff.mp hhead
  have hlayout : Layout ((taken ++ [c]) ++ rest) doc := by
    rwa [hinput, List.append_cons] at h
  apply ne_stuck_of_layout _ rest doc hlayout
  rw [scan_append]
  exact hstuck

/-- What the end of a parse says of the text. -/
theorem Finished.layout {text : Text} {doc : Document} {t : State}
    (h : Finished (between []) (.ofText text) doc t) :
    Layout text doc ∧ doc.keys.Nodup ∧ t = ⟨[], Position.advance {} text⟩ := by
  obtain ⟨q, hscans, hdocument, hnodup, hinput⟩ := h
  obtain ⟨taken, htext, hpos, rfl⟩ := hscans.exists_taken
  rw [hinput, List.append_nil] at htext
  subst htext
  refine ⟨(document_scan_iff text doc).mp hdocument, hnodup, ?_⟩
  rw [← hinput, ← hpos]

/-- A text is accepted just when it writes down a document whose names are distinct, and then with
that document, which is the only one it writes down, at its end. -/
theorem answer_success_iff (text : Text) :
    (∀ (doc : Document) (rest : State),
      ((document : Parser ω Document).answer text).outcome = .ok (.success doc rest) ↔
        Layout text doc ∧ doc.keys.Nodup ∧ rest = ⟨[], Position.advance {} text⟩) ∧
    ∀ doc doc' : Document, Layout text doc → Layout text doc' → doc = doc' := by
  refine ⟨fun doc rest => ?_, layout_unique text⟩
  rw [answer_of_message_none document rfl]
  have hmeets := meets_document (ω := ω) text
  constructor
  · intro hout
    exact (hmeets.of_success hout).layout
  · intro h
    obtain ⟨hlayout, hnodup, rfl⟩ := h
    apply hmeets.eq_of_unique
    · intro doc' t hfinished
      obtain ⟨hlayout', _, rfl⟩ := hfinished.layout
      rw [layout_unique text doc' doc hlayout' hlayout]
    · intro e hfailure
      rcases hfailure with hblocked | hrepeated
      · exact (not_blocked_of_layout text doc e.pos hlayout hblocked).elim
      · exact (not_repeated_of_layout text doc e hlayout hnodup hrepeated).elim
    · exact fun f hf => not_undecodable_of_layout text doc hlayout hf.2

/-- Two settings of either kind, with blanks and an empty line about them. -/
theorem answer_success_two :
    let text := "a = 10\n\n b=\"x y\" ".toList
    let doc : Document := [(['a'], .number 10), (['b'], .text ['x', ' ', 'y'])]
    Layout text doc ∧
      ((document : Parser Empty Document).answer text).outcome =
        .ok (.success doc ⟨[], ⟨3, 10, 17⟩⟩) ∧
      ∀ doc', Layout text doc' → doc = doc' := by
  intro text doc
  have hlayout : Layout text doc := (document_scan_iff text doc).mp (by decide)
  have h := answer_success_iff (ω := Empty) text
  refine ⟨hlayout, (h.1 doc _).mpr ⟨hlayout, by decide, by decide⟩, fun doc' hlayout' => ?_⟩
  exact h.2 doc doc' hlayout hlayout'

end Parsing.Settings
