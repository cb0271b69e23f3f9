import Parsing.Proofs.Settings.Acceptance

/-!
White space between settings, and the lines that settings stand on. Each setting is on one line, for
no newline is part of it. The white space between two settings may be anything, and nothing at all:
it has no part in what is accepted. So settings are on lines of their own just where the white space
between them has a newline, and an accepted text may have several of them on one line.
-/

namespace Parsing

namespace Settings

open Place

variable {ω : Type}

/-- A setting as it stands in a text, with the white space before it. -/
structure SpacedSetting where
  space : Text
  written : Text
  name : Text
  value : Scalar
  isSpaces : IsSpaces space
  isSetting : SettingText written name value

namespace SpacedSetting

def text (e : SpacedSetting) : Text := e.space ++ e.written

/-- Settings one after the other, and what stands after the last. -/
def joined (settings : List SpacedSetting) (last : Text) : Text := settings.flatMap text ++ last

def meaning (settings : List SpacedSetting) : Document := settings.map fun e => (e.name, e.value)

/-- Where the settings start, after what leads to the given position. -/
def starts (p : Position) : List SpacedSetting → List Position
  | [] => []
  | e :: rest => p.advance e.space :: starts (p.advance e.text) rest

/-- No two settings start on one line. -/
def OnePerLine (settings : List SpacedSetting) : Prop :=
  ((starts {} settings).map Position.line).Nodup

end SpacedSetting

open SpacedSetting

theorem layout_joined (settings : List SpacedSetting) (last : Text) (hlast : IsSpaces last) :
    Layout (joined settings last) (meaning settings) := by
  induction settings with
  | nil => exact .spaces last hlast
  | cons e rest ih =>
    have htext : joined (e :: rest) last = e.space ++ e.written ++ joined rest last := by
      simp only [joined, List.flatMap_cons, SpacedSetting.text, List.append_assoc]
    rw [htext]
    exact .setting e.space e.written _ e.name e.value _ e.isSpaces e.isSetting ih

/-- A text that writes down a document is made of settings with white space before and after. -/
theorem exists_joined_of_layout (t : Text) (doc : Document) (h : Layout t doc) :
    ∃ settings last, IsSpaces last ∧ t = joined settings last ∧ doc = meaning settings := by
  induction h with
  | spaces w hw => exact ⟨[], w, hw, rfl, rfl⟩
  | setting w written t name value doc hw hwritten ht ih =>
    obtain ⟨settings, last, hlast, rfl, rfl⟩ := ih
    refine ⟨⟨w, written, name, value, hw, hwritten⟩ :: settings, last, hlast, ?_, rfl⟩
    simp only [joined, List.flatMap_cons, SpacedSetting.text, List.append_assoc]

/-- No newline is part of a setting. -/
theorem newline_not_mem_of_settingText (written name : Text) (value : Scalar)
    (h : SettingText written name value) : '\n' ∉ written := by
  have hspace : isSpace '\n' = true := by decide
  have hblank {t : Text} (ht : IsBlanks t) : '\n' ∉ t := by
    intro hmem
    rcases ht '\n' hmem with h | h <;> cases h
  cases h with
  | mk _ before after text _ hname hbefore hafter hvalue =>
    have hname' : '\n' ∉ name := not_mem_of_isName hname hspace
    have hvalue' : '\n' ∉ text := by
      cases hvalue with
      | quoted body hbody =>
        have hbody' : '\n' ∉ body := fun hmem => (hbody '\n' hmem).2 rfl
        simp [hbody']
      | digits _ _ hdigits =>
        intro hmem
        have hnot :=
          isSpace_eq_false_of_isDigit '\n' (isDigit_of_isDecimal '\n' (hdigits '\n' hmem))
        rw [hspace] at hnot
        cases hnot
    simp [hname', hvalue', hblank hbefore, hblank hafter]

theorem line_advance_text (p : Position) (e : SpacedSetting) :
    (p.advance e.text).line = (p.advance e.space).line := by
  have hwritten := newline_not_mem_of_settingText e.written e.name e.value e.isSetting
  rw [SpacedSetting.text, Position.advance_append, Position.advance_line _ e.written,
    List.count_eq_zero.mpr hwritten]
  exact Int.add_zero _

/-- Lines are counted upwards. -/
theorem line_le_of_mem_starts (settings : List SpacedSetting) (p q : Position)
    (hq : q ∈ starts p settings) : p.line ≤ q.line := by
  induction settings generalizing p with
  | nil => cases hq
  | cons e rest ih =>
    have hspace := Position.advance_line p e.space
    rcases List.mem_cons.mp hq with rfl | hrest
    · omega
    · have hle := ih (p.advance e.text) hrest
      rw [line_advance_text] at hle
      omega

/-- The first setting from a position is on another line just when a newline comes before it, and
then so are all others. -/
theorem line_not_mem_starts_iff (p : Position) (e : SpacedSetting) (rest : List SpacedSetting) :
    p.line ∉ (starts p (e :: rest)).map Position.line ↔ '\n' ∈ e.space := by
  have hspace := Position.advance_line p e.space
  rw [← List.count_pos_iff (a := '\n')]
  constructor
  · intro hnot
    by_contra hcount
    have hfirst : (p.advance e.space).line = p.line := by omega
    apply hnot
    rw [starts, List.map_cons, hfirst]
    exact List.mem_cons_self
  · intro hcount hmem
    obtain ⟨q, hq, hline⟩ := List.mem_map.mp hmem
    have hle : (p.advance e.space).line ≤ q.line := by
      rcases List.mem_cons.mp hq with rfl | hq
      · exact Int.le_refl _
      · rw [← line_advance_text]
        exact line_le_of_mem_starts rest _ q hq
    omega

/-- By induction on the settings, from wherever the first of them starts. -/
theorem nodup_starts_iff (settings : List SpacedSetting) (p : Position) :
    ((starts p settings).map Position.line).Nodup ↔ ∀ e ∈ settings.tail, '\n' ∈ e.space := by
  induction settings generalizing p with
  | nil => simp [starts]
  | cons e rest ih =>
    cases rest with
    | nil => simp [starts]
    | cons f more =>
      have hfirst := line_not_mem_starts_iff (p.advance e.text) f more
      rw [starts, List.map_cons, List.nodup_cons, ih (p.advance e.text), ← line_advance_text,
        hfirst]
      simp only [List.tail_cons, List.forall_mem_cons]

/-- A text that writes down a document with distinct names is accepted. -/
theorem exists_success_of_layout (text : Text) (doc : Document) (h : Layout text doc)
    (hnodup : doc.keys.Nodup) :
    ∃ rest, ((document : Parser ω Document).answer text).outcome = .ok (.success doc rest) := by
  rw [Parser.answer_of_message_none document rfl]
  have hmeets := meets_document (ω := ω) text
  rcases hout : ((document : Parser ω Document).parse (.ofText text)).outcome with
    f | ⟨doc', t⟩ | e
  · exact (not_undecodable_of_layout text doc h (hmeets.of_fault hout).2).elim
  · rw [layout_unique text doc doc' h (hmeets.of_success hout).layout.1]
    exact ⟨t, rfl⟩
  · rcases hmeets.of_failure hout with hblocked | hrepeated
    · exact (not_blocked_of_layout text doc e.pos h hblocked).elim
    · exact (not_repeated_of_layout text doc e h hnodup hrepeated).elim

theorem layout_of_success (text : Text) (doc : Document) (rest : State)
    (h : ((document : Parser ω Document).answer text).outcome = .ok (.success doc rest)) :
    Layout text doc ∧ doc.keys.Nodup := by
  rw [Parser.answer_of_message_none document rfl] at h
  obtain ⟨hlayout, hnodup, -⟩ := ((meets_document text).of_success h).layout
  exact ⟨hlayout, hnodup⟩

/-- An accepted text is made of settings with white space before, between and after them. Settings
are accepted if their names are distinct, whatever that white space is. Each of them is on a line of
its own just when the white space between any two of them has a newline. -/
theorem answer_spacing :
    (∀ (text : Text) (doc : Document) (rest : State),
      ((document : Parser ω Document).answer text).outcome = .ok (.success doc rest) →
        ∃ settings last, IsSpaces last ∧ text = joined settings last ∧ doc = meaning settings) ∧
    ∀ (settings : List SpacedSetting) (last : Text), IsSpaces last →
      ((∃ doc rest,
        ((document : Parser ω Document).answer (joined settings last)).outcome =
          .ok (.success doc rest)) ↔ (meaning settings).keys.Nodup) ∧
      (OnePerLine settings ↔ ∀ e ∈ settings.tail, '\n' ∈ e.space) := by
  constructor
  · intro text doc rest hout
    exact exists_joined_of_layout text doc (layout_of_success text doc rest hout).1
  · intro settings last hlast
    have hlayout := layout_joined settings last hlast
    refine ⟨⟨?_, ?_⟩, nodup_starts_iff settings {}⟩
    · rintro ⟨doc, rest, hout⟩
      obtain ⟨hdoc, hnodup⟩ := layout_of_success _ doc rest hout
      rwa [layout_unique _ _ _ hlayout hdoc]
    · intro hnodup
      exact ⟨meaning settings, exists_success_of_layout _ _ hlayout hnodup⟩

/-- One character for the name and one digit for the value make up a setting. -/
theorem settingText_short (c d : Char) (hc : isNameStart c = true) (hd : isDecimal d = true) :
    SettingText [c, '=', d] [c] (.number (numeral [d])) := by
  have hname : IsName [c] := (isName_cons_iff c []).mpr ⟨hc, fun e he => by cases he⟩
  have hvalue : ValueText [d] (.number (numeral [d])) :=
    .digits [d] (List.cons_ne_nil d []) (List.forall_mem_singleton.mpr hd)
  exact .mk [c] [] [] [d] _ hname isBlanks_nil isBlanks_nil hvalue

/-- The same two settings on two lines, and with nothing between them. -/
theorem answer_spacing_two :
    ∃ apart together : List SpacedSetting,
      IsSpaces ['\n'] ∧ joined apart ['\n'] = "a=1\nb=2\n".toList ∧
      joined together ['\n'] = "a=1b=2\n".toList ∧
      (∃ doc rest, ((document : Parser Empty Document).answer (joined apart ['\n'])).outcome =
        .ok (.success doc rest)) ∧
      (∃ doc rest, ((document : Parser Empty Document).answer (joined together ['\n'])).outcome =
        .ok (.success doc rest)) ∧
      OnePerLine apart ∧ ¬OnePerLine together := by
  have hone : SettingText ['a', '=', '1'] ['a'] (.number 1) :=
    settingText_short 'a' '1' (by decide +kernel) (by decide +kernel)
  have htwo : SettingText ['b', '=', '2'] ['b'] (.number 2) :=
    settingText_short 'b' '2' (by decide +kernel) (by decide +kernel)
  have hnone : IsSpaces [] := fun c hc => by cases hc
  have hline : IsSpaces ['\n'] := List.forall_mem_singleton.mpr (by decide)
  have h := (answer_spacing (ω := Empty)).2
  refine ⟨[⟨[], _, _, _, hnone, hone⟩, ⟨['\n'], _, _, _, hline, htwo⟩],
    [⟨[], _, _, _, hnone, hone⟩, ⟨[], _, _, _, hnone, htwo⟩], hline, rfl, rfl, ?_, ?_, ?_, ?_⟩
  · exact (h _ ['\n'] hline).1.mpr (by simp [meaning, Record.keys])
  · exact (h _ ['\n'] hline).1.mpr (by simp [meaning, Record.keys])
  · exact (h _ ['\n'] hline).2.mpr (by simp)
  · rw [(h _ ['\n'] hline).2]
    simp

/-- A blank is enough between two settings, and they are accepted on one line. -/
theorem two_settings_on_one_line :
    let text := "a=1 b=2".toList
    ((document : Parser Empty Document).answer text).outcome =
      .ok (.success [(['a'], .number 1), (['b'], .number 2)] ⟨[], ⟨1, 8, 7⟩⟩) ∧
    ∃ settings : List SpacedSetting, text = joined settings [] ∧
      settings.map name = [['a'], ['b']] ∧
      (starts {} settings).map Position.line = [1, 1] ∧ ∃ e ∈ settings.tail, '\n' ∉ e.space := by
  intro text
  have haccepted : ((document : Parser Empty Document).answer text).outcome =
      .ok (.success [(['a'], .number 1), (['b'], .number 2)] ⟨[], ⟨1, 8, 7⟩⟩) := by decide +kernel
  have hone : SettingText ['a', '=', '1'] ['a'] (.number 1) :=
    settingText_short 'a' '1' (by decide +kernel) (by decide +kernel)
  have htwo : SettingText ['b', '=', '2'] ['b'] (.number 2) :=
    settingText_short 'b' '2' (by decide +kernel) (by decide +kernel)
  have hnone : IsSpaces [] := fun c hc => by cases hc
  have hblank : IsSpaces [' '] := List.forall_mem_singleton.mpr (by decide)
  exact ⟨haccepted, [⟨[], _, _, _, hnone, hone⟩, ⟨[' '], _, _, _, hblank, htwo⟩], rfl, rfl,
    rfl, by simp⟩

end Settings

end Parsing
