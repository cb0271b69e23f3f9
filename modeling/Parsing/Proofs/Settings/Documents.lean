import Parsing.Proofs.Settings.Tokens

/-!
The settings parser beside the scanner, over a whole text. What one pass of the loop leaves behind
is what it found: settings with distinct names have been read, the scanner is where a setting may
open, and a third of the input bounds the passes that are left.
-/

namespace Parsing.Settings

open Place Parsing.Parser Script

variable {ω : Type}

/-- A setting has ended that is the first to repeat a name, and so it says. -/
def Repeated (q : Place) (s : State) (e : Failure) : Prop :=
  ∃ q' t name, Scans q s q' t ∧ q'.Repeats name ∧
    (∀ c ∈ t.input.head?, (q'.step c).closed? = none ∧ (isDigit c = true → ¬q'.AwaitsDigit)) ∧
      e = ⟨"duplicate setting " ++ quote name, [], t.pos⟩

theorem Repeated.of_scans {q q' : Place} {s t : State} {e : Failure} (hscans : Scans q s q' t)
    (h : Repeated q' t e) : Repeated q s e := by
  obtain ⟨q'', u, name, hu, hrest⟩ := h
  exact ⟨q'', u, name, hscans.trans hu, hrest⟩

/-- After a name and blanks, a sign or nothing that the scanner can go on with. -/
theorem meets_sign (doc : Document) (name taken : Text) (s t : State) (hnodup : doc.keys.Nodup)
    (htaken : s.Takes taken t) (hblanks : IsBlanks taken) (hname : s.Past isNameRest)
    (hpast : t.Past isBlank) :
    (equalsSign : Parser ω Char).Meets t
      (fun _ u => Scans (inName doc name) s (afterSign doc name) u ∧ u.Past isBlank ∧
        u.input.length < s.input.length)
      (fun e => Blocked (inName doc name) s e.pos) (fun _ => False) := by
  have hplace : ∃ q, (inName doc name).after taken = q ∧
      (q = inName doc name ∨ q = afterName doc name) ∧
        ∀ c ∈ t.input.head?, c ≠ '=' → q.step c = stuck := by
    rw [after_blanks doc name taken hblanks]
    by_cases hnil : taken = []
    · refine ⟨_, if_pos hnil, Or.inl rfl, fun c hc hne => ?_⟩
      subst hnil
      have hinput : s.input = t.input := htaken.1
      have hrest := hname c (hinput ▸ hc)
      simp only [Place.step, hrest, hpast c hc, hne]
      rfl
    · refine ⟨_, if_neg hnil, Or.inr rfl, fun c hc hne => ?_⟩
      simp only [Place.step, hpast c hc, hne]
      rfl
  obtain ⟨q, hafter, hcases, hstuck⟩ := hplace
  have hscans : Scans (inName doc name) s q t := ⟨taken, htaken, hafter⟩
  have hsign : q.step '=' = afterSign doc name := hafter ▸ after_sign doc name taken hblanks
  have hle := hscans.length_le
  apply (meets_equalsSign doc name q t hnodup hcases hsign hstuck).imp
  · intro c u h
    obtain ⟨hu, hpast', hlength⟩ := h
    exact ⟨hscans.trans hu, hpast', by omega⟩
  · exact fun e he => he.of_scans hscans
  · exact fun f hf => hf

/-- Blanks after a setting leave the next one to open. -/
theorem opens_after_blanks (doc : Document) (q : Place) (s t : State) (taken : Text)
    (hclosed : q.closed? = some doc) (htaken : s.Takes taken t) (hblanks : IsBlanks taken)
    (hpast : t.Past isBlank)
    (hnext : ∀ c ∈ s.input.head?, (isBlank c = false → q.step c = opening doc c) ∧
      (isDigit c = true → ¬q.AwaitsDigit)) :
    Opens doc (q.after taken) t := by
  have hdocument := document_of_closed _ _ (closed_after_blanks q doc hclosed taken hblanks)
  by_cases hnil : taken = []
  · subst hnil
    have hinput : s.input = t.input := htaken.1
    rw [hinput] at hnext
    exact ⟨hdocument, fun c hc => (hnext c hc).1 (hpast c hc), fun c hc => (hnext c hc).2⟩
  · rw [after_closed_blanks q doc hclosed taken hblanks hnil]
    exact ⟨rfl, fun c hc => leaving_eq_opening doc c (hpast c hc), fun _ _ _ h => h⟩

/-- White space leaves the next setting to open. -/
theorem opens_after_spaces (doc : Document) (q : Place) (s t : State) (taken : Text)
    (hopens : Opens doc q s) (htaken : s.Takes taken t) (hspaces : IsSpaces taken) :
    Opens doc (q.after taken) t := by
  cases taken with
  | nil =>
    have hinput : s.input = t.input := htaken.1
    exact ⟨hopens.document, fun c hc => hopens.step c (hinput ▸ hc),
      fun c hc => hopens.digit c (hinput ▸ hc)⟩
  | cons c rest =>
    have hhead : c ∈ s.input.head? := by
      rw [htaken.1]
      rfl
    have hspace : isSpace c = true := hspaces c List.mem_cons_self
    have hstep : q.step c = between doc := by
      rw [hopens.step c hhead, opening, if_pos hspace]
    have hafter : q.after (c :: rest) = between doc := by
      rw [after_cons, hstep]
      apply after_fixed
      intro d hd
      simp only [Place.step, opening, hspaces d (List.mem_cons_of_mem c hd), if_true]
    rw [hafter]
    exact ⟨rfl, fun d _ => rfl, fun _ _ _ h => h⟩

/-- A setting ends where the next one may open, and takes three characters or more. -/
theorem meets_setting (doc : Document) (q : Place) (s : State) (hopens : Opens doc q s)
    (hnodup : doc.keys.Nodup) (hspace : s.Past isSpace) (hne : s.input ≠ []) :
    (setting : Parser ω Setting).Meets s
      (fun entry t => ∃ q', Scans q s q' t ∧
        q'.closed? = some (doc ++ [(entry.name, entry.value)]) ∧
        Opens (doc ++ [(entry.name, entry.value)]) q' t ∧ t.input.length + 3 ≤ s.input.length)
      (fun e => Blocked q s e.pos) (fun f => f = .notDecimal ∧ Undecodable q s) := by
  apply meets_extend_always
  apply meets_extend_always
  apply meets_extend_always
  rw [meets_result]
  apply meets_lexeme
  apply (meets_identifier doc q s hopens hnodup hspace hne).imp
  · intro name t h taken t' htaken hblanks hpast
    obtain ⟨hscans, hname, hlength⟩ := h
    rw [Run.ends_pure]
    apply (meets_sign doc name taken t t' hnodup htaken hblanks hname hpast).imp
    · intro sign u h
      obtain ⟨hu, hpast', hlength'⟩ := h
      have hscans' := hscans.trans hu
      rw [Run.ends_pure]
      apply meets_lexeme
      apply (meets_value doc name u hnodup hpast').imp
      · intro v w h taken' w' htaken' hblanks' hpast''
        obtain ⟨q', hw, hclosed, hstep, hlength''⟩ := h
        have hscans'' := (hscans'.trans hw).trans ⟨taken', htaken', rfl⟩
        have hclosed' := closed_after_blanks q' _ hclosed taken' hblanks'
        have hopens' := opens_after_blanks _ q' w w' taken' hclosed htaken' hblanks' hpast'' hstep
        have hle := htaken'.length_eq
        rw [Run.ends_pure]
        exact ⟨_, hscans'', hclosed', hopens', by omega⟩
      · exact fun e he => he.of_scans hscans'
      · exact fun f hf => ⟨hf.1, hf.2.of_scans hscans'⟩
    · exact fun e he => he.of_scans hscans
    · exact fun f hf => hf.elim
  · exact fun e he => he
  · exact fun f hf => hf.elim

theorem meets_blankLines (doc : Document) (q : Place) (s : State) (hopens : Opens doc q s) :
    (blankLines : Parser ω Text).Meets s
      (fun _ t => ∃ q', Scans q s q' t ∧ Opens doc q' t ∧ t.Past isSpace) (fun _ => False)
      (fun _ => False) := by
  rw [blankLines, meets_named]
  apply (meets_span isSpace s).imp_success
  intro taken t h
  obtain ⟨htaken, hspaces, hpast⟩ := h
  exact ⟨_, ⟨taken, htaken, rfl⟩, opens_after_spaces doc q s t taken hopens htaken hspaces, hpast⟩

/-- The end of a text whose settings all have been read, under distinct names. -/
def Finished (q : Place) (s : State) (doc : Document) (t : State) : Prop :=
  ∃ q', Scans q s q' t ∧ q'.document? = some doc ∧ doc.keys.Nodup ∧ t.input = []

theorem Finished.of_scans {q q' : Place} {s t u : State} {doc : Document}
    (hscans : Scans q s q' t) (h : Finished q' t doc u) : Finished q s doc u := by
  obtain ⟨q'', hu, hrest⟩ := h
  exact ⟨q'', hscans.trans hu, hrest⟩

/-- What the rest of a parse comes to is what the parse comes to. -/
theorem meets_of_scans {q q' : Place} {s s' t : State} {p : Parser ω Document}
    (hscans : Scans q s q' s')
    (h : p.Meets t (Finished q' s') (fun e => Blocked q' s' e.pos ∨ Repeated q' s' e)
      fun f => f = .notDecimal ∧ Undecodable q' s') :
    p.Meets t (Finished q s) (fun e => Blocked q s e.pos ∨ Repeated q s e)
      fun f => f = .notDecimal ∧ Undecodable q s := by
  apply h.imp
  · exact fun doc u hdoc => hdoc.of_scans hscans
  · exact fun e he => he.imp (fun h => h.of_scans hscans) fun h => h.of_scans hscans
  · exact fun f hf => ⟨hf.1, hf.2.of_scans hscans⟩

/-- By induction on the passes. Where a pass reads a setting, three characters are gone, and its
name is a new one or the parse fails. -/
theorem meets_settingsScript (passes : Nat) (doc : Document) (q : Place) (s : State)
    (hopens : Opens doc q s) (hnodup : doc.keys.Nodup) (hspace : s.Past isSpace)
    (hpasses : s.input.length < 3 * passes) :
    (ofScript (settingsScript passes doc) () : Parser ω Document).Meets s (Finished q s)
      (fun e => Blocked q s e.pos ∨ Repeated q s e)
      (fun f => f = .notDecimal ∧ Undecodable q s) := by
  induction passes generalizing doc q s with
  | zero => omega
  | succ passes ih =>
    rw [settingsScript]
    apply meets_step
    rw [meets_remaining]
    by_cases hnil : s.input = []
    · rw [if_pos hnil, meets_return_value]
      exact ⟨q, Scans.refl q s, hopens.document, hnodup, hnil⟩
    · rw [if_neg hnil]
      apply meets_step
      apply (meets_setting doc q s hopens hnodup hspace hnil).imp
      · intro entry t h
        obtain ⟨q', hscans, hclosed, hopens', hlength⟩ := h
        by_cases hmem : entry.name ∈ doc.keys
        · rw [if_pos hmem, meets_return_next, meets_fail]
          have hrepeats : q'.Repeats entry.name := ⟨doc, entry.value, hclosed, hnodup, hmem⟩
          refine Or.inr ⟨q', t, entry.name, hscans, hrepeats, fun c hc => ?_, rfl⟩
          rw [hopens'.step c hc]
          exact ⟨closed_opening _ c, hopens'.digit c hc⟩
        · rw [if_neg hmem]
          apply meets_step
          apply (meets_blankLines _ q' t hopens').of_always
          intro taken u h
          obtain ⟨q'', hscans', hopens'', hspace'⟩ := h
          have hle := hscans'.length_le
          have hnodup' := Record.nodup_keys_put doc entry.name entry.value hnodup
          rw [← Record.put_eq_concat doc entry.name entry.value hmem] at hopens''
          have hrest := ih _ q'' u hopens'' hnodup' hspace' (by omega)
          exact meets_of_scans (hscans.trans hscans') hrest
      · exact fun e he => Or.inl he
      · exact fun f hf => hf

/-- Every outcome of the settings parser, by where the scanner is when the parse ends. -/
theorem meets_document (text : Text) :
    (document : Parser ω Document).Meets (.ofText text) (Finished (between []) (.ofText text))
      (fun e => Blocked (between []) (.ofText text) e.pos ∨
        Repeated (between []) (.ofText text) e)
      (fun f => f = .notDecimal ∧ Undecodable (between []) (.ofText text)) := by
  have hopens : Opens [] (between []) (.ofText text) := ⟨rfl, fun c _ => rfl, fun _ _ _ h => h⟩
  rw [document, meets_named]
  apply meets_step
  apply (meets_blankLines [] _ _ hopens).of_always
  intro taken s h
  obtain ⟨q, hscans, hopens', hspace⟩ := h
  apply meets_step
  rw [meets_remaining]
  have hpasses : s.input.length < 3 * (s.input.length / 3 + 1) := by omega
  have hloop := meets_settingsScript (ω := ω) _ [] q s hopens' List.nodup_nil hspace hpasses
  exact meets_of_scans hscans hloop

end Parsing.Settings
