import Mathlib.Data.Prod.Lex
import Parsing.Proofs.Faithful

/-!
Line and column against the offset. The column starts anew at every newline, and the line stays as
it is until then, but each character moves the pair of both on, the line counted first, and the
offset with it. So within one input, wherever it starts, line and column together tell two positions
apart just when the offset does, and put them in the same order.
-/

namespace Parsing

namespace Position

/-- Line and column, the line counted first. -/
def place (p : Position) : Int ×ₗ Int := toLex (p.line, p.column)

theorem place_lt_iff (p q : Position) :
    p.place < q.place ↔ p.line < q.line ∨ p.line = q.line ∧ p.column < q.column :=
  Prod.Lex.toLex_lt_toLex

theorem place_eq_iff (p q : Position) :
    p.place = q.place ↔ p.line = q.line ∧ p.column = q.column := by
  rw [place, place, toLex_inj, Prod.mk.injEq]

/-- Earlier by line and column, and earlier by offset. -/
structure Before (p q : Position) : Prop where
  place_lt : p.place < q.place
  offset_lt : p.offset < q.offset

theorem Before.trans {p q r : Position} (hpq : p.Before q) (hqr : q.Before r) : p.Before r :=
  ⟨hpq.place_lt.trans hqr.place_lt, hpq.offset_lt.trans hqr.offset_lt⟩

/-- Either the line grows, or it stays and the column grows. -/
theorem before_next (p : Position) (unit : Text) : p.Before (p.next unit) := by
  by_cases h : unit = ['\n']
  · have hline : p.line < p.line + 1 := Int.lt_succ p.line
    rw [next, if_pos h]
    exact ⟨(place_lt_iff _ _).mpr (Or.inl hline), Int.lt_succ p.offset⟩
  · have hcolumn : p.column < p.column + 1 := Int.lt_succ p.column
    rw [next, if_neg h]
    exact ⟨(place_lt_iff _ _).mpr (Or.inr ⟨rfl, hcolumn⟩), Int.lt_succ p.offset⟩

/-- By induction from the end of the text, whose last character moves on the position that the rest
of it leads to. -/
theorem before_advance (p : Position) (t : Text) (ht : t ≠ []) : p.Before (p.advance t) := by
  induction t using List.reverseRecOn with
  | nil => exact (ht rfl).elim
  | append_singleton front c ih =>
    have hlast := (p.advance front).before_next [c]
    rw [advance_concat]
    by_cases hfront : front = []
    · subst front
      rwa [advance_nil] at hlast ⊢
    · exact (ih hfront).trans hlast

/-- The longer of two starts of a text goes on from the shorter one. -/
theorem before_of_isPrefix (p : Position) {source c₁ c₂ : Text} (h₁ : c₁ <+: source)
    (h₂ : c₂ <+: source) (hlength : c₁.length < c₂.length) :
    (p.advance c₁).Before (p.advance c₂) := by
  obtain ⟨between, rfl⟩ := List.prefix_of_prefix_length_le h₁ h₂ hlength.le
  have hbetween : between ≠ [] := by
    rintro rfl
    simp at hlength
  rw [advance_append]
  exact before_advance _ between hbetween

theorem Before.compare_eq {p q : Position} (h : p.Before q) :
    compare p.place q.place = compare p.offset q.offset := by
  rw [compare_lt_iff_lt.mpr h.place_lt, compare_lt_iff_lt.mpr h.offset_lt]

theorem Before.compare_eq_symm {p q : Position} (h : p.Before q) :
    compare q.place p.place = compare q.offset p.offset := by
  rw [compare_gt_iff_gt.mpr h.place_lt, compare_gt_iff_gt.mpr h.offset_lt]

/-- Of two starts of a text one is longer, or else they are the same. -/
theorem compare_place_advance (p : Position) {source c₁ c₂ : Text} (h₁ : c₁ <+: source)
    (h₂ : c₂ <+: source) :
    compare (p.advance c₁).place (p.advance c₂).place =
      compare (p.advance c₁).offset (p.advance c₂).offset := by
  rcases lt_trichotomy c₁.length c₂.length with hlt | heq | hgt
  · exact (p.before_of_isPrefix h₁ h₂ hlt).compare_eq
  · have hsame : c₁ = c₂ := (List.prefix_of_prefix_length_le h₁ h₂ heq.le).eq_of_length heq
    rw [hsame, compare_eq_iff_eq.mpr rfl, compare_eq_iff_eq.mpr rfl]
  · exact (p.before_of_isPrefix h₂ h₁ hgt).compare_eq_symm

/-- Lines and columns count from 1 and the offset from 0. -/
structure Valid (p : Position) : Prop where
  line_pos : 1 ≤ p.line
  column_pos : 1 ≤ p.column
  offset_nonneg : 0 ≤ p.offset

theorem Valid.next {p : Position} (h : p.Valid) (unit : Text) : (p.next unit).Valid := by
  have hoffset : 0 ≤ p.offset + 1 := Int.le_add_one h.offset_nonneg
  by_cases hunit : unit = ['\n']
  · have hline : 1 ≤ p.line + 1 := Int.le_add_one h.line_pos
    rw [Position.next, if_pos hunit]
    exact ⟨hline, le_rfl, hoffset⟩
  · have hcolumn : 1 ≤ p.column + 1 := Int.le_add_one h.column_pos
    rw [Position.next, if_neg hunit]
    exact ⟨h.line_pos, hcolumn, hoffset⟩

theorem Valid.advance {p : Position} (h : p.Valid) (t : Text) : (p.advance t).Valid := by
  induction t using List.reverseRecOn with
  | nil => rwa [advance_nil]
  | append_singleton front c ih =>
    rw [advance_concat]
    exact ih.next [c]

end Position

namespace Reply

variable {α : Type}

/-- Where a reply stands: at the state that a success leaves, or at the position of a failure. -/
def pos : Reply α → Position
  | success _ rest => rest.pos
  | failure e => e.pos

theorem From.exists_taken {s : State} {reply : Reply α} (h : reply.From s) :
    ∃ taken, taken <+: s.input ∧ reply.pos = s.pos.advance taken := by
  cases reply with
  | success a rest =>
    obtain ⟨taken, hinput, hpos⟩ := h
    exact ⟨taken, ⟨rest.input, hinput.symm⟩, hpos⟩
  | failure e =>
    obtain ⟨t, ⟨taken, hinput, hpos⟩, he⟩ := h
    exact ⟨taken, ⟨t.input, hinput.symm⟩, he.trans hpos⟩

end Reply

namespace Composed

variable {ω α : Type} {kit : Kit ω} {given : Given ω} {p : Parser ω α} {reply : Reply α}

theorem from_of_parse (hp : Composed kit given α p) (hgiven : ∀ β q, given β q → q.Faithful)
    {s : State} (hout : (p.parse s).outcome = .ok reply) : reply.From s := by
  have hends := hp.sound_of_faithful hgiven s
  exact ((Run.ends_iff _ _ _).mp hends).1 reply hout

theorem from_of_answer (hp : Composed kit given α p) (hgiven : ∀ β q, given β q → q.Faithful)
    {source : Text} (hout : (p.answer source).outcome = .ok reply) :
    reply.From (.ofText source) := by
  have hends := Parser.ends_answer (hp.sound_of_faithful hgiven) source
  exact ((Run.ends_iff _ _ _).mp hends).1 reply hout

end Composed

namespace State

/-- The positions that a parse from the state comes to: of the states that consuming reaches, and of
the replies there of any grammar over faithful parsers, with or without the message on record. -/
inductive Shows (s : State) : Position → Prop
  | state {t : State} (ht : s.Reaches t) : Shows s t.pos
  | reply {ω α : Type} {kit : Kit ω} {given : Given ω} {p : Parser ω α} {t : State}
      {reply : Reply α} (hgiven : ∀ β q, given β q → q.Faithful) (hp : Composed kit given α p)
      (ht : s.Reaches t) (hout : (p.parse t).outcome = .ok reply) : Shows s reply.pos
  | answer {ω α : Type} {kit : Kit ω} {given : Given ω} {p : Parser ω α} {source : Text}
      {reply : Reply α} (hgiven : ∀ β q, given β q → q.Faithful) (hp : Composed kit given α p)
      (hs : s = .ofText source) (hout : (p.answer source).outcome = .ok reply) :
      Shows s reply.pos

/-- They are the positions after the starts of the input, no more and no fewer. -/
theorem shows_iff (s : State) (p : Position) :
    s.Shows p ↔ ∃ taken, taken <+: s.input ∧ p = s.pos.advance taken := by
  constructor
  · intro h
    cases h with
    | state ht =>
      obtain ⟨taken, hinput, hpos⟩ := ht
      exact ⟨taken, ⟨_, hinput.symm⟩, hpos⟩
    | reply hgiven hp ht hout =>
      exact ((hp.from_of_parse hgiven hout).trans ht).exists_taken
    | answer hgiven hp hs hout =>
      subst hs
      exact (hp.from_of_answer hgiven hout).exists_taken
  · rintro ⟨taken, ⟨rest, hinput⟩, rfl⟩
    have hreaches : s.Reaches ⟨rest, s.pos.advance taken⟩ := ⟨taken, hinput.symm, rfl⟩
    exact Shows.state hreaches

/-- Of two starts of the input the longer one leads to the later position, by line and column as by
offset, wherever the input starts. So two positions of states or failures within it have the same
line and column just when they have the same offset, and both ways of comparing them agree. Where
the first position counts lines and columns from 1 and offsets from 0, all of them do. -/
theorem positions_in_order (s : State) :
    (∀ c₁ c₂, c₁ <+: s.input → c₂ <+: s.input → c₁.length < c₂.length →
      (s.pos.advance c₁).place < (s.pos.advance c₂).place ∧
      (s.pos.advance c₁).offset < (s.pos.advance c₂).offset) ∧
    (∀ p q, s.Shows p → s.Shows q →
      (p.line = q.line ∧ p.column = q.column ↔ p.offset = q.offset) ∧
      compare p.place q.place = compare p.offset q.offset) ∧
    (s.pos.Valid → (∀ taken, (s.pos.advance taken).Valid) ∧ ∀ p, s.Shows p → p.Valid) := by
  refine ⟨?_, ?_, ?_⟩
  · intro c₁ c₂ h₁ h₂ hlength
    have hbefore := s.pos.before_of_isPrefix h₁ h₂ hlength
    exact ⟨hbefore.place_lt, hbefore.offset_lt⟩
  · intro p q hp hq
    obtain ⟨c₁, h₁, rfl⟩ := (shows_iff s p).mp hp
    obtain ⟨c₂, h₂, rfl⟩ := (shows_iff s q).mp hq
    have hcompare := s.pos.compare_place_advance h₁ h₂
    refine ⟨?_, hcompare⟩
    rw [← Position.place_eq_iff, ← compare_eq_iff_eq, hcompare, compare_eq_iff_eq]
  · intro hvalid
    refine ⟨hvalid.advance, ?_⟩
    intro p hp
    obtain ⟨taken, -, rfl⟩ := (shows_iff s p).mp hp
    exact hvalid.advance taken

/-- A failure at the start of the second line, and a state farther right on the first one. -/
theorem positions_in_order_lines :
    let s : State := ⟨['(', '\n', ')'], ⟨3, 7, 40⟩⟩
    let p : Position := ⟨3, 8, 41⟩
    let q : Position := ⟨4, 1, 42⟩
    s.pos.Valid ∧ ['('] <+: s.input ∧ ['(', '\n'] <+: s.input ∧ s.Shows p ∧ s.Shows q ∧
    p.place < q.place ∧ compare p.place q.place = compare p.offset q.offset ∧ q.Valid := by
  intro s p q
  have hvalid : s.pos.Valid := ⟨by decide, by decide, by decide⟩
  have hfirst : ['('] <+: s.input := ⟨['\n', ')'], rfl⟩
  have hsecond : ['(', '\n'] <+: s.input := ⟨[')'], rfl⟩
  have hreaches : s.Reaches ⟨['\n', ')'], p⟩ := ⟨['('], rfl, rfl⟩
  have hnested := Nesting.composed_nested (Kit.plain Empty) (Given.none Empty)
  have hfails : ((Nesting.nested : Parser Empty Nat).parse s).outcome =
      .ok (.failure ⟨"unexpected '\\n'", ["'('", "'x'"], q⟩) := by decide +kernel
  have hstate : s.Shows p := Shows.state hreaches
  have hfailure : s.Shows q :=
    Shows.reply (fun _ _ h => h.elim) hnested (Reaches.refl s) hfails
  obtain ⟨hlonger, horder, hkept⟩ := positions_in_order s
  obtain ⟨hplace, -⟩ := hlonger ['('] ['(', '\n'] hfirst hsecond (by decide)
  exact ⟨hvalid, hfirst, hsecond, hstate, hfailure, hplace, (horder p q hstate hfailure).2,
    (hkept hvalid).2 q hfailure⟩

end State

end Parsing
