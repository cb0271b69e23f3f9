import Parsing.Parser.Character
import Parsing.Proofs.Overrides
import Parsing.Proofs.Replies

/-!
What the log says of a message that was replaced. The line is written where a whole text is answered
and shows the message that the parse function failed with. A message that is put into the parse
function as well has replaced the first one by then, so the line names it twice; where a message is
only recorded, the line names both.
-/

namespace Parsing

namespace Parser

variable {ω α : Type}

theorem parse_withMessage_of_parse {p : Parser ω α} {s : State} {own : List (Entry ω)}
    {reply : Reply α} (h : p.parse s = ⟨own, .ok reply⟩) (message : String) :
    (p.withMessage message).parse s = ⟨own, .ok (reply.reworded message)⟩ := by
  rw [parse_withMessage, Run.bind_pure_eq, h]
  rfl

/-- A failure is answered under the message on record, with a line about the one that the parse
function gave it. -/
theorem answer_of_failure {p : Parser ω α} {source : Text} {own : List (Entry ω)} {e : Failure}
    {message : String} (hmessage : p.message = some message)
    (h : p.parse (.ofText source) = ⟨own, .ok (.failure e)⟩) :
    p.answer source = ⟨own ++ [.line (.reworded p.describe e.pos message e.message)],
      .ok (.failure { e with message })⟩ := by
  rw [answer_eq, reported, Run.bind_pure_eq, h]
  simp only [rewordings, hmessage]
  rfl

/-! What does not fail is left as it is. -/

theorem bind_eq_self_of_not_failure {x : Run ω (Reply α)} {k : Reply α → Run ω (Reply α)}
    (h : ∀ e, x.outcome ≠ .ok (.failure e))
    (hk : ∀ a rest, k (.success a rest) = pure (.success a rest)) : x >>= k = x := by
  calc
    x >>= k = x >>= pure := by
      apply Run.bind_congr_outcome
      intro reply hout
      cases reply with
      | success a rest => exact hk a rest
      | failure e => exact (h e hout).elim
    _ = x := bind_pure x

theorem parse_withMessage_of_not_failure {p : Parser ω α} {s : State}
    (h : ∀ e, (p.parse s).outcome ≠ .ok (.failure e)) (message : String) :
    (p.withMessage message).parse s = p.parse s :=
  bind_eq_self_of_not_failure h fun _ _ => rfl

theorem answer_of_not_failure {p : Parser ω α} {source : Text}
    (h : ∀ e, (p.parse (.ofText source)).outcome ≠ .ok (.failure e)) :
    p.answer source = p.parse (.ofText source) :=
  bind_eq_self_of_not_failure h fun _ _ => rfl

/-- A failure under a message that was put in by `withMessage` is logged once, at its position, with
that message both as the one reported and as the one replaced. The message that was there before is
named by the line of a parser that has the message on record only, and nothing else tells the two
answers apart. What does not fail is answered as it is, without a line. -/
theorem logged_rewording (p : Parser ω α) (hmessage : p.message = none) (message : String)
    (source : Text) :
    (∀ own e, p.answer source = ⟨own, .ok (.failure e)⟩ →
      (p.withMessage message).answer source =
        ⟨own ++ [.line (.reworded p.describe e.pos message message)],
          .ok (.failure { e with message })⟩ ∧
      { p with message := some message }.answer source =
        ⟨own ++ [.line (.reworded p.describe e.pos message e.message)],
          .ok (.failure { e with message })⟩ ∧
      ((p.withMessage message).answer source = { p with message := some message }.answer source ↔
        e.message = message)) ∧
    ((∀ e, (p.answer source).outcome ≠ .ok (.failure e)) →
      (p.withMessage message).answer source = p.answer source) := by
  rw [answer_of_message_none p hmessage]
  constructor
  · intro own e h
    have hput : (p.withMessage message).answer source = _ :=
      answer_of_failure rfl (parse_withMessage_of_parse h message)
    have hrecorded : { p with message := some message }.answer source = _ :=
      answer_of_failure rfl h
    refine ⟨hput, hrecorded, ?_⟩
    rw [hput, hrecorded]
    simp [Failure.reworded, describe, withMessage, eq_comm]
  · intro h
    have hparse := parse_withMessage_of_not_failure h message
    rw [← hparse] at h ⊢
    exact answer_of_not_failure h

/-- The answer to another letter than a is told that one is needed. -/
theorem logged_rewording_letter :
    let p : Parser Empty Text := text ['a']
    let e : Failure := ⟨"unexpected 'b'", ["'a'"], {}⟩
    p.message = none ∧ p.answer ['b'] = ⟨[], .ok (.failure e)⟩ ∧
    (p.withMessage "need a").answer ['b'] =
      ⟨[.line (.reworded "<Parsec 'a'>" {} "need a" "need a")],
        .ok (.failure { e with message := "need a" })⟩ := by
  intro p e
  have hfails : p.answer ['b'] = ⟨[], .ok (.failure e)⟩ := by cbv
  refine ⟨rfl, hfails, ?_⟩
  exact ((logged_rewording p rfl "need a" ['b']).1 [] e hfails).1

/-- The message that was replaced stands nowhere in the log. -/
theorem replaced_message_not_logged :
    ((text ['a'] : Parser Empty Text).answer ['b']).outcome =
      .ok (.failure ⟨"unexpected 'b'", ["'a'"], {}⟩) ∧
    ¬∃ label pos reported, LogLine.reworded label pos reported "unexpected 'b'" ∈
      (((text ['a'] : Parser Empty Text).withMessage "need a").answer ['b']).lines := by
  constructor
  · cbv
  · rintro ⟨label, pos, reported, h⟩
    have hlines : (((text ['a'] : Parser Empty Text).withMessage "need a").answer ['b']).lines =
      [.reworded "<Parsec 'a'>" {} "need a" "need a"] := by cbv
    rw [hlines, List.mem_singleton] at h
    simp at h

end Parser

end Parsing
