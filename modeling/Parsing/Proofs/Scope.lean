import Parsing.Proofs.Templates

/-!
How far a recorded message reaches. Some uses of a parser look at its report. They cannot tell a
message that is only recorded from one that is put into the parse function as well. The other uses
look at the reply, and to them a message that is only recorded is as good as none. Where a record
counts, it counts for the failures of its own parser, and of these it changes the message alone.
-/

namespace Parsing

namespace Script

variable {ω σ α β : Type}

/-- What follows a script starts where the script has succeeded. -/
theorem run_bind (body : Script ω σ α) (f : α → Script ω σ β) (locals : σ) (s : State) :
    (body >>= f).run locals s =
      body.run locals s >>= fun ended =>
        goOn ended.1 (fun a rest => (f a).run ended.1 rest) ended.2 := by
  change (body.andThen f).run locals s = _
  induction body generalizing locals s with
  | done a => simp only [andThen, run, pure_bind, goOn]
  | act action next ih =>
    simp only [andThen, run, bind_assoc]
    apply congrArg
    funext acted
    rcases acted with fault | ⟨b, new⟩
    · simp only [pure_bind, goOn]
    · exact ih b f new s
  | await item next ih =>
    cases item with
    | stray kind => simp only [andThen, run, pure_bind, goOn]
    | parser p =>
      simp only [andThen, run_await, bind_assoc]
      apply congrArg
      funext ended
      rcases ended with fault | ⟨b, rest⟩ | e
      · simp only [goOn, pure_bind]
      · exact ih b f locals rest
      · simp only [goOn, pure_bind]
  | guarded body cleanup next ihbody ihnext =>
    simp only [andThen, run_guarded, bind_assoc]
    apply congrArg
    funext stopped
    obtain ⟨left, ended⟩ := stopped
    apply congrArg ((cleanup left).attempt >>= ·)
    funext cleaned
    rcases cleaned with fault | ⟨⟩
    · simp only [pure_bind, goOn]
    · rcases ended with fault | ⟨b, rest⟩ | e
      · simp only [goOn, pure_bind]
      · exact ihnext b f left rest
      · simp only [goOn, pure_bind]

end Script

namespace Parser

variable {ω α β γ ρ : Type}

/-- No use that looks at the report tells the two parsers apart: a whole text, going on from the
parser, and a script that waits for it in any of its steps. -/
structure SameReport (p q : Parser ω α) : Prop where
  answer : ∀ source, (p.answer source).outcome = (q.answer source).outcome ∧
    (p.answer source).events = (q.answer source).events
  map : ∀ {β : Type} (f : α → Run ω β), p.map f = q.map f
  flatMap : ∀ {β : Type} (f : α → Run ω (Parser ω β)), p.flatMap f = q.flatMap f
  extend : ∀ {β γ : Type} (key : String) (choose : α → Run ω (Item ω β)) (store : α → β → Run ω γ),
    p.extend key choose store = q.extend key choose store
  transform : ∀ {β : Type} (f : α → State → Run ω (β × State)), p.transform f = q.transform f
  step : ∀ {σ β : Type} (body : Template ω σ α (Ending ω β)) (locals : σ),
    ofScript (body.fill p) locals = ofScript (body.fill q) locals

/-- No use that looks at the reply tells the two parsers apart: running the parser as it is, either
side of a pair, computing a message from its failure, and each way to give a parser to be run next.
A callback that gives `none` stands for one that gives the parser in question. -/
structure SameReply (p q : Parser ω α) : Prop where
  call : p.parse = q.parse
  zip_first : ∀ {β : Type} (other : Parser ω β), p.zip other = q.zip other
  zip_second : ∀ {β : Type} (other : Parser ω β), other.zip p = other.zip q
  withMessageFrom : ∀ f : Failure → Run ω String, p.withMessageFrom f = q.withMessageFrom f
  deferred : ∀ make : Run ω (Option (Parser ω α)),
    defer (return (← make).getD p) = defer (return (← make).getD q)
  chosen : ∀ {β : Type} (other : Parser ω β) (f : β → Run ω (Option (Parser ω α))),
    (other.flatMap fun b => return (← f b).getD p) = other.flatMap fun b => return (← f b).getD q
  fixed_field : ∀ {ρ γ : Type} (other : Parser ω ρ) (key : String) (store : ρ → α → Run ω γ),
    other.extend key p.always store = other.extend key q.always store
  chosen_field : ∀ {ρ γ : Type} (other : Parser ω ρ) (key : String)
    (choose : ρ → Run ω (Option (Item ω α))) (store : ρ → α → Run ω γ),
    other.extend key (fun r => return (← choose r).getD (.parser p)) store =
      other.extend key (fun r => return (← choose r).getD (.parser q)) store
  ending : ∀ {σ : Type} (body : Script ω σ (Option (Ending ω α))) (locals : σ),
    ofScript (return (← body).getD (.parser p)) locals =
      ofScript (return (← body).getD (.parser q)) locals

theorem sameReport_of_reported {p q : Parser ω α} (hreported : p.reported = q.reported)
    (hlabel : p.label = q.label) : SameReport p q where
  answer source := by
    rw [events_answer, events_answer, answer_eq, answer_eq, hreported]
    exact ⟨rfl, rfl⟩
  map f := by simp only [map, hreported, hlabel]
  flatMap f := by simp only [flatMap, hreported, hlabel]
  extend key choose store := by simp only [extend, hreported, hlabel]
  transform f := by simp only [transform, hreported, hlabel]
  step body locals := by simp only [ofScript, body.run_fill_congr hreported]

theorem parse_getD {p q : Parser ω α} (hparse : p.parse = q.parse) (x : Option (Parser ω α)) :
    (x.getD p).parse = (x.getD q).parse := by
  cases x with
  | none => exact hparse
  | some r => rfl

theorem sameReply_of_parse {p q : Parser ω α} (hparse : p.parse = q.parse)
    (hlabel : p.label = q.label) : SameReply p q where
  call := hparse
  zip_first other := by simp only [zip, hparse]
  zip_second other := by simp only [zip, hparse]
  withMessageFrom f := by simp only [withMessageFrom, hparse, hlabel]
  deferred make := by simp only [defer, bind_assoc, pure_bind, parse_getD hparse]
  chosen other f := by simp only [flatMap, bind_assoc, pure_bind, parse_getD hparse]
  fixed_field other key store := by simp only [extend, always, pure_bind, hparse]
  chosen_field other key choose store := by
    simp only [extend, bind_assoc, pure_bind]
    congr 1
    funext s
    apply congrArg
    funext reply
    congr 1
    funext r middle
    apply congrArg
    funext x
    cases x with
    | none => simp only [Option.getD, hparse]
    | some item => rfl
  ending body locals := by
    simp only [ofScript, Script.run_bind, bind_assoc]
    congr 1
    funext s
    apply congrArg
    funext stopped
    obtain ⟨left, ended⟩ := stopped
    rcases ended with fault | ⟨_ | ending, rest⟩ | e
    · rfl
    · exact congrFun hparse rest
    · rfl
    · rfl

theorem reported_withMessage (p : Parser ω α) (message : String) :
    (p.withMessage message).reported = { p with message := some message }.reported := by
  funext s
  simp only [reported, withMessage, bind_assoc, pure_bind, Reply.reworded_reworded]

end Parser

namespace Run

variable {ω α β : Type}

/-- The runs `x` and `y` tell apart no more than the message of a failure, and that only where `own`
is a failure already. Then both end with it, and `x` has put the message in. -/
structure Rewords (message : String) (own : Run ω (Reply α)) (x y : Run ω (Reply β)) : Prop where
  events : x.events = y.events
  failure : ∀ e, own.outcome = .ok (.failure e) →
    x.outcome = .ok (.failure { e with message }) ∧ y.outcome = .ok (.failure e)
  other : (∀ e, own.outcome ≠ .ok (.failure e)) → x.outcome = y.outcome

theorem rewords_andThen (message : String) (own : Run ω (Reply α))
    (k : α → State → Run ω (Reply β)) :
    Rewords message own (own >>= fun reply => (reply.reworded message).andThen k)
      (own >>= fun reply => reply.andThen k) := by
  obtain ⟨entries, outcome⟩ := own
  rcases outcome with fault | ⟨a, t⟩ | e
  · simp only [error_bind]
    exact ⟨rfl, nofun, fun _ => rfl⟩
  · simp only [ok_bind]
    exact ⟨rfl, nofun, fun _ => rfl⟩
  · simp only [ok_bind]
    refine ⟨rfl, ?_, fun h => (h e rfl).elim⟩
    rintro _ ⟨⟩
    exact ⟨rfl, rfl⟩

end Run

namespace Parser

variable {ω α : Type}

/-- In the uses that look at the report, the first parser does what the second one does, but for the
message of their own failures. A script is stopped by such a failure, and what runs after a success
of the parser fails in its own words. -/
structure DiffersByMessage (message : String) (p q : Parser ω α) : Prop where
  answer : ∀ source, (q.parse (.ofText source)).Rewords message (p.answer source) (q.answer source)
  map : ∀ {β : Type} (f : α → Run ω β) (s : State),
    (q.parse s).Rewords message ((p.map f).parse s) ((q.map f).parse s)
  flatMap : ∀ {β : Type} (f : α → Run ω (Parser ω β)) (s : State),
    (q.parse s).Rewords message ((p.flatMap f).parse s) ((q.flatMap f).parse s)
  extend : ∀ {β γ : Type} (key : String) (choose : α → Run ω (Item ω β)) (store : α → β → Run ω γ)
    (s : State), (q.parse s).Rewords message ((p.extend key choose store).parse s)
      ((q.extend key choose store).parse s)
  transform : ∀ {β : Type} (f : α → State → Run ω (β × State)) (s : State),
    (q.parse s).Rewords message ((p.transform f).parse s) ((q.transform f).parse s)
  step : ∀ {σ β : Type} (body : Template ω σ α (Ending ω β)) (locals : σ) (s : State),
    (ofScript (body.fill p) locals).parse s = (ofScript (body.fill q) locals).parse s ∨
    ∃ before own last due left t e, body.FailsAtHole q locals s before own last due left t e ∧
      (ofScript (body.fill p) locals).parse s =
        ⟨before ++ (own ++ last), .ok (.failure { e with message })⟩ ∧
      (ofScript (body.fill q) locals).parse s = ⟨before ++ (own ++ last), .ok (.failure e)⟩

theorem parse_ofScript_of_failsAtHole {σ β : Type} {body : Template ω σ α (Ending ω β)}
    {p : Parser ω α} {locals left : σ} {s t : State} {before own last : List (Entry ω)}
    {due : List (σ → Run ω Unit)} {e : Failure}
    (h : body.FailsAtHole p locals s before own last due left t e) :
    (ofScript (body.fill p) locals).parse s =
      ⟨before ++ (own ++ last), .ok (.failure (e.reworded p.message))⟩ :=
  parse_ofScript_of_waits h.waits (.failure h.fails) h.closes

theorem rewords_reported (parse : State → Run ω (Reply α)) (label : Option String)
    (message : String) (s : State) : (parse s).Rewords message
      (reported ⟨parse, label, some message⟩ s) (reported ⟨parse, label, none⟩ s) := by
  have h := Run.rewords_andThen message (parse s) fun a t => pure (.success a t)
  simpa only [reported, Reply.reworded_none, Reply.andThen_pure_success] using h

/-- The line about the message that was replaced is no event. -/
theorem rewords_answer (parse : State → Run ω (Reply α)) (label : Option String) (message : String)
    (source : Text) : (parse (.ofText source)).Rewords message
      (answer ⟨parse, label, some message⟩ source) (answer ⟨parse, label, none⟩ source) := by
  have h := rewords_reported parse label message (.ofText source)
  constructor
  · rw [events_answer, events_answer, h.events]
  · rw [answer_eq, answer_eq]
    exact h.failure
  · rw [answer_eq, answer_eq]
    exact h.other

theorem differsByMessage_of_record (parse : State → Run ω (Reply α)) (label : Option String)
    (message : String) :
    DiffersByMessage message ⟨parse, label, some message⟩ ⟨parse, label, none⟩ where
  answer := rewords_answer parse label message
  map f s := by
    simp only [map, reported, bind_assoc, pure_bind, Reply.reworded_none]
    exact Run.rewords_andThen message (parse s) _
  flatMap f s := by
    simp only [flatMap, reported, bind_assoc, pure_bind, Reply.reworded_none]
    exact Run.rewords_andThen message (parse s) _
  extend key choose store s := by
    simp only [extend, reported, bind_assoc, pure_bind, Reply.reworded_none]
    exact Run.rewords_andThen message (parse s) _
  transform f s := by
    simp only [transform, reported, bind_assoc, pure_bind, Reply.reworded_none]
    exact Run.rewords_andThen message (parse s) _
  step body locals s := by
    rcases body.agreesOrFails parse locals s with heq | ⟨before, own, last, due, left, t, e, h⟩
    · left
      simp only [ofScript, heq ⟨parse, label, some message⟩ ⟨parse, label, none⟩ rfl rfl]
    · right
      exact ⟨before, own, last, due, left, t, e, h _ rfl,
        parse_ofScript_of_failsAtHole (h ⟨parse, label, some message⟩ rfl),
        parse_ofScript_of_failsAtHole (h ⟨parse, label, none⟩ rfl)⟩

end Parser

variable {ω α : Type}

/-- A message that is only recorded, against the same message put into the parse function as well,
and against none. The first two are the same for whoever looks at the report, the first and the last
for whoever looks at the reply, a callback that makes another message among them. Where either of
the first two differs from the last, it does so in the message of its own failures. -/
theorem recorded_message_scope (parse : State → Run ω (Reply α)) (label : Option String)
    (message : String) :
    let carrier : Parser ω α := ⟨parse, label, some message⟩
    let plain : Parser ω α := ⟨parse, label, none⟩
    carrier.SameReport (plain.withMessage message) ∧ carrier.SameReply plain ∧
    (∀ f s own e, parse s = ⟨own, .ok (.failure e)⟩ → (carrier.withMessageFrom f).parse s =
      (do return .failure { e with message := ← f e } : Run ω (Reply α)).after own) ∧
    Parser.DiffersByMessage message carrier plain ∧
    ∀ s, (parse s).Rewords message ((plain.withMessage message).parse s) (plain.parse s) := by
  intro carrier plain
  refine ⟨?_, ?_, ?_, ?_, ?_⟩
  · exact Parser.sameReport_of_reported (plain.reported_withMessage message).symm rfl
  · exact Parser.sameReply_of_parse rfl rfl
  · intro f s own e hparse
    simp only [Parser.withMessageFrom, carrier, hparse, Run.ok_bind]
    rfl
  · exact Parser.differsByMessage_of_record parse label message
  · intro s
    rw [← plain.reported_of_message_none rfl]
    exact Parser.rewords_reported parse label message s

/-- The letter x with a message on record, at another letter: the message shows in the answer, but
neither in a pair nor to a callback. -/
theorem recorded_message_scope_symbol :
    let carrier : Parser String Char := { Parser.symbol ['x'] with message := some "no x" }
    let e : Failure := ⟨"unexpected 'y'", ["'x'"], {}⟩
    (carrier.answer ['y']).outcome = .ok (.failure { e with message := "no x" }) ∧
    ((carrier.zip Parser.anyChar).parse (.ofText ['y'])).outcome = .ok (.failure e) ∧
    (carrier.withMessageFrom fun e => do Run.note e.message; return "later").parse (.ofText ['y']) =
      ⟨[.event "unexpected 'y'"], .ok (.failure { e with message := "later" })⟩ := by
  intro carrier e
  have hfails : (Parser.symbol ['x']).parse (.ofText ['y']) =
      (⟨[], .ok (.failure e)⟩ : Run String (Reply Char)) := by cbv
  obtain ⟨-, hreply, hcallback, hdiffers, -⟩ :=
    recorded_message_scope (Parser.symbol ['x'] : Parser String Char).parse carrier.label "no x"
  refine ⟨?_, ?_, hcallback _ _ _ _ hfails⟩
  · exact ((hdiffers.answer ['y']).failure e (congrArg Run.outcome hfails)).1
  · have hzip : carrier.zip Parser.anyChar = _ := hreply.zip_first Parser.anyChar
    rw [hzip, Parser.parse_zip, hfails]
    rfl

end Parsing
