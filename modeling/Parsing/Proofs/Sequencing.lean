import Parsing.Proofs.Chain
import Parsing.Proofs.Laws
import Parsing.Proofs.Records

/-!
Parsers one after another. There are four ways to put a list of parsers in sequence: a script that
waits for each in turn, nested `flatMap`, `zip` bracketed to the left, and a record with a field for
each. For coherent parsers all four run the same parsers from the same states up to the first that
does not succeed, and end as that one does; the values come in the shape of each way. The parsers
give values of one type, which may itself be a type of values of many kinds.
-/

namespace Parsing

namespace Reply

variable {ω α β γ : Type}

/-- The reply with its value in another shape. -/
def map (f : α → β) : Reply α → Reply β
  | success a rest => success (f a) rest
  | failure e => failure e

theorem andThen_map (reply : Reply α) (f : α → β) (k : β → State → Run ω (Reply γ)) :
    (reply.map f).andThen k = reply.andThen fun a rest => k (f a) rest := by
  cases reply <;> rfl

theorem andThen_bind_map (reply : Reply α) (k : α → State → Run ω (Reply β)) (f : β → γ) :
    (reply.andThen k >>= fun next => pure (next.map f)) =
      reply.andThen fun a rest => k a rest >>= fun next => pure (next.map f) := by
  cases reply with
  | success a rest => rfl
  | failure e => exact pure_bind _ _

end Reply

/-- Waits for each parser in turn and ends with all values, after those seen already. -/
def Script.stepAll {ω σ α : Type} : List (Parser ω α) → List α → Script ω σ (Ending ω (List α))
  | [], seen => return .value seen
  | p :: rest, seen => do
    let a ← step p
    stepAll rest (seen ++ [a])

/-- A parser together with the way to read the values off the shape that it gives them. -/
structure Pairing (ω α : Type) where
  shape : Type
  parser : Parser ω shape
  values : shape → List α

namespace Pairing

variable {ω α : Type}

/-- One more parser at the end of a chain of pairs. -/
def snoc (front : Pairing ω α) (p : Parser ω α) : Pairing ω α where
  shape := front.shape × α
  parser := front.parser.zip p
  values pair := front.values pair.1 ++ [pair.2]

def single (p : Parser ω α) : Pairing ω α := ⟨α, p, fun a => [a]⟩

/-- The reply with the pairs read as a list. -/
def listed (front : Pairing ω α) (s : State) : Run ω (Reply (List α)) := do
  return (← front.parser.parse s).map front.values

end Pairing

namespace Parser

variable {ω σ α β γ : Type}

def flatMapAll : List (Parser ω α) → List α → Parser ω (List α)
  | [], seen => result seen
  | p :: rest, seen => p.flatMap fun a => return flatMapAll rest (seen ++ [a])

def zipAll (p : Parser ω α) (rest : List (Parser ω α)) : Pairing ω α :=
  rest.foldl Pairing.snoc (Pairing.single p)

def bindAll (record : Parser ω (Record String α)) (fields : List (String × Parser ω α)) :
    Parser ω (Record String α) :=
  fields.foldl (fun record field => record.bind field.1 field.2.always) record

/-- One more parser after those that have given the values so far. -/
def follow (x : Run ω (Reply (List α))) (p : Parser ω α) : Run ω (Reply (List α)) := do
  (← x).andThen fun seen middle => do
    (← p.parse middle).andThen fun a rest => return .success (seen ++ [a]) rest

/-! What a sequence does, parser by parser. -/

/-- The parsers succeed one after another, each from where the one before it has left the state. -/
inductive AllSucceed : List (Parser ω α) → State → List (Entry ω) → List α → State → Prop
  | nil (s : State) : AllSucceed [] s [] [] s
  | cons {p : Parser ω α} {rest : List (Parser ω α)} {s middle t : State}
      {first later : List (Entry ω)} {a : α} {values : List α}
      (hp : p.parse s = ⟨first, .ok (.success a middle)⟩)
      (hrest : AllSucceed rest middle later values t) :
      AllSucceed (p :: rest) s (first ++ later) (a :: values) t

/-- All parsers succeed, or one fails or ends with a fault after all before it have succeeded. Of
the parsers after that one nothing is run. -/
inductive EndInTurn : List (Parser ω α) → State → Run ω (Reply (List α)) → Prop
  | success {ps : List (Parser ω α)} {s t : State} {entries : List (Entry ω)} {values : List α}
      (h : AllSucceed ps s entries values t) : EndInTurn ps s ⟨entries, .ok (.success values t)⟩
  | failure {before after : List (Parser ω α)} {p : Parser ω α} {s t : State}
      {entries own : List (Entry ω)} {values : List α} {e : Failure}
      (h : AllSucceed before s entries values t) (hp : p.parse t = ⟨own, .ok (.failure e)⟩) :
      EndInTurn (before ++ p :: after) s ⟨entries ++ own, .ok (.failure e)⟩
  | fault {before after : List (Parser ω α)} {p : Parser ω α} {s t : State}
      {entries own : List (Entry ω)} {values : List α} {f : Fault}
      (h : AllSucceed before s entries values t) (hp : p.parse t = ⟨own, .error f⟩) :
      EndInTurn (before ++ p :: after) s ⟨entries ++ own, .error f⟩

theorem AllSucceed.concat {ps : List (Parser ω α)} {p : Parser ω α} {s t u : State}
    {entries own : List (Entry ω)} {values : List α} {a : α}
    (h : AllSucceed ps s entries values t) (hp : p.parse t = ⟨own, .ok (.success a u)⟩) :
    AllSucceed (ps ++ [p]) s (entries ++ own) (values ++ [a]) u := by
  induction h with
  | nil s => simpa using AllSucceed.cons hp (.nil u)
  | cons hfirst _ ih =>
    rw [List.append_assoc]
    exact .cons hfirst (ih hp)

theorem AllSucceed.length_eq {ps : List (Parser ω α)} {s t : State} {entries : List (Entry ω)}
    {values : List α} (h : AllSucceed ps s entries values t) : values.length = ps.length := by
  induction h with
  | nil s => rfl
  | cons _ _ ih => rw [List.length_cons, List.length_cons, ih]

theorem EndInTurn.length_eq {ps : List (Parser ω α)} {s t : State} {x : Run ω (Reply (List α))}
    {values : List α} (h : EndInTurn ps s x) (hout : x.outcome = .ok (.success values t)) :
    values.length = ps.length := by
  cases h with
  | success hps =>
    cases hout
    exact hps.length_eq
  | failure _ _ => cases hout
  | fault _ _ => cases hout

theorem EndInTurn.concat {ps : List (Parser ω α)} {s : State} {x : Run ω (Reply (List α))}
    (h : EndInTurn ps s x) (p : Parser ω α) : EndInTurn (ps ++ [p]) s (follow x p) := by
  cases h with
  | @success ps s t entries values hps =>
    rw [follow, Run.ok_bind, Reply.andThen]
    rcases hp : p.parse t with ⟨own, fault | ⟨a, u⟩ | e⟩
    · rw [Run.error_bind]
      exact .fault hps hp
    · rw [Run.ok_bind, Reply.andThen, Run.pure_def, Run.after, Run.after, List.append_nil]
      exact .success (hps.concat hp)
    · rw [Run.ok_bind, Reply.andThen, Run.pure_def, Run.after, Run.after, List.append_nil]
      exact .failure hps hp
  | failure hbefore hq =>
    rw [follow, Run.ok_bind, Reply.andThen, Run.pure_def, Run.after, List.append_nil,
      List.append_assoc]
    exact .failure hbefore hq
  | fault hbefore hq =>
    rw [follow, Run.error_bind, List.append_assoc]
    exact .fault hbefore hq

/-- By induction on the parsers that follow. -/
theorem EndInTurn.append {before : List (Parser ω α)} {s : State} {x : Run ω (Reply (List α))}
    (h : EndInTurn before s x) (ps : List (Parser ω α)) :
    EndInTurn (before ++ ps) s (ps.foldl follow x) := by
  induction ps generalizing before x with
  | nil => simpa using h
  | cons p rest ih => simpa using ih (h.concat p)

/-! Each way of sequencing is `follow` once for each parser. -/

theorem foldl_follow (ps : List (Parser ω α)) (x : Run ω (Reply (List α))) :
    ps.foldl follow x =
      x >>= fun reply => reply.andThen fun seen rest =>
        ps.foldl follow (pure (.success seen rest)) := by
  induction ps generalizing x with
  | nil => exact (Reply.bind_andThen_success x).symm
  | cons p rest ih =>
    simp only [List.foldl_cons]
    rw [ih]
    simp only [follow, bind_assoc, Reply.andThen_bind_andThen, pure_bind, Reply.andThen_success]
    apply congrArg
    funext reply
    congr 1
    funext seen middle
    rw [ih]
    simp only [bind_assoc, Reply.andThen_bind_andThen, pure_bind, Reply.andThen_success]

/-- The first parser is run from where the values so far have left the state. -/
theorem foldl_follow_cons (p : Parser ω α) (rest : List (Parser ω α)) (seen : List α) (s : State) :
    (p :: rest).foldl follow (pure (.success seen s)) =
      p.parse s >>= fun reply => reply.andThen fun a middle =>
        rest.foldl follow (pure (.success (seen ++ [a]) middle)) := by
  rw [List.foldl_cons, foldl_follow]
  simp only [follow, bind_assoc, Reply.andThen_bind_andThen, pure_bind, Reply.andThen_success]

theorem parse_flatMapAll (ps : List (Parser ω α)) (hps : ∀ p ∈ ps, p.Coherent) (seen : List α)
    (s : State) : (flatMapAll ps seen).parse s = ps.foldl follow (pure (.success seen s)) := by
  induction ps generalizing seen s with
  | nil => rfl
  | cons p rest ih =>
    have hp := hps p List.mem_cons_self
    have hrest := fun q hq => hps q (List.mem_cons_of_mem p hq)
    rw [foldl_follow_cons, flatMapAll, parse_flatMap, hp.reported_eq]
    simp only [pure_bind, ih hrest]

theorem parse_ofScript_stepAll (ps : List (Parser ω α)) (hps : ∀ p ∈ ps, p.Coherent)
    (seen : List α) (locals : σ) (s : State) :
    (ofScript (Script.stepAll ps seen) locals).parse s =
      ps.foldl follow (pure (.success seen s)) := by
  induction ps generalizing seen s with
  | nil => rfl
  | cons p rest ih =>
    have hp := hps p List.mem_cons_self
    have hrest := fun q hq => hps q (List.mem_cons_of_mem p hq)
    rw [foldl_follow_cons, Script.stepAll, parse_ofScript_step, hp.reported_eq]
    simp only [ih hrest]

theorem listed_snoc (front : Pairing ω α) (p : Parser ω α) (s : State) :
    (front.snoc p).listed s = follow (front.listed s) p := by
  simp only [Pairing.listed, Pairing.snoc, parse_zip, follow, bind_assoc, pure_bind,
    Reply.andThen_map, Reply.andThen_bind_map]
  rfl

theorem listed_zipAll (p : Parser ω α) (rest : List (Parser ω α)) (s : State) :
    (zipAll p rest).listed s = (p :: rest).foldl follow (pure (.success [] s)) := by
  have hfold : ∀ front : Pairing ω α,
      (rest.foldl Pairing.snoc front).listed s = rest.foldl follow (front.listed s) := by
    induction rest with
    | nil => exact fun _ => rfl
    | cons q rest ih =>
      intro front
      rw [List.foldl_cons, List.foldl_cons, ih, listed_snoc]
  have hsingle : (Pairing.single p).listed s = follow (pure (.success [] s)) p := by
    simp only [Pairing.listed, Pairing.single, follow, pure_bind, Reply.andThen_success]
    apply congrArg
    funext reply
    cases reply <;> rfl
  rw [zipAll, hfold, hsingle, List.foldl_cons]

theorem parse_bind_always (record : Parser ω (Record String α)) (key : String) (p : Parser ω α)
    (s : State) :
    (record.bind key p.always).parse s =
      (do
        (← record.reported s).andThen fun r middle => do
          (← p.parse middle).andThen fun a rest => return .success (r.put key a) rest) := by
  simp only [bind, extend, always, pure_bind]

theorem parse_bind_of_parse (record : Parser ω (Record String α)) (hmessage : record.message = none)
    (before : List (String × Parser ω α)) (key : String) (p : Parser ω α)
    (hkey : key ∉ before.map Prod.fst) (x : Run ω (Reply (List α))) (s : State)
    (hx : EndInTurn (before.map Prod.snd) s x)
    (hrecord : record.parse s = (do return (← x).map (before.map Prod.fst).zip)) :
    (record.bind key p.always).parse s =
      (do return (← follow x p).map (before.map Prod.fst ++ [key]).zip) := by
  rw [parse_bind_always, reported_of_message_none record hmessage, hrecord]
  simp only [follow, bind_assoc, pure_bind, Reply.andThen_map, Reply.andThen_bind_map]
  apply Run.bind_congr_outcome
  intro reply hout
  cases reply with
  | success seen middle =>
    have hlen : seen.length = (before.map Prod.fst).length := by
      rw [hx.length_eq hout, List.length_map, List.length_map]
    simp only [Reply.andThen_success, Record.put_zip _ key seen _ hkey hlen]
    rfl
  | failure e => rfl

/-- What `x` gives goes under the keys of the fields before, and each further value under the key of
its field. -/
theorem parse_bindAll (fields before : List (String × Parser ω α))
    (hkeys : ((before ++ fields).map Prod.fst).Nodup) (record : Parser ω (Record String α))
    (hmessage : record.message = none) (x : Run ω (Reply (List α))) (s : State)
    (hx : EndInTurn (before.map Prod.snd) s x)
    (hrecord : record.parse s = (do return (← x).map (before.map Prod.fst).zip)) :
    (bindAll record fields).parse s =
      (do
        return (← (fields.map Prod.snd).foldl follow x).map
          ((before ++ fields).map Prod.fst).zip) := by
  induction fields generalizing before record x with
  | nil => simpa [bindAll] using hrecord
  | cons field rest ih =>
    obtain ⟨key, p⟩ := field
    have hkey : key ∉ before.map Prod.fst := by
      intro hmem
      rw [List.map_append, List.nodup_append] at hkeys
      exact hkeys.2.2 key hmem key (by simp) rfl
    have happend : before ++ (key, p) :: rest = (before ++ [(key, p)]) ++ rest := by simp
    have hnext := parse_bind_of_parse record hmessage before key p hkey x s hx hrecord
    rw [happend] at hkeys ⊢
    apply ih (before ++ [(key, p)]) hkeys (record.bind key p.always) rfl (follow x p)
    · simpa using hx.concat p
    · simpa using hnext

/-- All ways of sequencing coherent parsers end in the same run, up to the shape of the values: the
parsers are run in turn, and where one fails its failure is the failure of all. -/
theorem sequences_agree (key : String) (p : Parser ω α) (fields : List (String × Parser ω α))
    (hkeys : (key :: fields.map Prod.fst).Nodup) (hp : p.Coherent)
    (hfields : ∀ field ∈ fields, field.2.Coherent) (s : State) :
    ∃ x, EndInTurn (p :: fields.map Prod.snd) s x ∧
      (ofScript (Script.stepAll (p :: fields.map Prod.snd) []) ()).parse s = x ∧
      (flatMapAll (p :: fields.map Prod.snd) []).parse s = x ∧
      (zipAll p (fields.map Prod.snd)).listed s = x ∧
      (bindAll emptyRecord ((key, p) :: fields)).parse s =
        (do return (← x).map (key :: fields.map Prod.fst).zip) := by
  have hps : ∀ q ∈ p :: fields.map Prod.snd, q.Coherent := by
    intro q hq
    rcases List.mem_cons.mp hq with rfl | hq
    · exact hp
    · obtain ⟨field, hfield, rfl⟩ := List.mem_map.mp hq
      exact hfields field hfield
  have hnil : EndInTurn [] s (pure (.success [] s) : Run ω (Reply (List α))) := .success (.nil s)
  refine ⟨_, hnil.append (p :: fields.map Prod.snd), ?_, ?_, ?_, ?_⟩
  · exact parse_ofScript_stepAll _ hps [] () s
  · exact parse_flatMapAll _ hps [] s
  · exact listed_zipAll p _ s
  · exact parse_bindAll ((key, p) :: fields) [] hkeys emptyRecord rfl _ s hnil rfl

/-- A name, a sign and a value, on a text without the sign: the last parser is not run. -/
theorem sequences_agree_three :
    let sign : Parser Empty Char := (symbol ['=']).withMessage "no sign"
    let fields : List (String × Parser Empty Char) := [("sign", sign), ("value", anyChar)]
    let missing : Run Empty (Reply (List Char)) :=
      ⟨[], .ok (.failure ⟨"no sign", ["'='"], ⟨1, 2, 1⟩⟩)⟩
    ("name" :: fields.map Prod.fst).Nodup ∧ (anyChar : Parser Empty Char).Coherent ∧
    (∀ field ∈ fields, field.2.Coherent) ∧
    EndInTurn (anyChar :: fields.map Prod.snd) (.ofText ['a', 'b']) missing ∧
    (ofScript (Script.stepAll (anyChar :: fields.map Prod.snd) []) ()).parse (.ofText ['a', 'b']) =
      missing ∧
    (flatMapAll (anyChar :: fields.map Prod.snd) []).parse (.ofText ['a', 'b']) = missing ∧
    (zipAll anyChar (fields.map Prod.snd)).listed (.ofText ['a', 'b']) = missing ∧
    (bindAll emptyRecord (("name", anyChar) :: fields)).parse (.ofText ['a', 'b']) =
      ⟨[], .ok (.failure ⟨"no sign", ["'='"], ⟨1, 2, 1⟩⟩)⟩ := by
  intro sign fields missing
  have hkeys : ("name" :: fields.map Prod.fst).Nodup := by decide
  have hany : (anyChar : Parser Empty Char).Coherent := coherent_of_message_none _ rfl
  have hfields : ∀ field ∈ fields, field.2.Coherent := by
    intro field hfield
    rcases List.mem_pair.mp hfield with rfl | rfl
    · exact coherent_withMessage _ _
    · exact hany
  obtain ⟨x, hx, hscript, hchain, hzip, hbind⟩ :=
    sequences_agree "name" anyChar fields hkeys hany hfields (.ofText ['a', 'b'])
  have hmissing : x = missing := hchain.symm.trans rfl
  subst hmissing
  exact ⟨hkeys, hany, hfields, hx, hscript, hchain, hzip, hbind⟩

end Parser

end Parsing
