import Parsing.Proofs.Records
import Parsing.Proofs.Waiting
import Parsing.Value

/-!
Records built field by field. Each field is chosen with the record that the fields before it have
made, parsed where they have left the state, and stored before the next one is chosen. The first
step that goes wrong ends the whole, and nothing after it is run. `EndsInOrder` says so without
reference to the parsers that fields are added to, and the chain of these parsers does just that.
-/

namespace Parsing

namespace Field

variable {ω ρ β : Type}

/-- What stands for the field once the record so far is known. -/
def given : Field ω ρ β → ρ → Run ω (Item ω β)
  | fixed item, _ => return item
  | chosen choose, r => choose r

/-- Only what is fixed beforehand and is no parser is refused. -/
theorem choice_eq_given {field : Field ω ρ β} (h : ∀ kind, field ≠ fixed (.stray kind)) :
    field.choice = .ok field.given := by
  cases field with
  | fixed item =>
    cases item with
    | parser q => rfl
    | stray kind => exact (h kind rfl).elim
  | chosen choose => rfl

variable (store : String → ρ → β → Run ω ρ)

/-- The field is chosen, parsed and stored, which gives a value and a new record. -/
inductive Fills (key : String) (field : Field ω ρ β) (r : ρ) (s : State) :
    List (Entry ω) → β → ρ → State → Prop
  | mk {chosen own last : List (Entry ω)} {q : Parser ω β} {b : β} {r' : ρ} {t : State}
      (hgiven : field.given r = ⟨chosen, .ok (.parser q)⟩)
      (hparse : q.parse s = ⟨own, .ok (.success b t)⟩)
      (hstore : store key r b = ⟨last, .ok r'⟩) :
      Fills key field r s (chosen ++ (own ++ last)) b r' t

/-- One of the steps goes wrong, all before it having gone well. They come in this order: the choice
raises a fault; what it gives is no parser, and the fault names the key; the parser fails, in its
own words; it raises a fault; the value cannot be stored. -/
inductive Stops (key : String) (field : Field ω ρ β) (r : ρ) (s : State) :
    List (Entry ω) → Except Fault Failure → Prop
  | choice {own : List (Entry ω)} {fault : Fault}
      (hgiven : field.given r = ⟨own, .error fault⟩) : Stops key field r s own (.error fault)
  | stray {own : List (Entry ω)} {kind : Kind} (hgiven : field.given r = ⟨own, .ok (.stray kind)⟩) :
      Stops key field r s own (.error (.strayChoice key kind))
  | failure {chosen own : List (Entry ω)} {q : Parser ω β} {e : Failure}
      (hgiven : field.given r = ⟨chosen, .ok (.parser q)⟩)
      (hparse : q.parse s = ⟨own, .ok (.failure e)⟩) :
      Stops key field r s (chosen ++ own) (.ok e)
  | fault {chosen own : List (Entry ω)} {q : Parser ω β} {fault : Fault}
      (hgiven : field.given r = ⟨chosen, .ok (.parser q)⟩)
      (hparse : q.parse s = ⟨own, .error fault⟩) :
      Stops key field r s (chosen ++ own) (.error fault)
  | unstored {chosen own last : List (Entry ω)} {q : Parser ω β} {b : β} {t : State} {fault : Fault}
      (hgiven : field.given r = ⟨chosen, .ok (.parser q)⟩)
      (hparse : q.parse s = ⟨own, .ok (.success b t)⟩)
      (hstore : store key r b = ⟨last, .error fault⟩) :
      Stops key field r s (chosen ++ (own ++ last)) (.error fault)

/-- The fields are filled one after another, which gives the values under their keys. -/
inductive AllFill : List (String × Field ω ρ β) → ρ → State → List (Entry ω) →
    List (String × β) → ρ → State → Prop
  | nil (r : ρ) (s : State) : AllFill [] r s [] [] r s
  | cons {key : String} {field : Field ω ρ β} {rest : List (String × Field ω ρ β)} {r r' r'' : ρ}
      {s middle t : State} {own later : List (Entry ω)} {b : β} {pairs : List (String × β)}
      (hfield : Fills store key field r s own b r' middle)
      (hrest : AllFill rest r' middle later pairs r'' t) :
      AllFill ((key, field) :: rest) r s (own ++ later) ((key, b) :: pairs) r'' t

/-! The same as a program. -/

def fillIn (key : String) (field : Field ω ρ β) (r : ρ) (s : State) : Run ω (Reply ρ) := do
  match ← field.given r with
  | .stray kind => Run.raise (.strayChoice key kind)
  | .parser q => (← q.parse s).andThen fun b rest => return .success (← store key r b) rest

def fillAll : List (String × Field ω ρ β) → ρ → State → Run ω (Reply ρ)
  | [], r, s => return .success r s
  | (key, field) :: rest, r, s => do (← fillIn store key field r s).andThen (fillAll rest)

variable {store} {key : String} {field : Field ω ρ β} {r r' : ρ} {s t : State}
  {own entries : List (Entry ω)} {b : β} {pairs : List (String × β)} {stop : Except Fault Failure}

theorem Fills.fillIn_eq (h : Fills store key field r s own b r' t) :
    fillIn store key field r s = ⟨own, .ok (.success r' t)⟩ := by
  cases h with
  | mk hgiven hparse hstore =>
    simp only [fillIn, hgiven, hparse, hstore, Run.ok_bind, Reply.andThen_success, Run.pure_def,
      Run.after, List.append_nil]

theorem Stops.fillIn_eq (h : Stops store key field r s own stop) :
    fillIn store key field r s = ⟨own, stop.map .failure⟩ := by
  cases h with
  | choice hgiven =>
    rw [fillIn, hgiven, Run.error_bind]
    rfl
  | stray hgiven =>
    simp only [fillIn, hgiven, Run.ok_bind, Run.raise, Run.after, List.append_nil]
    rfl
  | failure hgiven hparse =>
    simp only [fillIn, hgiven, hparse, Run.ok_bind, Reply.andThen, Run.pure_def, Run.after,
      List.append_nil]
    rfl
  | fault hgiven hparse =>
    simp only [fillIn, hgiven, hparse, Run.ok_bind, Run.error_bind, Run.after]
    rfl
  | unstored hgiven hparse hstore =>
    simp only [fillIn, hgiven, hparse, hstore, Run.ok_bind, Run.error_bind, Reply.andThen_success,
      Run.after]
    rfl

theorem fills_or_stops (store : String → ρ → β → Run ω ρ) (key : String) (field : Field ω ρ β)
    (r : ρ) (s : State) :
    (∃ own b r' t, Fills store key field r s own b r' t) ∨
      ∃ own stop, Stops store key field r s own stop := by
  rcases hgiven : field.given r with ⟨chosen, fault | ⟨q | kind⟩⟩
  · exact .inr ⟨_, _, .choice hgiven⟩
  · rcases hparse : q.parse s with ⟨own, fault | ⟨b, t⟩ | e⟩
    · exact .inr ⟨_, _, .fault hgiven hparse⟩
    · rcases hstore : store key r b with ⟨last, fault | r'⟩
      · exact .inr ⟨_, _, .unstored hgiven hparse hstore⟩
      · exact .inl ⟨_, _, _, _, .mk hgiven hparse hstore⟩
    · exact .inr ⟨_, _, .failure hgiven hparse⟩
  · exact .inr ⟨_, _, .stray hgiven⟩

/-- What is filled first makes the record and the state for the fields after it. -/
theorem AllFill.fillAll_append {before : List (String × Field ω ρ β)}
    (h : AllFill store before r s entries pairs r' t) (after : List (String × Field ω ρ β)) :
    fillAll store (before ++ after) r s = (fillAll store after r' t).after entries := by
  induction h with
  | nil r s => exact (Run.after_nil _).symm
  | cons hfield _ ih =>
    rw [List.cons_append, fillAll, hfield.fillIn_eq, Run.ok_bind, Reply.andThen_success, ih,
      Run.after, Run.after, Run.after, List.append_assoc]

theorem AllFill.fillAll_eq {fields : List (String × Field ω ρ β)}
    (h : AllFill store fields r s entries pairs r' t) :
    fillAll store fields r s = ⟨entries, .ok (.success r' t)⟩ := by
  have happend := h.fillAll_append []
  rwa [List.append_nil, fillAll, Run.after, Run.pure_def, List.append_nil] at happend

/-- Nothing after a field that stops is run. -/
theorem Stops.fillAll_cons (h : Stops store key field r s own stop)
    (after : List (String × Field ω ρ β)) :
    fillAll store ((key, field) :: after) r s = ⟨own, stop.map .failure⟩ := by
  rw [fillAll, h.fillIn_eq]
  cases stop with
  | error fault => exact Run.error_bind own fault _
  | ok e =>
    rw [Except.map, Run.ok_bind, Reply.andThen, Run.pure_def, Run.after, List.append_nil]

/-- By induction on the fields: all are filled, or there is a first one that stops. -/
theorem allFill_or_stops (store : String → ρ → β → Run ω ρ) (fields : List (String × Field ω ρ β))
    (r : ρ) (s : State) :
    (∃ entries pairs r' t, AllFill store fields r s entries pairs r' t) ∨
      ∃ before key field after entries pairs r' t own stop,
        fields = before ++ (key, field) :: after ∧
        AllFill store before r s entries pairs r' t ∧ Stops store key field r' t own stop := by
  induction fields generalizing r s with
  | nil => exact .inl ⟨_, _, _, _, .nil r s⟩
  | cons first rest ih =>
    obtain ⟨key, field⟩ := first
    rcases fills_or_stops store key field r s with ⟨own, b, r', t, hfield⟩ | ⟨own, stop, hstop⟩
    · rcases ih r' t with ⟨_, _, _, _, hrest⟩ |
        ⟨before, key', field', after, _, _, _, _, _, _, rfl, hbefore, hstop⟩
      · exact .inl ⟨_, _, _, _, .cons hfield hrest⟩
      · exact .inr ⟨(key, field) :: before, key', field', after, _, _, _, _, _, _, rfl,
          .cons hfield hbefore, hstop⟩
    · exact .inr ⟨[], key, field, rest, _, _, _, _, _, _, rfl, .nil r s, hstop⟩

end Field

namespace Parser

variable {ω ρ β : Type}

open Parsing.Field

/-- Adds one field after another. -/
def extendFields (store : String → ρ → β → Run ω ρ) :
    Parser ω ρ → List (String × Field ω ρ β) → Except Fault (Parser ω ρ)
  | p, [] => .ok p
  | p, (key, field) :: rest => do
    extendFields store (p.extend key (← field.choice) (store key)) rest

/-- Adds one field of a record after another. -/
def bindFields :
    Parser ω (Record String β) → List (String × Field ω (Record String β) β) →
      Except Fault (Parser ω (Record String β))
  | p, [] => .ok p
  | p, (key, field) :: rest => do bindFields (p.bind key (← field.choice)) rest

/-- How a parser for a record ends to which fields are added: with the record in which all fields
are stored, or with the fault or the failure of its own, or as the first field does that stops. It
fails under its recorded message, unless no field is there to look at its report. -/
inductive EndsInOrder (store : String → ρ → β → Run ω ρ) (p : Parser ω ρ) :
    List (String × Field ω ρ β) → State → Run ω (Reply ρ) → Prop
  | stored {fields : List (String × Field ω ρ β)} {s middle t : State}
      {first entries : List (Entry ω)} {r r' : ρ} {pairs : List (String × β)}
      (hp : p.parse s = ⟨first, .ok (.success r middle)⟩)
      (hfields : AllFill store fields r middle entries pairs r' t) :
      EndsInOrder store p fields s ⟨first ++ entries, .ok (.success r' t)⟩
  | alone {s : State} {first : List (Entry ω)} {e : Failure}
      (hp : p.parse s = ⟨first, .ok (.failure e)⟩) :
      EndsInOrder store p [] s ⟨first, .ok (.failure e)⟩
  | failure {field : String × Field ω ρ β} {rest : List (String × Field ω ρ β)} {s : State}
      {first : List (Entry ω)} {e : Failure} (hp : p.parse s = ⟨first, .ok (.failure e)⟩) :
      EndsInOrder store p (field :: rest) s ⟨first, .ok (.failure (e.reworded p.message))⟩
  | fault {fields : List (String × Field ω ρ β)} {s : State} {first : List (Entry ω)}
      {fault : Fault} (hp : p.parse s = ⟨first, .error fault⟩) :
      EndsInOrder store p fields s ⟨first, .error fault⟩
  | stopped {before after : List (String × Field ω ρ β)} {key : String} {field : Field ω ρ β}
      {s middle t : State} {first entries own : List (Entry ω)} {r r' : ρ}
      {pairs : List (String × β)} {stop : Except Fault Failure}
      (hp : p.parse s = ⟨first, .ok (.success r middle)⟩)
      (hbefore : AllFill store before r middle entries pairs r' t)
      (hstop : Stops store key field r' t own stop) :
      EndsInOrder store p (before ++ (key, field) :: after) s
        ⟨first ++ (entries ++ own), stop.map .failure⟩

/-- What the chain of parsers does, as a program. Only a field looks at the report. -/
def parseFields (store : String → ρ → β → Run ω ρ) (p : Parser ω ρ) :
    List (String × Field ω ρ β) → State → Run ω (Reply ρ)
  | [], s => p.parse s
  | field :: rest, s => do (← p.reported s).andThen (fillAll store (field :: rest))

variable {store : String → ρ → β → Run ω ρ} {p : Parser ω ρ}

theorem parse_extend_given (key : String) (field : Field ω ρ β) (s : State) :
    (p.extend key field.given (store key)).parse s =
      (do (← p.reported s).andThen (fillIn store key field)) := rfl

theorem parseFields_of_message_none (h : p.message = none) (fields : List (String × Field ω ρ β))
    (s : State) :
    p.parseFields store fields s = (do (← p.parse s).andThen (fillAll store fields)) := by
  cases fields with
  | nil => exact (Reply.bind_andThen_success (p.parse s)).symm
  | cons field rest => rw [parseFields, reported_of_message_none p h]

theorem parseFields_extend (key : String) (field : Field ω ρ β)
    (rest : List (String × Field ω ρ β)) (s : State) :
    (p.extend key field.given (store key)).parseFields store rest s =
      p.parseFields store ((key, field) :: rest) s := by
  rw [parseFields_of_message_none rfl, parse_extend_given, parseFields]
  simp only [bind_assoc, Reply.andThen_bind_andThen]
  rfl

/-- Where no field is fixed to what is no parser, the chain can be made. -/
theorem exists_extendFields (fields : List (String × Field ω ρ β))
    (hfields : ∀ field ∈ fields, ∀ kind, field.2 ≠ .fixed (.stray kind)) :
    ∃ chain, p.extendFields store fields = .ok chain ∧
      ∀ s, chain.parse s = p.parseFields store fields s := by
  induction fields generalizing p with
  | nil => exact ⟨p, rfl, fun _ => rfl⟩
  | cons first rest ih =>
    obtain ⟨key, field⟩ := first
    have hfield := hfields (key, field) List.mem_cons_self
    obtain ⟨chain, hchain, hparse⟩ := ih (p := p.extend key field.given (store key))
      fun other hother => hfields other (List.mem_cons_of_mem _ hother)
    refine ⟨chain, ?_, fun s => ?_⟩
    · rw [extendFields, choice_eq_given hfield]
      exact hchain
    · rw [hparse, parseFields_extend]

theorem parseFields_of_success (fields : List (String × Field ω ρ β)) {s middle : State}
    {first : List (Entry ω)} {r : ρ} (hp : p.parse s = ⟨first, .ok (.success r middle)⟩) :
    p.parseFields store fields s = (fillAll store fields r middle).after first := by
  cases fields with
  | nil => rw [parseFields, hp, fillAll, Run.pure_def, Run.after, List.append_nil]
  | cons field rest =>
    rw [parseFields, reported_eq_of_parse hp, Run.ok_bind]
    rfl

theorem parseFields_of_fault (fields : List (String × Field ω ρ β)) {s : State}
    {first : List (Entry ω)} {fault : Fault} (hp : p.parse s = ⟨first, .error fault⟩) :
    p.parseFields store fields s = ⟨first, .error fault⟩ := by
  cases fields with
  | nil => exact hp
  | cons field rest => rw [parseFields, reported, hp, Run.error_bind, Run.error_bind]

theorem parseFields_cons_of_failure (field : String × Field ω ρ β)
    (rest : List (String × Field ω ρ β)) {s : State} {first : List (Entry ω)} {e : Failure}
    (hp : p.parse s = ⟨first, .ok (.failure e)⟩) :
    p.parseFields store (field :: rest) s = ⟨first, .ok (.failure (e.reworded p.message))⟩ := by
  rw [parseFields, reported_eq_of_parse hp, Run.ok_bind, Reply.reworded, Reply.andThen,
    Run.pure_def, Run.after, List.append_nil]

theorem parseFields_eq_iff (fields : List (String × Field ω ρ β)) (s : State)
    (x : Run ω (Reply ρ)) : p.parseFields store fields s = x ↔ EndsInOrder store p fields s x := by
  constructor
  · rintro rfl
    rcases hp : p.parse s with ⟨first, fault | ⟨r, middle⟩ | e⟩
    · rw [parseFields_of_fault fields hp]
      exact .fault hp
    · rw [parseFields_of_success fields hp]
      rcases allFill_or_stops store fields r middle with ⟨_, _, _, _, hfill⟩ |
        ⟨_, _, _, _, _, _, _, _, _, _, rfl, hbefore, hstop⟩
      · rw [hfill.fillAll_eq]
        exact .stored hp hfill
      · rw [hbefore.fillAll_append, hstop.fillAll_cons]
        exact .stopped hp hbefore hstop
    · cases fields with
      | nil =>
        rw [parseFields, hp]
        exact .alone hp
      | cons field rest =>
        rw [parseFields_cons_of_failure field rest hp]
        exact .failure hp
  · intro h
    cases h with
    | stored hp hfields =>
      rw [parseFields_of_success _ hp, hfields.fillAll_eq]
      rfl
    | alone hp => exact hp
    | failure hp => exact parseFields_cons_of_failure _ _ hp
    | fault hp => exact parseFields_of_fault _ hp
    | stopped hp hbefore hstop =>
      rw [parseFields_of_success _ hp, hbefore.fillAll_append, hstop.fillAll_cons]
      rfl

theorem exists_chain_inOrder (fields : List (String × Field ω ρ β))
    (hfields : ∀ field ∈ fields, ∀ kind, field.2 ≠ .fixed (.stray kind)) :
    ∃ chain, p.extendFields store fields = .ok chain ∧
      ∀ s x, chain.parse s = x ↔ EndsInOrder store p fields s x := by
  obtain ⟨chain, hchain, hparse⟩ := exists_extendFields fields hfields
  refine ⟨chain, hchain, fun s x => ?_⟩
  rw [hparse, parseFields_eq_iff]

end Parser

/-! Records. -/

/-- Storing in a record, which never goes wrong. -/
def Record.storing {ω β : Type} (key : String) (r : Record String β) (b : β) :
    Run ω (Record String β) := return r.put key b

/-- Storing in a value, which goes wrong unless it is a record. -/
def Value.storing {ω π : Type} (key : String) (v b : Value π) : Run ω (Value π) := v.withField key b

variable {ω β : Type}

theorem Field.AllFill.putAll_eq {fields : List (String × Field ω (Record String β) β)}
    {r r' : Record String β} {s t : State} {entries : List (Entry ω)} {pairs : List (String × β)}
    (h : AllFill Record.storing fields r s entries pairs r' t) :
    pairs.map Prod.fst = fields.map Prod.fst ∧ r' = r.putAll pairs := by
  induction h with
  | nil r s => exact ⟨rfl, rfl⟩
  | cons hfield _ ih =>
    cases hfield with
    | mk _ _ hstore =>
      cases hstore
      exact ⟨congrArg (_ :: ·) ih.1, ih.2⟩

theorem Parser.bindFields_eq (p : Parser ω (Record String β))
    (fields : List (String × Field ω (Record String β) β)) :
    p.bindFields fields = p.extendFields Record.storing fields := by
  induction fields generalizing p with
  | nil => rfl
  | cons field rest ih =>
    rw [bindFields, extendFields]
    simp only [ih]
    rfl

/-- Fields added to a parser for a record are run in order, up to the first step that goes wrong,
which is then how the whole ends. Where all goes well, each key has the value that was stored last
under it, the keys of the first record keep their places, and the new ones follow as they first
came. A field sees exactly such a record of the fields before it. Where a value stands in place of
a record the order is the same, and that it is no record comes out last. -/
theorem record_of_fields (p : Parser ω (Record String β))
    (fields : List (String × Field ω (Record String β) β))
    (hfields : ∀ field ∈ fields, ∀ kind, field.2 ≠ .fixed (.stray kind)) :
    (∃ chain, p.bindFields fields = .ok chain ∧
      ∀ s x, chain.parse s = x ↔ Parser.EndsInOrder Record.storing p fields s x) ∧
    (∀ (filled : List (String × Field ω (Record String β) β)) r s entries pairs r' t,
      Field.AllFill Record.storing filled r s entries pairs r' t →
        pairs.map Prod.fst = filled.map Prod.fst ∧ r' = r.putAll pairs ∧
        r'.keys = r.keys ++ ((filled.map Prod.fst).removeAll r.keys).eraseDups ∧
        ∀ key, r'.get? key = (Record.get? key pairs.reverse).or (r.get? key)) ∧
    ∀ {π : Type} (q : Parser ω (Value π)) (others : List (String × Field ω (Value π) (Value π))),
      (∀ field ∈ others, ∀ kind, field.2 ≠ .fixed (.stray kind)) →
      ∃ chain, q.extendFields Value.storing others = .ok chain ∧
        ∀ s x, chain.parse s = x ↔ Parser.EndsInOrder Value.storing q others s x := by
  refine ⟨?_, ?_, ?_⟩
  · rw [p.bindFields_eq]
    exact Parser.exists_chain_inOrder fields hfields
  · intro filled r s entries pairs r' t h
    obtain ⟨hkeys, rfl⟩ := h.putAll_eq
    refine ⟨hkeys, rfl, ?_, r.get?_putAll pairs⟩
    rw [← hkeys, Record.keys_putAll]
  · exact fun q others hothers => Parser.exists_chain_inOrder others hothers

/-- A field that looks at the one before it stores under a key of the first record, and the last
field stores under the key of the first one. A field of a number is parsed before it turns out that
a number is no record. -/
theorem record_of_fields_rebound :
    let p : Parser Empty (Record String Char) := .result [("c", '0'), ("b", '1')]
    let choose (r : Record String Char) : Run Empty (Item Empty Char) :=
      return if r.get? "a" = some 'x' then .parser (.symbol ['y']) else .stray .null
    let fields : List (String × Field Empty (Record String Char) Char) :=
      [("a", .fixed (.parser .anyChar)), ("b", .chosen choose), ("a", .fixed (.parser .anyChar))]
    let number : Parser Empty (Value Unit) := .result (.int 1)
    let others : List (String × Field Empty (Value Unit) (Value Unit)) :=
      [("a", .fixed (.parser (Parser.anyChar.map fun c => return .text [c])))]
    (∀ field ∈ fields, ∀ kind, field.2 ≠ .fixed (.stray kind)) ∧
    (∀ field ∈ others, ∀ kind, field.2 ≠ .fixed (.stray kind)) ∧
    Parser.EndsInOrder Record.storing p fields (.ofText ['x', 'y', 'z'])
      ⟨[], .ok (.success [("c", '0'), ("b", 'y'), ("a", 'z')] ⟨[], ⟨1, 4, 3⟩⟩)⟩ ∧
    Parser.EndsInOrder Value.storing number others (.ofText ['x']) ⟨[], .error .notRecord⟩ ∧
    Parser.EndsInOrder Value.storing number others (.ofText [])
      ⟨[], .ok (.failure ⟨"unexpected end of input", ["any character"], {}⟩)⟩ := by
  intro p choose fields number others
  have hfields : ∀ field ∈ fields, ∀ kind, field.2 ≠ .fixed (.stray kind) := by
    intro field hfield kind
    simp only [fields, List.mem_cons, List.not_mem_nil, or_false] at hfield
    rcases hfield with rfl | rfl | rfl <;> nofun
  have hothers : ∀ field ∈ others, ∀ kind, field.2 ≠ .fixed (.stray kind) := by
    intro field hfield kind
    simp only [others, List.mem_cons, List.not_mem_nil, or_false] at hfield
    subst hfield
    nofun
  obtain ⟨⟨chain, hchain, hends⟩, -, hvalues⟩ := record_of_fields p fields hfields
  obtain ⟨other, hother, hvalue⟩ := hvalues number others hothers
  cases hchain
  cases hother
  refine ⟨hfields, hothers, ?_, ?_, ?_⟩
  · exact (hends _ _).mp (by cbv)
  · exact (hvalue _ _).mp (by cbv)
  · exact (hvalue _ _).mp (by cbv)

end Parsing
