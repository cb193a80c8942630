import StoreBridge.Proofs.Adapter.SingleRow
import StoreBridge.Proofs.Entries
import StoreBridge.Proofs.Text.Lines

/-!
What an insert comes to when the store has not reported its row. At most one look-up is made, by a
key that is known, and where it finds no row the submitted record comes back with that key. The
rules for the key's field and value are stated on their own, in the order in which they apply.
-/
namespace StoreBridge

theorem Plan.run_attempt {C : Type} {Reply : C → Type} {α σ : Type}
    {answer : (r : Request C) → σ → Except Error (Reply r.call) × σ} (plan : Plan C Reply α)
    (state : σ) :
    plan.attempt.run answer state =
      (.ok (plan.run answer state).1.toOption, (plan.run answer state).2) := by
  induction plan generalizing state with
  | done result => rfl
  | fail error => rfl
  | ask request rest ih => exact ih _ _

namespace Reconciliation

def First (test : String → Prop) (record : Record) (name : String) : Prop :=
  ∃ before after, record.keys = before ++ name :: after ∧ test name ∧ ∀ other ∈ before, ¬test other

def IsId (name : String) : Prop := Text.lower name = "id"

def EndsLikeKey (name : String) : Prop :=
  ∃ ending ∈ ["_id", "_name", "_code"], ∃ stem, Text.lower name = stem ++ ending

def SaysPrimary (name : String) : Prop :=
  ∃ before after, Text.lower name = before ++ "primary" ++ after

/-- The field that tells an inserted row from the others: a declared key, or else the name that
    sounds most like one, or else the first. -/
inductive TellsRow (given : Record) : List String → KeyField → Prop where
  | declared (name : String) (others : List String) :
    TellsRow given (name :: others) ⟨name, false⟩
  | id {name : String} (first : First IsId given name) : TellsRow given [] ⟨name, false⟩
  | ending {name : String} (noId : ∀ other ∈ given.keys, ¬IsId other)
    (first : First EndsLikeKey given name) : TellsRow given [] ⟨name, false⟩
  | primary {name : String} (noId : ∀ other ∈ given.keys, ¬IsId other)
    (noEnding : ∀ other ∈ given.keys, ¬EndsLikeKey other)
    (first : First SaysPrimary given name) : TellsRow given [] ⟨name, false⟩
  | guessed {name : String} (noId : ∀ other ∈ given.keys, ¬IsId other)
    (noEnding : ∀ other ∈ given.keys, ¬EndsLikeKey other)
    (noPrimary : ∀ other ∈ given.keys, ¬SaysPrimary other)
    (first : given.keys.head? = some name) : TellsRow given [] ⟨name, true⟩

section Names
variable {given : Record} {declared : List String} {test : String → Bool} {P : String → Prop}

theorem findName_some (same : ∀ name, test (Text.lower name) ↔ P name) {name : String} :
    findName given test = some name ↔ First P given name := by
  rw [findName, List.find?_eq_some_iff_append]
  simp only [First, same, Bool.not_eq_true', ← Bool.not_eq_true]
  constructor
  · rintro ⟨passes, before, after, split, none⟩
    exact ⟨before, after, split, passes, none⟩
  · rintro ⟨before, after, split, passes, none⟩
    exact ⟨passes, before, after, split, none⟩

theorem findName_none (same : ∀ name, test (Text.lower name) ↔ P name) :
    findName given test = none ↔ ∀ name ∈ given.keys, ¬P name := by
  rw [findName, List.find?_eq_none]
  simp only [same]

/-! The same tests, as they are made of a name in small letters. -/

abbrev isId (name : String) : Bool := name == "id"

abbrev endsLikeKey (name : String) : Bool :=
  hasEnding name "_id" || hasEnding name "_name" || hasEnding name "_code"

abbrev saysPrimary (name : String) : Bool := Text.hasPart "primary".toList name.toList

theorem isId_iff (name : String) : isId (Text.lower name) ↔ IsId name := beq_iff_eq

theorem hasEnding_iff {name ending : String} :
    hasEnding name ending ↔ ∃ stem, name = stem ++ ending := by
  rw [hasEnding, List.isSuffixOf_iff_suffix]
  constructor
  · rintro ⟨stem, same⟩
    refine ⟨String.ofList stem, String.toList_inj.mp ?_⟩
    rw [String.toList_append, String.toList_ofList, same]
  · rintro ⟨stem, rfl⟩
    exact ⟨stem.toList, String.toList_append.symm⟩

theorem endsLikeKey_iff (name : String) : endsLikeKey (Text.lower name) ↔ EndsLikeKey name := by
  simp [EndsLikeKey, hasEnding_iff, or_assoc]

theorem saysPrimary_iff (name : String) : saysPrimary (Text.lower name) ↔ SaysPrimary name := by
  rw [Text.hasPart_iff]
  constructor
  · rintro ⟨before, after, same⟩
    refine ⟨String.ofList before, String.ofList after, String.toList_inj.mp ?_⟩
    simp only [String.toList_append, String.toList_ofList, same]
  · rintro ⟨before, after, same⟩
    refine ⟨before.toList, after.toList, ?_⟩
    simp only [same, String.toList_append]

theorem keyField_of_tells {key : KeyField} (tells : TellsRow given declared key) :
    keyField given declared = some key := by
  cases tells with
  | declared name others => rfl
  | id first =>
    have id := (findName_some isId_iff).mpr first
    simp only [keyField, id]
    rfl
  | ending noId first =>
    have id := (findName_none isId_iff).mpr noId
    have ending := (findName_some endsLikeKey_iff).mpr first
    simp only [keyField, id, ending]
    rfl
  | primary noId noEnding first =>
    have id := (findName_none isId_iff).mpr noId
    have ending := (findName_none endsLikeKey_iff).mpr noEnding
    have primary := (findName_some saysPrimary_iff).mpr first
    simp only [keyField, id, ending, primary]
    rfl
  | guessed noId noEnding noPrimary first =>
    have id := (findName_none isId_iff).mpr noId
    have ending := (findName_none endsLikeKey_iff).mpr noEnding
    have primary := (findName_none saysPrimary_iff).mpr noPrimary
    obtain ⟨rest, keys⟩ := List.head?_eq_some_iff.mp first
    simp only [keyField, id, ending, primary, keys]
    rfl

theorem tells_of_keyField {key : KeyField} (found : keyField given declared = some key) :
    TellsRow given declared key := by
  cases declared with
  | cons name others =>
    obtain rfl := Option.some.inj found
    exact .declared name others
  | nil =>
    cases id : findName given isId with
    | some name =>
      simp only [keyField, id] at found
      obtain rfl := Option.some.inj found
      exact .id ((findName_some isId_iff).mp id)
    | none =>
      have noId := (findName_none isId_iff).mp id
      cases ending : findName given endsLikeKey with
      | some name =>
        simp only [keyField, id, ending] at found
        obtain rfl := Option.some.inj found
        exact .ending noId ((findName_some endsLikeKey_iff).mp ending)
      | none =>
        have noEnding := (findName_none endsLikeKey_iff).mp ending
        cases primary : findName given saysPrimary with
        | some name =>
          simp only [keyField, id, ending, primary] at found
          obtain rfl := Option.some.inj found
          exact .primary noId noEnding ((findName_some saysPrimary_iff).mp primary)
        | none =>
          have noPrimary := (findName_none saysPrimary_iff).mp primary
          cases keys : given.keys with
          | nil =>
            simp only [keyField, id, ending, primary, keys] at found
            contradiction
          | cons name rest =>
            simp only [keyField, id, ending, primary, keys] at found
            obtain rfl := Option.some.inj found
            exact .guessed noId noEnding noPrimary (by rw [keys]; rfl)

theorem keyField_some {key : KeyField} :
    keyField given declared = some key ↔ TellsRow given declared key :=
  ⟨tells_of_keyField, keyField_of_tells⟩

theorem TellsRow.eq {key other : KeyField} (tells : TellsRow given declared key)
    (also : TellsRow given declared other) : other = key :=
  Option.some.inj ((keyField_of_tells also).symm.trans (keyField_of_tells tells))

theorem keyField_none (none : keyField given declared = none) : given = [] := by
  cases declared with
  | cons name others => contradiction
  | nil =>
    cases given with
    | nil => rfl
    | cons field rest =>
      simp only [keyField, Entries.keys, List.map_cons] at none
      split at none <;> simp_all

end Names

def Usable (outcome : InsertOutcome) (id : Value) : Prop :=
  outcome = .lastInsertId id ∧ id ≠ .null ∧ id ≠ .int 0

/-- Neither a row nor the identity of a document. -/
inductive ReportsNoRow : InsertOutcome → Prop where
  | lastInsertId (id : Value) : ReportsNoRow (.lastInsertId id)
  | nothing : ReportsNoRow .nothing

def Own (given : Record) (field : String) (value : Value) : Prop :=
  given.get? field = some value ∧ value ≠ .null

/-- The value that a field is looked up by. -/
inductive KeyedBy (outcome : InsertOutcome) (given : Record) (field : String) : Value → Prop where
  | word {value : Value} (own : Own given field value) (word : value.isNumeric = false) :
    KeyedBy outcome given field value
  | generated {id : Value} (usable : Usable outcome id)
    (replaced : ∀ value, Own given field value → value.isNumeric) : KeyedBy outcome given field id
  | number {value : Value} (own : Own given field value) (none : ∀ id, ¬Usable outcome id) :
    KeyedBy outcome given field value

section Keys
variable {outcome : InsertOutcome} {given : Record} {declared : List String} {field : String}
  {value id : Value}

def reported : InsertOutcome → Option Value
  | .lastInsertId id => generated? id
  | _ => none

theorem generated?_iff {made : Value} :
    generated? made = some id ↔ made = id ∧ id ≠ .null ∧ id ≠ .int 0 := by
  unfold generated?
  split
  · constructor
    · nofun
    · rintro ⟨rfl, there, _⟩
      exact absurd rfl there
  · constructor
    · nofun
    · rintro ⟨rfl, _, there⟩
      exact absurd rfl there
  · rename_i there nonzero
    constructor
    · rintro ⟨⟩
      exact ⟨rfl, there, nonzero⟩
    · exact fun same => congrArg some same.1

theorem reported_iff : reported outcome = some id ↔ Usable outcome id := by
  cases outcome <;> simp [reported, Usable, generated?_iff]

theorem reported_none : reported outcome = none ↔ ∀ id, ¬Usable outcome id := by
  simp only [Option.eq_none_iff_forall_ne_some, ne_eq, reported_iff]

theorem Usable.eq {other : Value} (usable : Usable outcome id) (also : Usable outcome other) :
    other = id :=
  Option.some.inj ((reported_iff.mpr also).symm.trans (reported_iff.mpr usable))

theorem assigned?_iff : assigned? given field = some value ↔ Own given field value := by
  rw [assigned?, Option.filter_eq_some_iff]
  cases value <;> simp [Own, Value.isNull]

theorem Own.eq {other : Value} (own : Own given field value) (also : Own given field other) :
    other = value :=
  Option.some.inj (also.1.symm.trans own.1)

theorem keyValue_of_keyed (keyed : KeyedBy outcome given field value) :
    keyValue (assigned? given field) (reported outcome) = some value := by
  cases keyed with
  | word own word =>
    rw [assigned?_iff.mpr own]
    cases reported outcome <;> simp [keyValue, word]
  | generated usable replaced =>
    rw [reported_iff.mpr usable]
    cases own : assigned? given field with
    | none => rfl
    | some mine => simp [keyValue, replaced mine (assigned?_iff.mp own)]
  | number own none =>
    rw [assigned?_iff.mpr own, reported_none.mpr none]
    rfl

theorem keyed_of_keyValue
    (found : keyValue (assigned? given field) (reported outcome) = some value) :
    KeyedBy outcome given field value := by
  cases own : assigned? given field with
  | none =>
    cases made : reported outcome with
    | none =>
      rw [own, made] at found
      contradiction
    | some id =>
      rw [own, made] at found
      obtain rfl := Option.some.inj found
      refine .generated (reported_iff.mp made) fun mine assigned => ?_
      rw [assigned?_iff.mpr assigned] at own
      contradiction
  | some mine =>
    have assigned := assigned?_iff.mp own
    cases made : reported outcome with
    | none =>
      rw [own, made] at found
      obtain rfl := Option.some.inj found
      exact .number assigned (reported_none.mp made)
    | some id =>
      rw [own, made, keyValue] at found
      obtain rfl := Option.some.inj found
      cases numeric : mine.isNumeric with
      | true =>
        refine .generated (reported_iff.mp made) fun other also => ?_
        rwa [assigned.eq also]
      | false => exact .word assigned numeric

theorem keyValue_iff :
    keyValue (assigned? given field) (reported outcome) = some value ↔
      KeyedBy outcome given field value :=
  ⟨keyed_of_keyValue, keyValue_of_keyed⟩

theorem KeyedBy.eq {other : Value} (keyed : KeyedBy outcome given field value)
    (also : KeyedBy outcome given field other) : other = value :=
  Option.some.inj ((keyValue_of_keyed also).symm.trans (keyValue_of_keyed keyed))

theorem KeyedBy.ne_null (keyed : KeyedBy outcome given field value) : value ≠ .null := by
  cases keyed with
  | word own | number own => exact own.2
  | generated usable => exact usable.2.1

end Keys

def Wrote (given record : Record) (field : String) (value : Value) : Prop :=
  ∀ name, record.get? name = if name = field then some value else given.get? name

theorem wrote_insert (given : Record) (field : String) (value : Value) :
    Wrote given (given.insert field value) field value :=
  fun name => given.get?_insert field name value

theorem wrote_withIdentity (given : Record) (id : Value) :
    Wrote given (withIdentity given id) "id" id := by
  intro name
  rw [withIdentity, Entries.get?]
  by_cases same : name = "id"
  · simp [same]
  · rw [if_neg (Ne.symm same), if_neg same]
    induction given with
    | nil => rfl
    | cons e rest ih =>
      by_cases id : e.1 = "id"
      · simp [Entries.get?, id, ih, Ne.symm same]
      · simp [Entries.get?, id, ih]

theorem ofGenerated_cases (generated : Option Value) (given : Record) (declared : List String) :
    (∃ key value, keyField given declared = some key ∧ (key.guessed → generated = none) ∧
      keyValue (assigned? given key.name) generated = some value ∧
      ofGenerated generated given declared =
        .lookUp key.name value (given.insert key.name value)) ∨
    (∃ id, generated = some id ∧ (∀ key, keyField given declared = some key → key.guessed) ∧
      ofGenerated generated given declared = .settled (withIdentity given id)) ∨
    (generated = none ∧
      (∀ key, keyField given declared = some key → assigned? given key.name = none) ∧
      ofGenerated generated given declared = .settled given) := by
  cases found : keyField given declared with
  | none =>
    obtain rfl := keyField_none found
    cases generated with
    | none => exact .inr (.inr ⟨rfl, nofun, by simp only [ofGenerated, found]⟩)
    | some id =>
      refine .inr (.inl ⟨id, rfl, nofun, ?_⟩)
      simp only [ofGenerated, found]
      rfl
  | some key =>
    obtain ⟨name, guessed⟩ := key
    cases generated with
    | none =>
      cases own : assigned? given name with
      | none =>
        refine .inr (.inr ⟨rfl, ?_, ?_⟩)
        · rintro _ ⟨⟩
          exact own
        · simp [ofGenerated, found, own, keyValue]
      | some value =>
        refine .inl ⟨⟨name, guessed⟩, value, rfl, fun _ => rfl, ?_, ?_⟩
        · rw [own]
          rfl
        · simp [ofGenerated, found, own, keyValue]
    | some id =>
      cases guessed with
      | true =>
        -- A guessed field does not get the number.
        refine .inr (.inl ⟨id, rfl, ?_, ?_⟩)
        · rintro _ ⟨⟩
          rfl
        · simp only [ofGenerated, found]
      | false =>
        obtain ⟨value, keyed⟩ :
            ∃ value, keyValue (assigned? given name) (some id) = some value := by
          cases assigned? given name <;> exact ⟨_, rfl⟩
        refine .inl ⟨⟨name, false⟩, value, rfl, nofun, keyed, ?_⟩
        simp [ofGenerated, found, keyed]

/-- The record that an insert comes to, and the look-ups that were made for it. One that fails is
    as good as one that finds nothing. -/
def resolve (readBack : String → Value → Except Error (Option Record)) :
    Reconciliation → Record × List (String × Value)
  | .settled record => (record, [])
  | .lookUp field value fallback =>
    ((Reconciliation.lookUp field value fallback).finish (readBack field value).toOption.join,
      [(field, value)])

theorem join_missed {result : Except Error (Option Record)}
    (missed : ∀ row, result ≠ .ok (some row)) : result.toOption.join = none := by
  rcases result with error | row | row
  · rfl
  · rfl
  · exact absurd rfl (missed row)

/-- The contract of an insert: what it asks for, and what it returns. -/
structure Settles (outcome : InsertOutcome) (given : Record) (declared : List String)
    (readBack : String → Value → Except Error (Option Record)) (record : Record)
    (asked : List (String × Value)) : Prop where
  once : asked.length ≤ 1
  asks : ∀ field value, (field, value) ∈ asked ↔
    ReportsNoRow outcome ∧ KeyedBy outcome given field value ∧
      ∃ key, TellsRow given declared key ∧ key.name = field ∧
        (key.guessed → ∀ id, ¬Usable outcome id)
  known : ∀ field value, (field, value) ∈ asked → value ≠ .null
  found : ∀ field value row, (field, value) ∈ asked → readBack field value = .ok (some row) →
    record = row
  missed : ∀ field value, (field, value) ∈ asked →
    (∀ row, readBack field value ≠ .ok (some row)) → Wrote given record field value
  unasked : ReportsNoRow outcome → asked = [] →
    (∀ id, Usable outcome id → Wrote given record "id" id) ∧
      ((∀ id, ¬Usable outcome id) → record = given)
  identity : ∀ id, outcome = .generatedId id → Wrote given record "id" id
  inline : ∀ rows, outcome = .rows rows → record = rows.head?.getD given

section Settling
variable {outcome : InsertOutcome} {given : Record} {declared : List String}

theorem ofOutcome_noRow (noRow : ReportsNoRow outcome) :
    ofOutcome outcome given declared = ofGenerated (reported outcome) given declared := by
  cases noRow <;> rfl

theorem generatedId_settles {id : Value}
    (readBack : String → Value → Except Error (Option Record)) :
    Settles (.generatedId id) given declared readBack (withIdentity given id) [] where
  once := Nat.zero_le _
  asks field value := ⟨nofun, fun ⟨noRow, _⟩ => nomatch noRow⟩
  known := nofun
  found := nofun
  missed := nofun
  unasked := nofun
  identity := by
    rintro _ ⟨⟩
    exact wrote_withIdentity given id
  inline := nofun

theorem rows_settles {rows : List Record}
    (readBack : String → Value → Except Error (Option Record)) :
    Settles (.rows rows) given declared readBack (rows.head?.getD given) [] where
  once := Nat.zero_le _
  asks field value := ⟨nofun, fun ⟨noRow, _⟩ => nomatch noRow⟩
  known := nofun
  found := nofun
  missed := nofun
  unasked := nofun
  identity := nofun
  inline := by
    rintro _ ⟨⟩
    rfl

theorem lookUp_settles (noRow : ReportsNoRow outcome)
    (readBack : String → Value → Except Error (Option Record)) {key : KeyField} {value : Value}
    (tells : TellsRow given declared key) (trusted : key.guessed → ∀ id, ¬Usable outcome id)
    (keyed : KeyedBy outcome given key.name value) :
    Settles outcome given declared readBack
      ((readBack key.name value).toOption.join.getD (given.insert key.name value))
      [(key.name, value)] where
  once := Nat.le_refl _
  asks field other := by
    rw [List.mem_singleton, Prod.mk.injEq]
    constructor
    · rintro ⟨rfl, rfl⟩
      exact ⟨noRow, keyed, key, tells, rfl, trusted⟩
    · rintro ⟨_, also, twin, again, rfl, _⟩
      -- The rules leave one field and one value.
      obtain rfl := tells.eq again
      exact ⟨rfl, keyed.eq also⟩
  known field other mem := by
    obtain ⟨rfl, rfl⟩ := Prod.mk.inj (List.mem_singleton.mp mem)
    exact keyed.ne_null
  found field other row mem read := by
    obtain ⟨rfl, rfl⟩ := Prod.mk.inj (List.mem_singleton.mp mem)
    rw [read]
    rfl
  missed field other mem missing := by
    obtain ⟨rfl, rfl⟩ := Prod.mk.inj (List.mem_singleton.mp mem)
    rw [join_missed missing]
    exact wrote_insert given key.name other
  unasked _ := nofun
  identity := by
    rintro _ rfl
    contradiction
  inline := by
    rintro _ rfl
    contradiction

theorem unread_settles (noRow : ReportsNoRow outcome)
    (readBack : String → Value → Except Error (Option Record)) {record : Record}
    (unkeyed : ∀ key value, TellsRow given declared key →
      (key.guessed → ∀ id, ¬Usable outcome id) → ¬KeyedBy outcome given key.name value)
    (wrote : ∀ id, Usable outcome id → Wrote given record "id" id)
    (kept : (∀ id, ¬Usable outcome id) → record = given) :
    Settles outcome given declared readBack record [] where
  once := Nat.zero_le _
  asks field value := by
    refine ⟨nofun, ?_⟩
    rintro ⟨_, keyed, key, tells, rfl, trusted⟩
    exact absurd keyed (unkeyed key value tells trusted)
  known := nofun
  found := nofun
  missed := nofun
  unasked _ _ := ⟨wrote, kept⟩
  identity := by
    rintro _ rfl
    contradiction
  inline := by
    rintro _ rfl
    contradiction

theorem noRow_settles (noRow : ReportsNoRow outcome)
    (readBack : String → Value → Except Error (Option Record)) :
    let (record, asked) := (ofOutcome outcome given declared).resolve readBack
    Settles outcome given declared readBack record asked := by
  rw [ofOutcome_noRow noRow]
  obtain ⟨key, value, found, trusted, keyed, left⟩ | ⟨id, made, guessed, left⟩ |
    ⟨unmade, unassigned, left⟩ := ofGenerated_cases (reported outcome) given declared
  · rw [left]
    exact lookUp_settles noRow readBack (keyField_some.mp found)
      (fun guessed => reported_none.mp (trusted guessed)) (keyValue_iff.mp keyed)
  · rw [left]
    have usable := reported_iff.mp made
    refine unread_settles noRow readBack ?_ ?_ fun none => absurd usable (none id)
    · intro key value tells trusted
      exact absurd usable (trusted (guessed key (keyField_some.mpr tells)) id)
    · intro other also
      obtain rfl := usable.eq also
      exact wrote_withIdentity given other
  · rw [left]
    have none := reported_none.mp unmade
    refine unread_settles noRow readBack ?_ (fun id usable => absurd usable (none id)) fun _ => rfl
    intro key value tells _ keyed
    have known := keyValue_iff.mpr keyed
    rw [unassigned key (keyField_some.mpr tells), unmade] at known
    contradiction

end Settling

/-- Every insert ends in a record, after one look-up at most. -/
theorem resolve_settles (outcome : InsertOutcome) (given : Record) (declared : List String)
    (readBack : String → Value → Except Error (Option Record)) :
    let (record, asked) := (ofOutcome outcome given declared).resolve readBack
    Settles outcome given declared readBack record asked := by
  match outcome with
  | .rows [] | .rows (_ :: _) => exact rows_settles readBack
  | .generatedId _ => exact generatedId_settles readBack
  | .lastInsertId id => exact noRow_settles (.lastInsertId id) readBack
  | .nothing => exact noRow_settles .nothing readBack

end Reconciliation

namespace SqlAdapter

theorem insert_resolves {σ : Type}
    {answer : (r : Request SqlCall) → σ → Except Error r.call.Reply × σ} (a : SqlAdapter)
    (place : Place) (table : String) (record : Record) {state stored : σ} {outcome : InsertOutcome}
    (told : (a.outcome place (.insert table record a.backend)).run answer state =
      (.ok outcome, stored)) :
    let r := Reconciliation.ofOutcome outcome record (a.primaryKeys table)
    ((a.insert place table record).run answer state).1 = .ok (r.resolve fun field value =>
      ((a.findOne place table (.equals field value)).run answer stored).1).1 := by
  simp only [insert, Plan.run_bind, told]
  cases Reconciliation.ofOutcome outcome record (a.primaryKeys table) with
  | settled settled => rfl
  | lookUp field value fallback =>
    simp only [Plan.run_bind, Plan.run_attempt]
    rfl

end SqlAdapter
end StoreBridge
