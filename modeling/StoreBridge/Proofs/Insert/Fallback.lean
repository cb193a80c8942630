import StoreBridge.Proofs.Document.Merging
import StoreBridge.Proofs.Insert.ReadBack

/-!
The record that an insert falls back on. Beside the submitted fields it has the number that was
generated, in the field that seems to be the key. A number that the caller has put there is not
compared with it: it is lost, also where the field only has a name like a key's.
-/
namespace StoreBridge
namespace Reconciliation

/-- The whole number that a value is, or reads as. -/
inductive Numbers : Value → Int → Prop where
  | int (i : Int64) : Numbers (.int i) i.toInt
  | float {x : Binary64} {n : Int} (whole : x.toInt? = some n) : Numbers (.float x) n
  | text {s : String} {i : Int64} (reads : Digits.toInt64? (Text.trimmed s.toList) = some i) :
    Numbers (.text s) i.toInt

/-- A value is held as it was given, or as the integer that it is. -/
def HeldAs (own held : Value) : Prop :=
  held = own ∨ ∃ i : Int64, held = .int i ∧ Numbers own i.toInt

theorem heldAs_int {i : Int64} {held : Value} : HeldAs (.int i) held ↔ held = .int i := by
  constructor
  · rintro (rfl | ⟨j, rfl, number⟩)
    · rfl
    · generalize same : j.toInt = n at number
      cases number
      rw [Int64.toInt_inj.mp same]
  · exact .inl

section Missed
variable {outcome : InsertOutcome} {given : Record} {declared : List String}
  {readBack : String → Value → Except Error (Option Record)} {name : String}

theorem fallback_cases (declared : List String) (noRow : ReportsNoRow outcome)
    (missed : ∀ field value row, readBack field value ≠ .ok (some row)) :
    let record := ((ofOutcome outcome given declared).resolve readBack).1
    (∃ key value, TellsRow given declared key ∧ (key.guessed → ∀ id, ¬Usable outcome id) ∧
      KeyedBy outcome given key.name value ∧ Wrote given record key.name value) ∨
    (∃ id, Usable outcome id ∧ (∀ key, TellsRow given declared key → key.guessed) ∧
      Wrote given record "id" id) ∨
    (∀ id, ¬Usable outcome id) ∧ record = given := by
  rw [ofOutcome_noRow noRow]
  obtain ⟨key, value, found, trusted, keyed, left⟩ | ⟨id, made, guessed, left⟩ |
    ⟨unmade, _, left⟩ := ofGenerated_cases (reported outcome) given declared
  · rw [left, resolve, join_missed (missed key.name value)]
    exact .inl ⟨key, value, keyField_some.mp found,
      fun guessed => reported_none.mp (trusted guessed), keyValue_iff.mp keyed,
      wrote_insert given key.name value⟩
  · rw [left]
    exact .inr (.inl ⟨id, reported_iff.mp made,
      fun key tells => guessed key (keyField_some.mpr tells), wrote_withIdentity given id⟩)
  · rw [left]
    exact .inr (.inr ⟨reported_none.mp unmade, rfl⟩)

theorem no_id (guessed : ∀ key, TellsRow given declared key → key.guessed) :
    given.get? "id" = none := by
  cases found : keyField given declared with
  | none =>
    rw [keyField_none found]
    rfl
  | some key =>
    have tells := tells_of_keyField found
    have only := guessed key tells
    cases tells with
    | guessed noId =>
      have id : IsId "id" := (isId_iff "id").mp (by decide +kernel)
      exact Entries.get?_none_iff.mpr fun mem => noId "id" mem id
    | _ => contradiction

theorem overwritten {own id : Value} (noRow : ReportsNoRow outcome)
    (missed : ∀ field value row, readBack field value ≠ .ok (some row)) (mine : Own given name own)
    (numeric : own.isNumeric) (tells : TellsRow given declared ⟨name, false⟩)
    (usable : Usable outcome id) :
    ((ofOutcome outcome given declared).resolve readBack).1.get? name = some id := by
  obtain ⟨key, value, also, _, keyed, wrote⟩ | ⟨_, _, guessed, _⟩ | ⟨none, _⟩ :=
    fallback_cases declared noRow missed
  · obtain rfl := tells.eq also
    rw [wrote, if_pos rfl]
    cases keyed with
    | word other word => simp [mine.eq other, numeric] at word
    | generated again _ => rw [usable.eq again]
    | number _ none => exact absurd usable (none id)
  · exact absurd (guessed _ tells) Bool.false_ne_true
  · exact absurd usable (none id)

theorem changed_field (noRow : ReportsNoRow outcome)
    (missed : ∀ field value row, readBack field value ≠ .ok (some row))
    (differs : ((ofOutcome outcome given declared).resolve readBack).1.get? name ≠
      given.get? name) :
    ∃ id, Usable outcome id ∧
      ((ofOutcome outcome given declared).resolve readBack).1.get? name = some id ∧
      (TellsRow given declared ⟨name, false⟩ ∧ (∀ own, Own given name own → own.isNumeric) ∨
        name = "id" ∧ given.get? "id" = none) := by
  obtain ⟨⟨field, guessed⟩, value, tells, trusted, keyed, wrote⟩ | ⟨id, usable, guessed, wrote⟩ |
    ⟨_, same⟩ := fallback_cases declared noRow missed
  · by_cases here : name = field
    · subst here
      have written := (wrote name).trans (if_pos rfl)
      -- An own value that is looked up by is written where it was.
      cases keyed with
      | word mine | number mine => exact absurd (written.trans mine.1.symm) differs
      | generated usable replaced =>
        have sure : guessed = false := by
          rw [← Bool.not_eq_true]
          exact fun guessed => trusted guessed value usable
        subst sure
        exact ⟨value, usable, written, .inl ⟨tells, replaced⟩⟩
    · exact absurd ((wrote name).trans (if_neg here)) differs
  · by_cases here : name = "id"
    · subst here
      exact ⟨id, usable, (wrote "id").trans (if_pos rfl), .inr ⟨rfl, no_id guessed⟩⟩
    · exact absurd ((wrote name).trans (if_neg here)) differs
  · exact absurd (congrArg (Entries.get? · name) same) differs

/-- A field's own value is kept unless it is a number in a key that was not guessed, and another
    number was generated. Only generated numbers are written. -/
theorem fallback_keeps_iff (noRow : ReportsNoRow outcome)
    (missed : ∀ field value row, readBack field value ≠ .ok (some row)) :
    let record := ((ofOutcome outcome given declared).resolve readBack).1
    (∀ name own, Own given name own →
      ((∃ held, record.get? name = some held ∧ HeldAs own held) ↔
        ¬(own.isNumeric ∧ TellsRow given declared ⟨name, false⟩ ∧
          ∃ id, Usable outcome id ∧ ¬HeldAs own id))) ∧
    ∀ name, record.get? name ≠ given.get? name →
      ∃ id, Usable outcome id ∧ record.get? name = some id ∧
        (TellsRow given declared ⟨name, false⟩ ∧ (∀ own, Own given name own → own.isNumeric) ∨
          name = "id" ∧ given.get? "id" = none) := by
  intro record
  refine ⟨fun name own mine => ⟨?lost, ?kept⟩, fun name => changed_field noRow missed⟩
  case lost =>
    rintro ⟨held, there, same⟩ ⟨numeric, tells, id, usable, apart⟩
    have written := overwritten noRow missed mine numeric tells usable
    obtain rfl := Option.some.inj (written.symm.trans there)
    exact apart same
  case kept =>
    intro kept
    by_cases same : record.get? name = given.get? name
    · exact ⟨own, same.trans mine.1, .inl rfl⟩
    · obtain ⟨id, usable, written, ⟨tells, numeric⟩ | ⟨rfl, none⟩⟩ :=
        changed_field noRow missed same
      · refine ⟨id, written, ?_⟩
        by_contra apart
        exact kept ⟨numeric own mine, tells, id, usable, apart⟩
      · exact absurd (mine.1.symm.trans none) (Option.some_ne_none own)

end Missed

/-- A caller's text in the key is kept, beside a number that was generated. -/
theorem fallback_keeps_iff_text :
    let given : Record := [("id", .text "user-abc"), ("name", .text "Ann")]
    let outcome := InsertOutcome.lastInsertId (.int 99)
    let readBack : String → Value → Except Error (Option Record) := fun _ _ => .ok none
    let record := ((ofOutcome outcome given []).resolve readBack).1
    (∀ name own, Own given name own →
      ((∃ held, record.get? name = some held ∧ HeldAs own held) ↔
        ¬(own.isNumeric ∧ TellsRow given [] ⟨name, false⟩ ∧
          ∃ id, Usable outcome id ∧ ¬HeldAs own id))) ∧
    ∀ name, record.get? name ≠ given.get? name →
      ∃ id, Usable outcome id ∧ record.get? name = some id ∧
        (TellsRow given [] ⟨name, false⟩ ∧ (∀ own, Own given name own → own.isNumeric) ∨
          name = "id" ∧ given.get? "id" = none) :=
  fallback_keeps_iff (.lastInsertId _) fun _ _ _ => nofun

/-- An order's customer becomes the number of the order, and its total stays. -/
theorem foreign_key_overwritten :
    let given : Record := [("customer_id", .int 5), ("total", .int 10)]
    let outcome := InsertOutcome.lastInsertId (.int 12)
    let readBack : String → Value → Except Error (Option Record) := fun _ _ => .ok none
    let record := ((ofOutcome outcome given []).resolve readBack).1
    ReportsNoRow outcome ∧ Own given "customer_id" (.int 5) ∧
      record = [("customer_id", .int 12), ("total", .int 10)] ∧
      ¬∃ held, record.get? "customer_id" = some held ∧ HeldAs (.int 5) held := by
  intro given outcome readBack record
  have key : keyField given [] = some ⟨"customer_id", false⟩ := by
    have noId : findName given isId = none := by decide +kernel
    have ending : findName given endsLikeKey = some "customer_id" := by decide +kernel
    exact keyField_of_tells (.ending ((findName_none isId_iff).mp noId)
      ((findName_some endsLikeKey_iff).mp ending))
  have written : record = [("customer_id", .int 12), ("total", .int 10)] := by
    simp only [record, outcome, ofOutcome, ofGenerated, generated?, key]
    rfl
  refine ⟨.lastInsertId _, ⟨rfl, by simp⟩, written, ?_⟩
  rw [written]
  rintro ⟨held, there, same⟩
  obtain rfl : Value.int 12 = held := Option.some.inj there
  exact absurd (Value.int.inj (heldAs_int.mp same)) (by decide)

end Reconciliation
end StoreBridge
