import StoreBridge.Document.Query
import StoreBridge.Proofs.Document.Boundary
import StoreBridge.Proofs.Sql.Selection

/-!
How found records are ordered. The first field in which two records differ decides, by its
direction. What SQL and the document store are sent is read back as such a list of fields. A sort
document holds a field once, in its first place but with its last direction, so the stores order
two records alike just where the field that decides keeps its direction to the end of the list.
-/
namespace StoreBridge

abbrev FieldOrder (α : Type) := String → α → α → Ordering

def Direction.turn : Direction → Ordering → Ordering
  | .ascending, found => found
  | .descending, found => found.swap

def Direction.ofBson? : Bson → Option Direction
  | .int32 i => if i = 1 then some .ascending else if i = -1 then some .descending else none
  | _ => none

namespace Sorting
variable {α : Type} {sort : List (String × Direction)} {order : FieldOrder α} {x y : α}

def compare (order : FieldOrder α) : List (String × Direction) → α → α → Ordering
  | [], _, _ => .eq
  | (field, direction) :: rest, x, y =>
    (direction.turn (order field x y)).then (compare order rest x y)

def stored (sort : List (String × Direction)) : List (String × Direction) :=
  sort.map fun entry => (IdentityMode.fieldName entry.1, entry.2)

def lastDirection? (sort : List (String × Direction)) (field : String) : Option Direction :=
  Entries.get? (stored sort).reverse (IdentityMode.fieldName field)

/-- Each field is asked for in one direction only. -/
def Steady (sort : List (String × Direction)) : Prop :=
  ∀ a ∈ sort, ∀ b ∈ sort, IdentityMode.fieldName a.1 = IdentityMode.fieldName b.1 → a.2 = b.2

/-- The entry of a list that decides between two records. -/
def decider? (order : FieldOrder α) (sort : List (String × Direction)) (x y : α) :
    Option (String × Direction) :=
  sort.find? fun entry => order entry.1 x y != .eq

def ofDocument? (d : Document) : Option (List (String × Direction)) :=
  d.mapM fun entry => (Direction.ofBson? entry.2).map fun direction => (entry.1, direction)

end Sorting

def DocumentOptions.sorting? (o : DocumentOptions) : Option (List (String × Direction)) :=
  match o.sort with
  | none => some []
  | some d => Sorting.ofDocument? d

/-- How a text that orders rows, and says nothing else, orders them. -/
def Sql.Statement.sorting? (s : Sql.Statement) : Option (List (String × Direction)) :=
  (Lexeme.ofText s.dialect s.sql).bind fun lexemes =>
    (Lexeme.bound 1 s.parameters 0 lexemes).bind fun lexemes =>
      match Selection.readOrder lexemes with
      | some (none, []) => some []
      | some (some (.columns sort), []) => some sort
      | _ => none

namespace Sorting
variable {α : Type} {sort : List (String × Direction)} {order : FieldOrder α} {x y : α}

theorem turn_eq_iff (direction : Direction) (found : Ordering) :
    direction.turn found = .eq ↔ found = .eq := by
  cases direction <;> cases found <;> decide

theorem turn_inj {found : Ordering} (apart : found ≠ .eq) (a b : Direction) :
    a.turn found = b.turn found ↔ a = b := by
  cases a <;> cases b <;> cases found <;> simp_all [Direction.turn]

theorem decider?_cons (entry : String × Direction) :
    decider? order (entry :: sort) x y =
      if order entry.1 x y = .eq then decider? order sort x y else some entry := by
  rw [decider?, List.find?_cons]
  cases order entry.1 x y <;> rfl

theorem compare_decided (order : FieldOrder α) (sort : List (String × Direction)) (x y : α) :
    compare order sort x y =
      match decider? order sort x y with
      | some entry => entry.2.turn (order entry.1 x y)
      | none => .eq := by
  induction sort with
  | nil => rfl
  | cons entry rest ih =>
    rw [compare, ih, decider?_cons]
    by_cases tied : order entry.1 x y = .eq
    · have still := (turn_eq_iff entry.2 _).mpr tied
      rw [if_pos tied, still, Ordering.eq_then]
    · have apart := mt (turn_eq_iff entry.2 _).mp tied
      rw [if_neg tied]
      cases found : entry.2.turn (order entry.1 x y) with
      | eq => exact absurd found apart
      | lt | gt => exact found.symm

theorem ofBson?_directionValue (direction : Direction) :
    Direction.ofBson? (Query.directionValue direction) = some direction := by
  cases direction <;> rfl

theorem ofDocument?_written (sort : List (String × Direction)) :
    ofDocument? (sort.map fun e => (e.1, Query.directionValue e.2)) = some sort := by
  induction sort with
  | nil => rfl
  | cons entry rest ih =>
    rw [ofDocument?] at ih ⊢
    rw [List.map_cons, List.mapM_cons, ofBson?_directionValue, ih]
    rfl

/-- The sort document says each field once, in its first place and with its last direction. -/
theorem sorting?_ofOptions (o : FindOptions) :
    (DocumentOptions.ofOptions o).sorting? = some (Entries.ofList (stored o.sort)) := by
  unfold DocumentOptions.sorting? DocumentOptions.ofOptions
  by_cases empty : o.sort = []
  · simp [empty, stored, Entries.ofList, Entries.merge]
  · have written : o.sort.map (fun e => (IdentityMode.fieldName e.1, Query.directionValue e.2)) =
        (stored o.sort).map fun e => (e.1, Query.directionValue e.2) := by
      rw [stored, List.map_map]
      rfl
    have whole := Entries.merge_map Query.directionValue [] (stored o.sort)
    rw [if_neg (by simpa using empty), written]
    exact (congrArg ofDocument? whole).trans (ofDocument?_written _)

end Sorting

theorem Sql.Statement.sorting?_orderBy {d : Dialect} (sql : d.isSql)
    (sort : List (String × Direction)) :
    (⟨d, orderBy sort⟩ : Statement).sorting? = some sort := by
  have read := Selection.read_orderTokens .postgres ⟨sort, none, none, []⟩
  have written := @Selection.readOrder_written .postgres ⟨sort, none, none, []⟩ []
    (by simp) (by simp)
  have plain : orderTokens .postgres ⟨sort, none, none, []⟩ = orderBy sort := by
    simp [orderTokens]
  rw [List.append_nil, ← read, plain] at written
  refine (bound_read (s := ⟨d, orderBy sort⟩) sql (orderBy_legible sort) _).trans ?_
  rw [written, FindOptions.order]
  by_cases empty : sort = [] <;> simp [empty]

namespace Sorting
variable {α : Type} {sort : List (String × Direction)} {order : FieldOrder α} {x y : α}

theorem order_fieldName (one : order recordId = order storedId) (field : String) :
    order (IdentityMode.fieldName field) = order field := by
  unfold IdentityMode.fieldName
  split
  · rename_i identity
    rw [identity, one]
  · rfl

theorem lastDirection?_isSome {entry : String × Direction} (mem : entry ∈ sort) :
    ∃ last, lastDirection? sort entry.1 = some last := by
  have named : (IdentityMode.fieldName entry.1, entry.2) ∈ (stored sort).reverse :=
    List.mem_reverse.mpr (List.mem_map_of_mem mem)
  have there := Entries.contains_iff.mpr (List.mem_map_of_mem named)
  exact Option.isSome_iff_exists.mp there

theorem lastDirection?_steady (steady : Steady sort) {entry : String × Direction}
    (mem : entry ∈ sort) : lastDirection? sort entry.1 = some entry.2 := by
  obtain ⟨last, found⟩ := lastDirection?_isSome mem
  have named := List.mem_reverse.mp (Entries.mem_of_get? found)
  obtain ⟨other, inside, same⟩ := List.mem_map.mp named
  obtain ⟨field, direction⟩ := Prod.mk.inj same
  rw [found, ← direction, steady other inside entry mem field]

/-- The field that decides is the same in the document, under its stored name and with the last
    direction that was asked for. -/
theorem decider?_ofList (one : order recordId = order storedId) :
    decider? order (Entries.ofList (stored sort)) x y =
      (decider? order sort x y).map fun entry =>
        (IdentityMode.fieldName entry.1, (lastDirection? sort entry.1).getD entry.2) := by
  have first : (stored sort).find? (fun entry => order entry.1 x y != .eq) =
      (decider? order sort x y).map fun entry => (IdentityMode.fieldName entry.1, entry.2) := by
    rw [stored, List.find?_map, decider?]
    simp only [Function.comp_def, order_fieldName one]
  have whole := Entries.find?_merge (fun name => order name x y != .eq) [] (stored sort)
  rw [List.nil_append, first, Option.map_map] at whole
  exact whole

theorem compare_ofList_iff (one : order recordId = order storedId) :
    compare order (Entries.ofList (stored sort)) x y = compare order sort x y ↔
      ∀ entry, decider? order sort x y = some entry →
        lastDirection? sort entry.1 = some entry.2 := by
  rw [compare_decided, compare_decided, decider?_ofList one]
  cases decides : decider? order sort x y with
  | none => simp
  | some entry =>
    have apart : order entry.1 x y ≠ .eq := by
      have differs := List.find?_some decides
      simpa using differs
    obtain ⟨last, found⟩ := lastDirection?_isSome (List.mem_of_find?_eq_some decides)
    simp only [Option.map_some, order_fieldName one, turn_inj apart, found, Option.getD_some,
      Option.some.injEq, forall_eq']

end Sorting

/-- The text that orders rows says the fields that were asked for, in every dialect. The sort
    document orders two records as they do just if the field that decides between the two is not
    asked for in the other direction in the end, under whichever of its names; so it always does
    where each field is asked for in one direction. -/
theorem sorting_agrees_iff (o : FindOptions) :
    (∀ d : Dialect, d.isSql →
      (⟨d, Sql.Statement.orderBy o.sort⟩ : Sql.Statement).sorting? = some o.sort) ∧
    ∃ sort, (DocumentOptions.ofOptions o).sorting? = some sort ∧
      ∀ {α : Type} (order : FieldOrder α), order recordId = order storedId → ∀ x y,
        (Sorting.compare order sort x y = Sorting.compare order o.sort x y ↔
          ∀ entry, Sorting.decider? order o.sort x y = some entry →
            Sorting.lastDirection? o.sort entry.1 = some entry.2) ∧
        (Sorting.Steady o.sort →
          Sorting.compare order sort x y = Sorting.compare order o.sort x y) := by
  refine ⟨fun d sql => Sql.Statement.sorting?_orderBy sql o.sort, _, Sorting.sorting?_ofOptions o,
    fun order one x y => ?_⟩
  refine ⟨Sorting.compare_ofList_iff one, fun steady => ?_⟩
  refine (Sorting.compare_ofList_iff one).mpr fun entry decides => ?_
  exact Sorting.lastDirection?_steady steady (List.mem_of_find?_eq_some decides)

def Sorting.byNumbers (field : String) (x y : Record) : Ordering :=
  let number (r : Record) : Int :=
    match r.get? (if field = storedId then recordId else field) with
    | some (.int i) => i.toInt
    | _ => 0
  Ord.compare (number x) (number y)

/-- A field that is turned around behind the one that decides, and the identity under both names in
    one direction. -/
theorem sorting_agrees_turned_behind :
    let o : FindOptions := { sort := [("age", .descending), ("_id", .ascending), ("n", .ascending),
      ("id", .ascending), ("n", .descending)] }
    let ann : Record := [("id", .int 1), ("age", .int 30), ("n", .int 5)]
    let bob : Record := [("id", .int 2), ("age", .int 30), ("n", .int 4)]
    Sorting.byNumbers recordId = Sorting.byNumbers storedId ∧
    ∃ sort, (DocumentOptions.ofOptions o).sorting? = some sort ∧
      Sorting.compare Sorting.byNumbers sort ann bob = .lt ∧
      (⟨.mysql, Sql.Statement.orderBy o.sort⟩ : Sql.Statement).sorting? = some o.sort := by
  intro o ann bob
  have one : Sorting.byNumbers recordId = Sorting.byNumbers storedId := rfl
  obtain ⟨texts, sort, read, agrees⟩ := sorting_agrees_iff o
  refine ⟨one, sort, read, ?_, texts .mysql rfl⟩
  have decided : Sorting.decider? Sorting.byNumbers o.sort ann bob = some ("_id", .ascending) := by
    decide
  rw [(agrees Sorting.byNumbers one ann bob).1.mpr fun entry decides => ?_]
  · decide
  · rw [decided] at decides
    obtain rfl := Option.some.inj decides
    decide

/-- A list that asks for the identity under both of its names, in the two directions: the document
    turns around what the list orders. -/
theorem identity_turned_around :
    let o : FindOptions := { sort := [("id", .ascending), ("_id", .descending)] }
    let ann : Record := [("id", .int 1)]
    let bob : Record := [("id", .int 2)]
    Sorting.byNumbers recordId = Sorting.byNumbers storedId ∧
    (DocumentOptions.ofOptions o).sorting? = some [("_id", .descending)] ∧
    Sorting.compare Sorting.byNumbers [("_id", .descending)] ann bob = .gt ∧
    Sorting.compare Sorting.byNumbers o.sort ann bob = .lt := by
  exact ⟨rfl, rfl, by decide, by decide⟩

end StoreBridge
