import Mathlib.Data.List.Induction
import StoreBridge.Proofs.Entries
import StoreBridge.Value

/-!
A record and what has been done to it. A field has the value that was written to it last since it
was removed, and the fields stand in the order in which each was first written since then. Each
change of a field keeps this, and all edits, bulk ones too, are such changes one after another.
-/
namespace StoreBridge
namespace Record

/-- What happens to one field. A value is replaced only where there is one. -/
inductive Change where
  | written (key : String) (value : Value)
  | replaced (key : String) (value : Value)
  | removed (key : String)

def Change.applied (r : Record) : Change → Record
  | .written key value => r.insert key value
  | .replaced key value => r.set key value
  | .removed key => r.erase key

/-- What is done to a record. The builder form of an insert is one whose result is dropped. -/
inductive Edit where
  | insert (key : String) (value : Value)
  | set (key : String) (value : Value)
  | remove (key : String)
  | merge (other : Record)

def Edit.run (r : Record) : Edit → Option Value × Record
  | .insert key value => Entries.put r key value
  | .set key value => (none, r.set key value)
  | .remove key => Entries.remove r key
  | .merge other => (none, Entries.merge r other)

def allWritten (pairs : List (String × Value)) : List Change :=
  pairs.map fun e => .written e.1 e.2

def Edit.changes : Edit → List Change
  | .insert key value => [.written key value]
  | .set key value => [.replaced key value]
  | .remove key => [.removed key]
  | .merge other => allWritten other

inductive Origin where
  | pairs (fields : List (String × Value))
  | json (fields : List (String × Json))

def Origin.fields : Origin → List (String × Value)
  | .pairs fields => fields
  | .json fields => Value.fieldsOfJson fields

structure History where
  origin : Origin
  edits : List Edit

namespace History

def record (h : History) : Record :=
  h.edits.foldl (fun r edit => (edit.run r).2) (Entries.ofList h.origin.fields)

def changes (h : History) : List Change :=
  allWritten h.origin.fields ++ h.edits.flatMap Edit.changes

end History

/-- A JSON object becomes the record of its fields. -/
example (fields : List (String × Json)) :
    Value.ofJson (.object fields) = .object (History.record ⟨.json fields, []⟩) := rfl

def noted (key : String) (kept : List (Nat × Value)) : Change × Nat → List (Nat × Value)
  | (.written k value, place) => if k = key then kept ++ [(place, value)] else kept
  | (.replaced k value, place) => if k = key ∧ kept ≠ [] then kept ++ [(place, value)] else kept
  | (.removed k, _) => if k = key then [] else kept

/-- The writes to a field since it was last removed, with their places among the changes. -/
def writes (key : String) (changes : List Change) : List (Nat × Value) :=
  changes.zipIdx.foldl (noted key) []

def lastWritten? (key : String) (changes : List Change) : Option Value :=
  (writes key changes).getLast?.map Prod.snd

def entered? (key : String) (changes : List Change) : Option Nat :=
  (writes key changes).head?.map Prod.fst

def EnteredBefore (changes : List Change) (a b : String) : Prop :=
  ∃ s t, entered? a changes = some s ∧ entered? b changes = some t ∧ s < t

structure Follows (changes : List Change) (r : Record) : Prop where
  distinct : (Entries.keys r).Nodup
  last : ∀ key, r.get? key = lastWritten? key changes
  ordered : (Entries.keys r).Pairwise (EnteredBefore changes)

section
variable {changes : List Change} {r : Record} {key name a b : String} {value : Value}

theorem keys_set (r : Record) (key : String) (value : Value) :
    Entries.keys (r.set key value) = Entries.keys r := by
  rw [set]
  split
  · rename_i there
    exact Entries.keys_insert_present (Entries.contains_iff.mp there) value
  · rfl

theorem get?_set (r : Record) (key name : String) (value : Value) :
    (r.set key value).get? name =
      if name = key then (r.get? name).map fun _ => value else r.get? name := by
  rw [set, Entries.contains]
  cases there : Entries.get? r key with
  | some old =>
    rw [Option.isSome_some, if_pos rfl, Entries.get?_insert]
    by_cases same : name = key
    · rw [if_pos same, if_pos same, same, there, Option.map_some]
    · rw [if_neg same, if_neg same]
  | none =>
    by_cases same : name = key
    · simp [same, there]
    · simp [same]

theorem writes_snoc (key : String) (changes : List Change) (change : Change) :
    writes key (changes ++ [change]) = noted key (writes key changes) (change, changes.length) := by
  simp [writes, List.zipIdx_append, List.foldl_append]

theorem mem_noted {w : Nat × Value} {kept : List (Nat × Value)} {change : Change} {place : Nat}
    (mem : w ∈ noted key kept (change, place)) : w ∈ kept ∨ w.1 = place := by
  cases change <;> grind [noted]

theorem writes_lt : ∀ w ∈ writes key changes, w.1 < changes.length := by
  induction changes using List.reverseRecOn with
  | nil => simp [writes]
  | append_singleton changes change ih =>
    intro w mem
    rw [writes_snoc] at mem
    rw [List.length_append, List.length_singleton]
    rcases mem_noted mem with old | new
    · exact Nat.lt_succ_of_lt (ih w old)
    · exact Nat.lt_succ_of_le (Nat.le_of_eq new)

theorem entered?_lt {place : Nat} (entered : entered? key changes = some place) :
    place < changes.length := by
  obtain ⟨w, first, rfl⟩ := Option.map_eq_some_iff.mp entered
  exact writes_lt w (List.mem_of_head? first)

theorem entered?_isSome_iff :
    (entered? key changes).isSome ↔ (lastWritten? key changes).isSome := by
  rw [entered?, lastWritten?, Option.isSome_map, Option.isSome_map, List.isSome_head?,
    List.getLast?_isSome]

/-! What one change does to the last value and to the first place of a field. -/

theorem lastWritten?_written :
    lastWritten? name (changes ++ [.written key value]) =
      if name = key then some value else lastWritten? name changes := by
  rw [lastWritten?, writes_snoc, noted]
  by_cases same : key = name
  · simp [same]
  · rw [if_neg same, if_neg (Ne.symm same), lastWritten?]

theorem entered?_written :
    entered? name (changes ++ [.written key value]) =
      if name = key then (entered? name changes).or (some changes.length)
      else entered? name changes := by
  rw [entered?, writes_snoc, noted, entered?]
  by_cases same : key = name
  · cases kept : writes name changes <;> simp [same]
  · rw [if_neg same, if_neg (Ne.symm same)]

theorem EnteredBefore.written (before : EnteredBefore changes a b) :
    EnteredBefore (changes ++ [.written key value]) a b := by
  obtain ⟨s, t, first, second, earlier⟩ := before
  refine ⟨s, t, ?_, ?_, earlier⟩
  · rw [entered?_written, first]
    split <;> rfl
  · rw [entered?_written, second]
    split <;> rfl

theorem lastWritten?_replaced :
    lastWritten? name (changes ++ [.replaced key value]) =
      if name = key then (lastWritten? name changes).map fun _ => value
      else lastWritten? name changes := by
  rw [lastWritten?, writes_snoc, noted, lastWritten?]
  by_cases same : key = name
  · cases kept : writes name changes <;> simp [same, List.getLast?_cons]
  · simp [same, Ne.symm same]

theorem entered?_replaced :
    entered? name (changes ++ [.replaced key value]) = entered? name changes := by
  rw [entered?, writes_snoc, noted, entered?]
  split
  · rename_i there
    rw [List.head?_append, Option.or_of_isSome (List.isSome_head?.mpr there.2)]
  · rfl

theorem lastWritten?_removed :
    lastWritten? name (changes ++ [.removed key]) =
      if name = key then none else lastWritten? name changes := by
  rw [lastWritten?, writes_snoc, noted, lastWritten?]
  by_cases same : key = name
  · simp [same]
  · rw [if_neg same, if_neg (Ne.symm same)]

theorem entered?_removed (other : name ≠ key) :
    entered? name (changes ++ [.removed key]) = entered? name changes := by
  rw [entered?, writes_snoc, noted, if_neg (Ne.symm other), entered?]

/-! What one change keeps. -/

namespace Follows

theorem entered (follows : Follows changes r) :
    (entered? key changes).isSome ↔ key ∈ Entries.keys r := by
  rw [entered?_isSome_iff, ← follows.last, ← Entries.contains_iff]
  rfl

theorem written (follows : Follows changes r) (key : String) (value : Value) :
    Follows (changes ++ [.written key value]) (r.insert key value) where
  distinct := Entries.insert_distinct follows.distinct key value
  last name := by rw [Entries.get?_insert, lastWritten?_written, follows.last]
  ordered := by
    have older : (Entries.keys r).Pairwise (EnteredBefore (changes ++ [.written key value])) :=
      follows.ordered.imp EnteredBefore.written
    rw [Entries.keys_insert]
    split
    · exact older
    · -- No place among the changes is as late as the one that is written now.
      rename_i absent
      refine List.pairwise_append.mpr ⟨older, List.pairwise_singleton _ _, ?_⟩
      intro a there b last
      obtain rfl := List.mem_singleton.mp last
      obtain ⟨place, first⟩ := Option.isSome_iff_exists.mp (follows.entered.mpr there)
      have new : entered? b changes = none := by
        rw [← Option.not_isSome_iff_eq_none, follows.entered]
        exact absent
      have apart : a ≠ b := fun same => absent (same ▸ there)
      refine ⟨place, changes.length, ?_, ?_, entered?_lt first⟩
      · rw [entered?_written, if_neg apart, first]
      · rw [entered?_written, if_pos rfl, new, Option.none_or]

theorem replaced (follows : Follows changes r) (key : String) (value : Value) :
    Follows (changes ++ [.replaced key value]) (r.set key value) where
  distinct := by
    rw [keys_set]
    exact follows.distinct
  last name := by rw [get?_set, lastWritten?_replaced, follows.last]
  ordered := by
    rw [keys_set]
    refine follows.ordered.imp fun before => ?_
    simpa only [EnteredBefore, entered?_replaced] using before

theorem removed (follows : Follows changes r) (key : String) :
    Follows (changes ++ [.removed key]) (r.erase key) where
  distinct := by
    rw [Entries.keys_erase follows.distinct]
    exact follows.distinct.filter _
  last name := by
    rw [Entries.get?_erase follows.distinct, lastWritten?_removed, follows.last]
  ordered := by
    rw [Entries.keys_erase follows.distinct, List.pairwise_filter]
    refine follows.ordered.imp fun before left right => ?_
    simp only [bne_iff_ne] at left right
    simpa only [EnteredBefore, entered?_removed left, entered?_removed right] using before

theorem step (follows : Follows changes r) (change : Change) :
    Follows (changes ++ [change]) (change.applied r) := by
  cases change with
  | written key value => exact follows.written key value
  | replaced key value => exact follows.replaced key value
  | removed key => exact follows.removed key

theorem run (follows : Follows changes r) (more : List Change) :
    Follows (changes ++ more) (more.foldl Change.applied r) := by
  induction more generalizing changes r with
  | nil => rwa [List.append_nil]
  | cons change rest ih =>
    rw [List.append_cons]
    exact ih (follows.step change)

theorem empty : Follows [] [] := ⟨List.nodup_nil, fun _ => rfl, List.Pairwise.nil⟩

end Follows

/-! Edits are changes one after another. -/

theorem merge_changes (r : Record) (pairs : List (String × Value)) :
    Entries.merge r pairs = (allWritten pairs).foldl Change.applied r := by
  rw [allWritten, List.foldl_map]
  rfl

theorem Edit.run_changes (edit : Edit) (r : Record) :
    (edit.run r).2 = edit.changes.foldl Change.applied r := by
  cases edit with
  | insert key value => rw [run, Entries.put_eq]; rfl
  | set key value => rfl
  | remove key => rw [run, Entries.remove_eq]; rfl
  | merge other => exact merge_changes r other

theorem History.record_changes (h : History) :
    h.record = h.changes.foldl Change.applied [] := by
  have edits (all : List Edit) (r : Record) :
      all.foldl (fun r edit => (edit.run r).2) r =
        (all.flatMap Edit.changes).foldl Change.applied r := by
    induction all generalizing r with
    | nil => rfl
    | cons edit rest ih =>
      rw [List.foldl_cons, ih, edit.run_changes, List.flatMap_cons, List.foldl_append]
  rw [record, edits, changes, List.foldl_append, Entries.ofList, merge_changes]

theorem History.follows (h : History) : Follows h.changes h.record := by
  rw [h.record_changes]
  exact Follows.empty.run h.changes

/-- What the history of a record tells about it. -/
structure History.Kept (h : History) : Prop where
  distinct : (Entries.keys h.record).Nodup
  last : ∀ key, h.record.get? key = lastWritten? key h.changes
  entered : ∀ key, key ∈ Entries.keys h.record ↔ (entered? key h.changes).isSome
  ordered : (Entries.keys h.record).Pairwise (EnteredBefore h.changes)
  inserted : ∀ key value, ((Edit.insert key value).run h.record).1 = lastWritten? key h.changes
  placed : ∀ key value, Entries.keys ((Edit.insert key value).run h.record).2 =
    if key ∈ Entries.keys h.record then Entries.keys h.record else Entries.keys h.record ++ [key]
  stays : ∀ key value, Entries.keys ((Edit.set key value).run h.record).2 = Entries.keys h.record
  removed : ∀ key, ((Edit.remove key).run h.record).1 = lastWritten? key h.changes
  left : ∀ key, Entries.keys ((Edit.remove key).run h.record).2 =
    (Entries.keys h.record).filter (· != key)
  appended : ∀ other : History, Entries.keys ((Edit.merge other.record).run h.record).2 =
    Entries.keys h.record ++ (Entries.keys other.record).filter (· ∉ Entries.keys h.record)
  taken : ∀ (other : History) (key : String),
    Entries.get? ((Edit.merge other.record).run h.record).2 key =
      (other.record.get? key).or (h.record.get? key)

/-- Whatever a record is made of and has been through, it is an insertion-ordered map. -/
theorem history_kept (h : History) : h.Kept := by
  have follows := h.follows
  constructor
  case distinct => exact follows.distinct
  case last => exact follows.last
  case entered => exact fun key => follows.entered.symm
  case ordered => exact follows.ordered
  case inserted =>
    intro key value
    rw [Edit.run, Entries.put_eq, follows.last]
  case placed =>
    intro key value
    rw [Edit.run, Entries.put_eq, Entries.keys_insert]
  case stays =>
    intro key value
    rw [Edit.run, keys_set]
  case removed =>
    intro key
    rw [Edit.run, Entries.remove_eq, follows.last]
  case left =>
    intro key
    rw [Edit.run, Entries.remove_eq, Entries.keys_erase follows.distinct]
  case appended => exact fun other => Entries.keys_merge other.follows.distinct
  case taken => exact fun other key => Entries.get?_merge other.follows.distinct

/-- A field that is written again after its removal stands last. -/
example :
    let history : History :=
      ⟨.pairs [("a", .null), ("b", .null)], [.remove "a", .insert "a" (.bool true)]⟩
    Entries.keys history.record = ["b", "a"] := by
  decide

end
end Record
end StoreBridge
