import StoreBridge.Document.Identity

/-!
The parts of values and of stored values, at every depth, and the paths that lead to them. A step
goes to an item of an array or to an entry of an object; where a name is written twice, a step with
that name goes to either entry. What every step keeps holds at the end of the path.
-/
namespace StoreBridge

inductive PathStep where
  | item (index : Nat)
  | field (name : String)
  deriving DecidableEq, Repr

/-- Data with parts, each of them one step away. -/
class Branching (α : Type) where
  parts : α → List (PathStep × α)

open Branching

def itemParts {α : Type} (items : List α) : List (PathStep × α) :=
  items.zipIdx.map fun e => (.item e.2, e.1)

def entryParts {α : Type} (entries : Entries α) : List (PathStep × α) :=
  entries.map fun e => (.field e.1, e.2)

instance : Branching Value where
  parts
    | .array items => itemParts items
    | .object fields => entryParts fields
    | _ => []

/-- Code has its scope for parts. -/
instance : Branching Bson where
  parts
    | .array items => itemParts items
    | .document fields | .codeWithScope _ fields => entryParts fields
    | _ => []

section Parts
variable {α : Type}

theorem forall_itemParts {P : α → Prop} {items : List α} :
    (∀ e ∈ itemParts items, P e.2) ↔ ∀ item ∈ items, P item := by
  constructor
  · intro all item mem
    obtain ⟨index, there⟩ := List.getElem?_of_mem mem
    exact all (.item index, item)
      (List.mem_map.mpr ⟨(item, index), List.mem_zipIdx_iff_getElem?.mpr there, rfl⟩)
  · rintro all _ mem
    obtain ⟨e, inside, rfl⟩ := List.mem_map.mp mem
    exact all e.1 (List.mem_of_getElem? (List.mem_zipIdx_iff_getElem?.mp inside))

theorem forall_entryParts {P : α → Prop} {entries : Entries α} :
    (∀ e ∈ entryParts entries, P e.2) ↔ ∀ entry ∈ entries, P entry.2 := by
  simp only [entryParts, List.forall_mem_map]

theorem itemParts_map {β : Type} (f : α → β) (items : List α) :
    itemParts (items.map f) = (itemParts items).map fun e => (e.1, f e.2) := by
  simp only [itemParts, List.zipIdx_map, List.map_map]
  rfl

theorem sizeOf_itemParts [SizeOf α] {items : List α} :
    ∀ e ∈ itemParts items, sizeOf e.2 < sizeOf items :=
  forall_itemParts (P := (sizeOf · < sizeOf items)).mpr fun _ mem => List.sizeOf_lt_of_mem mem

theorem sizeOf_entryParts [SizeOf α] {entries : Entries α} :
    ∀ e ∈ entryParts entries, sizeOf e.2 < sizeOf entries := by
  refine forall_entryParts (P := (sizeOf · < sizeOf entries)).mpr fun entry mem => ?_
  have smaller := List.sizeOf_lt_of_mem mem
  obtain ⟨name, value⟩ := entry
  simp only [Prod.mk.sizeOf_spec] at smaller ⊢
  omega

/-- Where parts are smaller, a property holds of everything if it passes from the parts of a thing
    to the thing. -/
theorem Branching.induct [Branching α] [SizeOf α]
    (smaller : ∀ x : α, ∀ e ∈ parts x, sizeOf e.2 < sizeOf x) {motive : α → Prop}
    (step : ∀ x, (∀ e ∈ parts x, motive e.2) → motive x) (x : α) : motive x :=
  step x fun e _ => Branching.induct smaller step e.2
termination_by sizeOf x
decreasing_by exact smaller x e ‹_›

end Parts

theorem Value.sizeOf_parts (v : Value) : ∀ e ∈ parts v, sizeOf e.2 < sizeOf v := by
  intro e mem
  cases v with
  | array items =>
    have smaller := sizeOf_itemParts e mem
    simp only [Value.array.sizeOf_spec]
    omega
  | object fields =>
    have smaller := sizeOf_entryParts e mem
    simp only [Value.object.sizeOf_spec]
    omega
  | _ => simp [parts] at mem

theorem Value.induct {motive : Value → Prop}
    (step : ∀ v, (∀ e ∈ parts v, motive e.2) → motive v) (v : Value) : motive v :=
  Branching.induct Value.sizeOf_parts step v

section Reaches
variable {α β : Type} [Branching α] [Branching β] {x part : α} {path : List PathStep}
  {P : α → Prop}

inductive Reaches : α → List PathStep → α → Prop where
  | here (x : α) : Reaches x [] x
  | step {x next part : α} {first : PathStep} {rest : List PathStep}
      (there : (first, next) ∈ parts x) (behind : Reaches next rest part) :
      Reaches x (first :: rest) part

/-- A property holds of a value and of its parts, at every depth. -/
def Everywhere (P : α → Prop) (x : α) : Prop := ∀ path part, Reaches x path part → P part

theorem everywhere_iff : Everywhere P x ↔ P x ∧ ∀ e ∈ parts x, Everywhere P e.2 := by
  constructor
  · intro all
    exact ⟨all [] x (.here x), fun e mem path part behind => all _ part (.step mem behind)⟩
  · rintro ⟨own, inside⟩ path part reached
    cases reached with
    | here => exact own
    | step there behind => exact inside _ there _ _ behind

theorem everywhere_leaf (leaf : parts x = []) : Everywhere P x ↔ P x := by
  rw [everywhere_iff, leaf]
  exact and_iff_left (by simp)

theorem Reaches.keeps {allowed : PathStep → Prop} (reached : Reaches x path part)
    (next : ∀ x e, P x → e ∈ parts x → allowed e.1 → P e.2) (start : P x)
    (along : ∀ step ∈ path, allowed step) : P part := by
  induction reached with
  | here => exact start
  | step there _ ih =>
    rw [List.forall_mem_cons] at along
    exact ih (next _ _ start there along.1) along.2

/-- Where each part of an image is the image of a part, a path in the image is the image of a
    path. -/
theorem Reaches.traced {f : α → β} {g : PathStep → PathStep} {image : β}
    (back : ∀ x, ∀ e ∈ parts (f x), ∃ origin ∈ parts x, g origin.1 = e.1 ∧ f origin.2 = e.2)
    (reached : Reaches (f x) path image) :
    ∃ source origin, Reaches x source origin ∧ source.map g = path ∧ f origin = image := by
  generalize same : f x = y at reached
  induction reached generalizing x with
  | here => exact ⟨[], x, .here x, rfl, same⟩
  | step there _ ih =>
    subst same
    obtain ⟨e, mem, renamed, imaged⟩ := back x _ there
    obtain ⟨source, origin, behind, walked, found⟩ := ih imaged
    exact ⟨e.1 :: source, origin, .step mem behind, by rw [List.map_cons, renamed, walked], found⟩

end Reaches

/-! What every part of an array and of an object has. -/

section Everywhere
variable {P : Value → Prop} {Q : Bson → Prop}

theorem Value.everywhere_array {items : List Value} :
    Everywhere P (.array items) ↔ P (.array items) ∧ ∀ item ∈ items, Everywhere P item :=
  everywhere_iff.trans (and_congr_right fun _ => forall_itemParts)

theorem Value.everywhere_object {fields : List (String × Value)} :
    Everywhere P (.object fields) ↔
      P (.object fields) ∧ ∀ field ∈ fields, Everywhere P field.2 :=
  everywhere_iff.trans (and_congr_right fun _ => forall_entryParts)

theorem Bson.everywhere_array {items : List Bson} :
    Everywhere Q (.array items) ↔ Q (.array items) ∧ ∀ item ∈ items, Everywhere Q item :=
  everywhere_iff.trans (and_congr_right fun _ => forall_itemParts)

theorem Bson.everywhere_document {fields : List (String × Bson)} :
    Everywhere Q (.document fields) ↔
      Q (.document fields) ∧ ∀ field ∈ fields, Everywhere Q field.2 :=
  everywhere_iff.trans (and_congr_right fun _ => forall_entryParts)

end Everywhere

def Value.Named (P : List String → Prop) : Value → Prop
  | .object fields => P (Entries.keys fields)
  | _ => True

abbrev Value.Distinct : Value → Prop := Value.Named List.Nodup

/-- The fields of a document, or of a scope, have names of their own. -/
def Bson.Distinct : Bson → Prop
  | .document fields | .codeWithScope _ fields => (Entries.keys fields).Nodup
  | _ => True

end StoreBridge
