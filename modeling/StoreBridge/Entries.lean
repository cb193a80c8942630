/-!
Named entries in the order in which their names first came. Records, documents and JSON objects
are made of them. A name is written once: writing it again changes its value and keeps its place.
-/
namespace StoreBridge

abbrev Entries (α : Type) := List (String × α)

namespace Entries
variable {α β : Type}

def get? : Entries α → String → Option α
  | [], _ => none
  | (k, v) :: rest, key => if k = key then some v else get? rest key

def contains (m : Entries α) (key : String) : Bool := (m.get? key).isSome

def insert : Entries α → String → α → Entries α
  | [], key, value => [(key, value)]
  | (k, v) :: rest, key, value =>
    if k = key then (k, value) :: rest else (k, v) :: insert rest key value

def erase : Entries α → String → Entries α
  | [], _ => []
  | (k, v) :: rest, key => if k = key then rest else (k, v) :: erase rest key

def put : Entries α → String → α → Option α × Entries α
  | [], key, value => (none, [(key, value)])
  | (k, v) :: rest, key, value =>
    if k = key then (some v, (k, value) :: rest)
    else ((put rest key value).1, (k, v) :: (put rest key value).2)

def remove : Entries α → String → Option α × Entries α
  | [], _ => (none, [])
  | (k, v) :: rest, key =>
    if k = key then (some v, rest) else ((remove rest key).1, (k, v) :: (remove rest key).2)

def keys (m : Entries α) : List String := m.map Prod.fst

def values (m : Entries α) : List α := m.map Prod.snd

/-- Writes the entries of `other` into `m`, in their order. -/
def merge (m other : Entries α) : Entries α := other.foldl (fun m e => m.insert e.1 e.2) m

/-- Later pairs replace the values of earlier ones with their name. -/
def ofList (pairs : List (String × α)) : Entries α := merge [] pairs

theorem get?_insert_self (m : Entries α) (key : String) (value : α) :
    (m.insert key value).get? key = some value := by
  induction m with
  | nil => simp [insert, get?]
  | cons e rest ih => by_cases h : e.1 = key <;> simp [insert, get?, h, ih]

theorem get?_insert_ne (m : Entries α) {key other : String} (value : α) (h : key ≠ other) :
    (m.insert key value).get? other = m.get? other := by
  induction m with
  | nil => simp [insert, get?, h]
  | cons e rest ih =>
    by_cases he : e.1 = key
    · simp [insert, get?, he, h]
    · simp only [insert, if_neg he, get?, ih]

end Entries
end StoreBridge
