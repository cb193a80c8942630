import StoreBridge.Entries

/-!
What is found among entries, under which names and in which order, after they have been written,
erased or written one after another. Writing keeps the place of a name that is there and appends
another one, and so does a merge for each of its names.
-/
namespace StoreBridge
namespace Entries
variable {α β : Type} {m other pairs front behind : Entries α} {e : String × α} {key : String}
  {value : α}

/-! What is there. -/

theorem get?_append (left right : Entries α) (key : String) :
    get? (left ++ right) key = (left.get? key).or (right.get? key) := by
  induction left with
  | nil => rfl
  | cons e rest ih =>
    by_cases same : e.1 = key <;> simp [get?, same, ih]

theorem contains_iff : m.contains key ↔ key ∈ m.keys := by
  induction m with
  | nil => simp [contains, get?, keys]
  | cons e rest ih =>
    simp only [contains, keys, List.map_cons, List.mem_cons] at ih ⊢
    by_cases same : e.1 = key
    · simp [get?, same]
    · simp [get?, same, ih, Ne.symm same]

theorem get?_none_iff : m.get? key = none ↔ key ∉ m.keys := by
  rw [← contains_iff, contains]
  cases m.get? key <;> simp

theorem keys_cons (e : String × α) (m : Entries α) : keys (e :: m) = e.1 :: keys m := rfl

theorem keys_map (f : String → α → β) (m : Entries α) :
    keys (m.map fun e => (e.1, f e.1 e.2)) = keys m := by
  rw [keys, keys, List.map_map]
  rfl

theorem get?_map (f : String → α → β) (m : Entries α) (key : String) :
    get? (m.map fun e => (e.1, f e.1 e.2)) key = (m.get? key).map (f key) := by
  induction m with
  | nil => rfl
  | cons e rest ih =>
    by_cases same : e.1 = key
    · subst same
      rw [List.map_cons, get?, if_pos rfl, get?, if_pos rfl, Option.map_some]
    · rw [List.map_cons, get?, if_neg same, get?, if_neg same, ih]

theorem ne_of_absent (absent : key ∉ keys m) (mem : e ∈ m) : e.1 ≠ key := by
  intro same
  exact absent (same ▸ List.mem_map_of_mem mem)

theorem mem_of_get? (there : m.get? key = some value) : (key, value) ∈ m := by
  induction m with
  | nil => simp [get?] at there
  | cons first rest ih =>
    by_cases same : first.1 = key
    · simp only [get?, if_pos same, Option.some.injEq] at there
      subst there same
      exact List.mem_cons_self
    · simp only [get?, if_neg same] at there
      exact List.mem_cons_of_mem _ (ih there)

theorem distinct_around (distinct : (keys (front ++ (key, value) :: behind)).Nodup) :
    key ∉ keys front ∧ key ∉ keys behind ∧ (keys behind).Nodup := by
  rw [keys, List.map_append, List.map_cons, List.nodup_append, List.nodup_cons] at distinct
  obtain ⟨_, ⟨after, later⟩, apart⟩ := distinct
  exact ⟨fun mem => apart key mem key List.mem_cons_self rfl, after, later⟩

theorem split_at (distinct : (keys m).Nodup) (there : m.get? key = some value) :
    ∃ front behind, m = front ++ (key, value) :: behind ∧ key ∉ keys front ∧
      key ∉ keys behind := by
  obtain ⟨front, behind, rfl⟩ := List.append_of_mem (mem_of_get? there)
  obtain ⟨before, after, _⟩ := distinct_around distinct
  exact ⟨front, behind, rfl, before, after⟩

/-! Writing an entry. -/

theorem get?_insert (m : Entries α) (key name : String) (value : α) :
    (m.insert key value).get? name = if name = key then some value else m.get? name := by
  split
  · rename_i same
    rw [same, get?_insert_self]
  · rename_i apart
    exact get?_insert_ne m value (Ne.symm apart)

theorem insert_absent (absent : m.get? key = none) (value : α) :
    m.insert key value = m ++ [(key, value)] := by
  induction m with
  | nil => rfl
  | cons e rest ih =>
    by_cases same : e.1 = key
    · simp [get?, same] at absent
    · simp only [get?, if_neg same] at absent
      rw [insert, if_neg same, ih absent, List.cons_append]

theorem keys_insert_present (there : key ∈ keys m) (value : α) :
    keys (m.insert key value) = keys m := by
  induction m with
  | nil => exact absurd there List.not_mem_nil
  | cons e rest ih =>
    by_cases same : e.1 = key
    · rw [insert, if_pos same, keys_cons, keys_cons, same]
    · have later : key ∈ keys rest := (List.mem_cons.mp there).resolve_left (Ne.symm same)
      rw [insert, if_neg same, keys_cons, ih later, keys_cons]

theorem keys_insert (m : Entries α) (key : String) (value : α) :
    keys (m.insert key value) = if key ∈ keys m then keys m else keys m ++ [key] := by
  split
  · rename_i there
    exact keys_insert_present there value
  · rename_i absent
    rw [insert_absent (get?_none_iff.mpr absent), keys, List.map_append]
    rfl

theorem insert_distinct (distinct : (keys m).Nodup) (key : String) (value : α) :
    (keys (m.insert key value)).Nodup := by
  rw [keys_insert]
  split
  · exact distinct
  · rename_i fresh
    refine List.nodup_append.mpr
      ⟨distinct, List.pairwise_singleton _ key, fun name mem other new => ?_⟩
    rintro rfl
    exact fresh (List.mem_singleton.mp new ▸ mem)

theorem mem_insert (mem : e ∈ m.insert key value) : e ∈ m ∨ e = (key, value) := by
  induction m with
  | nil => exact .inr (List.mem_singleton.mp mem)
  | cons first rest ih =>
    by_cases same : first.1 = key
    · simp only [insert, if_pos same, List.mem_cons] at mem
      rcases mem with rfl | inside
      · exact .inr (same ▸ rfl)
      · exact .inl (List.mem_cons_of_mem _ inside)
    · simp only [insert, if_neg same, List.mem_cons] at mem
      rcases mem with rfl | inside
      · exact .inl List.mem_cons_self
      · exact (ih inside).imp_left (List.mem_cons_of_mem _)

theorem insert_map (f : α → β) (m : Entries α) (key : String) (value : α) :
    insert (m.map fun e => (e.1, f e.2)) key (f value) =
      (m.insert key value).map fun e => (e.1, f e.2) := by
  induction m with
  | nil => rfl
  | cons e rest ih =>
    by_cases same : e.1 = key
    · simp [insert, same]
    · simp only [List.map_cons, insert, if_neg same, ih]

/-- The first entry under a name of some kind keeps its place when a name is written. -/
theorem find?_insert (test : String → Bool) (m : Entries α) (key : String) (value : α) :
    (m.insert key value).find? (fun e => test e.1) =
      match m.find? fun e => test e.1 with
      | some e => some (e.1, if e.1 = key then value else e.2)
      | none => if test key then some (key, value) else none := by
  induction m with
  | nil => cases found : test key <;> simp [insert, found]
  | cons e rest ih =>
    obtain ⟨name, old⟩ := e
    by_cases same : name = key
    · subst same
      cases found : test name with
      | true => simp [insert, found]
      | false =>
        simp only [insert, if_pos, List.find?_cons, found]
        cases later : rest.find? fun e => test e.1 with
        | none => simp
        | some e =>
          have other : e.1 ≠ name := by
            rintro rfl
            have passes := List.find?_some later
            simp [found] at passes
          simp [other]
    · cases found : test name <;> simp [insert, same, found, ih]

theorem put_eq (m : Entries α) (key : String) (value : α) :
    m.put key value = (m.get? key, m.insert key value) := by
  induction m with
  | nil => rfl
  | cons e rest ih =>
    by_cases same : e.1 = key
    · rw [put, if_pos same, get?, if_pos same, insert, if_pos same]
    · rw [put, if_neg same, ih, get?, if_neg same, insert, if_neg same]

/-! Writing entries one after another. -/

theorem merge_cons (m : Entries α) (e : String × α) (rest : Entries α) :
    merge m (e :: rest) = merge (m.insert e.1 e.2) rest := rfl

theorem merge_map (f : α → β) (m other : Entries α) :
    merge (m.map fun e => (e.1, f e.2)) (other.map fun e => (e.1, f e.2)) =
      (merge m other).map fun e => (e.1, f e.2) := by
  induction other generalizing m with
  | nil => rfl
  | cons e rest ih => rw [merge_cons, ← ih, ← insert_map, List.map_cons, merge_cons]

theorem mem_merge (mem : e ∈ merge m other) : e ∈ m ∨ e ∈ other := by
  induction other generalizing m with
  | nil => exact .inl mem
  | cons first rest ih =>
    rcases ih mem with written | later
    · rcases mem_insert written with old | rfl
      · exact .inl old
      · exact .inr List.mem_cons_self
    · exact .inr (List.mem_cons_of_mem _ later)

theorem mem_ofList (mem : e ∈ ofList pairs) : e ∈ pairs :=
  (mem_merge mem).resolve_left List.not_mem_nil

theorem merge_distinct (distinct : (keys m).Nodup) (other : Entries α) :
    (keys (merge m other)).Nodup := by
  induction other generalizing m with
  | nil => exact distinct
  | cons e rest ih => exact ih (insert_distinct distinct e.1 e.2)

theorem merge_disjoint (distinct : other.keys.Nodup)
    (apart : ∀ key ∈ other.keys, key ∉ m.keys) : merge m other = m ++ other := by
  induction other generalizing m with
  | nil => simp [merge]
  | cons e rest ih =>
    simp only [keys, List.map_cons, List.nodup_cons, List.forall_mem_cons] at distinct apart
    obtain ⟨fresh, later⟩ := distinct
    obtain ⟨new, others⟩ := apart
    rw [merge_cons, insert_absent (get?_none_iff.mpr new) e.2, ih later]
    · simp
    · intro key mem inside
      simp only [keys, List.map_append, List.map_cons, List.map_nil, List.mem_append,
        List.mem_singleton] at inside
      rcases inside with old | rfl
      · exact others key mem old
      · exact fresh mem

theorem ofList_distinct (distinct : (keys pairs).Nodup) : ofList pairs = pairs :=
  merge_disjoint distinct (by simp [keys])

theorem keys_merge (distinct : (keys other).Nodup) :
    keys (merge m other) = keys m ++ (keys other).filter (· ∉ keys m) := by
  induction other generalizing m with
  | nil => exact (List.append_nil _).symm
  | cons e rest ih =>
    rw [keys_cons, List.nodup_cons] at distinct
    obtain ⟨fresh, later⟩ := distinct
    rw [merge_cons, ih later, keys_insert, keys_cons, List.filter_cons]
    by_cases there : e.1 ∈ keys m
    · simp [there]
    · have behind : (keys rest).filter (· ∉ keys m ++ [e.1]) = (keys rest).filter (· ∉ keys m) := by
        refine List.filter_congr fun name mem => ?_
        have apart : name ≠ e.1 := fun same => fresh (same ▸ mem)
        simp [apart]
      simp only [if_neg there, behind]
      simp [there]

theorem get?_merge (distinct : (keys other).Nodup) :
    (merge m other).get? key = (other.get? key).or (m.get? key) := by
  induction other generalizing m with
  | nil => rfl
  | cons e rest ih =>
    rw [keys_cons, List.nodup_cons] at distinct
    obtain ⟨fresh, later⟩ := distinct
    rw [merge_cons, ih later]
    by_cases same : e.1 = key
    · subst same
      rw [get?_none_iff.mpr fresh, Option.none_or, get?_insert_self, get?, if_pos rfl,
        Option.some_or]
    · rw [get?_insert_ne m e.2 same, get?, if_neg same]

theorem get?_merge_of (only : ∀ e ∈ pairs, e.1 = key → e.2 = value)
    (there : m.get? key = some value ∨ (key, value) ∈ pairs) :
    (merge m pairs).get? key = some value := by
  induction pairs generalizing m with
  | nil => exact there.resolve_right (by simp)
  | cons e rest ih =>
    obtain ⟨name, new⟩ := e
    rw [List.forall_mem_cons] at only
    have later := ih (m := m.insert name new) only.2
    by_cases same : name = key
    · have right : new = value := only.1 same
      refine later (.inl ?_)
      rw [same, get?_insert_self, right]
    · refine later ?_
      rw [get?_insert_ne m new same]
      refine there.imp id fun mem => ?_
      rcases List.mem_cons.mp mem with here | behind
      · exact absurd (congrArg Prod.fst here).symm same
      · exact behind

/-- Among entries that are written one after another, the first under a name of some kind has the
    value that was written last under that name. -/
theorem find?_merge (test : String → Bool) (m other : Entries α) :
    (merge m other).find? (fun e => test e.1) =
      ((m ++ other).find? fun e => test e.1).map fun e =>
        (e.1, (get? other.reverse e.1).getD e.2) := by
  induction other generalizing m with
  | nil => cases found : m.find? fun e => test e.1 <;> simp [merge, get?, found]
  | cons e rest ih =>
    obtain ⟨name, new⟩ := e
    rw [merge_cons, ih, List.find?_append, List.find?_append, find?_insert, List.find?_cons,
      List.reverse_cons]
    cases front : m.find? fun e => test e.1 with
    | none =>
      cases found : test name with
      | false =>
        simp only [get?_append, Option.none_or, Bool.false_eq_true, if_false]
        cases behind : rest.find? fun e => test e.1 with
        | none => rfl
        | some e =>
          have other : name ≠ e.1 := by
            rintro rfl
            have passes := List.find?_some behind
            simp [found] at passes
          simp [get?, other]
      | true => cases later : get? rest.reverse name <;> simp [get?_append, get?, later]
    | some e =>
      by_cases same : name = e.1
      · subst same
        cases later : get? rest.reverse e.1 <;> simp [get?_append, get?, later]
      · cases later : get? rest.reverse e.1 <;>
          simp [get?_append, get?, later, same, Ne.symm same]

/-! Erasing a name. -/

def without (m : Entries α) (key : String) : Entries α := m.filter fun e => e.1 != key

theorem without_cons (e : String × α) (m : Entries α) :
    without (e :: m) key = if e.1 = key then without m key else e :: without m key := by
  by_cases same : e.1 = key <;> simp [without, same]

theorem without_insert (m : Entries α) (name : String) (value : α) :
    (m.insert name value).without key =
      if name = key then m.without key else (m.without key).insert name value := by
  induction m with
  | nil => by_cases same : name = key <;> simp [insert, without, same]
  | cons e rest ih =>
    by_cases here : e.1 = name
    · obtain ⟨_, old⟩ := e
      subst here
      rw [insert, if_pos rfl, without_cons, without_cons]
      split
      · rfl
      · rw [insert, if_pos rfl]
    · rw [insert, if_neg here, without_cons, without_cons, ih]
      by_cases gone : e.1 = key
      · simp only [if_pos gone]
      · by_cases same : name = key
        · simp only [if_neg gone, if_pos same]
        · simp only [if_neg gone, if_neg same, insert, if_neg here]

theorem without_merge (m other : Entries α) :
    (merge m other).without key = merge (m.without key) (other.without key) := by
  induction other generalizing m with
  | nil => rfl
  | cons e rest ih =>
    rw [merge_cons, ih, without_insert, without_cons]
    by_cases same : e.1 = key
    · simp only [if_pos same]
    · simp only [if_neg same, merge_cons]

theorem without_absent (absent : key ∉ keys m) : m.without key = m := by
  rw [without, List.filter_eq_self]
  intro e mem
  simpa using ne_of_absent absent mem

theorem not_mem_without : key ∉ keys (m.without key) := by
  simp [keys, without]

theorem erase_eq_without (distinct : (keys m).Nodup) : m.erase key = m.without key := by
  induction m with
  | nil => rfl
  | cons e rest ih =>
    rw [keys_cons, List.nodup_cons] at distinct
    obtain ⟨fresh, later⟩ := distinct
    by_cases same : e.1 = key
    · subst same
      rw [erase, if_pos rfl, without_cons, if_pos rfl, without_absent fresh]
    · rw [erase, if_neg same, without_cons, if_neg same, ih later]

theorem keys_erase (distinct : (keys m).Nodup) (key : String) :
    keys (m.erase key) = (keys m).filter (· != key) := by
  rw [erase_eq_without distinct, without, keys, keys, List.filter_map]
  rfl

theorem get?_erase (distinct : (keys m).Nodup) (key name : String) :
    (m.erase key).get? name = if name = key then none else m.get? name := by
  rw [erase_eq_without distinct]
  split
  · rename_i same
    rw [same, get?_none_iff]
    exact not_mem_without
  · rename_i apart
    clear distinct
    induction m with
    | nil => rfl
    | cons e rest ih =>
      rw [without_cons]
      by_cases gone : e.1 = key
      · have other : e.1 ≠ name := fun same => apart (same ▸ gone)
        rw [if_pos gone, ih, get?, if_neg other]
      · rw [if_neg gone, get?, get?, ih]

theorem remove_eq (m : Entries α) (key : String) : m.remove key = (m.get? key, m.erase key) := by
  induction m with
  | nil => rfl
  | cons e rest ih =>
    by_cases same : e.1 = key
    · rw [remove, if_pos same, get?, if_pos same, erase, if_pos same]
    · rw [remove, if_neg same, ih, get?, if_neg same, erase, if_neg same]

end Entries
end StoreBridge
