import EntityModel.Dictionary
import Mathlib.Data.List.Forall2
import Mathlib.Tactic.ByContra
import Mathlib.Tactic.Lemma

/-!
# Laws of dictionaries

What a dictionary holds after an entry was removed, and that a removed entry can be put back: at a
name without an entry `erase` undoes `insert` (`Dictionary.erase_insert`), at a name with one
`insert` undoes `erase` (`Dictionary.insert_erase`). All operations commute with a map of the
values. A list of entries with distinct names becomes a dictionary of the same entries, and stays
as it is if it is sorted.
-/

namespace EntityModel.Dictionary

variable {α β γ : Type} {d : Dictionary α} {name : String} {value : α}

/-! ### Names -/

/-- A name has no value if it is not among the names. -/
lemma get?_eq_none_iff : get? d name = none ↔ name ∉ names d := by
  induction d with
  | nil => simp [names]
  | cons e rest ih =>
    obtain ⟨k, v⟩ := e
    rw [get?_cons, names, List.map_cons, List.mem_cons, not_or, ← names, ← ih]
    split
    case isTrue eq => simp [eq]
    case isFalse ne => simp [Ne.symm ne]

/-- A name that has a value is among the names. -/
lemma mem_names_of_get? (h : get? d name = some value) : name ∈ names d := by
  by_contra absent
  rw [get?_eq_none_iff.mpr absent] at h
  cases h

/-- A name that was erased is gone, however often it was there. -/
lemma notMem_names_erase (d : Dictionary α) (name : String) : name ∉ names (erase d name) := by
  simp [names, erase]

/-! ### Removal -/

/-- An entry of the name that is erased goes away. -/
lemma erase_cons_self (name : String) (v : α) (rest : Dictionary α) :
    erase ((name, v) :: rest) name = erase rest name := by
  simp [erase]

/-- Entries of other names stay. -/
lemma erase_cons_of_ne {k : String} (v : α) (rest : Dictionary α) (h : k ≠ name) :
    erase ((k, v) :: rest) name = (k, v) :: erase rest name := by
  simp [erase, h]

/-- There is nothing to erase of a name that is not there. -/
lemma erase_of_notMem (h : name ∉ names d) : erase d name = d := by
  refine List.filter_eq_self.mpr fun e he => ?_
  have ne : e.1 ≠ name := fun eq => h (eq ▸ List.mem_map_of_mem he)
  simpa using ne

/-- What was inserted for a new name is gone once the name is erased. -/
theorem erase_insert (h : get? d name = none) : erase (insert d name value) name = d := by
  induction d with
  | nil => simp [insert, erase]
  | cons e rest ih =>
    obtain ⟨k, v⟩ := e
    have absent := get?_eq_none_iff.mp h
    obtain ⟨ne, absent_rest⟩ : ¬name = k ∧ name ∉ names rest := by
      simpa [names] using absent
    rw [insert, if_neg ne]
    split
    · rw [erase_cons_self, erase_of_notMem absent]
    · rw [erase_cons_of_ne _ _ (Ne.symm ne), ih (get?_eq_none_iff.mpr absent_rest)]

/-- In a sorted dictionary an entry has only one place. -/
theorem insert_erase (sorted : Sorted d) (h : get? d name = some value) :
    insert (erase d name) name value = d := by
  induction d with
  | nil => cases h
  | cons e rest ih =>
    obtain ⟨k, v⟩ := e
    obtain ⟨first, sorted⟩ := List.pairwise_cons.mp sorted
    rw [get?_cons] at h
    split at h
    case isTrue eq =>
      obtain rfl := eq
      obtain rfl := Option.some.inj h
      have absent : k ∉ names rest := by
        intro mem
        obtain ⟨e, he, name_eq⟩ := List.mem_map.mp mem
        exact String.lt_irrefl k (name_eq ▸ first e he)
      rw [erase_cons_self, erase_of_notMem absent]
      -- all that is left comes after the name
      cases rest with
      | nil => rfl
      | cons e rest =>
        have lt : k < e.1 := first e List.mem_cons_self
        have ne : k ≠ e.1 := fun eq => String.lt_irrefl k (eq ▸ lt)
        rw [insert, if_neg ne, if_pos lt]
    case isFalse ne =>
      obtain ⟨e, he, name_eq⟩ := List.mem_map.mp (mem_names_of_get? h)
      have lt : k < name := name_eq ▸ first e he
      rw [erase_cons_of_ne _ _ ne, insert, if_neg (Ne.symm ne), if_neg (String.lt_asymm lt),
        ih sorted h]

/-! ### Lists of entries -/

/-- Entries of distinct names that are inserted one by one have their values; other names keep
theirs. -/
lemma get?_foldl_insert {entries : List (String × α)} (distinct : (names entries).Nodup)
    (d : Dictionary α) (name : String) :
    get? (entries.foldl (fun d e => insert d e.1 e.2) d) name =
      (get? entries name).or (get? d name) := by
  induction entries generalizing d with
  | nil => rfl
  | cons e rest ih =>
    obtain ⟨k, v⟩ := e
    obtain ⟨new, distinct⟩ := List.nodup_cons.mp distinct
    rw [List.foldl_cons, ih distinct, get?_cons]
    split
    case isTrue eq =>
      obtain rfl := eq
      rw [get?_eq_none_iff.mpr new, get?_insert_self]
      rfl
    case isFalse ne => rw [get?_insert_of_ne d v (Ne.symm ne)]

/-- Entries of distinct names have their values in the dictionary that is made of them. -/
theorem get?_ofEntries {entries : List (String × α)} (distinct : (names entries).Nodup)
    (name : String) : get? (ofEntries entries) name = get? entries name := by
  rw [ofEntries, get?_foldl_insert distinct, get?_nil, Option.or_none]

/-- A name after all others is inserted at the end. -/
lemma insert_of_forall_lt (h : ∀ e ∈ d, e.1 < name) :
    insert d name value = d ++ [(name, value)] := by
  induction d with
  | nil => rfl
  | cons e rest ih =>
    obtain ⟨lt, later⟩ := List.forall_mem_cons.mp h
    have ne : name ≠ e.1 := fun eq => String.lt_irrefl name (eq ▸ lt)
    rw [insert, if_neg ne, if_neg (String.lt_asymm lt), ih later, List.cons_append]

/-- Entries in order are the dictionary that is made of them. -/
theorem ofEntries_of_sorted (sorted : Sorted d) : ofEntries d = d := by
  suffices appended : ∀ before, Sorted (before ++ d) →
      d.foldl (fun d e => insert d e.1 e.2) before = before ++ d from appended [] sorted
  clear sorted
  induction d with
  | nil => exact fun before _ => (List.append_nil before).symm
  | cons e rest ih =>
    intro before sorted
    have first : ∀ b ∈ before, b.1 < e.1 := fun b hb =>
      (List.pairwise_append.mp sorted).2.2 b hb e List.mem_cons_self
    rw [List.foldl_cons, insert_of_forall_lt first, List.append_cons before e rest]
    exact ih _ (List.append_cons before e rest ▸ sorted)

/-! ### Related entries -/

/-- Dictionaries whose entries have the same names in pairs have the same names. -/
lemma names_eq_names {e : Dictionary β} (h : List.Forall₂ (fun x y => x.1 = y.1) d e) :
    names d = names e := by
  induction h with
  | nil => rfl
  | cons same _ ih => exact congrArg₂ List.cons same ih

/-- Dictionaries with the same names, whose entries are related one by one, hold related values
under each name. -/
lemma rel_get? {R : α → β → Prop} {e : Dictionary β}
    (h : List.Forall₂ (fun x y => x.1 = y.1 ∧ R x.2 y.2) d e) (name : String) :
    Option.Rel R (get? d name) (get? e name) := by
  induction h with
  | nil => exact .none
  | @cons x y _ _ both _ ih =>
    obtain ⟨k, _⟩ := x
    obtain ⟨rfl, related⟩ := both
    rw [get?_cons, get?_cons]
    split
    · exact .some related
    · exact ih

/-! ### Mapping the values -/

def mapValues (f : α → β) (d : Dictionary α) : Dictionary β :=
  d.map fun e => (e.1, f e.2)

variable (f : α → β)

/-- To map the values keeps the names. -/
@[simp]
lemma names_mapValues (d : Dictionary α) : names (mapValues f d) = names d := by
  simp [names, mapValues]

/-- Values that are mapped to themselves stay. -/
lemma mapValues_eq_self {f : α → α} (h : ∀ v ∈ d.map (·.2), f v = v) : mapValues f d = d := by
  refine (List.map_congr_left fun e he => ?_).trans (List.map_id' d)
  rw [h e.2 (List.mem_map_of_mem he)]

/-- To map the values twice is to map them once by both functions. -/
lemma mapValues_mapValues (g : β → γ) (d : Dictionary α) :
    mapValues g (mapValues f d) = mapValues (g ∘ f) d := by
  simp [mapValues]

/-- The value of a name is the mapped one. -/
lemma get?_mapValues (d : Dictionary α) (name : String) :
    get? (mapValues f d) name = (get? d name).map f := by
  induction d with
  | nil => rfl
  | cons e rest ih =>
    rw [mapValues, List.map_cons, get?_cons, get?_cons, ← mapValues, ih]
    split <;> rfl

/-- Values can be mapped before or after a name is erased. -/
lemma erase_mapValues (d : Dictionary α) (name : String) :
    erase (mapValues f d) name = mapValues f (erase d name) :=
  List.filter_map ..

/-- Values can be mapped before or after one is inserted. -/
lemma insert_mapValues (d : Dictionary α) (name : String) (value : α) :
    insert (mapValues f d) name (f value) = mapValues f (insert d name value) := by
  induction d with
  | nil => rfl
  | cons e rest ih =>
    rw [mapValues, List.map_cons, insert, insert, ← mapValues, ih]
    split
    · rfl
    · split <;> rfl

end EntityModel.Dictionary
