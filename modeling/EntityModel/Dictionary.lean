/-!
# Dictionaries

A dictionary is a list of named entries whose names increase strictly in the order of code points.
Writing under a name replaces the entry of that name or inserts a new one at its place, so two
dictionaries with the same entries are the same list.
-/

namespace EntityModel

/-- A list of named entries. -/
abbrev Dictionary (α : Type) := List (String × α)

namespace Dictionary

variable {α β : Type}

/-- The names increase strictly, so each occurs once. -/
def Sorted (d : Dictionary α) : Prop :=
  d.Pairwise (fun a b => a.1 < b.1)

instance (d : Dictionary α) : Decidable (Sorted d) :=
  inferInstanceAs (Decidable (d.Pairwise (fun a b => a.1 < b.1)))

def get? (d : Dictionary α) (name : String) : Option α :=
  (d.find? fun e => e.1 == name).map (·.2)

def insert (d : Dictionary α) (name : String) (value : α) : Dictionary α :=
  match d with
  | [] => [(name, value)]
  | (k, v) :: rest =>
    if name = k then (name, value) :: rest
    else if name < k then (name, value) :: (k, v) :: rest
    else (k, v) :: insert rest name value

def erase (d : Dictionary α) (name : String) : Dictionary α :=
  d.filter fun e => e.1 != name

/-- The dictionary of a list of entries, where of several entries with one name the last one
stays. -/
def ofEntries (entries : List (String × α)) : Dictionary α :=
  entries.foldl (fun d e => insert d e.1 e.2) []

def names (d : Dictionary α) : List String :=
  d.map (·.1)

/-- There is nothing in the empty dictionary. -/
@[simp]
theorem get?_nil (name : String) : get? ([] : Dictionary α) name = none := rfl

/-- The first entry of a name counts. -/
theorem get?_cons (k : String) (v : α) (d : Dictionary α) (name : String) :
    get? ((k, v) :: d) name = if k = name then some v else get? d name := by
  by_cases h : k = name <;> simp [get?, h]

/-- A write is what a later read of its name finds. -/
@[simp]
theorem get?_insert_self (d : Dictionary α) (name : String) (value : α) :
    get? (insert d name value) name = some value := by
  induction d with
  | nil => simp [insert, get?_cons]
  | cons e rest ih =>
    obtain ⟨k, v⟩ := e
    by_cases h : name = k
    · simp [insert, h, get?_cons]
    · by_cases h' : name < k
      · simp [insert, h, h', get?_cons]
      · simp [insert, h, h', get?_cons, ih, Ne.symm h]

/-- A write leaves the entries of all other names alone. -/
theorem get?_insert_of_ne (d : Dictionary α) {name other : String} (value : α) (h : other ≠ name) :
    get? (insert d name value) other = get? d other := by
  induction d with
  | nil => simp [insert, get?_cons, Ne.symm h]
  | cons e rest ih =>
    obtain ⟨k, v⟩ := e
    by_cases hk : name = k
    · subst hk; simp [insert, get?_cons, Ne.symm h]
    · by_cases h' : name < k
      · simp [insert, hk, h', get?_cons, Ne.symm h]
      · simp [insert, hk, h', get?_cons, ih]

/-- Of two writes under one name the later one stays. -/
@[simp]
theorem insert_insert_self (d : Dictionary α) (name : String) (value value' : α) :
    insert (insert d name value) name value' = insert d name value' := by
  induction d with
  | nil => simp [insert]
  | cons e rest ih =>
    obtain ⟨k, v⟩ := e
    by_cases hk : name = k
    · simp [insert, hk]
    · by_cases h' : name < k
      · simp [insert, hk, h']
      · simp [insert, hk, h', ih]

end Dictionary

end EntityModel
