import EntityModel.Proofs.TypeRef.Substitution
import Mathlib.Data.List.Basic

/-!
# Heights of types

How deep a type is nested bounds every walk down its arguments. Substitution nests a type deeper by
the images of its variables only (`TypeRef.height_subst_le`), and where nothing is left to
substitute in a type, nothing is in its arguments (`TypeRef.subst_of_mem_arguments`).
-/

namespace EntityModel.TypeRef

mutual

/-- The number of types on the longest way down a type, itself among them. -/
def height : TypeRef → Nat
  | .named _ as => heightAll as + 1
  | .collection _ t | .array t | .optional t => height t + 1
  | .map k v => max (height k) (height v) + 1
  | .variable _ => 1

/-- The greatest height of the types of a list. -/
def heightAll : List TypeRef → Nat
  | [] => 0
  | t :: ts => max (height t) (heightAll ts)

end

variable {b : Bindings} {t u : TypeRef} {ts : List TypeRef} {n : Nat}

/-! ### Ways down -/

/-- No type of a list is higher than the list. -/
lemma height_le_heightAll (h : t ∈ ts) : t.height ≤ heightAll ts := by
  induction ts with
  | nil => cases h
  | cons u ts ih =>
    rcases List.mem_cons.mp h with rfl | h
    · exact Nat.le_max_left _ _
    · exact Nat.le_trans (ih h) (Nat.le_max_right _ _)

/-- The arguments of a type are lower than the type. -/
lemma height_lt_of_mem_arguments (h : u ∈ t.arguments) : u.height < t.height := by
  cases t with
  | named n as => exact Nat.lt_succ_of_le (height_le_heightAll h)
  | collection | array | optional =>
    cases List.mem_singleton.mp h
    exact Nat.lt_succ_self _
  | map k v =>
    rcases List.mem_pair.mp h with rfl | rfl
    · exact Nat.lt_succ_of_le (Nat.le_max_left _ _)
    · exact Nat.lt_succ_of_le (Nat.le_max_right _ _)
  | «variable» => cases h

/-- In the arguments of a type in which nothing is replaced nothing is replaced. -/
lemma subst_of_mem_arguments (settled : t.subst b = t) (h : u ∈ t.arguments) : u.subst b = u := by
  cases t with
  | named n as =>
    have same : as.map (subst b) = as.map id := by
      rw [← substAll_eq_map, List.map_id]
      exact (TypeRef.named.inj settled).2
    exact List.map_inj_left.mp same u h
  | collection k t =>
    cases List.mem_singleton.mp h
    exact (TypeRef.collection.inj settled).2
  | array t =>
    cases List.mem_singleton.mp h
    exact TypeRef.array.inj settled
  | optional t =>
    cases List.mem_singleton.mp h
    exact TypeRef.optional.inj settled
  | map k v =>
    obtain ⟨key, value⟩ := TypeRef.map.inj settled
    rcases List.mem_pair.mp h with rfl | rfl
    · exact key
    · exact value
  | «variable» => cases h

/-! ### Bounds -/

mutual

/-- No type is higher than it is large. -/
theorem height_le_size : ∀ t : TypeRef, t.height ≤ t.size
  | .named _ as => Nat.succ_le_succ (heightAll_le_sizeAll as)
  | .collection _ t | .array t | .optional t => Nat.succ_le_succ (height_le_size t)
  | .map k v => by
    have key := height_le_size k
    have value := height_le_size v
    rw [height, size]
    omega
  | .variable _ => Nat.le_refl 1

/-- No list of types is higher than it is large. -/
theorem heightAll_le_sizeAll : ∀ ts : List TypeRef, heightAll ts ≤ sizeAll ts
  | [] => Nat.le_refl 0
  | t :: ts => by
    have first := height_le_size t
    have rest := heightAll_le_sizeAll ts
    rw [heightAll, sizeAll]
    omega

end

/-- Every type has a size. -/
lemma size_pos (t : TypeRef) : 0 < t.size := by
  cases t <;> exact Nat.succ_pos _

/-- No type of a list is larger than the list. -/
lemma size_le_sizeAll (h : t ∈ ts) : t.size ≤ sizeAll ts := by
  induction ts with
  | nil => cases h
  | cons u ts ih =>
    rw [sizeAll]
    rcases List.mem_cons.mp h with rfl | h
    · exact Nat.le_add_right _ _
    · exact Nat.le_trans (ih h) (Nat.le_add_left _ _)

mutual

/-- The images of variables are all that substitution adds to the height of a type. -/
theorem height_subst_le (low : ∀ name image, b.get? name = some image → image.height ≤ n) :
    ∀ t : TypeRef, (t.subst b).height ≤ t.height + n
  | .variable name => by
    rw [subst, height]
    -- only here does anything get higher, and by no more than an image
    cases bound : b.get? name with
    | none => exact Nat.le_add_right 1 n
    | some image => exact Nat.le_trans (low name image bound) (Nat.le_add_left n 1)
  | .named _ as => by
    have arguments := heightAll_substAll_le low as
    rw [subst, height, height]
    omega
  | .collection _ t | .array t | .optional t => by
    have inner := height_subst_le low t
    rw [subst, height, height]
    omega
  | .map k v => by
    have key := height_subst_le low k
    have value := height_subst_le low v
    rw [subst, height, height]
    omega

/-- The images of variables are all that substitution adds to the height of a list of types. -/
theorem heightAll_substAll_le (low : ∀ name image, b.get? name = some image → image.height ≤ n) :
    ∀ ts : List TypeRef, heightAll (substAll b ts) ≤ heightAll ts + n
  | [] => Nat.zero_le _
  | t :: ts => by
    have first := height_subst_le low t
    have rest := heightAll_substAll_le low ts
    rw [substAll, heightAll, heightAll]
    omega

end

/-- An image is one of the types that are bound. -/
lemma Bindings.mem_of_get? {name : String} {image : TypeRef} (h : b.get? name = some image) :
    image ∈ b.map (·.2) := by
  obtain ⟨e, found, rfl⟩ := Option.map_eq_some_iff.mp h
  exact List.mem_map_of_mem (List.mem_of_find?_eq_some found)

end EntityModel.TypeRef
