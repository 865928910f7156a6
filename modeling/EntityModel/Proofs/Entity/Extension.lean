import EntityModel.Entity.Basic
import Mathlib.Tactic.Lemma

/-!
# Extending entities

What adding properties to an entity changes and what it leaves alone. The type stays
(`Entity.extend_type`), the serial takes no part (`Entity.extend_withSerial`), and every property
that is added is there in the end, itself or one of the same name and type
(`Entity.exists_of_fold`).
-/

namespace EntityModel

/-- A bound computation succeeds if both of its parts do. -/
lemma bind_eq_ok {ε α β : Type} {x : Except ε α} {f : α → Except ε β} {b : β} :
    (x >>= f) = .ok b ↔ ∃ a, x = .ok a ∧ f a = .ok b := by
  cases x with
  | error e => exact ⟨nofun, nofun⟩
  | ok a => exact ⟨fun h => ⟨a, rfl, h⟩, fun ⟨_, ha, h⟩ => by cases ha; exact h⟩

/-- A bound computation fails in its first part, or else in the second one. -/
lemma bind_eq_error {ε α β : Type} {x : Except ε α} {f : α → Except ε β} {err : ε} :
    (x >>= f) = .error err ↔ x = .error err ∨ ∃ a, x = .ok a ∧ f a = .error err := by
  cases x with
  | error e =>
    constructor
    · rintro ⟨⟩
      exact .inl rfl
    · rintro (⟨⟨⟩⟩ | ⟨a, ⟨⟩, -⟩)
      rfl
  | ok a =>
    constructor
    · exact fun h => .inr ⟨a, rfl, h⟩
    · rintro (⟨⟨⟩⟩ | ⟨_, ⟨⟩, h⟩)
      exact h

namespace Entity

variable {e e' : Entity} {p q : EntityProperty} {ps : List EntityProperty}

/-! ### One property -/

/-- A property that is there is left out, any other one comes last. -/
lemma add_eq_ok (h : e.add p = .ok e') :
    (e.hasProperty p = true ∧ e' = e) ∨ (e.hasProperty p = false ∧ e' = e.push p) := by
  unfold add at h
  split at h
  case isTrue hp =>
    cases h
    exact .inl ⟨hp, rfl⟩
  case isFalse hp =>
    split at h
    · cases h
    · cases h
    · cases h
      exact .inr ⟨Bool.eq_false_iff.mpr hp, rfl⟩

/-- To add an association changes nothing but the associations. -/
lemma addAssociation_eq (a : Association) :
    e.addAssociation a = { e with associations := (e.addAssociation a).associations } := by
  unfold addAssociation
  split <;> rfl

/-- What is added apart from the association that the property holds. -/
lemma extend_eq_ok (h : e.extend p = .ok e') :
    ∃ added associations, e.add p = .ok added ∧ e' = { added with associations } := by
  obtain ⟨added, ha, h⟩ := bind_eq_ok.mp h
  cases h
  cases p.association? with
  | none => exact ⟨added, added.associations, ha, rfl⟩
  | some a => exact ⟨added, (added.addAssociation a).associations, ha, addAssociation_eq a⟩

/-- An entity that is extended is still that of its type. -/
lemma extend_type (h : e.extend p = .ok e') : e'.type = e.type := by
  obtain ⟨added, as, ha, rfl⟩ := extend_eq_ok h
  rcases add_eq_ok ha with ⟨_, rfl⟩ | ⟨_, rfl⟩ <;> rfl

/-- An entity that is extended keeps its number. -/
lemma extend_serial (h : e.extend p = .ok e') : e'.serial = e.serial := by
  obtain ⟨added, as, ha, rfl⟩ := extend_eq_ok h
  rcases add_eq_ok ha with ⟨_, rfl⟩ | ⟨_, rfl⟩ <;> rfl

/-- Extension by a property brings in no other one. -/
lemma mem_properties_extend (h : e.extend p = .ok e') (hq : q ∈ e'.properties) :
    q ∈ e.properties ∨ q = p := by
  obtain ⟨added, as, ha, rfl⟩ := extend_eq_ok h
  rcases add_eq_ok ha with ⟨_, rfl⟩ | ⟨_, rfl⟩
  · exact .inl hq
  · simpa [push] using hq

/-- Extension by a property takes none away. -/
lemma properties_subset_extend (h : e.extend p = .ok e') (hq : q ∈ e.properties) :
    q ∈ e'.properties := by
  obtain ⟨added, as, ha, rfl⟩ := extend_eq_ok h
  rcases add_eq_ok ha with ⟨_, rfl⟩ | ⟨_, rfl⟩
  · exact hq
  · simp [push, hq]

/-- The property that is added is there afterwards, itself or one of the same name and type. -/
lemma exists_of_extend (h : e.extend p = .ok e') :
    ∃ q ∈ e'.properties, q.name = p.name ∧ q.type = p.type := by
  obtain ⟨added, as, ha, rfl⟩ := extend_eq_ok h
  rcases add_eq_ok ha with ⟨hp, rfl⟩ | ⟨_, rfl⟩
  · simpa [hasProperty] using hp
  · exact ⟨p, by simp [push], rfl, rfl⟩

/-! ### The serial -/

/-- The same shape under another serial. -/
def withSerial (e : Entity) (n : Nat) : Entity := { e with serial := n }

/-- Numbers do not matter to the addition of a property. -/
lemma add_withSerial (n : Nat) :
    (e.withSerial n).add p = (e.add p).map (·.withSerial n) := by
  unfold add
  have same : (e.withSerial n).hasProperty p = e.hasProperty p := rfl
  rw [same]
  split
  · rfl
  · dsimp only [withSerial]
    generalize (if p.isId = true then e.id else none) = id
    generalize (if p.isVersion = true then e.version else none) = version
    cases id with
    | some existing => rfl
    | none => cases version <;> rfl

/-- Numbers do not matter to the addition of an association. -/
lemma addAssociation_withSerial (n : Nat) (a : Association) :
    (e.withSerial n).addAssociation a = (e.addAssociation a).withSerial n := by
  unfold addAssociation withSerial
  split <;> rfl

/-- Whether a property is refused, and what comes of it otherwise, does not depend on the serial. -/
lemma extend_withSerial (n : Nat) :
    (e.withSerial n).extend p = (e.extend p).map (·.withSerial n) := by
  unfold extend
  rw [add_withSerial]
  cases e.add p with
  | error err => rfl
  | ok added =>
    cases p.association? with
    | none => rfl
    | some a => exact congrArg Except.ok (addAssociation_withSerial n a)

/-- An extension that succeeds does so for an entity of any number. -/
lemma extend_withSerial_ok (n : Nat) (h : e.extend p = .ok e') :
    (e.withSerial n).extend p = .ok (e'.withSerial n) := by
  rw [extend_withSerial, h]
  rfl

/-- An extension that fails does so for an entity of any number. -/
lemma extend_withSerial_error (n : Nat) {err} (h : e.extend p = .error err) :
    (e.withSerial n).extend p = .error err := by
  rw [extend_withSerial, h]
  rfl

/-! ### Several properties -/

/-- An entity that is extended by many properties is still that of its type. -/
lemma fold_type (h : ps.foldlM extend e = .ok e') : e'.type = e.type := by
  induction ps generalizing e with
  | nil =>
    cases h
    rfl
  | cons p ps ih =>
    obtain ⟨e₁, h₁, h⟩ := bind_eq_ok.mp h
    exact (ih h).trans (extend_type h₁)

/-- An entity that is extended by many properties keeps its number. -/
lemma fold_serial (h : ps.foldlM extend e = .ok e') : e'.serial = e.serial := by
  induction ps generalizing e with
  | nil =>
    cases h
    rfl
  | cons p ps ih =>
    obtain ⟨e₁, h₁, h⟩ := bind_eq_ok.mp h
    exact (ih h).trans (extend_serial h₁)

/-- Extension by many properties brings in no others. -/
lemma mem_properties_fold (h : ps.foldlM extend e = .ok e') (hq : q ∈ e'.properties) :
    q ∈ e.properties ∨ q ∈ ps := by
  induction ps generalizing e with
  | nil =>
    cases h
    exact .inl hq
  | cons p ps ih =>
    obtain ⟨e₁, h₁, h⟩ := bind_eq_ok.mp h
    rcases ih h with hq₁ | hq
    · rcases mem_properties_extend h₁ hq₁ with hq | rfl
      · exact .inl hq
      · exact .inr List.mem_cons_self
    · exact .inr (List.mem_cons_of_mem p hq)

/-- Extension by many properties takes none away. -/
lemma properties_subset_fold (h : ps.foldlM extend e = .ok e') (hq : q ∈ e.properties) :
    q ∈ e'.properties := by
  induction ps generalizing e with
  | nil =>
    cases h
    exact hq
  | cons p ps ih =>
    obtain ⟨e₁, h₁, h⟩ := bind_eq_ok.mp h
    exact ih h (properties_subset_extend h₁ hq)

/-- Every property that is added is there in the end, itself or one of the same name and type. -/
lemma exists_of_fold (h : ps.foldlM extend e = .ok e') (hp : p ∈ ps) :
    ∃ q ∈ e'.properties, q.name = p.name ∧ q.type = p.type := by
  induction ps generalizing e with
  | nil => cases hp
  | cons p' ps ih =>
    obtain ⟨e₁, h₁, hps⟩ := bind_eq_ok.mp h
    rcases List.mem_cons.mp hp with rfl | hp
    · obtain ⟨q, hq, same⟩ := exists_of_extend h₁
      exact ⟨q, properties_subset_fold hps hq, same⟩
    · exact ih hps hp

/-- Numbers do not matter to the extension by many properties. -/
lemma fold_withSerial (n : Nat) :
    ps.foldlM extend (e.withSerial n) = (ps.foldlM extend e).map (·.withSerial n) := by
  induction ps generalizing e with
  | nil => rfl
  | cons p ps ih =>
    rw [List.foldlM_cons, List.foldlM_cons, extend_withSerial]
    cases e.extend p with
    | error err => rfl
    | ok e₁ => exact ih

/-! ### Verification -/

/-- Verification puts the properties into order and neither adds nor drops any. -/
lemma mem_properties_verify : q ∈ e.verify.properties ↔ q ∈ e.properties := by
  unfold verify
  split
  · rfl
  · exact (List.mergeSort_perm _ _).mem_iff

/-- A verified entity is still that of its type. -/
@[simp]
lemma verify_type : e.verify.type = e.type := by
  unfold verify
  split <;> rfl

/-- A verified entity keeps its number. -/
@[simp]
lemma verify_serial : e.verify.serial = e.serial := by
  unfold verify
  split <;> rfl

/-- An entity is verified after its verification. -/
@[simp]
lemma verify_isVerified : e.verify.isVerified = true := by
  unfold verify
  split <;> rfl

/-- Numbers do not matter to verification. -/
lemma verify_withSerial (n : Nat) : (e.withSerial n).verify = e.verify.withSerial n := by
  have same : (e.withSerial n).order = e.order := rfl
  unfold verify
  rw [same]
  split <;> rfl

/-- Numbers do not matter to the kind of access. -/
lemma withAccess_withSerial (n : Nat) (access : Access) :
    (e.withSerial n).withAccess access = (e.withAccess access).withSerial n := by
  have same : (e.withSerial n).name = e.name := rfl
  unfold withAccess
  rw [same]
  split <;> rfl

/-! ### The lists of properties -/

/-- Every property that is found by its name or is persistent is one of the properties. -/
structure IsListed (e : Entity) : Prop where
  added : ∀ q ∈ e.added, q ∈ e.properties
  persistent : ∀ q ∈ e.persistent, q ∈ e.properties

namespace IsListed

/-- A property that is entered is listed everywhere. -/
lemma push (listed : e.IsListed) : (e.push p).IsListed where
  added q hq := by
    rcases List.mem_append.mp hq with hq | hq
    · exact List.mem_append_left _ (listed.added q hq)
    · exact List.mem_append_right _ hq
  persistent q hq := by
    unfold Entity.push at hq
    dsimp only at hq
    split at hq
    · rcases List.mem_append.mp hq with hq | hq
      · exact List.mem_append_left _ (listed.persistent q hq)
      · exact List.mem_append_right _ hq
    · exact List.mem_append_left _ (listed.persistent q hq)

/-- What an extension adds is listed. -/
lemma extend (listed : e.IsListed) (h : e.extend p = .ok e') : e'.IsListed := by
  obtain ⟨added, as, ha, rfl⟩ := extend_eq_ok h
  rcases add_eq_ok ha with ⟨-, rfl⟩ | ⟨-, rfl⟩
  · exact ⟨listed.added, listed.persistent⟩
  · exact ⟨listed.push.added, listed.push.persistent⟩

/-- What an extension by many properties adds is listed. -/
lemma fold (listed : e.IsListed) (h : ps.foldlM Entity.extend e = .ok e') : e'.IsListed := by
  induction ps generalizing e with
  | nil =>
    cases h
    exact listed
  | cons p ps ih =>
    obtain ⟨e₁, h₁, h⟩ := bind_eq_ok.mp h
    exact ih (listed.extend h₁) h

/-- Verification puts the lists into order and keeps their members. -/
lemma verify (listed : e.IsListed) : e.verify.IsListed := by
  have kept : ∀ q ∈ e.properties, q ∈ e.verify.properties := fun q => mem_properties_verify.mpr
  unfold Entity.verify at *
  split at kept
  · exact ⟨fun q hq => kept q (listed.added q hq), fun q hq => kept q (listed.persistent q hq)⟩
  · refine ⟨fun q hq => kept q (listed.added q hq), fun q hq => kept q (listed.persistent q ?_)⟩
    exact (List.mergeSort_perm _ _).mem_iff.mp hq

/-- The kind of access does not matter to the lists. -/
lemma withAccess (listed : e.IsListed) (access : Access) : (e.withAccess access).IsListed := by
  unfold Entity.withAccess
  split
  · exact ⟨listed.added, listed.persistent⟩
  · exact listed

end IsListed

end Entity

end EntityModel
