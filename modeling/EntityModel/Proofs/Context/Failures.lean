import EntityModel.Proofs.Context.Operation

/-!
# Failures of lookups

What goes wrong while an entity is looked up or made (`Error.IsOfEntity`) differs from everything
that can go wrong with the properties that lead to it: no failure of a lookup names a property that
was not found, a null on the way or an argument (`ContextM.isOfEntity_of_requiredEntity`).
-/

namespace EntityModel

/-- The failures of a lookup, those on the way to the entity included. -/
inductive Error.IsOfEntity : Error → Prop where
  | unknown {type} :
    IsOfEntity (.unknownEntity type)
  | undescribed {subject reason} :
    IsOfEntity (.introspection subject reason)
  | secondId {owner existing candidate} :
    IsOfEntity (.duplicateId owner existing candidate)
  | secondVersion {owner existing candidate} :
    IsOfEntity (.duplicateVersion owner existing candidate)
  | missing {type} :
    IsOfEntity (.missingEntity type)

variable {err : Error} {t : TypeRef}

/-! ### Declarations -/

namespace Mapping

variable {c : Catalog} {m : Mapping}

/-- A missing hierarchy is a failure of an entity. -/
lemma isOfEntity_of_hierarchy (h : c.hierarchy t = .error err) : err.IsOfEntity := by
  unfold Catalog.hierarchy at h
  split at h <;> cases h
  exact .undescribed

/-- Backings that cannot be collected are a failure of an entity. -/
lemma isOfEntity_of_backings (h : backings c t = .error err) : err.IsOfEntity := by
  rcases bind_eq_error.mp h with h | ⟨fields, -, h⟩
  · rcases bind_eq_error.mp h with h | ⟨_, -, ⟨⟩⟩
    exact isOfEntity_of_hierarchy h
  · rcases bind_eq_error.mp h with h | ⟨_, -, ⟨⟩⟩
    rcases bind_eq_error.mp h with h | ⟨_, -, ⟨⟩⟩
    exact isOfEntity_of_hierarchy h

/-- A missing outline is a failure of an entity. -/
lemma isOfEntity_of_outline (h : m.outline t = .error err) : err.IsOfEntity := by
  rcases bind_eq_error.mp h with h | ⟨decl, -, h⟩
  · unfold Catalog.required at h
    split at h <;> cases h
    exact .undescribed
  · rcases bind_eq_error.mp h with h | ⟨_, -, ⟨⟩⟩
    rcases bind_eq_error.mp h with h | ⟨_, -, ⟨⟩⟩
    exact isOfEntity_of_backings h

end Mapping

/-- A property that cannot be added is a failure of an entity. -/
lemma Entity.isOfEntity_of_extend {e : Entity} {p : EntityProperty} (h : e.extend p = .error err) :
    err.IsOfEntity := by
  rcases bind_eq_error.mp h with h | ⟨_, -, ⟨⟩⟩
  unfold Entity.add at h
  split at h
  · cases h
  · split at h <;> cases h
    · exact .secondId
    · exact .secondVersion

/-- A discovery fails with what is wrong with a declaration or with a property that is added. -/
lemma Mapping.Visits.isOfEntity {m : Mapping} {d d' : Discovery} {r : Except Error Unit}
    (vis : m.Visits t d r d') : ∀ err, r = .error err → err.IsOfEntity := by
  -- the error of a visit arose in it, or in a visit to a type behind its properties
  induction vis using Visits.rec (motive_2 := fun _ _ _ r _ _ =>
    ∀ err, r = .error err → err.IsOfEntity) with
  | known | completed =>
    intro err h
    cases h
  | undescribed _ outlined =>
    rintro _ ⟨⟩
    exact isOfEntity_of_outline outlined
  | withdrawn _ _ _ ih =>
    rintro _ ⟨⟩
    exact ih _ rfl
  | nil err h => cases h
  | refused extended err h =>
    cases h
    exact Entity.isOfEntity_of_extend extended
  | leaf _ _ _ ih err h => exact ih err h
  | nested _ _ _ _ _ ih err h => exact ih err h
  | failed _ _ _ ih err h =>
    cases h
    exact ih _ rfl

/-! ### Lookups -/

namespace ContextM

variable {c c' : Context}

/-- A lookup fails for reasons that lie in entities. -/
lemma isOfEntity_of_entity? (h : (entity? t).runOn c = some (.error err, c')) :
    err.IsOfEntity := by
  have yields : EntityLookup.Yields c (.entity t) (.error err) c' := .of_run h
  cases yields with
  | unknown => exact .unknown
  | failed _ _ vis => exact vis.isOfEntity _ rfl

/-- A required lookup fails for reasons that lie in entities. -/
lemma isOfEntity_of_requiredEntity (h : (requiredEntity t).runOn c = some (.error err, c')) :
    err.IsOfEntity := by
  rcases runOn_bind_error.mp h with h | ⟨answer, c₁, -, h⟩
  · exact isOfEntity_of_entity? h
  · cases answer <;> cases h
    exact .missing

end ContextM

end EntityModel
