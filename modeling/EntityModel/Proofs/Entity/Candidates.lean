import EntityModel.Context.Paths
import EntityModel.Proofs.Catalog.PropertyTypes
import EntityModel.Proofs.Entity.Order
import Mathlib.Data.List.Basic

/-!
# What entities offer to paths

Paths go on from an entity by its persistent properties and by those that hold its associations.
Where no two fields on a chain of superclasses share a name, the properties of an entity have names
of their own, and these two lists together are all of its properties, each of them once
(`Mapping.candidates_perm`).
-/

namespace EntityModel

namespace Mapping

variable {m : Mapping} {c : Catalog} {t : TypeRef} {bs : List Backing} {fields : List FieldDecl}
  {accessors : List AccessorDecl} {decl : TypeDecl} {ps : List EntityProperty}

/-! ### Names of mappable elements -/

/-- No two fields on the chain of a type have the same name. -/
def HasDistinctFields (m : Mapping) (t : TypeRef) : Prop :=
  (((Catalog.chain m.catalog.declarations t).flatMap Level.fields).map (·.name)).Nodup

/-- Fields that are paired up keep their names and their order. -/
lemma map_name_pairUp (fields : List FieldDecl) (accessors : List AccessorDecl) :
    (pairUp fields accessors).1.map Backing.name = fields.map (·.name) := by
  induction fields generalizing accessors with
  | nil => rfl
  | cons f fields ih => exact congrArg (f.name :: ·) (ih _)

/-- The accessors that are left are in their order. -/
lemma pairUp_sublist (fields : List FieldDecl) (accessors : List AccessorDecl) :
    (pairUp fields accessors).2.Sublist accessors := by
  induction fields generalizing accessors with
  | nil => exact .refl accessors
  | cons f fields ih => exact (ih _).trans List.eraseP_sublist

/-- No element is left with the name of one that was taken out. -/
lemma ne_of_mem_eraseP {name : String} {a : AccessorDecl}
    (distinct : (accessors.map (·.name)).Nodup)
    (ha : a ∈ accessors.eraseP fun a => a.name == name) : a.name ≠ name := by
  induction accessors with
  | nil => cases ha
  | cons b accessors ih =>
    obtain ⟨first, distinct⟩ := List.nodup_cons.mp distinct
    by_cases hb : b.name = name
    · rw [List.eraseP_cons_of_pos (by simpa using hb)] at ha
      intro same
      apply first
      show b.name ∈ accessors.map (·.name)
      rw [hb, ← same]
      exact List.mem_map_of_mem ha
    · rw [List.eraseP_cons_of_neg (by simpa using hb)] at ha
      rcases List.mem_cons.mp ha with rfl | ha
      · exact hb
      · exact ih distinct ha

/-- Accessors that are left have other names than the fields. -/
lemma ne_of_mem_pairUp {f : FieldDecl} {a : AccessorDecl}
    (distinct : (accessors.map (·.name)).Nodup) (hf : f ∈ fields)
    (ha : a ∈ (pairUp fields accessors).2) : a.name ≠ f.name := by
  induction fields generalizing accessors with
  | nil => cases hf
  | cons g fields ih =>
    rcases List.mem_cons.mp hf with rfl | hf
    · exact ne_of_mem_eraseP distinct ((pairUp_sublist _ _).subset ha)
    · exact ih (distinct.sublist (List.eraseP_sublist.map _)) hf ha

/-- Where fields have distinct names, the backings of a type have. -/
lemma backings_nodup (h : backings c t = .ok bs)
    (distinct : (((Catalog.chain c.declarations t).flatMap Level.fields).map (·.name)).Nodup) :
    (bs.map Backing.name).Nodup := by
  obtain ⟨fields, hfields, h⟩ := bind_eq_ok.mp h
  obtain ⟨accessors, haccessors, h⟩ := bind_eq_ok.mp h
  cases h
  obtain ⟨levels, hlevels, hfields⟩ := bind_eq_ok.mp hfields
  cases hfields
  obtain ⟨levels', hlevels', haccessors⟩ := bind_eq_ok.mp haccessors
  cases haccessors
  -- fields and accessors are read off one superclass chain
  obtain rfl := Catalog.hierarchy_eq_ok hlevels
  obtain rfl := Catalog.hierarchy_eq_ok hlevels'
  have accessors_distinct :
      ((distinctOn (·.name) [] ((Catalog.chain c.declarations t).flatMap Level.accessors)).map
        (·.name)).Nodup :=
    List.pairwise_map.mpr (pairwise_distinctOn _ _ _)
  rw [List.map_append]
  apply List.nodup_append.mpr
  refine ⟨?_, ?_, ?_⟩
  · rw [map_name_pairUp]
    exact distinct.sublist (List.filter_sublist.map _)
  · rw [List.map_map]
    exact accessors_distinct.sublist ((List.filter_sublist.trans (pairUp_sublist _ _)).map _)
  -- an accessor that backs a property alone has no field of its name to be paired with
  · intro name paired other alone same
    rw [map_name_pairUp] at paired
    obtain ⟨f, hf, rfl⟩ := List.mem_map.mp paired
    obtain ⟨b, hb, rfl⟩ := List.mem_map.mp alone
    obtain ⟨a, ha, rfl⟩ := List.mem_map.mp hb
    exact ne_of_mem_pairUp accessors_distinct hf (List.mem_filter.mp ha).1 same.symm

/-- Where fields have distinct names, the properties of an outline have. -/
lemma outline_nodup (h : m.outline t = .ok (decl, ps)) (distinct : m.HasDistinctFields t) :
    (ps.map (·.name)).Nodup := by
  obtain ⟨bs, hbs, made⟩ := bind_eq_ok.mp (outline_eq_ok h).2
  cases made
  have names : (bs.map fun b => EntityProperty.make b t decl m.simpleTypes m.rules.idRule).map
      (·.name) = bs.map Backing.name := List.map_map
  exact (names ▸ backings_nodup hbs distinct).sublist (List.filter_sublist.map _)

end Mapping

/-! ### Properties with names of their own -/

/-- A property holds an association exactly if it is one. -/
lemma EntityProperty.association?_isSome {p : EntityProperty} :
    p.association?.isSome = p.isAssociation := by
  unfold association?
  cases held : p.isAssociation with
  | false => rfl
  | true =>
    obtain ⟨-, referenced⟩ := Bool.and_eq_true_iff.mp held
    obtain ⟨a, ha⟩ := Option.isSome_iff_exists.mp referenced
    unfold associationTarget?
    rw [ha, if_pos rfl, Option.isSome_map]
    split <;> trivial

/-- The association of a property is known by the property's name. -/
lemma EntityProperty.inverse_of_association? {p : EntityProperty} {a : Association}
    (h : p.association? = some a) : a.inverse = p.name := by
  unfold association? at h
  split at h
  · obtain ⟨target, -, rfl⟩ := Option.map_eq_some_iff.mp h
    rfl
  · cases h

namespace Entity

variable {e e' e'' : Entity} {p : EntityProperty} {ps qs : List EntityProperty}

/-- An entity has got further properties, and the associations that these hold. -/
structure Gains (e : Entity) (ps : List EntityProperty) (e' : Entity) : Prop where
  properties_eq : e'.properties = e.properties ++ ps
  added_eq : e'.added = e.added ++ ps
  persistent_eq : e'.persistent =
    e.persistent ++ ps.filter fun p => !p.isTransient && !p.isAssociation
  associations_eq : e'.associations = e.associations ++ ps.filterMap (·.association?)

/-- An entity that gains properties twice gains them all. -/
lemma Gains.trans (first : e.Gains ps e') (second : e'.Gains qs e'') : e.Gains (ps ++ qs) e'' where
  properties_eq := by rw [second.properties_eq, first.properties_eq, List.append_assoc]
  added_eq := by rw [second.added_eq, first.added_eq, List.append_assoc]
  persistent_eq := by
    rw [second.persistent_eq, first.persistent_eq, List.append_assoc, List.filter_append]
  associations_eq := by
    rw [second.associations_eq, first.associations_eq, List.append_assoc, List.filterMap_append]

/-- A property that is entered is gained, if its association is. -/
lemma gains_push : e.Gains [p]
    { e.push p with associations := e.associations ++ p.association?.toList } where
  properties_eq := rfl
  added_eq := rfl
  persistent_eq := by
    show (if _ then _ else _) = e.persistent ++ [p].filter _
    rw [List.filter_cons]
    cases !p.isTransient && !p.isAssociation <;> simp
  associations_eq := by cases h : p.association? <;> simp [h]

/-- A property of a new name is added, and so is the association that it holds. -/
lemma gains_extend (h : e.extend p = .ok e') (unnamed : ∀ q ∈ e.properties, q.name ≠ p.name)
    (unheld : ∀ a ∈ e.associations, a.inverse ≠ p.name) : e.Gains [p] e' := by
  obtain ⟨added, hadd, h⟩ := bind_eq_ok.mp h
  -- no property has the name at all, so the property is not there yet
  have absent : e.hasProperty p = false := by
    simp only [hasProperty, List.any_eq_false, Bool.and_eq_true, beq_iff_eq, not_and]
    intro q hq name
    exact absurd name (unnamed q hq)
  rcases add_eq_ok hadd with ⟨present, -⟩ | ⟨-, rfl⟩
  · cases absent.symm.trans present
  · cases h
    have gains := gains_push (e := e) (p := p)
    cases held : p.association? with
    | none =>
      rw [held, Option.toList_none, List.append_nil] at gains
      exact gains
    | some a =>
      -- an earlier association would have the property's name, whatever its own type is
      have new : a ∉ e.associations := fun ha =>
        unheld a ha (EntityProperty.inverse_of_association? held)
      rw [held] at gains
      rw [Option.elim_some, addAssociation, if_neg (show a ∉ (e.push p).associations from new)]
      exact gains

/-- Properties of different new names are added one by one. -/
lemma gains_fold (h : ps.foldlM extend e = .ok e')
    (distinct : ((e.properties ++ ps).map (·.name)).Nodup)
    (unheld : ∀ a ∈ e.associations, ∀ p ∈ ps, a.inverse ≠ p.name) : e.Gains ps e' := by
  induction ps generalizing e with
  | nil =>
    cases h
    exact ⟨by simp, by simp, by simp, by simp⟩
  | cons p ps ih =>
    obtain ⟨e₁, first, rest⟩ := bind_eq_ok.mp h
    rw [List.map_append, List.map_cons] at distinct
    obtain ⟨-, names, apart⟩ := List.nodup_append.mp distinct
    have gains : e.Gains [p] e₁ := by
      apply gains_extend first
      · exact fun q hq => apart q.name (List.mem_map_of_mem hq) p.name List.mem_cons_self
      · exact fun a ha => unheld a ha p List.mem_cons_self
    refine (gains.trans (?_ : e₁.Gains ps e') : e.Gains ([p] ++ ps) e')
    apply ih rest
    · rw [gains.properties_eq, List.append_assoc, List.map_append]
      exact distinct
    · intro a ha q hq
      rw [gains.associations_eq] at ha
      rcases List.mem_append.mp ha with before | new
      -- an association is held by the property that it was made for, which has another name
      · exact unheld a before q (List.mem_cons_of_mem p hq)
      · obtain ⟨p', hp', held⟩ := List.mem_filterMap.mp new
        cases List.mem_singleton.mp hp'
        rw [EntityProperty.inverse_of_association? held]
        rintro same
        exact (List.nodup_cons.mp names).1 (same ▸ List.mem_map_of_mem hq)

/-- Among properties of different names every association is held by the property of its name. -/
lemma filterMap_holder (distinct : (ps.map (·.name)).Nodup) :
    (ps.filterMap (·.association?)).filterMap (fun a => ps.find? fun p => p.name == a.inverse) =
      ps.filter (·.isAssociation) := by
  rw [List.filterMap_filterMap, ← List.filterMap_eq_filter]
  apply List.filterMap_congr
  intro p hp
  have marked : p.association?.isSome = p.isAssociation := EntityProperty.association?_isSome
  cases held : p.association? with
  | none =>
    rw [held] at marked
    simp [Option.guard, ← marked]
  | some a =>
    rw [held] at marked
    have first : (ps.find? fun q => q.name == p.name) = some p :=
      find?_of_pairwise (List.pairwise_map.mp distinct) hp
    rw [Option.bind_some, EntityProperty.inverse_of_association? held, first]
    simp [Option.guard, ← marked]

/-- An entity that had nothing offers all properties that it got. -/
lemma Gains.candidates_perm (gains : e.Gains ps e') (distinct : (ps.map (·.name)).Nodup)
    (stored : ∀ p ∈ ps, p.isTransient = false) (added : e.added = [])
    (persistent : e.persistent = []) (associations : e.associations = []) :
    (ContextM.candidates e').Perm ps := by
  have offered : ContextM.candidates e' =
      ps.filter (fun p => !p.isAssociation) ++ ps.filter (·.isAssociation) := by
    unfold ContextM.candidates property?
    rw [gains.persistent_eq, gains.associations_eq, gains.added_eq, added, persistent, associations,
      List.nil_append, List.nil_append, List.nil_append, filterMap_holder distinct]
    congr 1
    apply List.filter_congr
    intro p hp
    rw [stored p hp, Bool.not_false, Bool.true_and]
  rw [offered]
  exact List.perm_append_comm.trans (List.filter_append_perm (·.isAssociation) ps)

/-! ### The final order -/

/-- Verification changes the order of properties and candidates at most. -/
lemma verify_perm (e : Entity) : e.verify.properties.Perm e.properties ∧
    (ContextM.candidates e.verify).Perm (ContextM.candidates e) := by
  unfold verify
  split
  · exact ⟨.refl _, .refl _⟩
  · rename_i order _
    have held := (List.mergeSort_perm e.associations (precedes (order.sort e.properties))).filterMap
      fun a => e.property? a.inverse
    exact ⟨order.sort_perm e.properties, (order.sort_perm e.persistent).append held⟩

/-- The kind of access does not matter to properties and candidates. -/
lemma withAccess_perm (e : Entity) (access : Access) :
    (e.withAccess access).properties = e.properties ∧
      ContextM.candidates (e.withAccess access) = ContextM.candidates e := by
  unfold withAccess
  split <;> exact ⟨rfl, rfl⟩

end Entity

namespace Mapping

variable {m : Mapping} {t : TypeRef} {n : Nat} {e : Entity}

/-- An entity offers its properties, each of them once, and they have names of their own. -/
theorem candidates_perm (built : m.build n t = .ok e) (distinct : m.HasDistinctFields t) :
    (ContextM.candidates e).Perm e.properties ∧ (e.properties.map (·.name)).Nodup := by
  obtain ⟨decl, ps, populated, outlined, folded, rfl⟩ := build_eq_ok.mp built
  have names := outline_nodup outlined distinct
  have gains : (Entity.make n t decl m.catalog m.rules.order).Gains ps populated :=
    Entity.gains_fold folded names nofun
  have stored : ∀ p ∈ ps, p.isTransient = false := fun p hp => (of_mem_outline outlined hp).1
  obtain ⟨properties, candidates⟩ := populated.verify_perm
  obtain ⟨properties_eq, candidates_eq⟩ := populated.verify.withAccess_perm m.rules.access
  have all : (m.finish populated).properties.Perm ps := by
    rw [finish, properties_eq]
    exact properties.trans (.of_eq gains.properties_eq)
  have offered : (ContextM.candidates (m.finish populated)).Perm ps := by
    rw [finish, candidates_eq]
    exact candidates.trans (gains.candidates_perm names stored rfl rfl rfl)
  exact ⟨offered.trans all.symm, (all.map _).nodup_iff.mpr names⟩

end Mapping

end EntityModel
