import EntityModel.Proofs.Context.Sound
import EntityModel.Proofs.Entity.Candidates
import Mathlib.Data.List.Nodup

/-!
# Stored properties and associations

An entity lists the properties whose values it stores and, apart from them, the associations that
its other properties hold. These lists are to share the names of the properties out between them
(`Entity.IsPartitioned`).

A property that repeats another one is not added, but the association that it holds is. So the lists
overlap, or an association is left without its property, exactly where a reference is hidden by a
property of the same name that is no reference (`Context.isPartitioned_iff`).
-/

namespace EntityModel

namespace Entity

/-- Some stored property has the name. -/
def Stores (e : Entity) (name : String) : Prop :=
  ∃ p ∈ e.persistent, p.name = name

/-- Some association is held by a property of the name. -/
def Links (e : Entity) (name : String) : Prop :=
  ∃ a ∈ e.associations, a.inverse = name

/-- Every property is either stored or holds an association, and every association is held by a
property. -/
structure IsPartitioned (e : Entity) : Prop where
  covered : ∀ p ∈ e.properties, e.Stores p.name ∨ e.Links p.name
  apart : ∀ p ∈ e.properties, ¬(e.Stores p.name ∧ e.Links p.name)
  held : ∀ a ∈ e.associations, ∃ p ∈ e.properties, p.name = a.inverse ∧ p.isAssociation = true

/-- What the lists of an entity have of the properties that were to be added to it. -/
structure Files (e : Entity) (ps : List EntityProperty) : Prop where
  mem_properties : ∀ q ∈ e.properties, q ∈ ps
  /-- A property that was not added itself is there under its name and type. -/
  exists_property : ∀ p ∈ ps, ∃ q ∈ e.properties, q.name = p.name ∧ q.type = p.type
  mem_persistent : ∀ q, q ∈ e.persistent ↔
    q ∈ e.properties ∧ q.isTransient = false ∧ q.isAssociation = false
  /-- The association of a property is there even if the property itself was not added. -/
  mem_associations : ∀ a, a ∈ e.associations ↔ ∃ p ∈ ps, p.association? = some a

variable {e e' : Entity} {p : EntityProperty} {ps qs : List EntityProperty}

/-- An association that is added is there together with those before it. -/
lemma mem_associations_addAssociation {a b : Association} :
    b ∈ (e.addAssociation a).associations ↔ b ∈ e.associations ∨ b = a := by
  unfold addAssociation
  split
  case isTrue present =>
    constructor
    · exact .inl
    · rintro (before | rfl)
      · exact before
      · exact present
  case isFalse => simp

/-- Extension by a property brings in the association that it holds, even if the property itself is
left out. -/
lemma mem_associations_extend (h : e.extend p = .ok e') {a : Association} :
    a ∈ e'.associations ↔ a ∈ e.associations ∨ p.association? = some a := by
  obtain ⟨added, ha, h⟩ := bind_eq_ok.mp h
  have kept : added.associations = e.associations := by
    rcases add_eq_ok ha with ⟨-, rfl⟩ | ⟨-, rfl⟩ <;> rfl
  cases h
  cases p.association? with
  | none => simp [kept]
  | some b => rw [Option.elim_some, mem_associations_addAssociation, kept, Option.some_inj, eq_comm]

/-- Extension keeps the persistent properties those that are neither transient nor associations. -/
lemma mem_persistent_extend (h : e.extend p = .ok e')
    (filed : ∀ q, q ∈ e.persistent ↔
      q ∈ e.properties ∧ q.isTransient = false ∧ q.isAssociation = false) (q : EntityProperty) :
    q ∈ e'.persistent ↔ q ∈ e'.properties ∧ q.isTransient = false ∧ q.isAssociation = false := by
  obtain ⟨added, associations, ha, rfl⟩ := extend_eq_ok h
  rcases add_eq_ok ha with ⟨-, rfl⟩ | ⟨-, rfl⟩
  · exact filed q
  · have selected : (e.push p).persistent = e.persistent ++
        [p].filter fun p => !p.isTransient && !p.isAssociation := gains_push.persistent_eq
    show q ∈ (e.push p).persistent ↔ q ∈ e.properties ++ [p] ∧ _
    rw [selected, List.mem_append, List.mem_append, filed q, List.mem_filter, or_and_right]
    simp

/-- A further property is filed by its extension. -/
lemma Files.extend (files : e.Files ps) (h : e.extend p = .ok e') : e'.Files (ps ++ [p]) where
  mem_properties q hq := by
    rcases mem_properties_extend h hq with before | rfl
    · exact List.mem_append_left _ (files.mem_properties q before)
    · simp
  exists_property p' hp' := by
    rcases List.mem_append.mp hp' with before | new
    · obtain ⟨q, hq, same⟩ := files.exists_property p' before
      exact ⟨q, properties_subset_extend h hq, same⟩
    · cases List.mem_singleton.mp new
      exact exists_of_extend h
  mem_persistent := mem_persistent_extend h files.mem_persistent
  mem_associations a := by
    rw [mem_associations_extend h, files.mem_associations]
    simp [or_and_right, exists_or]

/-- Further properties are filed by their extension, one by one. -/
lemma Files.fold (files : e.Files ps) (h : qs.foldlM Entity.extend e = .ok e') :
    e'.Files (ps ++ qs) := by
  induction qs generalizing e ps with
  | nil =>
    cases h
    rwa [List.append_nil]
  | cons q qs ih =>
    obtain ⟨e₁, first, rest⟩ := bind_eq_ok.mp h
    rw [List.append_cons]
    exact ih (files.extend first) rest

/-- Only membership matters. -/
lemma Files.of_perm (files : e.Files ps) (properties : e'.properties.Perm e.properties)
    (persistent : e'.persistent.Perm e.persistent)
    (associations : e'.associations.Perm e.associations) : e'.Files ps where
  mem_properties q hq := files.mem_properties q (properties.mem_iff.mp hq)
  exists_property p hp := by
    obtain ⟨q, hq, same⟩ := files.exists_property p hp
    exact ⟨q, properties.mem_iff.mpr hq, same⟩
  mem_persistent q := by
    rw [persistent.mem_iff, properties.mem_iff]
    exact files.mem_persistent q
  mem_associations a := by
    rw [associations.mem_iff]
    exact files.mem_associations a

/-- Verification files nothing else. -/
lemma Files.verify (files : e.Files ps) : e.verify.Files ps := by
  unfold Entity.verify
  split
  · exact files.of_perm (.refl _) (.refl _) (.refl _)
  · exact files.of_perm (PropertyOrder.sort_perm _ _) (PropertyOrder.sort_perm _ _)
      (List.mergeSort_perm _ _)

/-- The kind of access files nothing else. -/
lemma Files.withAccess (files : e.Files ps) (access : Access) :
    (e.withAccess access).Files ps := by
  unfold Entity.withAccess
  split <;> exact files.of_perm (.refl _) (.refl _) (.refl _)

namespace Files

variable (files : e.Files ps) (lasting : ∀ p ∈ ps, p.isTransient = false)

include files

/-- The names that are linked are those of the properties that were to be added and hold an
association. -/
lemma links_iff {name : String} :
    e.Links name ↔ ∃ p ∈ ps, p.isAssociation = true ∧ p.name = name := by
  constructor
  · rintro ⟨a, ha, rfl⟩
    obtain ⟨p, hp, held⟩ := (files.mem_associations a).mp ha
    have marked : p.association?.isSome = p.isAssociation := EntityProperty.association?_isSome
    rw [held] at marked
    exact ⟨p, hp, marked.symm, (EntityProperty.inverse_of_association? held).symm⟩
  · rintro ⟨p, hp, marked, rfl⟩
    rw [← EntityProperty.association?_isSome] at marked
    obtain ⟨a, held⟩ := Option.isSome_iff_exists.mp marked
    exact ⟨a, (files.mem_associations a).mpr ⟨p, hp, held⟩,
      EntityProperty.inverse_of_association? held⟩

include lasting

/-- The names that are stored are those of the properties that hold none. -/
lemma stores_iff {name : String} :
    e.Stores name ↔ ∃ q ∈ e.properties, q.isAssociation = false ∧ q.name = name := by
  unfold Stores
  simp only [files.mem_persistent, and_assoc]
  apply exists_congr
  intro q
  apply and_congr_right
  intro hq
  simp [lasting q (files.mem_properties q hq)]

/-- Every property is stored or linked. -/
lemma covered (hp : p ∈ e.properties) : e.Stores p.name ∨ e.Links p.name := by
  cases marked : p.isAssociation with
  | false => exact .inl ((files.stores_iff lasting).mpr ⟨p, hp, marked, rfl⟩)
  | true => exact .inr (files.links_iff.mpr ⟨p, files.mem_properties p hp, marked, rfl⟩)

/-- The lists are apart unless a reference shares its name with a property that is none. -/
lemma partitioned_iff : e.IsPartitioned ↔
    ∀ p ∈ ps, p.isAssociation = true →
      ∀ q ∈ e.properties, q.name = p.name → q.isAssociation = true := by
  constructor
  · intro partitioned p hp marked q hq same
    by_contra unmarked
    apply partitioned.apart q hq
    constructor
    · exact (files.stores_iff lasting).mpr ⟨q, hq, Bool.eq_false_iff.mpr unmarked, rfl⟩
    · exact files.links_iff.mpr ⟨p, hp, marked, same.symm⟩
  · intro agrees
    refine ⟨fun p => files.covered lasting, ?_, ?_⟩
    · rintro p - ⟨stored, linked⟩
      obtain ⟨q, hq, unmarked, same⟩ := (files.stores_iff lasting).mp stored
      obtain ⟨p', hp', marked, same'⟩ := files.links_iff.mp linked
      have : q.isAssociation = true := agrees p' hp' marked q hq (same.trans same'.symm)
      cases unmarked.symm.trans this
    · intro a ha
      -- the reference itself may be hidden, but then a property of its name and type is there
      obtain ⟨p, hp, marked, name⟩ := files.links_iff.mp ⟨a, ha, rfl⟩
      obtain ⟨q, hq, same, -⟩ := files.exists_property p hp
      exact ⟨q, hq, same.trans name, agrees p hp marked q hq same⟩

end Files

end Entity

namespace Mapping

variable {m : Mapping} {t : TypeRef} {n : Nat} {e : Entity}

/-- The entity of a type files the properties of its outline, none of which is transient. -/
lemma files_of_build (h : m.build n t = .ok e) : ∃ decl ps, m.outline t = .ok (decl, ps) ∧
    e.Files ps ∧ ∀ p ∈ ps, p.isTransient = false := by
  obtain ⟨decl, ps, populated, outlined, folded, rfl⟩ := build_eq_ok.mp h
  have empty : (Entity.make n t decl m.catalog m.rules.order).Files [] :=
    ⟨List.forall_mem_nil _, List.forall_mem_nil _, by simp [Entity.make], by simp [Entity.make]⟩
  exact ⟨decl, ps, outlined, (empty.fold folded).verify.withAccess _,
    fun p hp => (of_mem_outline outlined hp).1⟩

end Mapping

namespace Context

variable {m : Mapping} {t : TypeRef} {c : Context} {e : Entity}

/-- In every entity each property is stored or holds an association. No name is in both lists, and
every association has its property, exactly if no reference among the members that the type has or
inherits shares its name with a property of the entity that is no reference. That is so at least if
no field is hidden by another one. -/
theorem isPartitioned_iff {ops : List Operation} (before : after ops (ofMapping m) = some c)
    (managed : (t, e) ∈ c.table.managed) :
    ∃ decl ps, m.outline t = .ok (decl, ps) ∧
      (∀ p ∈ e.properties, e.Stores p.name ∨ e.Links p.name) ∧
      (e.IsPartitioned ↔
        ∀ p ∈ ps, p.isAssociation = true →
          ∀ q ∈ e.properties, q.name = p.name → q.isAssociation = true) ∧
      (m.HasDistinctFields t → e.IsPartitioned) := by
  have sound : c.Sound m := .of_after before
  have built := sound.built t e (EntityTable.mem_managed_iff.mp managed)
  obtain ⟨decl, ps, outlined, files, lasting⟩ := Mapping.files_of_build built
  refine ⟨decl, ps, outlined, fun p => files.covered lasting, files.partitioned_iff lasting, ?_⟩
  intro distinct
  apply (files.partitioned_iff lasting).mpr
  intro p hp marked q hq same
  have itself : q = p := by
    apply List.inj_on_of_nodup_map (Mapping.outline_nodup outlined distinct) _ hp same
    exact files.mem_properties q hq
  rwa [itself]

/-- A type whose properties lead to no other type is known after it was looked up. -/
lemma exists_managed_alone {decl : TypeDecl} {ps : List EntityProperty}
    (allowed : (EntityLookup.entity t).isAllowed m = true)
    (outlined : m.outline t = .ok (decl, ps))
    (folded : ps.foldlM Entity.extend (.make 0 t decl m.catalog m.rules.order) = .ok e)
    (alone : ∀ p ∈ ps, m.nestedType? t p = none) :
    ∃ c e, after [.lookup (.entity t)] (ofMapping m) = some c ∧ (t, e) ∈ c.table.managed := by
  have nothing : (ofMapping m).table.get? t = none := EntityTable.get?_empty
  obtain ⟨d, vis, found, -⟩ := Mapping.exists_visits_alone (d := (ofMapping m).discovery)
    (EntityTable.contains_eq_false.mpr nothing) outlined folded alone
  obtain ⟨c, before, table_eq, -⟩ := exists_looked_up allowed vis found
  exact ⟨c, _, before, EntityTable.mem_managed_iff.mpr (table_eq ▸ found)⟩

end Context

namespace Sample

def print : TypeRef := .of "Print"

def poster : TypeRef := .of "Poster"

def leaflet : TypeRef := .of "Leaflet"

def publisherField (annotations : List Annotation) : FieldDecl :=
  { name := "publisher", type := .of "String", annotations }

def printDecl : TypeDecl where
  name := "Print"
  fields := [publisherField [.reference none]]

/-- Posters declare the reference of a print once more. -/
def posterDecl : TypeDecl where
  name := "Poster"
  superclass := some print
  fields := [publisherField [.reference none, .readOnly]]

/-- Leaflets hide the reference of a print by a plain name. -/
def leafletDecl : TypeDecl where
  name := "Leaflet"
  superclass := some print
  fields := [publisherField []]

def printing : Mapping := { catalog := ⟨[printDecl, posterDecl, leafletDecl]⟩ }

/-- A print has its publisher by reference. -/
lemma outline_print : printing.outline print =
    .ok (printDecl, [property printDecl (publisherField [.reference none])]) := by
  cbv

/-- A poster has the publisher of a print and one of its own, which cannot be written. -/
lemma outline_poster : printing.outline poster =
    .ok (posterDecl, [property posterDecl (publisherField [.reference none, .readOnly]),
      property posterDecl (publisherField [.reference none])]) := by
  cbv

/-- A leaflet has the publisher of a print and one of its own, which is a plain name. -/
lemma outline_leaflet : printing.outline leaflet =
    .ok (leafletDecl, [property leafletDecl (publisherField []),
      property leafletDecl (publisherField [.reference none])]) := by
  cbv

/-- Of the two references to the publisher a poster keeps its own one. -/
lemma properties_of_poster {n : Nat} {e : Entity} (h : printing.build n poster = .ok e) :
    e.properties = [property posterDecl (publisherField [.reference none, .readOnly])] := by
  rw [Mapping.build_of_outline outline_poster] at h
  cases h
  rfl

/-- The hidden reference is left out of a leaflet, but its association is not. -/
lemma lists_of_leaflet {n : Nat} {e : Entity} (h : printing.build n leaflet = .ok e) :
    e.properties = [property leafletDecl (publisherField [])] ∧
      e.persistent = [property leafletDecl (publisherField [])] ∧
      e.associations = [⟨"publisher", leaflet, .of "String"⟩] := by
  rw [Mapping.build_of_outline outline_leaflet] at h
  cases h
  exact ⟨rfl, rfl, rfl⟩

end Sample

namespace Context

open Sample in
/-- Prints hide nothing, and posters hide a reference by a reference. -/
theorem isPartitioned_poster :
    (∃ c e, after [.lookup (.entity print)] (ofMapping printing) = some c ∧
      (print, e) ∈ c.table.managed ∧ e.IsPartitioned) ∧
    ∃ c e, after [.lookup (.entity poster)] (ofMapping printing) = some c ∧
      (poster, e) ∈ c.table.managed ∧ e.IsPartitioned := by
  constructor
  · obtain ⟨c, e, before, managed⟩ := exists_managed_alone rfl outline_print rfl
      (List.forall_mem_singleton.mpr rfl)
    obtain ⟨decl, ps, -, -, -, undisturbed⟩ := isPartitioned_iff before managed
    -- a type without two fields of one name is partitioned, whatever is annotated
    have distinct : printing.HasDistinctFields print := by
      unfold Mapping.HasDistinctFields
      decide +kernel
    exact ⟨c, e, before, managed, undisturbed distinct⟩
  · obtain ⟨c, e, before, managed⟩ := exists_managed_alone rfl outline_poster rfl
      (List.forall_mem_cons.mpr ⟨rfl, List.forall_mem_singleton.mpr rfl⟩)
    obtain ⟨decl, ps, -, -, partitioned, -⟩ := isPartitioned_iff before managed
    have sound : c.Sound printing := .of_after before
    have properties :=
      properties_of_poster (sound.built _ e (EntityTable.mem_managed_iff.mp managed))
    refine ⟨c, e, before, managed, partitioned.mpr ?_⟩
    -- the hidden reference is gone, so what has its name is the poster's own reference
    intro p hp marked q hq same
    rw [properties] at hq
    cases List.mem_singleton.mp hq
    rfl

open Sample in
/-- The publisher of a leaflet is stored, and is the inverse of an association as well. -/
theorem leaflet_not_partitioned :
    ∃ c e, after [.lookup (.entity leaflet)] (ofMapping printing) = some c ∧
      (leaflet, e) ∈ c.table.managed ∧ ¬e.IsPartitioned := by
  obtain ⟨c, e, before, managed⟩ := exists_managed_alone rfl outline_leaflet rfl
    (List.forall_mem_cons.mpr ⟨rfl, List.forall_mem_singleton.mpr rfl⟩)
  have sound : c.Sound printing := .of_after before
  obtain ⟨properties, persistent, associations⟩ :=
    lists_of_leaflet (sound.built _ e (EntityTable.mem_managed_iff.mp managed))
  refine ⟨c, e, before, managed, fun partitioned => ?_⟩
  have here : property leafletDecl (publisherField []) ∈ e.properties := by simp [properties]
  apply partitioned.apart _ here
  constructor
  · exact ⟨_, persistent ▸ List.mem_singleton_self _, rfl⟩
  · exact ⟨_, associations ▸ List.mem_singleton_self _, rfl⟩

end Context

end EntityModel
