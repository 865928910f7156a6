import EntityModel.Context.Mapping
import EntityModel.Proofs.Discovery.Reach

/-!
# Types of properties

The type of a property is that of the first field of its name on the chain of superclasses, else
that of the first accessor (`Catalog.propertyType?_eq`). Where no two fields on a chain share a name
and accessors agree with the fields of their name, the properties of an entity have just these
types, whichever fields and accessors they are backed by (`Mapping.propertyType?_of_outline`).
-/

namespace EntityModel

/-! ### First elements of a name -/

section First

variable {α κ : Type} [BEq κ] [LawfulBEq κ] {key : α → κ} {a : α} {as : List α} {seen : List κ}

/-- An element is found by its key where the keys are distinct. -/
lemma find?_of_pairwise (distinct : as.Pairwise fun a b => key a ≠ key b) (ha : a ∈ as) :
    as.find? (fun b => key b == key a) = some a := by
  induction as with
  | nil => cases ha
  | cons b bs ih =>
    obtain ⟨first, distinct⟩ := List.pairwise_cons.mp distinct
    rcases List.mem_cons.mp ha with rfl | ha
    · exact List.find?_cons_of_pos (beq_self_eq_true _)
    · rw [List.find?_cons_of_neg (by simpa using first a ha)]
      exact ih distinct ha

/-- What is kept of several items with one key is the first of them. -/
lemma find?_of_mem_distinctOn (ha : a ∈ distinctOn key seen as) :
    as.find? (fun b => key b == key a) = some a := by
  induction as generalizing seen with
  | nil => cases ha
  | cons b bs ih =>
    have unseen := key_notMem_of_mem_distinctOn ha
    rw [distinctOn] at ha
    split at ha
    · rename_i hb
      -- an element with the key of an earlier one would have been left out
      have ne : key b ≠ key a := by
        intro eq
        exact unseen (eq ▸ List.contains_iff_mem.mp hb)
      rw [List.find?_cons_of_neg (by simpa using ne)]
      exact ih ha
    · rcases List.mem_cons.mp ha with rfl | ha
      · exact List.find?_cons_of_pos (beq_self_eq_true _)
      -- an element that is kept behind another one has another key
      · have ne : key b ≠ key a := by
          intro eq
          exact key_notMem_of_mem_distinctOn ha (eq ▸ List.mem_cons_self)
        rw [List.find?_cons_of_neg (by simpa using ne)]
        exact ih ha

/-- The first item with a key is found among those that are kept as it is among all. -/
lemma find?_distinctOn (k : κ) (unseen : k ∉ seen) :
    (distinctOn key seen as).find? (fun a => key a == k) = as.find? fun a => key a == k := by
  cases found : (distinctOn key seen as).find? fun a => key a == k with
  | some a =>
    have key_eq : key a = k := by simpa using List.find?_some found
    rw [← key_eq]
    exact (find?_of_mem_distinctOn (List.mem_of_find?_eq_some found)).symm
  | none =>
    symm
    apply List.find?_eq_none.mpr
    intro a ha here
    have key_eq : key a = k := by simpa using here
    obtain ⟨b, hb, same⟩ := exists_mem_distinctOn ha (key_eq ▸ unseen)
    apply List.find?_eq_none.mp found b hb
    simpa [same] using key_eq

end First

/-- The names under which a type declares properties. -/
def TypeDecl.propertyNames (d : TypeDecl) : List String :=
  d.fields.map (·.name) ++ d.accessors.map (·.name)

namespace Catalog

variable {c : Catalog} {levels : List Level} {l : Level} {t type : TypeRef} {name : String}
  {f : FieldDecl} {a : AccessorDecl}

/-! ### Properties on a chain -/

/-- A field of a level is a declared one at the types that the level is bound to. -/
lemma find?_fields (l : Level) (name : String) : (l.fields.find? fun f => f.name == name) =
    (l.decl.field? name).map fun f => { f with type := f.type.subst l.bindings } :=
  List.find?_map

/-- An accessor of a level is a declared one at the types that the level is bound to. -/
lemma find?_accessors (l : Level) (name : String) : (l.accessors.find? fun a => a.name == name) =
    (l.decl.accessor? name).map fun a => { a with type := a.type.subst l.bindings } :=
  List.find?_map

/-- The first field of a name has the type that is looked for level by level. -/
lemma fieldType?_eq (levels : List Level) (name : String) : fieldType? levels name =
    ((levels.flatMap Level.fields).find? fun f => f.name == name).map (·.type) := by
  induction levels with
  | nil => rfl
  | cons l levels ih =>
    rw [fieldType?, List.findSome?_cons, ← fieldType?, ih, List.flatMap_cons, List.find?_append,
      find?_fields]
    cases l.decl.field? name <;> rfl

/-- The first accessor of a name has the type that is looked for level by level. -/
lemma accessorType?_eq (levels : List Level) (name : String) : accessorType? levels name =
    ((levels.flatMap Level.accessors).find? fun a => a.name == name).map (·.type) := by
  induction levels with
  | nil => rfl
  | cons l levels ih =>
    rw [accessorType?, List.findSome?_cons, ← accessorType?, ih, List.flatMap_cons,
      List.find?_append, find?_accessors]
    cases l.decl.accessor? name <;> rfl

/-- The type of a property is that of a field, else that of an accessor. -/
lemma propertyType?_eq (named : t.isNamed = true) (name : String) :
    c.propertyType? t name =
      (fieldType? (chain c.declarations t) name).or (accessorType? (chain c.declarations t) name) :=
  if_pos named

/-- Only named types have properties. -/
lemma isNamed_of_propertyType? (h : c.propertyType? t name = some type) : t.isNamed = true := by
  unfold propertyType? at h
  split at h
  · assumption
  · cases h

/-- The levels of a chain are declared. -/
lemma mem_of_mem_chain {pool : List TypeDecl} (h : l ∈ chain pool t) : l.decl ∈ pool := by
  fun_induction chain pool t with
  | case1 => cases h
  | case2 pool t d found bindings ih =>
    rcases List.mem_cons.mp h with rfl | h
    · exact List.mem_of_find?_eq_some found
    · split at h
      · cases h
      · exact (List.mem_filter.mp (ih _ h)).1

/-- A property has a name that some type declares. -/
lemma mem_propertyNames (h : c.propertyType? t name = some type) :
    ∃ d ∈ c.declarations, name ∈ d.propertyNames := by
  rw [propertyType?_eq (isNamed_of_propertyType? h)] at h
  rcases Option.or_eq_some_iff.mp h with h | ⟨-, h⟩
  · obtain ⟨l, hl, h⟩ := List.exists_of_findSome?_eq_some h
    obtain ⟨f, hf, -⟩ := Option.map_eq_some_iff.mp h
    have name_eq : f.name = name := by simpa using List.find?_some hf
    refine ⟨l.decl, mem_of_mem_chain hl, List.mem_append_left _ ?_⟩
    exact name_eq ▸ List.mem_map_of_mem (List.mem_of_find?_eq_some hf)
  · obtain ⟨l, hl, h⟩ := List.exists_of_findSome?_eq_some h
    obtain ⟨a, ha, -⟩ := Option.map_eq_some_iff.mp h
    have name_eq : a.name = name := by simpa using List.find?_some ha
    refine ⟨l.decl, mem_of_mem_chain hl, List.mem_append_right _ ?_⟩
    exact name_eq ▸ List.mem_map_of_mem (List.mem_of_find?_eq_some ha)

/-- A hierarchy is the chain of its type. -/
lemma hierarchy_eq_ok (h : c.hierarchy t = .ok levels) : levels = chain c.declarations t := by
  unfold hierarchy at h
  split at h
  · cases h
  · exact (Except.ok.inj h).symm

/-! ### Chains without ambiguity -/

/-- No two fields on a chain have the same name, and an accessor that has the name of a field has
its type too. -/
structure IsUnambiguous (levels : List Level) : Prop where
  distinct : (levels.flatMap Level.fields).Pairwise fun f g => f.name ≠ g.name
  agree : ∀ f ∈ levels.flatMap Level.fields, ∀ a ∈ levels.flatMap Level.accessors,
    a.name = f.name → a.type = f.type

variable (unambiguous : IsUnambiguous (chain c.declarations t)) (named : t.isNamed = true)

include unambiguous named

/-- The type of a property that is a field is that of the first field of its name. -/
lemma propertyType?_of_field (hf : f ∈ (chain c.declarations t).flatMap Level.fields) :
    c.propertyType? t f.name = some f.type := by
  rw [propertyType?_eq named, fieldType?_eq, find?_of_pairwise unambiguous.distinct hf]
  rfl

/-- The nearest accessor of a name has the type of the property, also where a field comes first. -/
lemma propertyType?_of_accessor
    (ha : a ∈ distinctOn (·.name) [] ((chain c.declarations t).flatMap Level.accessors)) :
    c.propertyType? t a.name = some a.type := by
  rw [propertyType?_eq named, fieldType?_eq, accessorType?_eq, find?_of_mem_distinctOn ha]
  cases found : ((chain c.declarations t).flatMap Level.fields).find? fun f => f.name == a.name with
  | none => rfl
  | some f =>
    have name_eq : f.name = a.name := by simpa using List.find?_some found
    have type_eq := unambiguous.agree f (List.mem_of_find?_eq_some found) a
      (mem_of_mem_distinctOn ha) name_eq.symm
    exact congrArg some type_eq.symm

end Catalog

/-! ### Properties of entities -/

namespace Mapping

variable {m : Mapping} {c : Catalog} {t : TypeRef} {decl : TypeDecl} {ps : List EntityProperty}
  {p : EntityProperty} {b : Backing} {bs : List Backing}

/-- Fields are paired up as they are, and what is left are accessors. -/
lemma mem_pairUp {fields : List FieldDecl} {accessors : List AccessorDecl} :
    (∀ b ∈ (pairUp fields accessors).1, ∃ f ∈ fields, ∃ a, b = .field f a) ∧
      ∀ a ∈ (pairUp fields accessors).2, a ∈ accessors := by
  induction fields generalizing accessors with
  | nil => exact ⟨nofun, fun _ => id⟩
  | cons f fields ih =>
    obtain ⟨paired, rest⟩ := @ih (accessors.eraseP fun a => a.name == f.name)
    constructor
    · refine List.forall_mem_cons.mpr ⟨⟨f, List.mem_cons_self, _, rfl⟩, fun b hb => ?_⟩
      obtain ⟨f', hf', a, rfl⟩ := paired b hb
      exact ⟨f', List.mem_cons_of_mem f hf', a, rfl⟩
    · exact fun a ha => List.mem_of_mem_eraseP (rest a ha)

/-- What backs properties of a type is a field on its chain or the nearest accessor of a name. -/
lemma mem_backings (h : backings c t = .ok bs) (hb : b ∈ bs) :
    (∃ f ∈ (Catalog.chain c.declarations t).flatMap Level.fields, ∃ a, b = .field f a) ∨
      ∃ a ∈ distinctOn (·.name) [] ((Catalog.chain c.declarations t).flatMap Level.accessors),
        b = .accessor a := by
  obtain ⟨fields, hfields, h⟩ := bind_eq_ok.mp h
  obtain ⟨accessors, haccessors, h⟩ := bind_eq_ok.mp h
  cases h
  obtain ⟨levels, hlevels, hfields⟩ := bind_eq_ok.mp hfields
  cases hfields
  obtain ⟨levels', hlevels', haccessors⟩ := bind_eq_ok.mp haccessors
  cases haccessors
  obtain rfl := Catalog.hierarchy_eq_ok hlevels
  obtain rfl := Catalog.hierarchy_eq_ok hlevels'
  rcases List.mem_append.mp hb with paired | alone
  · obtain ⟨f, hf, a, rfl⟩ := mem_pairUp.1 b paired
    exact .inl ⟨f, (List.mem_filter.mp hf).1, a, rfl⟩
  · obtain ⟨a, ha, rfl⟩ := List.mem_map.mp alone
    exact .inr ⟨a, mem_pairUp.2 a (List.mem_filter.mp ha).1, rfl⟩

/-- The properties of an outline belong to its type. -/
lemma owner_of_outline (h : m.outline t = .ok (decl, ps)) (hp : p ∈ ps) : p.owner = t := by
  obtain ⟨bs, -, made⟩ := bind_eq_ok.mp (outline_eq_ok h).2
  cases made
  obtain ⟨b, -, rfl⟩ := List.mem_map.mp (List.mem_filter.mp hp).1
  rfl

/-- The properties of an entity have the types under which the catalog has them. -/
theorem propertyType?_of_outline
    (unambiguous : Catalog.IsUnambiguous (Catalog.chain m.catalog.declarations t))
    (named : t.isNamed = true) (h : m.outline t = .ok (decl, ps)) (hp : p ∈ ps) :
    m.catalog.propertyType? t p.name = some p.type := by
  obtain ⟨bs, hbs, made⟩ := bind_eq_ok.mp (outline_eq_ok h).2
  cases made
  obtain ⟨b, hb, rfl⟩ := List.mem_map.mp (List.mem_filter.mp hp).1
  rcases mem_backings hbs hb with ⟨f, hf, a, rfl⟩ | ⟨a, ha, rfl⟩
  · exact Catalog.propertyType?_of_field unambiguous named hf
  · exact Catalog.propertyType?_of_accessor unambiguous named ha

end Mapping

end EntityModel
