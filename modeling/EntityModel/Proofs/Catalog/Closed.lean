import EntityModel.Proofs.Catalog.Ascent
import EntityModel.Proofs.TypeRef.Variables

/-!
# Members without variables

A declaration is scoped if its members and its superclass mention its own type parameters only, and
a reference is saturated if it gives an argument for each parameter. In a catalog of such
declarations each level that a chain meets has its parameters bound to types without variables
(`Catalog.Ascends.isBound`), also where levels have parameters of the same name. So a type whose
arguments have no variables has fields, accessors and properties without variables
(`Catalog.members_closed`).
-/

namespace EntityModel

/-- The members and the superclass of a declaration mention its own type parameters only. -/
structure TypeDecl.IsScoped (d : TypeDecl) : Prop where
  fields : ∀ f ∈ d.fields, f.type.variableNames ⊆ d.typeParameters
  accessors : ∀ a ∈ d.accessors, a.type.variableNames ⊆ d.typeParameters
  superclass : ∀ s ∈ d.superclass, s.variableNames ⊆ d.typeParameters

instance : DecidablePred TypeDecl.IsScoped := fun d =>
  decidable_of_iff
    ((∀ f ∈ d.fields, f.type.variableNames ⊆ d.typeParameters) ∧
      (∀ a ∈ d.accessors, a.type.variableNames ⊆ d.typeParameters) ∧
      ∀ s ∈ d.superclass, s.variableNames ⊆ d.typeParameters)
    ⟨fun ⟨fields, accessors, superclass⟩ => ⟨fields, accessors, superclass⟩,
      fun ⟨fields, accessors, superclass⟩ => ⟨fields, accessors, superclass⟩⟩

/-- Every parameter of the declaration is bound to a type without variables. -/
def Level.IsBound (l : Level) : Prop :=
  ∀ n ∈ l.decl.typeParameters, (l.bindings.image n).hasVariables = false

/-- A type that mentions type parameters of a level only is closed at that level. -/
lemma Level.IsBound.closed {l : Level} (bound : l.IsBound) {t : TypeRef}
    (mentioned : t.variableNames ⊆ l.decl.typeParameters) :
    (t.subst l.bindings).hasVariables = false :=
  TypeRef.hasVariables_subst_eq_false fun n hn => bound n (mentioned hn)

namespace Catalog

/-- A named type that has, if it is declared, as many arguments as its declaration has parameters.
-/
structure IsSaturated (c : Catalog) (t : TypeRef) : Prop where
  isNamed : t.isNamed = true
  length_eq : ∀ d ∈ c.find? t.name, t.arguments.length = d.typeParameters.length

instance (c : Catalog) : DecidablePred c.IsSaturated := fun t =>
  decidable_of_iff
    (t.isNamed = true ∧ ∀ d ∈ c.find? t.name, t.arguments.length = d.typeParameters.length)
    ⟨fun ⟨isNamed, length_eq⟩ => ⟨isNamed, length_eq⟩,
      fun ⟨isNamed, length_eq⟩ => ⟨isNamed, length_eq⟩⟩

/-- Every declaration is scoped, and every superclass is given the arguments that it needs. -/
structure IsScoped (c : Catalog) : Prop where
  declarations : ∀ d ∈ c.declarations, d.IsScoped
  superclasses : ∀ d ∈ c.declarations, ∀ s ∈ d.superclass, c.IsSaturated s

instance : DecidablePred IsScoped := fun c =>
  decidable_of_iff
    ((∀ d ∈ c.declarations, d.IsScoped) ∧
      ∀ d ∈ c.declarations, ∀ s ∈ d.superclass, c.IsSaturated s)
    ⟨fun ⟨declarations, superclasses⟩ => ⟨declarations, superclasses⟩,
      fun ⟨declarations, superclasses⟩ => ⟨declarations, superclasses⟩⟩

variable {c : Catalog} {met : List String} {levels : List Level} {t : TypeRef} {d : TypeDecl}
  {b : TypeRef.Bindings}

/-! ### Levels on a chain -/

/-- Substitution keeps the name of a type and the number of its arguments. -/
lemma IsSaturated.subst (saturated : c.IsSaturated t) (b : TypeRef.Bindings) :
    c.IsSaturated (t.subst b) := by
  obtain ⟨isNamed, length_eq⟩ := saturated
  cases t with
  | named n as =>
    refine ⟨rfl, fun d hd => ?_⟩
    have kept : (TypeRef.substAll b as).length = as.length := by
      rw [TypeRef.substAll_eq_map, List.length_map]
    exact kept.trans (length_eq d hd)
  | collection | array | map | optional | «variable» => cases isNamed

/-- The parameters of a declaration are bound by a saturated reference to it. -/
lemma isBound_bindings (saturated : c.IsSaturated t) (found : c.find? t.name = some d)
    (closed : ∀ a ∈ t.arguments, a.hasVariables = false) :
    Level.IsBound ⟨d, d.bindings t⟩ := by
  obtain ⟨isNamed, length_eq⟩ := saturated
  cases t with
  | named n as =>
    intro parameter hparameter
    exact TypeRef.hasVariables_image_bind (length_eq d found) closed hparameter
  | collection | array | map | optional | «variable» => cases isNamed

/-- The arguments of a closed type are closed. -/
lemma closed_arguments (isNamed : t.isNamed = true) (closed : t.hasVariables = false) :
    ∀ a ∈ t.arguments, a.hasVariables = false := by
  cases t with
  | named n as =>
    rw [TypeRef.hasVariables, TypeRef.anyHasVariables_eq_any, List.any_eq_false] at closed
    intro a ha
    exact Bool.eq_false_iff.mpr (closed a ha)
  | collection | array | map | optional | «variable» => cases isNamed

/-- Every level that a walk meets belongs to a scoped declaration and has its parameters bound. -/
theorem Ascends.isBound (isScoped : c.IsScoped) (walk : c.Ascends met t levels)
    (saturated : c.IsSaturated t) (closed : ∀ a ∈ t.arguments, a.hasVariables = false) :
    ∀ l ∈ levels, l.decl.IsScoped ∧ l.IsBound := by
  -- the superclass is substituted before the walk goes on, so its arguments have no variables
  induction walk with
  | repeated | undeclared => exact nofun
  | @top met t d fresh declared super =>
    refine List.forall_mem_singleton.mpr ⟨?_, isBound_bindings saturated declared closed⟩
    exact isScoped.declarations d (mem_of_find? declared)
  | @up met t d s levels fresh declared super _ ih =>
    have declScoped := isScoped.declarations d (mem_of_find? declared)
    have bound : Level.IsBound ⟨d, d.bindings t⟩ := isBound_bindings saturated declared closed
    have further := (isScoped.superclasses d (mem_of_find? declared) s super).subst (d.bindings t)
    have closed' : (s.subst (d.bindings t)).hasVariables = false :=
      bound.closed (declScoped.superclass s super)
    refine List.forall_mem_cons.mpr ⟨⟨declScoped, bound⟩, ?_⟩
    exact ih further (closed_arguments further.isNamed closed')

/-! ### Members of a type -/

/-- Where all levels are bound their fields are closed. -/
lemma closed_fields (bound : ∀ l ∈ levels, l.decl.IsScoped ∧ l.IsBound) :
    ∀ f ∈ levels.flatMap Level.fields, f.type.hasVariables = false := by
  intro f hf
  obtain ⟨l, hl, hf⟩ := List.mem_flatMap.mp hf
  obtain ⟨declared, hdeclared, rfl⟩ := List.mem_map.mp hf
  obtain ⟨isScoped, isBound⟩ := bound l hl
  exact isBound.closed (isScoped.fields declared hdeclared)

/-- Where all levels are bound their accessors are closed. -/
lemma closed_accessors (bound : ∀ l ∈ levels, l.decl.IsScoped ∧ l.IsBound) :
    ∀ a ∈ levels.flatMap Level.accessors, a.type.hasVariables = false := by
  intro a ha
  obtain ⟨l, hl, ha⟩ := List.mem_flatMap.mp ha
  obtain ⟨declared, hdeclared, rfl⟩ := List.mem_map.mp ha
  obtain ⟨isScoped, isBound⟩ := bound l hl
  exact isBound.closed (isScoped.accessors declared hdeclared)

/-- What is found among fields and accessors is the type of one of them. -/
lemma typeAmong?_mem {fields : List FieldDecl} {accessors : List AccessorDecl} {name : String}
    {type : TypeRef} (found : typeAmong? fields accessors name = some type) :
    (∃ f ∈ fields, f.type = type) ∨ ∃ a ∈ accessors, a.type = type := by
  rcases Option.or_eq_some_iff.mp found with found | ⟨-, found⟩
  · obtain ⟨f, hf, type_eq⟩ := Option.map_eq_some_iff.mp found
    exact .inl ⟨f, List.mem_of_find?_eq_some hf, type_eq⟩
  · obtain ⟨a, ha, type_eq⟩ := Option.map_eq_some_iff.mp found
    exact .inr ⟨a, List.mem_of_find?_eq_some ha, type_eq⟩

/-- In a catalog of scoped declarations a saturated type whose arguments have no variables has only
fields, accessors and properties whose types have none. If it is declared, it has its fields and
accessors. -/
theorem members_closed (isScoped : c.IsScoped) (saturated : c.IsSaturated t)
    (closed : ∀ a ∈ t.arguments, a.hasVariables = false) :
    (c.contains t.name = true → ∃ fields accessors,
      c.fieldsOf t = .ok fields ∧ c.accessorsOf t = .ok accessors) ∧
      (∀ fields, c.fieldsOf t = .ok fields → ∀ f ∈ fields, f.type.hasVariables = false) ∧
      (∀ accessors, c.accessorsOf t = .ok accessors →
        ∀ a ∈ accessors, a.type.hasVariables = false) ∧
      ∀ name type, c.propertyType? t name = some type → type.hasVariables = false := by
  have walk : c.Ascends [] t (chain c.declarations t) := ascends_iff.mpr rfl
  -- every level of the walk binds the parameters of its declaration to types without variables
  have bound := walk.isBound isScoped saturated closed
  have fields_closed := closed_fields bound
  have accessors_closed : ∀ a ∈ distinctOn (·.name) []
      ((chain c.declarations t).flatMap Level.accessors), a.type.hasVariables = false :=
    fun a ha => closed_accessors bound a (mem_of_mem_distinctOn ha)
  refine ⟨fun declared => ?_, fun fields hfields => ?_, fun accessors haccessors => ?_,
    fun name type found => ?_⟩
  · exact ⟨_, _, fieldsOf_of_declared declared, accessorsOf_of_declared declared⟩
  · obtain ⟨levels, hlevels, hfields⟩ := bind_eq_ok.mp hfields
    cases hfields
    obtain rfl := hierarchy_eq_ok hlevels
    exact fields_closed
  · obtain ⟨levels, hlevels, haccessors⟩ := bind_eq_ok.mp haccessors
    cases haccessors
    obtain rfl := hierarchy_eq_ok hlevels
    exact accessors_closed
  -- the type of a property is that of a field or an accessor, so both facts are needed here
  · rw [propertyType?_eq_typeAmong? saturated.isNamed] at found
    rcases typeAmong?_mem found with ⟨f, hf, rfl⟩ | ⟨a, ha, rfl⟩
    · exact fields_closed f hf
    · exact accessors_closed a ha

end Catalog

/-! ### Crates of parcels -/

namespace Sample

/-- Crates are boxes. A box holds what its parameter says, a crate gives it lists by label; the
parameters of both are called `T`. -/
def crates : Catalog where
  declarations := [
    { name := "Box"
      typeParameters := ["T"]
      fields := [{ name := "content", type := .map (.of "String") (.variable "T") }]
      accessors := [{ name := "first", type := .optional (.variable "T") }] },
    { name := "Crate"
      typeParameters := ["T"]
      superclass := some (.named "Box" [.collection .list (.variable "T")])
      fields := [{ name := "lid", type := .variable "T" }] }]

def crate : TypeRef := .named "Crate" [.of "Parcel"]

end Sample

/-- A crate of parcels holds lists of parcels, and its lid is a parcel. -/
theorem Catalog.members_closed_crate :
    Sample.crates.IsScoped ∧ Sample.crates.IsSaturated Sample.crate ∧
      (∀ a ∈ Sample.crate.arguments, a.hasVariables = false) ∧
      Sample.crates.contains Sample.crate.name = true ∧
      ∃ fields accessors, Sample.crates.fieldsOf Sample.crate = .ok fields ∧
        fields.map (·.type) =
          [.of "Parcel", .map (.of "String") (.collection .list (.of "Parcel"))] ∧
        (∀ f ∈ fields, f.type.hasVariables = false) ∧
        Sample.crates.accessorsOf Sample.crate = .ok accessors ∧
        (∀ a ∈ accessors, a.type.hasVariables = false) ∧
        ∃ type, Sample.crates.propertyType? Sample.crate "first" = some type ∧
          type.hasVariables = false := by
  have isScoped : Sample.crates.IsScoped := by decide
  have saturated : Sample.crates.IsSaturated Sample.crate := by decide
  have closed : ∀ a ∈ Sample.crate.arguments, a.hasVariables = false := by decide
  have declared : Sample.crates.contains Sample.crate.name = true := by decide
  obtain ⟨answered, fields_closed, accessors_closed, properties_closed⟩ :=
    members_closed isScoped saturated closed
  obtain ⟨fields, accessors, hfields, haccessors⟩ := answered declared
  have first : Sample.crates.propertyType? Sample.crate "first" =
      some (.optional (.collection .list (.of "Parcel"))) := by decide +kernel
  refine ⟨isScoped, saturated, closed, declared, fields, accessors, hfields, ?_,
    fields_closed fields hfields, haccessors, accessors_closed accessors haccessors, _, first,
    properties_closed _ _ first⟩
  rw [fieldsOf_of_declared declared] at hfields
  cases hfields
  decide +kernel

end EntityModel
