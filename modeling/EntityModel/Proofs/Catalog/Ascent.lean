import EntityModel.Proofs.Catalog.PropertyTypes

/-!
# Ascents

The properties of a type are looked up on a walk from superclass to superclass that remembers the
names it met (`Catalog.Ascends`). In every catalog such a walk comes to an end, also where
superclasses form a cycle or are not declared, and it meets the levels of the chain
(`Catalog.ascends_iff`). The type of a property, the fields and the accessors of a type are all read
off this one walk, so they agree (`Catalog.propertyType?_resolved`).
-/

namespace EntityModel

namespace Catalog

/-! ### Walks along superclasses -/

/-- A walk from a type meets levels on its way. It ends at a type whose name was met before or is
not declared, and at a type without a superclass. -/
inductive Ascends (c : Catalog) : List String → TypeRef → List Level → Prop where
  | repeated {met t} :
    t.name ∈ met →
    Ascends c met t []
  | undeclared {met t} :
    t.name ∉ met →
    c.find? t.name = none →
    Ascends c met t []
  | top {met t d} :
    t.name ∉ met →
    c.find? t.name = some d →
    d.superclass = none →
    Ascends c met t [⟨d, d.bindings t⟩]
  | up {met t d s levels} :
    t.name ∉ met →
    c.find? t.name = some d →
    d.superclass = some s →
    Ascends c (t.name :: met) (s.subst (d.bindings t)) levels →
    Ascends c met t (⟨d, d.bindings t⟩ :: levels)

variable {c : Catalog} {met : List String} {levels : List Level} {t owner : TypeRef} {name : String}
  {d : TypeDecl}

/-- The declarations whose names were not met. -/
def unmet (c : Catalog) (met : List String) : List TypeDecl :=
  c.declarations.filter fun d => !met.contains d.name

/-- As long as nothing was met all declarations are left. -/
lemma unmet_nil : c.unmet [] = c.declarations := by
  simp [unmet]

/-- To take a name out of what is left is to meet it. -/
lemma without_unmet : without (c.unmet met) name = c.unmet (name :: met) := by
  unfold without unmet
  rw [List.filter_filter]
  apply List.filter_congr
  intro d _
  rw [List.contains_cons, Bool.not_or]
  rfl

/-- A name that was not met is found among what is left just as in the catalog. -/
lemma find?_unmet (fresh : name ∉ met) :
    (c.unmet met).find? (fun d => d.name == name) = c.find? name := by
  unfold unmet find?
  rw [List.find?_filter]
  congr
  funext d
  by_cases named : d.name = name
  · simp [named, fresh]
  · simp [named]

/-- A name that was met is not found again. -/
lemma find?_unmet_of_mem (here : name ∈ met) :
    (c.unmet met).find? (fun d => d.name == name) = none := by
  apply List.find?_eq_none.mpr
  intro d hd named
  obtain ⟨-, unmet⟩ := List.mem_filter.mp hd
  simp_all

/-- What is found among what is left is declared and was not met. -/
lemma of_find?_unmet (found : (c.unmet met).find? (fun d => d.name == name) = some d) :
    name ∉ met ∧ c.find? name = some d := by
  have fresh : name ∉ met := by
    intro here
    cases (find?_unmet_of_mem here).symm.trans found
  exact ⟨fresh, (find?_unmet fresh).symm.trans found⟩

/-- The chain of a type that is not declared is empty. -/
lemma chain_of_none {pool : List TypeDecl}
    (absent : pool.find? (fun d => d.name == t.name) = none) : chain pool t = [] := by
  rw [chain]
  split
  · rfl
  · rename_i found
    cases absent.symm.trans found

/-- The chain of a declared type starts with the type itself and goes on with its superclass, at the
types that its parameters are bound to. -/
lemma chain_of_some {pool : List TypeDecl}
    (found : pool.find? (fun d => d.name == t.name) = some d) :
    chain pool t = ⟨d, d.bindings t⟩ ::
      d.superclass.elim [] fun s => chain (without pool t.name) (s.subst (d.bindings t)) := by
  rw [chain]
  split
  · rename_i absent
    cases absent.symm.trans found
  · rename_i d' found'
    cases found.symm.trans found'
    cases d.superclass <;> rfl

/-- The walk that a chain takes. -/
lemma ascends_chain (c : Catalog) (met : List String) (t : TypeRef) :
    c.Ascends met t (chain (c.unmet met) t) := by
  generalize pool_eq : c.unmet met = pool
  induction pool, t using chain.induct generalizing met with
  | case1 pool t absent =>
    subst pool_eq
    rw [chain_of_none absent]
    by_cases fresh : t.name ∈ met
    · exact .repeated fresh
    · exact .undeclared fresh ((find?_unmet fresh).symm.trans absent)
  | case2 pool t d found bindings ih =>
    subst pool_eq
    obtain ⟨fresh, declared⟩ := of_find?_unmet found
    rw [chain_of_some found]
    cases super : d.superclass with
    | none => exact .top fresh declared super
    | some s => exact .up fresh declared super (ih s _ without_unmet.symm)

/-- There is no other walk. -/
lemma Ascends.levels_eq (walk : c.Ascends met t levels) : levels = chain (c.unmet met) t := by
  induction walk with
  | repeated here => exact (chain_of_none (find?_unmet_of_mem here)).symm
  | undeclared fresh absent => exact (chain_of_none ((find?_unmet fresh).trans absent)).symm
  | top fresh declared super =>
    rw [chain_of_some ((find?_unmet fresh).trans declared), super]
    rfl
  | up fresh declared super _ ih =>
    rw [chain_of_some ((find?_unmet fresh).trans declared), super, ih, Option.elim_some,
      without_unmet]

/-- From every type there is one walk, and it meets the levels of the chain. -/
theorem ascends_iff : c.Ascends [] t levels ↔ levels = chain c.declarations t := by
  rw [← unmet_nil]
  constructor
  · exact Ascends.levels_eq
  · rintro rfl
    exact ascends_chain c [] t

/-- No name is met twice, so a walk has no more levels than there are declarations. -/
lemma Ascends.names_nodup (walk : c.Ascends met t levels) :
    (∀ l ∈ levels, l.decl.name ∉ met) ∧ (levels.map (·.decl.name)).Nodup := by
  induction walk with
  | repeated | undeclared => exact ⟨nofun, .nil⟩
  | top fresh declared super =>
    refine ⟨List.forall_mem_singleton.mpr ?_, List.pairwise_singleton _ _⟩
    rwa [name_of_find? declared]
  | @up met t d s levels fresh declared super _ ih =>
    obtain ⟨unmet, nodup⟩ := ih
    have named : d.name = t.name := name_of_find? declared
    constructor
    · refine List.forall_mem_cons.mpr ⟨named ▸ fresh, fun l hl here => ?_⟩
      exact unmet l hl (List.mem_cons_of_mem _ here)
    · apply List.nodup_cons.mpr
      refine ⟨fun here => ?_, nodup⟩
      obtain ⟨l, hl, same⟩ := List.mem_map.mp here
      apply unmet l hl
      exact (same.trans named) ▸ List.mem_cons_self

/-! ### What is read off a walk -/

/-- Only the chain of a type that is not declared is empty. -/
lemma chain_eq_nil_iff : chain c.declarations t = [] ↔ c.contains t.name = false := by
  unfold contains find?
  cases found : c.declarations.find? fun d => d.name == t.name with
  | none => simp [chain_of_none found]
  | some d => simp [chain_of_some found]

/-- The hierarchy of a declared type is its chain. -/
lemma hierarchy_of_declared (declared : c.contains t.name = true) :
    c.hierarchy t = .ok (chain c.declarations t) := by
  unfold hierarchy
  split
  · rename_i undeclared
    cases declared.symm.trans (chain_eq_nil_iff.mp undeclared)
  · rfl

/-- A type that is not declared has no hierarchy. -/
lemma hierarchy_of_undeclared (undeclared : c.contains t.name = false) :
    c.hierarchy t = .error (.unregistered t.text) := by
  unfold hierarchy
  rw [chain_eq_nil_iff.mpr undeclared]

/-- The fields of a declared type are those of its chain, the own ones first. -/
lemma fieldsOf_of_declared (declared : c.contains t.name = true) :
    c.fieldsOf t = .ok ((chain c.declarations t).flatMap Level.fields) := by
  unfold fieldsOf
  rw [hierarchy_of_declared declared]
  rfl

/-- The accessors of a declared type are those of its chain, of each name the first one. -/
lemma accessorsOf_of_declared (declared : c.contains t.name = true) : c.accessorsOf t =
    .ok (distinctOn (·.name) [] ((chain c.declarations t).flatMap Level.accessors)) := by
  unfold accessorsOf
  rw [hierarchy_of_declared declared]
  rfl

/-- The type under which fields and accessors have a name: that of the first field of the name, else
that of the first accessor. -/
def typeAmong? (fields : List FieldDecl) (accessors : List AccessorDecl) (name : String) :
    Option TypeRef :=
  ((fields.find? fun f => f.name == name).map (·.type)).or
    ((accessors.find? fun a => a.name == name).map (·.type))

/-- The type of a property is looked for among the fields of the chain and then among its accessors.
-/
lemma propertyType?_eq_typeAmong? (named : owner.isNamed = true) (name : String) :
    c.propertyType? owner name =
      typeAmong? ((chain c.declarations owner).flatMap Level.fields)
        (distinctOn (·.name) [] ((chain c.declarations owner).flatMap Level.accessors)) name := by
  unfold typeAmong?
  rw [propertyType?_eq named, fieldType?_eq, accessorType?_eq,
    find?_distinctOn name List.not_mem_nil]

/-- In every catalog the walk from a named type ends, and the type of a property is what the fields
and accessors of the type have under its name: the type of the first field, else that of the
accessor. A type that is not declared has no fields, no accessors and no properties. -/
theorem propertyType?_resolved (c : Catalog) (owner : TypeRef) (named : owner.isNamed = true)
    (name : String) :
    ∃ levels, (∀ found, c.Ascends [] owner found ↔ found = levels) ∧
      (levels.map (·.decl.name)).Nodup ∧
      (c.contains owner.name = true → ∃ accessors,
        c.fieldsOf owner = .ok (levels.flatMap Level.fields) ∧
          c.accessorsOf owner = .ok accessors ∧ (accessors.map (·.name)).Nodup ∧
          c.propertyType? owner name = typeAmong? (levels.flatMap Level.fields) accessors name) ∧
      (c.contains owner.name = false →
        c.fieldsOf owner = .error (.unregistered owner.text) ∧
          c.accessorsOf owner = .error (.unregistered owner.text) ∧
          c.propertyType? owner name = none) := by
  have walk : c.Ascends [] owner (chain c.declarations owner) := ascends_iff.mpr rfl
  refine ⟨_, fun found => ascends_iff, walk.names_nodup.2, fun declared => ?_, fun undeclared => ?_⟩
  · refine ⟨_, fieldsOf_of_declared declared, accessorsOf_of_declared declared, ?_, ?_⟩
    -- accessors are listed once for each name, fields are not
    · exact List.pairwise_map.mpr (pairwise_distinctOn _ _ _)
    · exact propertyType?_eq_typeAmong? named name
  -- the chain of what is not declared is empty, so nothing is found on it
  · have unknown : c.hierarchy owner = .error _ := hierarchy_of_undeclared undeclared
    refine ⟨congrArg (· >>= _) unknown, congrArg (· >>= _) unknown, ?_⟩
    rw [propertyType?_eq_typeAmong? named, chain_eq_nil_iff.mpr undeclared]
    rfl

end Catalog

/-! ### A cycle of superclasses -/

namespace Sample

def draft : TypeRef := .of "Draft"

/-- Drafts and their sheets are superclasses of each other. -/
def drafts : Catalog where
  declarations := [
    { name := "Draft"
      superclass := some (.named "Sheet" [.of "String"])
      fields := [⟨"title", .of "String", {}, []⟩]
      accessors := [{ name := "body", type := .of "Text" }] },
    { name := "Sheet"
      typeParameters := ["T"]
      superclass := some draft
      fields := [⟨"body", .variable "T", {}, []⟩] }]

end Sample

/-- The body of a draft is the field of its sheet and not its own accessor. A type that is not
declared has no body. -/
theorem Catalog.propertyType?_resolved_draft :
    Sample.draft.isNamed = true ∧ (TypeRef.of "Object").isNamed = true ∧
      (∃ levels, (∀ found, Sample.drafts.Ascends [] Sample.draft found ↔ found = levels) ∧
        levels.map (·.decl.name) = ["Draft", "Sheet"] ∧
        Sample.drafts.fieldsOf Sample.draft = .ok (levels.flatMap Level.fields) ∧
        Sample.drafts.propertyType? Sample.draft "body" = some (.of "String")) ∧
      Sample.drafts.fieldsOf (.of "Object") = .error (.unregistered "Object") ∧
      Sample.drafts.propertyType? (.of "Object") "body" = none := by
  obtain ⟨levels, walk, -, declared, -⟩ :=
    propertyType?_resolved Sample.drafts Sample.draft rfl "body"
  obtain ⟨accessors, fields_eq, -, -, type_eq⟩ := declared (by decide)
  obtain ⟨-, -, -, -, undeclared⟩ :=
    propertyType?_resolved Sample.drafts (.of "Object") rfl "body"
  obtain ⟨no_fields, -, no_type⟩ := undeclared (by decide)
  obtain rfl : chain Sample.drafts.declarations Sample.draft = levels :=
    (walk _).mp (ascends_iff.mpr rfl)
  refine ⟨rfl, rfl, ⟨_, walk, by decide +kernel, fields_eq, ?_⟩, no_fields, no_type⟩
  have first : ((chain Sample.drafts.declarations Sample.draft).flatMap Level.fields).find?
      (fun f => f.name == "body") = some ⟨"body", .of "String", {}, []⟩ := by decide +kernel
  rw [type_eq, typeAmong?, first]
  rfl

end EntityModel
