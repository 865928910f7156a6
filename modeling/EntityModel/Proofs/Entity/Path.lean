import EntityModel.Entity.Path
import EntityModel.Proofs.Entity.Extension
import Mathlib.Data.List.Forall2
import Mathlib.Data.List.Chain

/-!
# Laws of entity paths

The operations on paths make exactly the chains in which every property belongs to the type behind
the property before it (`EntityPath.isBuilt_iff`). Beginnings and rests of paths are inverse to each
other (`EntityPath.beginnings_and_rests`): a beginning is continued by the rest behind it, and what
a path was continued by is the rest behind it. Beginnings are told by the names, owners and types of
properties, so they need not consist of the properties of the path themselves.
-/

namespace EntityModel

namespace EntityProperty

variable {p q : EntityProperty}

/-- The owner of the second property has the raw name of the type behind the first one. -/
def Precedes (p q : EntityProperty) : Prop :=
  p.actual.name = q.owner.name

/-- Properties are the same by name, owner and type. -/
lemma same_iff : p.same q = true ↔ p.name = q.name ∧ p.owner = q.owner ∧ p.type = q.type := by
  simp [same, and_assoc]

/-- A property is the same as itself. -/
lemma same_refl (p : EntityProperty) : p.same p = true :=
  same_iff.mpr ⟨rfl, rfl, rfl⟩

/-- What may come after a property is a matter of its type. -/
lemma Precedes.of_same {r : EntityProperty} (h : q.Precedes r) (same : p.same q = true) :
    p.Precedes r := by
  obtain ⟨-, -, type_eq⟩ := same_iff.mp same
  unfold Precedes actual at *
  rwa [type_eq]

end EntityProperty

namespace EntityPath

variable {base other path path' : EntityPath} {p q : EntityProperty}
  {ps qs start rest : List EntityProperty}

/-! ### Appending -/

/-- A property can be appended where its leaf precedes it, and it comes last then. -/
lemma append_eq_ok : base.append p = .ok path ↔
    (∀ leaf ∈ base.leaf?, leaf.Precedes p) ∧ path = ⟨base.properties ++ [p]⟩ := by
  unfold append EntityProperty.Precedes
  cases base.leaf? with
  | none => simp [eq_comm]
  | some leaf =>
    by_cases fits : leaf.actual.name = p.owner.name
    · simp [fits, eq_comm]
    · refine iff_of_false (fun h => ?_) fun h => fits (h.1 leaf rfl)
      dsimp only at h
      rw [if_neg fits] at h
      cases h

/-- What is appended comes last. -/
lemma properties_append (appended : base.append p = .ok path) :
    path.properties = base.properties ++ [p] :=
  congrArg properties (append_eq_ok.mp appended).2

/-- What is appended is the leaf. -/
lemma leaf?_append (appended : base.append p = .ok path) : path.leaf? = some p := by
  unfold leaf?
  rw [properties_append appended, List.getLast?_concat]

/-- A property is appended unless its owner has another name than the type behind the leaf. -/
lemma append_ok_iff : (∃ path, base.append p = .ok path) ↔ ∀ leaf ∈ base.leaf?, leaf.Precedes p :=
  ⟨fun ⟨_, appended⟩ => (append_eq_ok.mp appended).1, fun fits => ⟨_, append_eq_ok.mpr ⟨fits, rfl⟩⟩⟩

/-- A path is continued by properties that follow each other, if the first of them may come after
its leaf. -/
lemma appendPath_eq_ok : base.appendPath other = .ok path ↔
    other.properties.IsChain EntityProperty.Precedes ∧
      (∀ leaf ∈ base.leaf?, ∀ p ∈ other.base?, leaf.Precedes p) ∧
      path = ⟨base.properties ++ other.properties⟩ := by
  obtain ⟨qs⟩ := other
  unfold appendPath base?
  -- properties are appended one by one, each to what those before it made of the base
  induction qs generalizing base with
  | nil =>
    cases base
    simp [pure, Except.pure, eq_comm]
  | cons q qs ih =>
    rw [List.foldlM_cons, bind_eq_ok, List.isChain_cons]
    constructor
    · rintro ⟨longer, first, others⟩
      have fits := append_ok_iff.mp ⟨longer, first⟩
      obtain ⟨chain, next, rfl⟩ := ih.mp others
      -- the next property fits behind the first one, which is now the leaf
      refine ⟨⟨next q (leaf?_append first), chain⟩, fun leaf hleaf p hp => ?_, ?_⟩
      · cases hp
        exact fits leaf hleaf
      · rw [properties_append first, List.append_assoc]
        rfl
    · rintro ⟨⟨next, chain⟩, fits, rfl⟩
      obtain ⟨longer, first⟩ := append_ok_iff.mpr fun leaf hleaf => fits leaf hleaf q rfl
      refine ⟨longer, first, ih.mpr ⟨chain, fun leaf hleaf => ?_, ?_⟩⟩
      · cases (leaf?_append first).symm.trans hleaf
        exact next
      · rw [properties_append first, List.append_assoc]
        rfl

/-! ### Paths that are built -/

/-- The paths that the operations on paths make, in any combination. -/
inductive IsBuilt : EntityPath → Prop where
  | empty :
    IsBuilt {}
  | of {p : EntityProperty} :
    IsBuilt (of p)
  | append {path path' : EntityPath} {p : EntityProperty} :
    IsBuilt path →
    path.append p = .ok path' →
    IsBuilt path'
  | appendPath {path other path' : EntityPath} :
    IsBuilt path →
    IsBuilt other →
    path.appendPath other = .ok path' →
    IsBuilt path'
  | parent {path : EntityPath} :
    IsBuilt path →
    IsBuilt path.parent
  | behind {path base : EntityPath} :
    IsBuilt path →
    IsBuilt base →
    IsBuilt (path.behind base)

/-- Adjacent properties of a path that was built belong together. -/
lemma IsBuilt.isChain (built : path.IsBuilt) :
    path.properties.IsChain EntityProperty.Precedes := by
  induction built with
  | empty => exact .nil
  | of => exact .singleton _
  | append _ appended ih =>
    obtain ⟨fits, rfl⟩ := append_eq_ok.mp appended
    apply List.isChain_append.mpr
    refine ⟨ih, .singleton _, fun leaf hleaf p hp => ?_⟩
    cases hp
    exact fits leaf hleaf
  | appendPath _ _ appended ih ih' =>
    obtain ⟨-, fits, rfl⟩ := appendPath_eq_ok.mp appended
    exact List.isChain_append.mpr ⟨ih, ih', fits⟩
  -- a parent lacks the last property and a rest lacks the first ones, so no new neighbours come up
  | parent _ ih => exact ih.prefix (List.dropLast_prefix _)
  | behind _ _ ih _ =>
    unfold EntityPath.behind
    split
    · exact ih.suffix (List.drop_suffix _ _)
    · exact ih

/-- The operations make exactly the paths in which adjacent properties belong together. -/
theorem isBuilt_iff : path.IsBuilt ↔ path.properties.IsChain EntityProperty.Precedes := by
  constructor
  · exact IsBuilt.isChain
  · intro chain
    obtain ⟨ps⟩ := path
    induction ps using List.reverseRecOn with
    | nil => exact .empty
    | append_singleton ps p ih =>
      obtain ⟨first, -, last⟩ := List.isChain_append.mp chain
      exact .append (ih first) (append_eq_ok.mpr ⟨fun leaf hleaf => last leaf hleaf p rfl, rfl⟩)

/-! ### Beginnings and rests -/

/-- Beginnings are compared property by property. -/
lemma isBaseOf_cons :
    (⟨p :: ps⟩ : EntityPath).isBaseOf ⟨q :: qs⟩ = (p.same q && isBaseOf ⟨ps⟩ ⟨qs⟩) := by
  have fits : decide (ps.length + 1 ≤ qs.length + 1) = decide (ps.length ≤ qs.length) :=
    decide_eq_decide.mpr Nat.add_le_add_iff_right
  show (decide (ps.length + 1 ≤ qs.length + 1) && (p.same q && _)) = _
  rw [Bool.and_left_comm, fits]
  rfl

/-- A path begins with a base if its first properties are the same as those of the base. -/
lemma isBaseOf_iff : base.isBaseOf path = true ↔ ∃ start rest,
    path.properties = start ++ rest ∧
      List.Forall₂ (fun p q => p.same q = true) base.properties start := by
  obtain ⟨ps⟩ := base
  obtain ⟨qs⟩ := path
  induction ps generalizing qs with
  | nil => simp [isBaseOf, length]
  | cons p ps ih =>
    cases qs with
    | nil => simp [isBaseOf, length]
    | cons q qs =>
      rw [isBaseOf_cons, Bool.and_eq_true, ih]
      constructor
      · rintro ⟨same, start, rest, split, alike⟩
        exact ⟨q :: start, rest, congrArg (q :: ·) split, .cons same alike⟩
      · rintro ⟨start, rest, split, alike⟩
        cases alike with
        | cons same alike =>
          cases split
          exact ⟨same, _, rest, rfl, alike⟩

/-- The rest behind a base is what comes behind its counterpart in the path. -/
lemma behind_eq (alike : List.Forall₂ (fun p q => p.same q = true) base.properties start) :
    (⟨start ++ rest⟩ : EntityPath).behind base = ⟨rest⟩ := by
  have isBase : base.isBaseOf ⟨start ++ rest⟩ = true :=
    isBaseOf_iff.mpr ⟨start, rest, rfl, alike⟩
  unfold behind
  rw [if_pos isBase, length, alike.length_eq, List.drop_left]

/-- Paths are the same if their properties are, in pairs. -/
lemma same_iff : path.same other = true ↔
    List.Forall₂ (fun p q => p.same q = true) path.properties other.properties := by
  unfold same
  rw [Bool.and_eq_true, beq_iff_eq, isBaseOf_iff]
  constructor
  · rintro ⟨length_eq, start, rest, split, alike⟩
    have none_left : rest.length = 0 := by
      have whole := congrArg List.length split
      rw [List.length_append, ← alike.length_eq] at whole
      unfold length at length_eq
      omega
    rw [List.length_eq_zero_iff.mp none_left, List.append_nil] at split
    rwa [split]
  · intro alike
    exact ⟨alike.length_eq, other.properties, [], (List.append_nil _).symm, alike⟩

/-- Every property is the same as itself, in pairs. -/
lemma forall₂_same_refl (ps : List EntityProperty) :
    List.Forall₂ (fun p q => p.same q = true) ps ps :=
  List.forall₂_same.mpr fun p _ => EntityProperty.same_refl p

/-- The last properties of lists that are the same are the same. -/
lemma exists_last_same (alike : List.Forall₂ (fun p q => p.same q = true) ps qs)
    (hp : p ∈ ps.getLast?) : ∃ q ∈ qs.getLast?, p.same q = true := by
  have reversed := List.forall₂_reverse_iff.mpr alike
  simp only [← List.head?_reverse] at hp ⊢
  generalize ps.reverse = ps at reversed hp
  generalize qs.reverse = qs at reversed
  cases reversed with
  | nil => cases hp
  | cons same _ =>
    cases hp
    exact ⟨_, rfl, same⟩

/-- A beginning of a path is continued by the rest behind it, to what is the same as the path. -/
lemma appendPath_behind (chain : path.properties.IsChain EntityProperty.Precedes)
    (isBase : base.isBaseOf path = true) :
    ∃ whole, base.appendPath (path.behind base) = .ok whole ∧ whole.same path = true := by
  obtain ⟨ps⟩ := path
  obtain ⟨start, rest, rfl, alike⟩ := isBaseOf_iff.mp isBase
  obtain ⟨-, continued, next⟩ := List.isChain_append.mp chain
  rw [behind_eq alike]
  refine ⟨_, appendPath_eq_ok.mpr ⟨continued, fun leaf hleaf p hp => ?_, rfl⟩, ?_⟩
  · obtain ⟨leaf', hleaf', same⟩ := exists_last_same alike hleaf
    exact (next leaf' hleaf' p hp).of_same same
  · exact same_iff.mpr (List.rel_append alike (forall₂_same_refl rest))

/-- What a base was continued by is the rest behind it. -/
lemma behind_appendPath (appended : base.appendPath other = .ok path) :
    base.isBaseOf path = true ∧ path.behind base = other := by
  obtain ⟨-, -, rfl⟩ := appendPath_eq_ok.mp appended
  have alike := forall₂_same_refl base.properties
  exact ⟨isBaseOf_iff.mpr ⟨_, _, rfl, alike⟩, behind_eq alike⟩

/-- On paths that were built adjacent properties belong together. Every beginning of such a path is
continued by the rest behind it, to what is the same as the path; and if a base was continued to the
path, the path begins with it and the rest behind it is what the base was continued by. -/
theorem beginnings_and_rests (built : path.IsBuilt) :
    path.properties.IsChain EntityProperty.Precedes ∧
      (∀ base : EntityPath, base.isBaseOf path = true →
        ∃ whole, base.appendPath (path.behind base) = .ok whole ∧ whole.same path = true) ∧
      ∀ base rest : EntityPath, base.appendPath rest = .ok path →
        base.isBaseOf path = true ∧ path.behind base = rest := by
  refine ⟨built.isChain, fun base isBase => ?_, fun base rest appended => ?_⟩
  · exact appendPath_behind built.isChain isBase
  · exact behind_appendPath appended

end EntityPath

/-! ### The town of a tenant -/

namespace Sample

def flat (annotations : List Annotation) : EntityProperty :=
  .make (.field { name := "flat", type := .of "Flat", annotations } none) (.of "Tenant")
    { name := "Tenant" } .default .annotated

def town : EntityProperty :=
  .make (.field { name := "town", type := .of "String" } none) (.of "Flat") { name := "Flat" }
    .default .annotated

/-- The town of a tenant's flat. -/
def tenantTown : EntityPath := ⟨[flat [], town]⟩

/-- The flat of a tenant, in another declaration of tenants. -/
def otherFlat : EntityPath := .of (flat [.readOnly])

end Sample

/-- The town of a tenant begins with the flat of another declaration, which is continued to the same
path but not to the path itself. -/
theorem EntityPath.beginnings_and_rests_town :
    Sample.tenantTown.IsBuilt ∧ Sample.otherFlat.isBaseOf Sample.tenantTown = true ∧
      ∃ whole, Sample.otherFlat.appendPath (Sample.tenantTown.behind Sample.otherFlat) = .ok whole ∧
        whole.same Sample.tenantTown = true ∧ whole ≠ Sample.tenantTown := by
  have appended : (of (Sample.flat [])).append Sample.town = .ok Sample.tenantTown := rfl
  have built : Sample.tenantTown.IsBuilt := .append .of appended
  have isBase : Sample.otherFlat.isBaseOf Sample.tenantTown = true := by decide
  obtain ⟨-, continues, -⟩ := beginnings_and_rests built
  obtain ⟨whole, appended, same⟩ := continues Sample.otherFlat isBase
  refine ⟨built, isBase, whole, appended, same, ?_⟩
  obtain ⟨-, -, rfl⟩ := appendPath_eq_ok.mp appended
  decide

end EntityModel
