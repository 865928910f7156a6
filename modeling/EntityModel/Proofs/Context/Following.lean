import EntityModel.Proofs.Context.Sound
import EntityModel.Proofs.Entity.Path

/-!
# Following names

A path that a context resolves goes from entity to entity by properties of the names that its source
consists of (`Context.Traces`). That stays so while the context evolves, hence it also holds of
paths that are remembered (`Context.ensures_traces_path`).
-/

namespace EntityModel

open ContextM

/-- The names that a source consists of. -/
def EntityPath.namesIn (source : String) : List String :=
  if source = "" then [] else (Text.pieces '.' source.toList).map String.ofList

namespace Context

/-- The entities that a context knows have properties of the given names, the first one of the given
type, each other one of the type behind the property before it. -/
inductive Traces (c : Context) : TypeRef → List String → List EntityProperty → Prop where
  | nil {t} :
    Traces c t [] []
  | cons {t e name p names ps} :
    c.table.get? t = some (some e) →
    e.property? name = some p →
    Traces c p.actual names ps →
    Traces c t (name :: names) (p :: ps)

variable {m : Mapping} {forced : Bool} {c c' : Context} {t : TypeRef} {e : Entity}
  {p : EntityProperty} {ps : List EntityProperty} {base path : EntityPath} {name source : String}
  {names : List String}

/-- Properties that a context traces are traced by every later one. -/
lemma Traces.evolve (h : c.Traces t names ps) (evolves : c.Evolves forced c') :
    c'.Traces t names ps := by
  induction h with
  | nil => exact .nil
  | cons known named _ ih => exact .cons (evolves.kept known) named ih

/-- The property at a name is that of the entity. -/
lemma propertyAt_ok : propertyAt e base name = .ok p ↔ e.property? name = some p := by
  unfold propertyAt
  cases e.property? name <;> simp

/-- The type that is required behind a property is its actual type. -/
lemma requiredActual_ok {u : TypeRef} (h : t.requiredActual = .ok u) : u = t.actual := by
  unfold TypeRef.requiredActual at h
  split at h <;> cases h
  rfl

/-- Once a type was looked up, the table has the answer that was given. -/
lemma ensures_entity? : Ensures c (entity? t) fun answer c' => c'.table.get? t = some answer := by
  refine .of_ok Evolving.entity? fun answer c' looked => ?_
  have yields : EntityLookup.Yields c (.entity t) (.ok answer) c' := .of_run looked
  exact yields.get?_eq

/-- Once an entity was required, it is in the table. -/
lemma ensures_requiredEntity :
    Ensures c (requiredEntity t) fun e c' => c'.table.get? t = some (some e) :=
  .of_ok Evolving.requiredEntity fun _ _ => get?_of_requiredEntity

/-- A path is continued from an entity by properties of the names that follow. -/
lemma ensures_traces_follow (known : c.table.get? t = some (some e)) :
    Ensures c (follow e base name names) fun path c' =>
      ∃ ps, path.properties = base.properties ++ ps ∧ c'.Traces t (name :: names) ps := by
  -- each name is read off the entity that the name before it leads to
  induction names generalizing c t e base name with
  | nil =>
    unfold follow
    refine (Ensures.lift (P := fun p _ => e.property? name = some p)
      fun p h => propertyAt_ok.mp h).bind fun p c₁ first named => .lift fun path appended => ?_
    exact ⟨[p], EntityPath.properties_append appended, .cons (first.kept known) named .nil⟩
  | cons next names ih =>
    unfold follow
    refine (Ensures.lift (P := fun p _ => e.property? name = some p)
      fun p h => propertyAt_ok.mp h).bind fun p c₁ first named => ?_
    refine (Ensures.lift (P := fun u _ => u = p.actual)
      fun u h => requiredActual_ok h).bind fun u c₂ second behind => ?_
    subst behind
    refine ensures_requiredEntity.bind fun target c₃ third reached => ?_
    refine (Ensures.lift (P := fun path _ => path.properties = base.properties ++ [p])
      fun path h => EntityPath.properties_append h).bind fun path c₄ fourth longer => ?_
    refine (ih (fourth.kept reached)).mono ?_
    -- every step only adds to what is known, so the entity of the first name is still there
    rintro path' c' fifth ⟨ps, properties_eq, traces⟩
    have evolves : c.Evolves false c' :=
      first.trans (second.trans (third.trans (fourth.trans fifth)))
    refine ⟨p :: ps, ?_, .cons (evolves.kept known) named traces⟩
    rw [properties_eq, longer, List.append_assoc, List.singleton_append]

/-- A path that was resolved traces the names in its source. -/
lemma ensures_traces_resolve :
    Ensures c (resolve source t) fun path c' =>
      c'.Traces t (EntityPath.namesIn source) path.properties := by
  unfold resolve EntityPath.namesIn
  split
  · exact .pure .nil
  · generalize (Text.pieces '.' source.toList).map String.ofList = names
    cases names with
    | nil => exact .pure .nil
    | cons name names =>
      refine ensures_requiredEntity.bind fun e c₁ _ known => ?_
      refine (ensures_traces_follow known).mono ?_
      rintro path c' - ⟨ps, properties_eq, traces⟩
      rwa [properties_eq]

/-- The paths that a context remembers follow the names of their sources. -/
def TracesAll (c : Context) : Prop :=
  ∀ entry ∈ c.paths, c.Traces entry.1.1 (EntityPath.namesIn entry.1.2) entry.2.properties

/-- A step remembers nothing but what was resolved right before. -/
lemma TracesAll.step (traced : c.TracesAll) (step : Step forced c c') : c'.TracesAll := by
  have kept (entry) (h : entry ∈ c.paths) :
      c'.Traces entry.1.1 (EntityPath.namesIn entry.1.2) entry.2.properties :=
    (traced entry h).evolve (.single step)
  cases step with
  | refused | visited | reported | listened => exact kept
  | remembered resolved =>
    intro entry h
    rcases List.mem_cons.mp h with rfl | h
    · have evolves : Evolves forced c _ := .single (.remembered resolved)
      exact ((ensures_traces_resolve _ _ resolved).2 _ rfl).evolve evolves
    · exact kept entry h

/-- However a context evolves, the paths that it remembers are traced. -/
lemma TracesAll.evolve (traced : c.TracesAll) (h : c.Evolves forced c') : c'.TracesAll := by
  induction h with
  | refl => exact traced
  | tail _ step ih => exact ih.step step

/-- Whatever was asked before, the paths that a context remembers are traced. -/
lemma TracesAll.of_after {ops : List Operation} (h : after ops (ofMapping m) = some c) :
    c.TracesAll := by
  have initial : (ofMapping m).TracesAll := nofun
  exact initial.evolve (evolves_of_after h)

/-- A path is remembered, or it is resolved and remembered from then on. -/
lemma path_ok (h : (ContextM.path source t).runOn c = some (.ok path, c')) :
    (((t, Text.trim source), path) ∈ c.paths ∧ c' = c) ∨
      ∃ c₁, (resolve (Text.trim source) t).runOn c = some (.ok path, c₁) ∧
        c' = { c₁ with paths := ((t, Text.trim source), path) :: c₁.paths } := by
  unfold ContextM.path at h
  rw [runOn_bind, runOn_get, Option.bind_some] at h
  dsimp only at h
  split at h
  · rename_i remembered
    cases h
    obtain ⟨⟨key, found⟩, first, rfl⟩ := Option.map_eq_some_iff.mp remembered
    have key_eq : key = (t, Text.trim source) := by simpa using List.find?_some first
    exact .inl ⟨key_eq ▸ List.mem_of_find?_eq_some first, rfl⟩
  · obtain ⟨resolved, c₁, hr, h⟩ := runOn_bind_ok.mp h
    cases h
    exact .inr ⟨c₁, hr, rfl⟩

/-- A path follows the names of its source, whether it is remembered or resolved now. -/
lemma ensures_traces_path (traced : c.TracesAll) : Ensures c (ContextM.path source t)
    fun path c' => c'.Traces t (EntityPath.namesIn (Text.trim source)) path.properties := by
  refine .of_ok (Evolving.path source) fun path c' h => ?_
  rcases path_ok h with ⟨remembered, rfl⟩ | ⟨c₁, resolved, rfl⟩
  · exact traced _ remembered
  · have evolves : Evolves false c₁ _ := .single (.remembered resolved)
    exact ((ensures_traces_resolve _ _ resolved).2 _ rfl).evolve evolves

end Context

/-- A path that was not asked for before is resolved and remembered. -/
lemma ContextM.path_of_resolve {c c' : Context} {source : String} {t : TypeRef} {path : EntityPath}
    (absent : c.path? t (Text.trim source) = none)
    (resolved : (resolve (Text.trim source) t).runOn c = some (.ok path, c')) :
    (ContextM.path source t).runOn c =
      some (.ok path, { c' with paths := ((t, Text.trim source), path) :: c'.paths }) := by
  unfold ContextM.path
  rw [runOn_bind, runOn_get, Option.bind_some]
  dsimp only
  rw [absent]
  exact runOn_bind_ok.mpr ⟨path, c', resolved, rfl⟩

end EntityModel
