import EntityModel.Proofs.Context.Agreement
import EntityModel.Proofs.Context.Failures

/-!
# Resolved paths

A path that a context answers spells its source, and every property on it belongs to the type behind
the property before it, so that none is refused by the path that it continues
(`Context.append_of_fits`). The first answer for a source stays the answer. A path that is not
resolved fails at an entity, at a type variable, or at the first name under which an entity has no
property (`Context.StopsOn`). All of this is put together in `Context.path_settled`.
-/

namespace EntityModel

open ContextM

/-! ### Names of properties -/

/-- The properties in an outline have the names that declarations give. -/
lemma Mapping.mem_propertyNames_of_outline {m : Mapping} {t : TypeRef} {decl : TypeDecl}
    {ps : List EntityProperty} {p : EntityProperty} (h : m.outline t = .ok (decl, ps))
    (hp : p ∈ ps) : ∃ d ∈ m.catalog.declarations, p.name ∈ d.propertyNames := by
  obtain ⟨bs, hbs, made⟩ := bind_eq_ok.mp (outline_eq_ok h).2
  cases made
  obtain ⟨b, hb, rfl⟩ := List.mem_map.mp (List.mem_filter.mp hp).1
  rcases mem_backings hbs hb with ⟨f, hf, a, rfl⟩ | ⟨a, ha, rfl⟩
  · obtain ⟨l, hl, here⟩ := List.mem_flatMap.mp hf
    obtain ⟨g, declared, rfl⟩ := List.mem_map.mp here
    have named : g.name ∈ l.decl.fields.map (·.name) := List.mem_map_of_mem declared
    exact ⟨l.decl, Catalog.mem_of_mem_chain hl, List.mem_append_left _ named⟩
  · obtain ⟨l, hl, here⟩ := List.mem_flatMap.mp (mem_of_mem_distinctOn ha)
    obtain ⟨b, declared, rfl⟩ := List.mem_map.mp here
    have named : b.name ∈ l.decl.accessors.map (·.name) := List.mem_map_of_mem declared
    exact ⟨l.decl, Catalog.mem_of_mem_chain hl, List.mem_append_right _ named⟩

namespace EntityPath

variable {path : EntityPath}

/-- A source is spelled by its names. -/
lemma dotted_namesIn (source : String) : Path.dotted (namesIn source) = source := by
  unfold namesIn
  split
  · rename_i empty
    rw [empty]
    rfl
  · apply String.toList_inj.mp
    rw [Path.toList_dotted, List.map_map]
    have same : String.toList ∘ String.ofList = id := funext fun _ => String.toList_ofList
    rw [same, List.map_id, Text.intercalate_pieces]

/-- No name is left out of a dot path if none is empty. -/
lemma dotPath_eq (named : ∀ p ∈ path.properties, p.name ≠ "") :
    path.dotPath = Path.dotted (path.properties.map (·.name)) := by
  have kept : (path.properties.map (·.name)).filter (· ≠ "") = path.properties.map (·.name) := by
    apply List.filter_eq_self.mpr
    simpa using named
  unfold dotPath joined?
  rw [List.filterMap_eq_map', kept]
  cases path.properties.map (·.name) <;> rfl

end EntityPath

namespace Context

variable {m : Mapping} {forced : Bool} {c c' : Context} {t : TypeRef} {e : Entity}
  {p : EntityProperty} {ps qs : List EntityProperty} {base path : EntityPath}
  {name source : String} {names : List String} {err : Error}

/-! ### Answers that stay -/

/-- Names lead one way only. -/
lemma Traces.unique (h : c.Traces t names ps) (h' : c.Traces t names qs) : ps = qs := by
  induction h generalizing qs with
  | nil =>
    cases h'
    rfl
  | cons known named _ ih =>
    cases h' with
    | cons known' named' further =>
      cases known.symm.trans known'
      cases named.symm.trans named'
      rw [ih further]

/-- A path that was remembered before a step is remembered after it. -/
lemma Step.mem_paths (step : Step forced c c') {entry} (h : entry ∈ c.paths) :
    entry ∈ c'.paths := by
  cases step with
  | refused | visited | reported | listened => exact h
  | remembered => exact List.mem_cons_of_mem _ h

/-- However a context evolves, it remembers the paths that it remembered. -/
lemma Evolves.mem_paths (evolves : c.Evolves forced c') {entry} (h : entry ∈ c.paths) :
    entry ∈ c'.paths := by
  induction evolves with
  | refl => exact h
  | tail _ step ih => exact step.mem_paths ih

/-- All paths that are remembered for a source follow its names, so they are the same. -/
lemma TracesAll.path?_eq (traced : c.TracesAll) (remembered : ((t, source), path) ∈ c.paths) :
    c.path? t source = some path := by
  cases found : c.paths.find? fun entry => entry.1 = (t, source) with
  | none =>
    have absent := List.find?_eq_none.mp found _ remembered
    simp at absent
  | some entry =>
    have key_eq : entry.1 = (t, source) := by simpa using List.find?_some found
    have follows := traced entry (List.mem_of_find?_eq_some found)
    rw [key_eq] at follows
    have same : entry.2 = path :=
      congrArg EntityPath.mk (follows.unique (traced _ remembered))
    rw [path?, found, Option.map_some, same]

/-- A path that was answered is remembered. -/
lemma mem_paths_of_path (h : (ContextM.path source t).runOn c = some (.ok path, c')) :
    ((t, Text.trim source), path) ∈ c'.paths := by
  rcases path_ok h with ⟨remembered, rfl⟩ | ⟨c₁, -, rfl⟩
  · exact remembered
  · exact List.mem_cons_self

/-- A path that is remembered for a source is answered for it, without a change of the context. -/
lemma path_of_path? (h : c.path? t (Text.trim source) = some path) :
    (ContextM.path source t).runOn c = some (.ok path, c) := by
  unfold ContextM.path
  rw [runOn_bind, runOn_get, Option.bind_some]
  dsimp only
  rw [h]
  rfl

/-! ### Properties that belong together -/

/-- The property that an entity finds under a name belongs to its type. -/
lemma Sound.owner_eq (sound : c.Sound m) (known : c.table.get? t = some (some e))
    (found : e.property? name = some p) : p.owner = t := by
  obtain ⟨-, decl, ps, outlined, hp⟩ := sound.mem_outline known found
  exact Mapping.owner_of_outline outlined hp

/-- Properties that are traced have the names that they were traced by. -/
lemma Traces.names_eq (h : c.Traces t names ps) : ps.map (·.name) = names := by
  induction h with
  | nil => rfl
  | @cons t e name p names ps _ named _ ih =>
    have name_eq : p.name = name := by simpa using List.find?_some named
    rw [List.map_cons, name_eq, ih]

/-- The first property is one of the type, each other one of the type behind the one before it. -/
lemma Traces.belongs (sound : c.Sound m) (h : c.Traces t names ps) :
    (∀ p ∈ ps.head?, p.owner = t) ∧ ps.IsChain fun p q => q.owner = p.actual := by
  induction h with
  | nil =>
    refine ⟨?_, .nil⟩
    rintro _ ⟨⟩
  | cons known named _ ih =>
    refine ⟨?_, List.isChain_cons.mpr ih⟩
    rintro _ ⟨⟩
    exact sound.owner_eq known named

/-- No property that is traced has an empty name, if no declaration has one. -/
lemma Traces.name_ne_empty (sound : c.Sound m)
    (nonempty : ∀ d ∈ m.catalog.declarations, "" ∉ d.propertyNames) (h : c.Traces t names ps) :
    ∀ p ∈ ps, p.name ≠ "" := by
  induction h with
  | nil => exact List.forall_mem_nil _
  | cons known named _ ih =>
    refine List.forall_mem_cons.mpr ⟨fun empty => ?_, ih⟩
    obtain ⟨-, decl, ps, outlined, hp⟩ := sound.mem_outline known named
    obtain ⟨d, hd, declared⟩ := Mapping.mem_propertyNames_of_outline outlined hp
    exact nonempty d hd (empty ▸ declared)

/-- A path that has led to a type is continued by every property of its entity. -/
lemma append_of_fits (sound : c.Sound m) (known : c.table.get? t = some (some e))
    (found : e.property? name = some p) (fits : ∀ leaf ∈ base.leaf?, leaf.actual = t) :
    base.append p = .ok ⟨base.properties ++ [p]⟩ := by
  refine EntityPath.append_eq_ok.mpr ⟨fun leaf hleaf => ?_, rfl⟩
  exact congrArg TypeRef.name ((fits leaf hleaf).trans (sound.owner_eq known found).symm)

/-! ### Failures -/

/-- What may go wrong with a path along names: an entity on the way is not found or not made, a type
on the way is a type variable, or the entity that the first names lead to has no property of the
next one. -/
inductive StopsOn (names : List String) : Error → Prop where
  | entity {failure : Error} :
    failure.IsOfEntity →
    StopsOn names failure
  | unresolved {type : String} :
    StopsOn names (.unresolvedActualType type)
  | missing {property owner : String} {found : List String} :
    found ++ [property] <+: names →
    StopsOn names (.propertyReference property owner found)

namespace StopsOn

/-- Where names stop, it is not because a property could not be appended. -/
lemma ne_cannotAppend (h : StopsOn names err) (property owner path leaf : String) :
    err ≠ .cannotAppend property owner path leaf := by
  cases h with
  | entity failed =>
    rintro rfl
    cases failed
  | unresolved =>
    -- the wording of the two failures differs in its first letter
    intro same
    have first := congrArg (fun text => text.toList.head?) (Error.invalidArgument.inj same)
    simp at first
  | missing => exact nofun

/-- The names up to the one that is missing are the beginning of all of them. -/
lemma isPrefix {owner : String} {found : List String}
    (h : StopsOn names (.propertyReference name owner found)) : found ++ [name] <+: names := by
  cases h with
  | entity failed => cases failed
  | missing reached => exact reached

end StopsOn

/-- Where the first name is missing names stop there. -/
lemma stopsOn_of_propertyAt {before : List String}
    (names_eq : base.properties.map (·.name) = before)
    (h : propertyAt e base name = .error err) : StopsOn (before ++ name :: names) err := by
  unfold propertyAt at h
  split at h <;> cases h
  rw [names_eq]
  exact .missing ((List.prefix_append_right_inj before).mpr ⟨names, rfl⟩)

/-- A path that has led to an entity by the first names stops on the others. -/
lemma stopsOn_of_follow {before : List String} (sound : c.Sound m)
    (known : c.table.get? t = some (some e)) (fits : ∀ leaf ∈ base.leaf?, leaf.actual = t)
    (names_eq : base.properties.map (·.name) = before)
    (h : (follow e base name names).runOn c = some (.error err, c')) :
    StopsOn (before ++ name :: names) err := by
  induction names generalizing c t e base name before with
  | nil =>
    unfold follow at h
    rcases runOn_bind_error.mp h with h | ⟨p, c₁, h₁, h⟩
    · exact stopsOn_of_propertyAt names_eq (runOn_lift_error.mp h).1
    · obtain ⟨found, rfl⟩ := runOn_lift_ok.mp h₁
      have appended := append_of_fits sound known (propertyAt_ok.mp found) fits
      cases appended.symm.trans (runOn_lift_error.mp h).1
  | cons next names ih =>
    unfold follow at h
    rcases runOn_bind_error.mp h with h | ⟨p, c₁, h₁, h⟩
    · exact stopsOn_of_propertyAt names_eq (runOn_lift_error.mp h).1
    obtain ⟨found, rfl⟩ := runOn_lift_ok.mp h₁
    have found := propertyAt_ok.mp found
    rcases runOn_bind_error.mp h with h | ⟨u, c₂, h₂, h⟩
    · have failed := (runOn_lift_error.mp h).1
      unfold TypeRef.requiredActual at failed
      split at failed <;> cases failed
      exact .unresolved
    obtain ⟨behind, rfl⟩ := runOn_lift_ok.mp h₂
    rcases runOn_bind_error.mp h with h | ⟨target, c₃, h₃, h⟩
    · exact .entity (isOfEntity_of_requiredEntity h)
    have evolves : c.Evolves false c₃ := Evolving.requiredEntity _ _ _ h₃
    -- the entity of the property is still known after the lookup of the next one
    have appended := append_of_fits (sound.evolve evolves) (evolves.kept known) found fits
    rcases runOn_bind_error.mp h with h | ⟨longer, c₄, h₄, h⟩
    · cases appended.symm.trans (runOn_lift_error.mp h).1
    obtain ⟨longer_eq, rfl⟩ := runOn_lift_ok.mp h₄
    have fits : ∀ leaf ∈ longer.leaf?, leaf.actual = u := by
      rw [EntityPath.leaf?_append longer_eq]
      rintro _ ⟨⟩
      exact (requiredActual_ok behind).symm
    have longer_names : longer.properties.map (·.name) = before ++ [name] := by
      have name_eq : p.name = name := (sound.mem_outline known found).1
      rw [EntityPath.properties_append longer_eq, List.map_append, names_eq, List.map_singleton,
        name_eq]
    rw [List.append_cons]
    exact ih (sound.evolve evolves) (get?_of_requiredEntity h₃) fits longer_names h

/-- A source that is not resolved stops on one of its names. -/
lemma stopsOn_of_resolve (sound : c.Sound m)
    (h : (resolve source t).runOn c = some (.error err, c')) :
    StopsOn (EntityPath.namesIn source) err := by
  unfold resolve at h
  unfold EntityPath.namesIn
  split at h
  · cases h
  · rename_i nonempty
    rw [if_neg nonempty]
    split at h
    · cases h
    · rename_i name names cut
      rw [cut]
      rcases runOn_bind_error.mp h with h | ⟨e, c₁, h₁, h⟩
      · exact .entity (isOfEntity_of_requiredEntity h)
      · have evolves : c.Evolves false c₁ := Evolving.requiredEntity _ _ _ h₁
        have fits : ∀ leaf ∈ ({} : EntityPath).leaf?, leaf.actual = t := by
          rintro _ ⟨⟩
        exact stopsOn_of_follow (sound.evolve evolves) (get?_of_requiredEntity h₁) fits rfl h

/-- What is remembered does not fail. -/
lemma resolve_of_path_error (h : (ContextM.path source t).runOn c = some (.error err, c')) :
    (resolve (Text.trim source) t).runOn c = some (.error err, c') := by
  unfold ContextM.path at h
  rw [runOn_bind, runOn_get, Option.bind_some] at h
  dsimp only at h
  split at h
  · cases h
  · rcases runOn_bind_error.mp h with h | ⟨_, _, -, h⟩
    · exact h
    · cases h

end Context

/-! ### All together -/

/-- A path leads from a type along a source: it spells the source, begins with a property of the
type, and goes on with properties of the type behind the one before. Nothing leads along an empty
source. -/
structure EntityPath.LeadsAlong (path : EntityPath) (t : TypeRef) (source : String) : Prop where
  dotPath_eq : path.dotPath = source
  eq_empty : source = "" → path = {}
  base_owner : ∀ p ∈ path.base?, p.owner = t
  owner_eq : path.properties.IsChain fun p q => q.owner = p.actual

namespace Context

variable {m : Mapping} {c c' : Context} {t : TypeRef} {path : EntityPath} {source : String}

/-- A path that is traced leads along the names in its source. -/
lemma Traces.leadsAlong (sound : c.Sound m)
    (nonempty : ∀ d ∈ m.catalog.declarations, "" ∉ d.propertyNames)
    (h : c.Traces t (EntityPath.namesIn source) path.properties) : path.LeadsAlong t source where
  dotPath_eq := by
    rw [EntityPath.dotPath_eq (h.name_ne_empty sound nonempty), h.names_eq,
      EntityPath.dotted_namesIn]
  eq_empty := by
    rintro rfl
    obtain ⟨ps⟩ := path
    cases h
    rfl
  base_owner := (h.belongs sound).1
  owner_eq := (h.belongs sound).2

/-- Whatever was done on a context whose types have no properties without a name: a path that it
answers leads along its source without the blanks around it, and is answered from then on for every
source that differs in blanks around it only. If it answers no path, it is not that a property did
not belong to the path before it; and where a property was not found, the names before it and its
own are the first names of the source. -/
theorem path_settled {ops : List Operation} {r : Except Error EntityPath}
    (nonempty : ∀ d ∈ m.catalog.declarations, "" ∉ d.propertyNames)
    (before : after ops (ofMapping m) = some c)
    (asked : (ContextM.path source t).runOn c = some (r, c')) :
    (∀ path, r = .ok path → path.LeadsAlong t (Text.trim source) ∧
      ∀ more later other, after more c' = some later → Text.trim other = Text.trim source →
        (ContextM.path other t).runOn later = some (.ok path, later)) ∧
    (∀ property owner found leaf, r ≠ .error (.cannotAppend property owner found leaf)) ∧
    ∀ property owner found, r = .error (.propertyReference property owner found) →
      found ++ [property] <+: EntityPath.namesIn (Text.trim source) := by
  have sound : c.Sound m := .of_after before
  have traced : c.TracesAll := .of_after before
  have evolves : c.Evolves false c' := Evolving.path _ _ _ _ asked
  -- an error is where the walk along the names stopped, since only paths are remembered
  have stops {err : Error} (failed : r = .error err) :
      StopsOn (EntityPath.namesIn (Text.trim source)) err :=
    stopsOn_of_resolve sound (resolve_of_path_error (failed ▸ asked))
  refine ⟨?_, ?_, ?_⟩
  · rintro path rfl
    have traces := (ensures_traces_path traced _ _ asked).2 path rfl
    refine ⟨traces.leadsAlong (sound.evolve evolves) nonempty, ?_⟩
    -- the answer is remembered under the trimmed source, so other spellings of it find the same
    -- path
    intro more later other elapsed same
    have further := evolves_of_after elapsed
    have remembered := further.mem_paths (mem_paths_of_path asked)
    have traced := (traced.evolve evolves).evolve further
    exact path_of_path? (same ▸ traced.path?_eq remembered)
  · intro property owner found leaf failed
    exact (stops failed).ne_cannotAppend _ _ _ _ rfl
  · intro property owner found failed
    exact (stops failed).isPrefix

/-- The subjects of the letters in a mailbox are answered again, with blanks around the source. -/
theorem path_settled_subjects : (∀ d ∈ Sample.mailing.catalog.declarations, "" ∉ d.propertyNames) ∧
    ∃ c c' path, after [.lookup (.entity Sample.mailbox)] (.ofMapping Sample.mailing) = some c ∧
      (ContextM.path "items.subject" Sample.mailbox).runOn c = some (.ok path, c') ∧
      path.LeadsAlong Sample.mailbox "items.subject" ∧
      (ContextM.path " items.subject " Sample.mailbox).runOn c' = some (.ok path, c') := by
  have nonempty : ∀ d ∈ Sample.mailing.catalog.declarations, "" ∉ d.propertyNames := by
    decide +kernel
  obtain ⟨c, c', before, asked⟩ := Sample.subjects_answered
  have trimmed : Text.trim "items.subject" = "items.subject" := rfl
  have surrounded : Text.trim " items.subject " = Text.trim "items.subject" := rfl
  rw [Sample.subjects_request] at asked
  obtain ⟨leads, stays⟩ := (path_settled nonempty before asked).1 _ rfl
  rw [trimmed] at leads
  exact ⟨nonempty, c, c', _, before, asked, leads, stays [] c' _ rfl surrounded⟩

end Context

end EntityModel
