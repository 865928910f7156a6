import EntityModel.Proofs.Context.Following

/-!
# Paths that contexts give

Contexts resolve paths and list them. Every property on such a path is one of an entity that the
context knows (`Context.Lists`), also when the path was resolved earlier and is remembered since
(`Context.Recalls`). So all properties of given paths can be read (`EntityPath.IsGiven.isRead`).
-/

namespace EntityModel

/-! ### Readable properties -/

/-- A property that can be read: there is a field behind it, or a getter. -/
def EntityProperty.IsRead (p : EntityProperty) : Prop :=
  p.backing.isFieldBacked = true ∨ p.backing.hasGetter = true

namespace Mapping

variable {m : Mapping} {t : TypeRef} {decl : TypeDecl} {ps : List EntityProperty}
  {p : EntityProperty}

/-- What is paired up with fields is backed by fields. -/
lemma isFieldBacked_of_mem_pairUp {fields : List FieldDecl} {accessors : List AccessorDecl}
    {b : Backing} (hb : b ∈ (pairUp fields accessors).1) : b.isFieldBacked = true := by
  induction fields generalizing accessors with
  | nil => cases hb
  | cons f fields ih =>
    rcases List.mem_cons.mp hb with rfl | hb
    · rfl
    · exact ih hb

/-- What backs a property without a field has a getter. -/
lemma isRead_of_outline (h : m.outline t = .ok (decl, ps)) (hp : p ∈ ps) : p.IsRead := by
  obtain ⟨bs, hbs, made⟩ := bind_eq_ok.mp (outline_eq_ok h).2
  cases made
  obtain ⟨b, hb, rfl⟩ := List.mem_map.mp (List.mem_filter.mp hp).1
  obtain ⟨fields, -, hbs⟩ := bind_eq_ok.mp hbs
  obtain ⟨accessors, -, hbs⟩ := bind_eq_ok.mp hbs
  cases hbs
  rcases List.mem_append.mp hb with paired | alone
  · exact .inl (isFieldBacked_of_mem_pairUp paired)
  · obtain ⟨a, ha, rfl⟩ := List.mem_map.mp alone
    have standalone := (List.mem_filter.mp ha).2
    rw [Bool.and_eq_true] at standalone
    exact .inr standalone.1

end Mapping

/-! ### Listed paths -/

open ContextM

namespace Context

variable {m : Mapping} {forced : Bool} {c c' : Context} {t : TypeRef} {e : Entity}
  {p : EntityProperty} {path base : EntityPath}

/-- A property of an entity that a context knows. -/
def Offers (c : Context) (p : EntityProperty) : Prop :=
  ∃ t e, c.table.get? t = some (some e) ∧ (p ∈ e.added ∨ p ∈ e.persistent)

/-- A path of properties that a context offers. -/
def Lists (c : Context) (path : EntityPath) : Prop :=
  ∀ p ∈ path.properties, c.Offers p

def ListsAll (c : Context) (paths : List EntityPath) : Prop :=
  ∀ path ∈ paths, c.Lists path

/-- The paths that a context remembers are made of properties that it offers. -/
def Recalls (c : Context) : Prop :=
  ∀ entry ∈ c.paths, c.Lists entry.2

/-- A property that is offered stays offered. -/
lemma Offers.evolve (h : c.Offers p) (evolves : c.Evolves forced c') : c'.Offers p := by
  obtain ⟨t, e, found, mem⟩ := h
  exact ⟨t, e, evolves.kept found, mem⟩

/-- A path of offered properties stays one. -/
lemma Lists.evolve (h : c.Lists path) (evolves : c.Evolves forced c') : c'.Lists path :=
  fun p hp => (h p hp).evolve evolves

/-- Names are followed by properties that are offered. -/
lemma Traces.offers {names : List String} {ps : List EntityProperty} (h : c.Traces t names ps) :
    ∀ p ∈ ps, c.Offers p := by
  induction h with
  | nil => exact List.forall_mem_nil _
  | cons known named _ ih =>
    have first : c.Offers _ := ⟨_, _, known, .inl (List.mem_of_find?_eq_some named)⟩
    exact List.forall_mem_cons.mpr ⟨first, ih⟩

/-- The empty path is made of offered properties. -/
lemma Lists.empty : c.Lists {} := by
  intro p hp
  cases hp

/-- No paths are all made of offered properties. -/
lemma ListsAll.none : c.ListsAll [] := by
  intro path hpath
  cases hpath

/-- A path that an offered property is appended to is made of offered ones. -/
lemma ensures_append (listed : c.Lists base) (offers : c.Offers p) :
    Ensures c (liftM (base.append p)) fun path c' => c'.Lists path := by
  refine .lift fun path appended q hq => ?_
  rw [EntityPath.properties_append appended] at hq
  rcases List.mem_append.mp hq with hq | hq
  · exact listed q hq
  · rwa [List.mem_singleton.mp hq]

/-- The candidates of an entity in the table are offered. -/
lemma offers_of_mem_candidates (found : c.table.get? t = some (some e))
    (hp : p ∈ candidates e) : c.Offers p := by
  rcases List.mem_append.mp hp with persistent | association
  · exact ⟨t, e, found, .inr persistent⟩
  · obtain ⟨a, -, named⟩ := List.mem_filterMap.mp association
    exact ⟨t, e, found, .inl (List.mem_of_find?_eq_some named)⟩

/-! ### Resolved paths -/

/-- Whatever was asked before, the paths that a context remembers are made of offered properties. -/
lemma Recalls.of_after {ops : List Operation} (h : after ops (ofMapping m) = some c) :
    c.Recalls :=
  fun entry remembered => (TracesAll.of_after h entry remembered).offers

/-- A path that is answered is made of offered properties, whether it was remembered or not. -/
lemma ensures_path (recalls : c.Recalls) {source : String} :
    Ensures c (ContextM.path source t) fun path c' => c'.Lists path := by
  refine .of_ok (Evolving.path source) fun path c' h => ?_
  rcases path_ok h with ⟨remembered, rfl⟩ | ⟨c₁, resolved, rfl⟩
  · exact recalls _ remembered
  · exact ((ensures_traces_resolve _ _ resolved).2 _ rfl).offers

/-! ### Listings -/

/-- A walk goes on through the candidates of an entity if it does so behind each of them. -/
lemma ensures_pathsFrom {accepts : EntityProperty → Bool} (listed : c.Lists base) :
    Ensures c (ExceptT.mk fun c => c.pathsFrom accepts t base) fun paths c' =>
      c'.ListsAll paths := by
  intro r c' h
  -- the walk is a partial fixed point, so what it finds is right by induction on its approximations
  refine Context.pathsFrom.partial_correctness accepts
    (fun c _ base o => c.Lists base → c.Evolves false o.2 ∧
      ∀ paths, o.1 = .ok paths → o.2.ListsAll paths) ?_ c t base (r, c') h listed
  intro walk ih c t base o h listed
  refine Ensures.run (P := fun paths c' => c'.ListsAll paths) ?_ h
  refine ensures_entity?.bind fun answer c₁ first known => ?_
  cases answer with
  | none => exact .pure .none
  | some e =>
    refine (Ensures.mapM (Q := fun paths c' => c'.ListsAll paths) ?_ ?_).bind
      fun found c₂ _ each => .pure ?_
    · exact fun paths _ _ later each path hp => (each path hp).evolve later
    · intro p hp c' later
      split
      · exact .pure .none
      · have offers := (offers_of_mem_candidates known hp).evolve later
        have listed := listed.evolve (first.trans later)
        refine (ensures_append listed offers).bind fun path c₂ _ further => ?_
        -- the path that ends here is one of the paths if it is accepted, whatever is found behind
        -- it
        have end_here {paths : List EntityPath} {c₃ : Context} (third : c₂.Evolves false c₃)
            (each : c₃.ListsAll paths) :
            c₃.ListsAll (if accepts p then path :: paths else paths) := by
          split
          · exact List.forall_mem_cons.mpr ⟨further.evolve third, each⟩
          · exact each
        dsimp only
        split
        -- behind an entity property the walk goes on, with the path up to here as its base
        · refine Ensures.bind (P := fun paths c' => c'.ListsAll paths) ?_
            fun paths c₃ third each => .pure (end_here third each)
          exact fun r c' h => ih c₂ p.actual path (r, c') h further
        · refine (Ensures.pure (P := fun paths _ => paths = []) rfl).bind
            fun paths c₃ third none_further => ?_
          subst none_further
          exact .pure (end_here third .none)
    · intro path hp
      obtain ⟨paths, hpaths, hp⟩ := List.mem_flatten.mp hp
      exact each paths hpaths path hp

/-- The paths that are found by a search are made of offered properties. -/
lemma ensures_findPaths {accepts : EntityProperty → Bool} :
    Ensures c (findPaths accepts t) fun paths c' => c'.ListsAll paths := by
  unfold findPaths
  refine (ensures_pathsFrom .empty).bind fun paths c₁ _ each => .pure fun path hp => ?_
  exact each path ((List.mergeSort_perm _ _).mem_iff.mp hp)

/-- What a sound context offers can be read. -/
lemma Sound.isRead (sound : c.Sound m) (offers : c.Offers p) : p.IsRead := by
  obtain ⟨t, e, found, mem⟩ := offers
  have built := sound.built t e found
  have listed := Mapping.build_isListed built
  obtain ⟨decl, ps, outlined, hp⟩ :=
    Mapping.mem_outline_of_build built (mem.elim (listed.added p) (listed.persistent p))
  exact Mapping.isRead_of_outline outlined hp

end Context

/-! ### Given paths -/

/-- What contexts are asked for paths by. -/
inductive PathRequest where
  | path (source : String) (t : TypeRef)
  | pathOf (p : PropertyPath)
  | listed (accepts : EntityProperty → Bool) (t : TypeRef)

def PathRequest.run : PathRequest → ContextM (List EntityPath)
  | path source t => return [← ContextM.path source t]
  | pathOf p => return [← ContextM.pathOf p]
  | listed accepts t => ContextM.findPaths accepts t

/-- A path that some context gives, whatever was done on it before. -/
def EntityPath.IsGiven (path : EntityPath) : Prop :=
  ∃ m ops c request paths c', Context.after ops (.ofMapping m) = some c ∧
    (PathRequest.run request).runOn c = some (.ok paths, c') ∧ path ∈ paths

/-- A path that was not asked for before is given if it can be resolved. -/
lemma EntityPath.IsGiven.of_resolve {m : Mapping} {ops : List Operation} {c c' : Context}
    {source : String} {t : TypeRef} {path : EntityPath}
    (before : Context.after ops (.ofMapping m) = some c)
    (absent : c.path? t (Text.trim source) = none)
    (resolved : (resolve (Text.trim source) t).runOn c = some (.ok path, c')) : path.IsGiven :=
  ⟨m, ops, c, .path source t, [path], _, before,
    runOn_bind_ok.mpr ⟨path, _, path_of_resolve absent resolved, rfl⟩,
    List.mem_singleton_self path⟩

/-- However paths are requested, they are made of offered properties. -/
lemma PathRequest.ensures_run {c : Context} (recalls : c.Recalls) (request : PathRequest) :
    Ensures c request.run fun paths c' => c'.ListsAll paths := by
  cases request with
  | path | pathOf =>
    refine (Context.ensures_path recalls).bind fun path c' _ listed => .pure ?_
    exact List.forall_mem_singleton.mpr listed
  | listed => exact Context.ensures_findPaths

/-- All properties on the paths that contexts give can be read. -/
theorem EntityPath.IsGiven.isRead {path : EntityPath} (given : path.IsGiven)
    {p : EntityProperty} (hp : p ∈ path.properties) : p.IsRead := by
  obtain ⟨m, ops, c, request, paths, c', before, answered, mem⟩ := given
  obtain ⟨evolves, listed⟩ := request.ensures_run (.of_after before) _ _ answered
  have sound : c'.Sound m := (Context.Sound.of_after before).evolve evolves
  exact sound.isRead (listed paths rfl path mem p hp)

end EntityModel
