import EntityModel.Proofs.Context.Operation

/-!
# Derivations of path searches

The course of a path search as a pair of relations, `Searches` for what lies behind a type and
`Tries` for the properties that an entity offers, with one rule for each way in which the search can
go. Both keep a record of the lookups that were made. `pathsFrom_iff` shows that derivations are
what `pathsFrom` computes.
-/

namespace EntityModel

open ContextM

/-- Mapping an outcome leaves it a success or a failure. -/
lemma map_eq_ok {ε α β : Type} {f : α → β} {x : Except ε α} {b : β} :
    x.map f = .ok b ↔ ∃ a, x = .ok a ∧ f a = b := by
  cases x with
  | error err => exact ⟨nofun, nofun⟩
  | ok a => exact ⟨fun h => ⟨a, rfl, Except.ok.inj h⟩, fun ⟨_, ha, h⟩ => by cases ha; cases h; rfl⟩

/-- The entities that were looked up, in order, and what was answered. -/
abbrev LookupRecord := List (TypeRef × Except Error (Option Entity))

namespace Context

/-- The paths that a property which ends `path` contributes by itself. -/
def ending (accepts : EntityProperty → Bool) (p : EntityProperty) (path : EntityPath) :
    List EntityPath :=
  if accepts p then [path] else []

mutual

/-- A search for paths that continue a base into a type. -/
inductive Searches (accepts : EntityProperty → Bool) : Context → TypeRef → EntityPath →
    LookupRecord → Except Error (List EntityPath) → Context → Prop where
  | failed {c t base err c'} :
    (entity? t.actual).runOn c = some (.error err, c') →
    Searches accepts c t base [(t.actual, .error err)] (.error err) c'
  | nowhere {c t base c'} :
    (entity? t.actual).runOn c = some (.ok none, c') →
    Searches accepts c t base [(t.actual, .ok none)] (.ok []) c'
  | through {c t base e c₁ lookups r c'} :
    (entity? t.actual).runOn c = some (.ok (some e), c₁) →
    Tries accepts c₁ (candidates e) base lookups r c' →
    Searches accepts c t base ((t.actual, .ok (some e)) :: lookups) r c'

/-- A search for paths that continue a base by one of the given properties. -/
inductive Tries (accepts : EntityProperty → Bool) : Context → List EntityProperty → EntityPath →
    LookupRecord → Except Error (List EntityPath) → Context → Prop where
  | nil {c base} :
    Tries accepts c [] base [] (.ok []) c
  | passed {c p ps base lookups r c'} :
    base.passes p.actual = true →
    Tries accepts c ps base lookups r c' →
    Tries accepts c (p :: ps) base lookups r c'
  | refused {c p ps base err} :
    base.passes p.actual = false →
    base.append p = .error err →
    Tries accepts c (p :: ps) base [] (.error err) c
  | leaf {c p ps base path lookups r c'} :
    base.passes p.actual = false →
    base.append p = .ok path →
    p.isEntity = false →
    Tries accepts c ps base lookups r c' →
    Tries accepts c (p :: ps) base lookups (r.map fun rest => ending accepts p path ++ rest) c'
  | further {c p ps base path lookups found c₁ lookups' r c'} :
    base.passes p.actual = false →
    base.append p = .ok path →
    p.isEntity = true →
    Searches accepts c p.actual path lookups (.ok found) c₁ →
    Tries accepts c₁ ps base lookups' r c' →
    Tries accepts c (p :: ps) base (lookups ++ lookups')
      (r.map fun rest => ending accepts p path ++ found ++ rest) c'
  | broken {c p ps base path lookups err c'} :
    base.passes p.actual = false →
    base.append p = .ok path →
    p.isEntity = true →
    Searches accepts c p.actual path lookups (.error err) c' →
    Tries accepts c (p :: ps) base lookups (.error err) c'

end

/-- The paths that continue a base by a property, if `walk` finds those that lead further. -/
def behind (accepts : EntityProperty → Bool)
    (walk : Context → TypeRef → EntityPath → Option (Except Error (List EntityPath) × Context))
    (base : EntityPath) (p : EntityProperty) : ContextM (List EntityPath) := do
  if base.passes p.actual then return []
  else
    let path ← base.append p
    let further ← if p.isEntity then
        (fun c => walk c p.actual path : ContextM (List EntityPath))
      else pure []
    return (if accepts p then path :: further else further)

variable {accepts : EntityProperty → Bool} {c c' : Context} {t : TypeRef} {base : EntityPath}
  {p : EntityProperty} {ps : List EntityProperty} {r : Except Error (List EntityPath)}
  {walk : Context → TypeRef → EntityPath → Option (Except Error (List EntityPath) × Context)}

/-- A search looks up the entity, and then tries the properties that it offers. -/
lemma pathsFrom_eq : c.pathsFrom accepts t base = (do
    match ← entity? t.actual with
    | none => return []
    | some e =>
      let found ← (candidates e).mapM (behind accepts (pathsFrom · accepts) base)
      return found.flatten : ContextM (List EntityPath)).runOn c := by
  rw [pathsFrom]
  rfl

/-- The ways in which a property is tried. -/
lemma runOn_behind : (behind accepts walk base p).runOn c =
    if base.passes p.actual then some (.ok [], c)
    else
      match base.append p with
      | .error err => some (.error err, c)
      | .ok path =>
        if p.isEntity then
          (walk c p.actual path).map fun o => (o.1.map (ending accepts p path ++ ·), o.2)
        else some (.ok (ending accepts p path), c) := by
  unfold behind ending
  cases base.passes p.actual with
  | true => rfl
  | false =>
    simp only [Bool.false_eq_true, if_false]
    rw [runOn_bind, runOn_lift, Option.bind_some]
    cases base.append p with
    | error err => rfl
    | ok path =>
      dsimp only
      cases p.isEntity with
      | false => cases accepts p <;> rfl
      | true =>
        simp only [if_true]
        rw [runOn_bind]
        -- what the walk finds stands behind the path that ends here, if that is accepted
        show (walk c p.actual path).bind _ = _
        rw [Option.map_eq_bind]
        congr 1
        funext ⟨r, c'⟩
        cases r <;> cases accepts p <;> rfl

/-- The first property is tried before the others. -/
lemma runOn_tries_cons :
    ((p :: ps).mapM (behind accepts walk base)).runOn c =
      ((behind accepts walk base p).runOn c).bind fun
        | (.ok found, c₁) =>
          ((ps.mapM (behind accepts walk base)).runOn c₁).map fun o => (o.1.map (found :: ·), o.2)
        | (.error err, c₁) => some (.error err, c₁) := by
  rw [List.mapM_cons, runOn_bind]
  congr 1
  funext ⟨first, c₁⟩
  cases first with
  | error err => rfl
  | ok found =>
    dsimp only
    rw [runOn_bind, Option.map_eq_bind]
    congr 1
    funext ⟨rest, c₂⟩
    cases rest <;> rfl

/-- A property that can be tried puts its paths before those of the others. -/
lemma runOn_tries_ok {found : List EntityPath} {c₁ : Context}
    {rest : Except Error (List (List EntityPath))}
    (first : (behind accepts walk base p).runOn c = some (.ok found, c₁))
    (run : (ps.mapM (behind accepts walk base)).runOn c₁ = some (rest, c')) :
    ((p :: ps).mapM (behind accepts walk base)).runOn c = some (rest.map (found :: ·), c') := by
  rw [runOn_tries_cons, first]
  dsimp only [Option.bind_some]
  rw [run]
  rfl

/-- The paths through one property come before those through the others when all are joined. -/
lemma flatten_cons (found : List EntityPath) (rest : Except Error (List (List EntityPath))) :
    (rest.map (found :: ·)).map List.flatten = (rest.map List.flatten).map (found ++ ·) := by
  cases rest <;> rfl

/-- Trying properties has a derivation if what the walk behind them finds has one. -/
lemma tries_of_run {r : Except Error (List (List EntityPath))}
    (ih : ∀ c t path o, walk c t path = some o →
      ∃ lookups, Searches accepts c t path lookups o.1 o.2)
    (h : (ps.mapM (behind accepts walk base)).runOn c = some (r, c')) :
    ∃ lookups, Tries accepts c ps base lookups (r.map List.flatten) c' := by
  induction ps generalizing c r with
  | nil =>
    cases h
    exact ⟨[], .nil⟩
  | cons p ps ihps =>
    -- the first property is passed over, refused, ends a path, or leads further
    rw [runOn_tries_cons, runOn_behind] at h
    split at h
    case isTrue passed =>
      obtain ⟨⟨rest, c₂⟩, run, h⟩ := Option.map_eq_some_iff.mp h
      cases h
      obtain ⟨lookups, tries⟩ := ihps run
      refine ⟨lookups, ?_⟩
      rw [flatten_cons]
      cases rest <;> exact .passed passed tries
    case isFalse passed =>
      have fresh := Bool.eq_false_iff.mpr passed
      split at h
      case h_1 err refused =>
        cases h
        exact ⟨[], .refused fresh refused⟩
      case h_2 path appended =>
        split at h
        case isFalse leaf =>
          obtain ⟨⟨rest, c₂⟩, run, h⟩ := Option.map_eq_some_iff.mp h
          cases h
          obtain ⟨lookups, tries⟩ := ihps run
          refine ⟨lookups, ?_⟩
          rw [flatten_cons]
          exact .leaf fresh appended (Bool.eq_false_iff.mpr leaf) tries
        case isTrue entity =>
          obtain ⟨first, walked, h⟩ := Option.bind_eq_some_iff.mp h
          obtain ⟨⟨further, c₁⟩, found, rfl⟩ := Option.map_eq_some_iff.mp walked
          obtain ⟨lookups, searched⟩ := ih _ _ _ _ found
          -- an error below ends the search at this property
          cases further with
          | error err =>
            cases h
            exact ⟨lookups, .broken fresh appended entity searched⟩
          | ok further =>
            obtain ⟨⟨rest, c₂⟩, run, h⟩ := Option.map_eq_some_iff.mp h
            cases h
            obtain ⟨lookups', tries⟩ := ihps run
            refine ⟨lookups ++ lookups', ?_⟩
            rw [flatten_cons]
            exact .further fresh appended entity searched tries

/-- What is computed has a derivation. -/
lemma searches_of_run (h : c.pathsFrom accepts t base = some (r, c')) :
    ∃ lookups, Searches accepts c t base lookups r c' := by
  -- the walk is a partial fixed point, so this holds of it if it holds of each approximation
  refine pathsFrom.partial_correctness accepts
    (fun c t base o => ∃ lookups, Searches accepts c t base lookups o.1 o.2) ?_ c t base (r, c') h
  intro walk ih c t base o h
  change ((do
    match ← entity? t.actual with
    | none => return []
    | some e =>
      let found ← (candidates e).mapM (behind accepts walk base)
      return found.flatten : ContextM (List EntityPath)).runOn c) = some o at h
  rw [runOn_bind] at h
  obtain ⟨⟨answer, c₁⟩, looked, h⟩ := Option.bind_eq_some_iff.mp h
  rcases answer with err | (_ | e)
  · cases h
    exact ⟨_, .failed looked⟩
  · cases h
    exact ⟨_, .nowhere looked⟩
  · dsimp only at h
    rw [runOn_bind] at h
    obtain ⟨⟨found, c₂⟩, run, h⟩ := Option.bind_eq_some_iff.mp h
    obtain ⟨lookups, tries⟩ := tries_of_run ih run
    cases found <;> cases h <;> exact ⟨_, .through looked tries⟩

/-- What has a derivation is computed. -/
lemma Searches.run {lookups} (h : Searches accepts c t base lookups r c') :
    c.pathsFrom accepts t base = some (r, c') := by
  -- trying properties collects a list of paths for each of them, which the search then joins
  induction h using Searches.rec (motive_2 := fun c ps base _ r c' _ =>
    ∃ found, (ps.mapM (behind accepts (pathsFrom · accepts) base)).runOn c = some (found, c') ∧
      r = found.map List.flatten) with
  | failed looked =>
    rw [pathsFrom_eq, runOn_bind, looked]
    rfl
  | nowhere looked =>
    rw [pathsFrom_eq, runOn_bind, looked]
    rfl
  | through looked _ ih =>
    obtain ⟨found, run, rfl⟩ := ih
    rw [pathsFrom_eq, runOn_bind, looked]
    dsimp only [Option.bind_some]
    rw [runOn_bind, run]
    cases found <;> rfl
  | nil => exact ⟨.ok [], rfl, rfl⟩
  | @passed c p _ base _ _ _ passed _ ih =>
    obtain ⟨found, run, rfl⟩ := ih
    have first : (behind accepts (pathsFrom · accepts) base p).runOn c = some (.ok [], c) := by
      rw [runOn_behind, if_pos passed]
    refine ⟨_, runOn_tries_ok first run, ?_⟩
    cases found <;> rfl
  | @refused c p ps base err fresh refused =>
    have first : (behind accepts (pathsFrom · accepts) base p).runOn c = some (.error err, c) := by
      simp only [runOn_behind, fresh, refused, Bool.false_eq_true, if_false]
    refine ⟨.error err, ?_, rfl⟩
    rw [runOn_tries_cons, first]
    rfl
  | @leaf c p _ base path _ _ _ fresh appended leaf _ ih =>
    obtain ⟨found, run, rfl⟩ := ih
    have first : (behind accepts (pathsFrom · accepts) base p).runOn c =
        some (.ok (ending accepts p path), c) := by
      simp only [runOn_behind, fresh, appended, leaf, Bool.false_eq_true, if_false]
    exact ⟨_, runOn_tries_ok first run, (flatten_cons _ found).symm⟩
  | @further c p _ base path _ further c₁ _ _ _ fresh appended entity _ _ searched ih =>
    obtain ⟨found, run, rfl⟩ := ih
    have first : (behind accepts (pathsFrom · accepts) base p).runOn c =
        some (.ok (ending accepts p path ++ further), c₁) := by
      simp only [runOn_behind, fresh, appended, entity, searched, Bool.false_eq_true, if_false,
        if_true]
      rfl
    exact ⟨_, runOn_tries_ok first run, (flatten_cons _ found).symm⟩
  | @broken c p ps base path _ err c' fresh appended entity _ searched =>
    have first : (behind accepts (pathsFrom · accepts) base p).runOn c = some (.error err, c') := by
      simp only [runOn_behind, fresh, appended, entity, searched, Bool.false_eq_true, if_false,
        if_true]
      rfl
    refine ⟨.error err, ?_, rfl⟩
    rw [runOn_tries_cons, first]
    rfl

/-- Derivations are what is computed. -/
theorem pathsFrom_iff : c.pathsFrom accepts t base = some (r, c') ↔
    ∃ lookups, Searches accepts c t base lookups r c' :=
  ⟨searches_of_run, fun ⟨_, searches⟩ => searches.run⟩

/-- A search changes a context only as operations do. -/
lemma Searches.evolves {forced : Bool} {lookups} (h : Searches accepts c t base lookups r c') :
    c.Evolves forced c' :=
  Evolving.pathsFrom accepts base c r c' h.run

/-- Trying properties changes a context only as operations do. -/
lemma Tries.evolves {forced : Bool} {lookups} (h : Tries accepts c ps base lookups r c') :
    c.Evolves forced c' := by
  induction h using Tries.rec (motive_1 := fun _ _ _ _ _ _ _ => True) with
  | failed | nowhere | through => trivial
  | nil | refused => exact .refl
  | passed _ _ ih => exact ih
  | leaf _ _ _ _ ih => exact ih
  | further _ _ _ searches _ _ ih => exact searches.evolves.trans ih
  | broken _ _ _ searches => exact searches.evolves

end Context

end EntityModel
