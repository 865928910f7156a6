import EntityModel.Proofs.Context.Closure
import EntityModel.Proofs.Context.Following
import EntityModel.Proofs.Search.Derivation

/-!
# Path searches end

A search goes on from a type to the types behind the entity properties of its entity
(`Context.Follows`). If it can get to finitely many types only, it has an outcome
(`Context.exists_searches`), whether these lead back to each other or not: a type that is followed
is passed by all paths that go on from there, so fewer types are left to follow.
-/

namespace EntityModel

namespace Entity

variable {e : Entity} {p : EntityProperty}

/-- The properties that an entity offers are among its own. -/
lemma mem_properties_of_candidates (listed : e.IsListed) (hp : p ∈ ContextM.candidates e) :
    p ∈ e.properties := by
  rcases List.mem_append.mp hp with persistent | association
  · exact listed.persistent p persistent
  · obtain ⟨a, -, named⟩ := List.mem_filterMap.mp association
    exact listed.added p (List.mem_of_find?_eq_some named)

end Entity

namespace TypeRef

/-- A named type has nothing to unwrap. -/
lemma actual_of_isNamed {t : TypeRef} (named : t.isNamed = true) : t.actual = t := by
  cases t <;> first | rfl | cases named

end TypeRef

namespace EntityPath

variable {base path : EntityPath} {p : EntityProperty} {S : Finset TypeRef}

/-- A longer path passes what the shorter one did, and the type behind its last property. -/
lemma passes_append (appended : base.append p = .ok path) (t : TypeRef) :
    path.passes t = (base.passes t || decide (p.actual = t)) := by
  unfold passes
  rw [properties_append appended, List.any_append]
  simp

/-- The given types that are behind no property of a path. -/
def ahead (path : EntityPath) (S : Finset TypeRef) : Finset TypeRef :=
  S.filter fun u => path.passes u = false

/-- A path that is continued to a new type has fewer types ahead. -/
lemma ahead_card_lt (appended : base.append p = .ok path) (hp : p.actual ∈ S)
    (fresh : base.passes p.actual = false) : (path.ahead S).card < (base.ahead S).card := by
  refine Finset.card_lt_card (Finset.ssubset_iff_of_subset ?_ |>.mpr ⟨p.actual, ?_, ?_⟩)
  · intro u hu
    obtain ⟨hS, ahead⟩ := Finset.mem_filter.mp hu
    rw [passes_append appended, Bool.or_eq_false_iff] at ahead
    exact Finset.mem_filter.mpr ⟨hS, ahead.1⟩
  · exact Finset.mem_filter.mpr ⟨hp, fresh⟩
  · intro passed
    obtain ⟨-, passed⟩ := Finset.mem_filter.mp passed
    rw [passes_append appended] at passed
    simp at passed

end EntityPath

open ContextM

namespace Context

variable {m : Mapping} {c c' : Context} {t u : TypeRef} {e : Entity} {p : EntityProperty}

/-! ### Types that may have entities -/

/-- A type has an entity, or may get one. -/
def MayHaveEntity (c : Context) (t : TypeRef) : Prop :=
  c.mapping.isEligible t = true ∨ ∃ e, c.table.get? t = some (some e)

/-- Everything that a discovery reaches from an eligible type is eligible. -/
lemma eligible_of_reaches (eligible : m.isEligible t = true) (reach : m.Reaches t u) :
    m.isEligible u = true := by
  cases reach with
  | refl => exact eligible
  | tail _ leads => exact leads.eligible

/-- No step makes a new type one that may have an entity. -/
lemma Step.mayHaveEntity (step : Step false c c') (h : c'.MayHaveEntity t) :
    c.MayHaveEntity t := by
  cases step with
  | refused absent _ =>
    exact h.imp_right fun ⟨e, found⟩ => ⟨e, (EntityTable.get?_set_none_iff absent).mp found⟩
  | @visited u r d allowed vis =>
    rcases h with eligible | ⟨e, found⟩
    · exact .inl eligible
    · obtain ⟨new, g⟩ := vis.grows
      rcases (g.get?_iff t _).mp found with before | ⟨e', he', rfl, -⟩
      · exact .inr ⟨e, before⟩
      · -- what the discovery of an eligible type makes is eligible
        have entered := EntityTable.contains_eq_true.mpr ⟨_, found⟩
        have reach := vis.reaches_of_new _ (g.fresh e' he') entered
        have eligible := (allowed.resolve_left Bool.false_ne_true).1
        exact .inl (eligible_of_reaches eligible reach)
  | remembered | reported | listened => exact h

/-- Operations make no new type one that may have an entity. -/
lemma Evolves.mayHaveEntity (evolves : c.Evolves false c') (h : c'.MayHaveEntity t) :
    c.MayHaveEntity t := by
  induction evolves with
  | refl => exact h
  | tail _ step ih => exact ih (step.mayHaveEntity h)

/-! ### Following types -/

/-- A search goes on from a type to a type behind an entity property of its entity. -/
def Follows (c : Context) (t u : TypeRef) : Prop :=
  c.MayHaveEntity t.actual ∧ ∃ decl ps, c.mapping.outline t.actual = .ok (decl, ps) ∧
    ∃ p ∈ ps, p.isEntity = true ∧ u = p.actual

/-- The types to which a search gets from a type. -/
def Reaches (c : Context) : TypeRef → TypeRef → Prop :=
  Relation.ReflTransGen c.Follows

/-- Whatever can be followed after operations could be followed before. -/
lemma Follows.of_evolved (evolves : c.Evolves false c') (h : c'.Follows t u) : c.Follows t u := by
  obtain ⟨may, outlined⟩ := h
  rw [evolves.mapping_eq] at outlined
  exact ⟨evolves.mayHaveEntity may, outlined⟩

/-- The types behind the entity properties of a known entity can be followed. -/
lemma Sound.follows (sound : c.Sound m) (found : c.table.get? t.actual = some (some e))
    (hp : p ∈ candidates e) (entity : p.isEntity = true) : c.Follows t p.actual := by
  have hm := sound.mapping_eq
  subst hm
  have built := sound.built t.actual e found
  have listed := Mapping.build_isListed built
  obtain ⟨decl, ps, outlined, hps⟩ :=
    Mapping.mem_outline_of_build built (Entity.mem_properties_of_candidates listed hp)
  exact ⟨.inr ⟨e, found⟩, decl, ps, outlined, p, hps, entity, rfl⟩

/-- What a discovery reaches from an eligible type is followed by searches, too. -/
lemma follows_of_leadsTo (eligible : c.mapping.isEligible t.actual = true)
    (leads : c.mapping.LeadsTo t.actual u) : c.Follows t u := by
  obtain ⟨decl, ps, outlined, p, hp, nested⟩ := leads
  obtain ⟨entity, -, -, rfl⟩ := (Mapping.nestedType?_eq_some outlined hp).mp nested
  exact ⟨.inl eligible, decl, ps, outlined, p, hp, entity, rfl⟩

/-- Only named types are eligible. -/
lemma isNamed_of_isEligible (eligible : m.isEligible t = true) : t.isNamed = true := by
  unfold Mapping.isEligible at eligible
  simp only [Bool.and_eq_true] at eligible
  exact eligible.1.1

/-- A discovery of an eligible type reaches only the type and what searches get to from it. -/
lemma reaches_of_eligible (eligible : c.mapping.isEligible t.actual = true)
    (reach : c.mapping.Reaches t.actual u) : u = t.actual ∨ c.Reaches t u := by
  induction reach with
  | refl => exact .inl rfl
  | @tail v w before leads ih =>
    right
    have step : c.mapping.isEligible v = true := eligible_of_reaches eligible before
    rcases ih with rfl | followed
    · exact .single (follows_of_leadsTo eligible leads)
    · refine followed.tail (follows_of_leadsTo ?_ ?_) <;>
        rwa [TypeRef.actual_of_isNamed (isNamed_of_isEligible step)]

/-! ### Searches -/

section Finite

variable {S : Finset TypeRef} (closed : ∀ t ∈ S, ∀ u, c.Follows t u → u ∈ S)

include closed

/-- A set that is closed holds all that is reached from its types. -/
lemma mem_of_reaches (ht : t ∈ S) (reach : c.Reaches t u) : u ∈ S := by
  induction reach with
  | refl => exact ht
  | tail _ follows ih => exact closed _ ih _ follows

/-- Among finitely many types every lookup ends. -/
lemma exists_lookup (ht : t ∈ S) : ∃ r c', (entity? t.actual).runOn c = some (r, c') := by
  cases found : c.table.get? t.actual with
  | some answer =>
    have yields : EntityLookup.Yields c (.entity t.actual) (.ok answer) c := .answered found
    exact ⟨_, _, yields.run⟩
  | none =>
    cases eligible : c.mapping.isEligible t.actual with
    | false =>
      have yields : EntityLookup.Yields c (.entity t.actual) (.ok none) _ :=
        .refused found eligible
      exact ⟨_, _, yields.run⟩
    | true =>
      have finite : {u | c.mapping.Reaches t.actual u}.Finite := by
        refine (insert t.actual S).finite_toSet.subset fun u reach => ?_
        apply Finset.mem_insert.mpr
        exact (reaches_of_eligible eligible reach).imp_right (mem_of_reaches closed ht)
      have ends : ∃ r c', (EntityLookup.entity t.actual).run.runOn c = some (r, c') :=
        exists_run finite
      exact ends

end Finite

variable {accepts : EntityProperty → Bool} {S : Finset TypeRef}

/-- Properties are tried to the end if the types behind them are searched to the end. -/
lemma exists_tries {n : Nat}
    (searches : ∀ c', c.Evolves false c' → ∀ u ∈ S, ∀ path : EntityPath, (path.ahead S).card < n →
      ∃ lookups r c'', Searches accepts c' u path lookups r c'')
    {ps : List EntityProperty} {base : EntityPath} (evolves : c.Evolves false c')
    (behind : ∀ p ∈ ps, p.isEntity = true → p.actual ∈ S) (small : (base.ahead S).card ≤ n) :
    ∃ lookups r c'', Tries accepts c' ps base lookups r c'' := by
  induction ps generalizing c' with
  | nil => exact ⟨_, _, _, .nil⟩
  | cons p ps ih =>
    obtain ⟨first, others⟩ := List.forall_mem_cons.mp behind
    cases fresh : base.passes p.actual with
    | true =>
      obtain ⟨lookups, r, c'', tries⟩ := ih evolves others
      exact ⟨_, _, _, .passed fresh tries⟩
    | false =>
      cases appended : base.append p with
      | error err => exact ⟨_, _, _, .refused fresh appended⟩
      | ok path =>
        cases entity : p.isEntity with
        | false =>
          obtain ⟨lookups, r, c'', tries⟩ := ih evolves others
          exact ⟨_, _, _, .leaf fresh appended entity tries⟩
        | true =>
          -- one type fewer is ahead of the longer path, since the type behind the property is new
          have fewer := EntityPath.ahead_card_lt appended (first entity) fresh
          obtain ⟨lookups, r, c₁, searched⟩ :=
            searches c' evolves p.actual (first entity) path (by omega)
          cases r with
          | error err => exact ⟨_, _, _, .broken fresh appended entity searched⟩
          | ok found =>
            obtain ⟨lookups', r, c'', tries⟩ := ih (evolves.trans searched.evolves) others
            exact ⟨_, _, _, .further fresh appended entity searched tries⟩

/-- Among finitely many types that lead to none but each other every search has an outcome. -/
lemma exists_searches_among (sound : c.Sound m) (closed : ∀ t ∈ S, ∀ u, c.Follows t u → u ∈ S) :
    ∀ n c', c.Evolves false c' → ∀ t ∈ S, ∀ base : EntityPath, (base.ahead S).card < n →
      ∃ lookups r c'', Searches accepts c' t base lookups r c'' := by
  intro n
  induction n with
  | zero =>
    intro c' _ t _ base small
    cases small
  | succ n ih =>
    intro c' evolves t ht base small
    -- the context may have changed, but it follows nothing that it did not follow before
    have closed' : ∀ t ∈ S, ∀ u, c'.Follows t u → u ∈ S := fun t ht u follows =>
      closed t ht u (follows.of_evolved evolves)
    obtain ⟨answer, c₁, looked⟩ := exists_lookup closed' ht
    rcases answer with err | (_ | e)
    · exact ⟨_, _, _, .failed looked⟩
    · exact ⟨_, _, _, .nowhere looked⟩
    · obtain ⟨further, found⟩ := ensures_entity? _ _ looked
      have later := evolves.trans further
      have behind : ∀ p ∈ candidates e, p.isEntity = true → p.actual ∈ S := by
        intro p hp entity
        have follows := (sound.evolve later).follows (found _ rfl) hp entity
        exact closed t ht _ (follows.of_evolved later)
      obtain ⟨lookups, r, c'', tries⟩ := exists_tries ih later behind (Nat.lt_succ_iff.mp small)
      exact ⟨_, _, _, .through looked tries⟩

/-- A search from a type that gets to finitely many types has an outcome. -/
theorem exists_searches (sound : c.Sound m) (finite : {u | c.Reaches t u}.Finite)
    (accepts : EntityProperty → Bool) (base : EntityPath) :
    ∃ lookups r c', Searches accepts c t base lookups r c' := by
  refine exists_searches_among (S := finite.toFinset) sound ?_ _ c .refl t ?_ base
    (Nat.lt_succ_self _)
  · intro u hu v follows
    rw [Set.Finite.mem_toFinset] at hu ⊢
    exact hu.tail follows
  · rw [Set.Finite.mem_toFinset]
    exact .refl

end Context

end EntityModel
