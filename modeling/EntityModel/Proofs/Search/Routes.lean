import EntityModel.Proofs.Search.Termination

/-!
# Routes

A route is a chain of properties each of which is offered by the entity behind the property before
it (`Context.Route`). What a successful search finds are the routes that get behind no type twice
and end in an accepted property; where no entity offers a property twice, it finds each of them once
(`Context.Searches.enumerates`).
-/

namespace EntityModel

open ContextM

namespace EntityPath

variable {base path : EntityPath} {p : EntityProperty} {ps : List EntityProperty}

/-- A path is determined by its properties. -/
lemma eq_of_properties_eq {path' : EntityPath} (h : path.properties = path'.properties) :
    path = path' := by
  cases path
  cases path'
  exact congrArg mk h

/-- The types behind further properties are new to a path, and each of them is met once. -/
structure Admits (base : EntityPath) (ps : List EntityProperty) : Prop where
  fresh : ∀ p ∈ ps, base.passes p.actual = false
  distinct : (ps.map (·.actual)).Nodup

/-- A path may be continued by properties if it may be by the first, and then by the others. -/
lemma admits_cons (appended : base.append p = .ok path) :
    base.Admits (p :: ps) ↔ base.passes p.actual = false ∧ path.Admits ps := by
  have passes (q : EntityProperty) : path.passes q.actual = false ↔
      base.passes q.actual = false ∧ p.actual ≠ q.actual := by
    rw [passes_append appended, Bool.or_eq_false_iff, decide_eq_false_iff_not]
  constructor
  · rintro ⟨fresh, distinct⟩
    obtain ⟨first, others⟩ := List.forall_mem_cons.mp fresh
    obtain ⟨new, distinct⟩ := List.nodup_cons.mp distinct
    refine ⟨first, fun q hq => (passes q).mpr ⟨others q hq, ?_⟩, distinct⟩
    intro same
    exact new (List.mem_map.mpr ⟨q, hq, same.symm⟩)
  · rintro ⟨first, fresh, distinct⟩
    refine ⟨List.forall_mem_cons.mpr ⟨first, fun q hq => ((passes q).mp (fresh q hq)).1⟩, ?_⟩
    refine List.nodup_cons.mpr ⟨fun met => ?_, distinct⟩
    obtain ⟨q, hq, same⟩ := List.mem_map.mp met
    exact ((passes q).mp (fresh q hq)).2 same.symm

end EntityPath

namespace Context

/-- A chain of properties that starts with one of the given ones. Each further property is offered
by the entity that a context knows for the type behind the property before it. -/
inductive Route (c : Context) (offers : Entity → List EntityProperty) :
    List EntityProperty → List EntityProperty → Prop where
  | last {ps p} :
    p ∈ ps →
    Route c offers ps [p]
  | step {ps p e qs} :
    p ∈ ps →
    p.isEntity = true →
    c.table.get? p.actual.actual = some (some e) →
    Route c offers (offers e) qs →
    Route c offers ps (p :: qs)

/-- A route from the entity of a type. -/
def RouteFrom (c : Context) (offers : Entity → List EntityProperty) (t : TypeRef)
    (qs : List EntityProperty) : Prop :=
  ∃ e, c.table.get? t.actual = some (some e) ∧ c.Route offers (offers e) qs

/-- A route from the type behind a property, where entities may be. -/
def RouteBehind (c : Context) (offers : Entity → List EntityProperty) (p : EntityProperty)
    (qs : List EntityProperty) : Prop :=
  p.isEntity = true ∧ c.RouteFrom offers p.actual qs

/-- The entities on the routes from a type. -/
inductive Meets (c : Context) (offers : Entity → List EntityProperty) :
    TypeRef → Entity → Prop where
  | here {t e} :
    c.table.get? t.actual = some (some e) →
    Meets c offers t e
  | further {t e p e'} :
    c.table.get? t.actual = some (some e) →
    p ∈ offers e →
    p.isEntity = true →
    Meets c offers p.actual e' →
    Meets c offers t e'

variable {accepts : EntityProperty → Bool} {c c' : Context} {t : TypeRef} {base path : EntityPath}
  {p : EntityProperty} {e : Entity} {ps qs : List EntityProperty}
  {offers offers' : Entity → List EntityProperty}

/-! ### Routes property by property -/

/-- A route has a property at least. -/
lemma Route.ne_nil (route : c.Route offers ps qs) : qs ≠ [] := by
  cases route <;> exact List.cons_ne_nil _ _

/-- No route starts where nothing is offered. -/
lemma not_route_nil : ¬c.Route offers [] qs := by
  rintro (h | h) <;> cases h

/-- A route from a type has a property at least. -/
lemma not_routeFrom_nil : ¬c.RouteFrom offers t [] :=
  fun ⟨_, _, route⟩ => route.ne_nil rfl

/-- The routes from a type are those through what its entity offers. -/
lemma routeFrom_iff (found : c.table.get? t.actual = some (some e)) :
    c.RouteFrom offers t qs ↔ c.Route offers (offers e) qs := by
  constructor
  · rintro ⟨e', found', route⟩
    cases found.symm.trans found'
    exact route
  · exact fun route => ⟨e, found, route⟩

/-- A route is a property and, if there is more of it, a route from the type behind that. -/
lemma route_cons_iff : c.Route offers ps (p :: qs) ↔
    p ∈ ps ∧ (qs = [] ∨ c.RouteBehind offers p qs) := by
  constructor
  · intro route
    cases route with
    | last hp => exact ⟨hp, .inl rfl⟩
    | step hp entity found route => exact ⟨hp, .inr ⟨entity, _, found, route⟩⟩
  · rintro ⟨hp, rfl | ⟨entity, e, found, route⟩⟩
    · exact .last hp
    · exact .step hp entity found route

/-- A route starts with the first of the given properties or with another one. -/
lemma route_of_cons_iff : c.Route offers (p :: ps) qs ↔
    qs = [p] ∨ (∃ rest, qs = p :: rest ∧ c.RouteBehind offers p rest) ∨
      c.Route offers ps qs := by
  constructor
  · intro route
    -- a route through the first property ends in it or goes on behind it
    cases route with
    | last hq =>
      rcases List.mem_cons.mp hq with rfl | hq
      · exact .inl rfl
      · exact .inr (.inr (.last hq))
    | step hq entity found route =>
      rcases List.mem_cons.mp hq with rfl | hq
      · exact .inr (.inl ⟨_, rfl, entity, _, found, route⟩)
      · exact .inr (.inr (.step hq entity found route))
  · rintro (rfl | ⟨rest, rfl, entity, e, found, route⟩ | route)
    · exact .last List.mem_cons_self
    · exact .step List.mem_cons_self entity found route
    · cases route with
      | last hq => exact .last (List.mem_cons_of_mem p hq)
      | step hq entity found route => exact .step (List.mem_cons_of_mem p hq) entity found route

/-- No route that gets behind no type twice starts with a property of a type that was passed. -/
lemma route_of_passed (passed : base.passes p.actual = true) (admits : base.Admits qs) :
    c.Route offers (p :: ps) qs ↔ c.Route offers ps qs := by
  have avoids : p ∉ qs := fun hp => Bool.false_ne_true ((admits.fresh p hp).symm.trans passed)
  rw [route_of_cons_iff]
  constructor
  · rintro (rfl | ⟨rest, rfl, -⟩ | route)
    · exact absurd List.mem_cons_self avoids
    · exact absurd List.mem_cons_self avoids
    · exact route
  · exact fun route => .inr (.inr route)

/-! ### What a search finds -/

/-- A path that continues a base by a chain of properties which gets behind no type twice and ends
in an accepted one. -/
def Continues (accepts : EntityProperty → Bool) (base : EntityPath)
    (way : List EntityProperty → Prop) (path : EntityPath) : Prop :=
  ∃ qs, path.properties = base.properties ++ qs ∧ base.Admits qs ∧ way qs ∧
    qs.getLast?.any accepts = true

/-- A property contributes the path that it ends, if it is accepted. -/
lemma mem_ending {path' : EntityPath} :
    path' ∈ ending accepts p path ↔ path' = path ∧ accepts p = true := by
  unfold ending
  cases accepts p <;> simp

/-- A path goes on by the first of the given properties or by another one. -/
lemma continues_cons_iff {path' : EntityPath} (fresh : base.passes p.actual = false)
    (appended : base.append p = .ok path) :
    Continues accepts base (c.Route offers (p :: ps)) path' ↔
      path' ∈ ending accepts p path ∨ Continues accepts path (c.RouteBehind offers p) path' ∨
        Continues accepts base (c.Route offers ps) path' := by
  have longer := EntityPath.properties_append appended
  constructor
  · rintro ⟨qs, extended, admits, way, accepted⟩
    rcases route_of_cons_iff.mp way with rfl | ⟨rest, rfl, entity, route⟩ | route
    · left
      apply mem_ending.mpr
      exact ⟨EntityPath.eq_of_properties_eq (extended.trans longer.symm), by simpa using accepted⟩
    · obtain ⟨e, found, further⟩ := route
      obtain ⟨q, qs, rfl⟩ := List.exists_cons_of_ne_nil further.ne_nil
      -- what goes on behind the property starts from the longer path
      refine .inr (.inl ⟨q :: qs, ?_, ?_, ⟨entity, e, found, further⟩, accepted⟩)
      · rw [extended, longer, List.append_assoc, List.singleton_append]
      · exact ((EntityPath.admits_cons appended).mp admits).2
    · exact .inr (.inr ⟨qs, extended, admits, route, accepted⟩)
  · rintro (ends | ⟨rest, extended, admits, ⟨entity, e, found, further⟩, accepted⟩ |
      ⟨qs, extended, admits, route, accepted⟩)
    · obtain ⟨rfl, accepted⟩ := mem_ending.mp ends
      refine ⟨[p], longer, ?_, .last List.mem_cons_self, by simpa using accepted⟩
      exact ⟨by simpa using fresh, List.nodup_singleton _⟩
    · obtain ⟨q, qs, rfl⟩ := List.exists_cons_of_ne_nil further.ne_nil
      refine ⟨p :: q :: qs, ?_, ?_, .step List.mem_cons_self entity found further, accepted⟩
      · rw [extended, longer, List.append_assoc, List.singleton_append]
      · exact (EntityPath.admits_cons appended).mpr ⟨fresh, admits⟩
    · exact ⟨qs, extended, admits, route_of_cons_iff.mpr (.inr (.inr route)), accepted⟩

/-- Paths which are those that continue a base on a way, each of them once if that is clear. -/
structure Enumerates (accepts : EntityProperty → Bool) (base : EntityPath)
    (way : List EntityProperty → Prop) (clear : Prop) (paths : List EntityPath) : Prop where
  mem_iff : ∀ path, path ∈ paths ↔ Continues accepts base way path
  nodup : clear → paths.Nodup

/-- On the routes from a type no entity offers a property twice. -/
def IsClearFrom (c : Context) (t : TypeRef) : Prop :=
  ∀ e, c.Meets candidates t e → (candidates e).Nodup

/-- The given properties are all different, and so are those on the routes behind them. -/
def IsClearBehind (c : Context) (ps : List EntityProperty) : Prop :=
  ps.Nodup ∧ ∀ p ∈ ps, p.isEntity = true → c.IsClearFrom p.actual

namespace Enumerates

variable {found rest paths : List EntityPath} {clear : Prop} {way : List EntityProperty → Prop}

/-- Where there is no way there are no paths. -/
lemma none (h : ∀ qs, ¬way qs) : Enumerates accepts base way clear [] where
  mem_iff path := by
    refine iff_of_false List.not_mem_nil ?_
    rintro ⟨qs, -, -, hway, -⟩
    exact h qs hway
  nodup _ := .nil

/-- Paths that are those on a way are those on any way that agrees with it. -/
lemma congr {way' : List EntityProperty → Prop} {clear' : Prop}
    (h : Enumerates accepts base way clear paths) (same : ∀ qs, base.Admits qs → (way qs ↔ way' qs))
    (clearer : clear' → clear) : Enumerates accepts base way' clear' paths where
  mem_iff path := by
    rw [h.mem_iff]
    refine exists_congr fun qs => and_congr_right fun _ => and_congr_right fun admits => ?_
    rw [same qs admits]
  nodup h' := h.nodup (clearer h')

/-- Nothing leads through a type that the base has passed. -/
lemma skip (h : Enumerates accepts base (c.Route offers ps) (c.IsClearBehind ps) paths)
    (passed : base.passes p.actual = true) :
    Enumerates accepts base (c.Route offers (p :: ps)) (c.IsClearBehind (p :: ps)) paths := by
  refine h.congr (fun qs admits => (route_of_passed passed admits).symm) fun clear => ?_
  exact ⟨(List.nodup_cons.mp clear.1).2, fun q hq => clear.2 q (List.mem_cons_of_mem p hq)⟩

/-- The paths through a property come before those through the others. -/
lemma cons (fresh : base.passes p.actual = false) (appended : base.append p = .ok path)
    (behind : Enumerates accepts path (c.RouteBehind candidates p)
      (p.isEntity = true → c.IsClearFrom p.actual) found)
    (others : Enumerates accepts base (c.Route candidates ps) (c.IsClearBehind ps) rest) :
    Enumerates accepts base (c.Route candidates (p :: ps)) (c.IsClearBehind (p :: ps))
      (ending accepts p path ++ found ++ rest) where
  mem_iff path' := by
    rw [continues_cons_iff fresh appended, List.mem_append, List.mem_append, behind.mem_iff,
      others.mem_iff, or_assoc]
  nodup clear := by
    obtain ⟨distinct, others_clear⟩ := clear
    obtain ⟨new, distinct⟩ := List.nodup_cons.mp distinct
    obtain ⟨first_clear, others_clear⟩ := List.forall_mem_cons.mp others_clear
    have longer := EntityPath.properties_append appended
    have first : (ending accepts p path).Nodup := by
      unfold ending
      split
      · exact List.nodup_singleton path
      · exact .nil
    -- what goes on behind the property is longer than the path that ends in it
    have apart : ∀ path₁ ∈ ending accepts p path, ∀ path₂ ∈ found, path₁ ≠ path₂ := by
      rintro path₁ ends path₂ further rfl
      obtain ⟨rfl, -⟩ := mem_ending.mp ends
      obtain ⟨qs, extended, -, ⟨-, e, -, route⟩, -⟩ := (behind.mem_iff _).mp further
      exact route.ne_nil (List.self_eq_append_right.mp extended)
    -- a path goes on from the base by one property only
    have starts : ∀ path' ∈ ending accepts p path ++ found,
        (base.properties ++ [p]) <+: path'.properties := by
      intro path' h
      rw [← longer]
      rcases List.mem_append.mp h with ends | further
      · obtain ⟨rfl, -⟩ := mem_ending.mp ends
        exact List.prefix_rfl
      · obtain ⟨qs, extended, -⟩ := (behind.mem_iff _).mp further
        exact ⟨qs, extended.symm⟩
    refine List.nodup_append.mpr ⟨List.nodup_append.mpr ⟨first, behind.nodup first_clear, apart⟩,
      others.nodup ⟨distinct, others_clear⟩, ?_⟩
    rintro path' h path'' other rfl
    obtain ⟨qs, extended, -, route, -⟩ := (others.mem_iff _).mp other
    obtain ⟨q, qs, rfl⟩ := List.exists_cons_of_ne_nil route.ne_nil
    obtain ⟨ps', start⟩ := starts path' h
    rw [extended, List.append_assoc] at start
    cases List.append_cancel_left start
    exact new (route_cons_iff.mp route).1

end Enumerates

/-- A search finds the routes that it may follow, whatever the context becomes afterwards. -/
theorem Searches.enumerates {lookups r} (h : Searches accepts c t base lookups r c') :
    ∀ c'', c'.Evolves false c'' → ∀ paths, r = .ok paths →
      Enumerates accepts base (c''.RouteFrom candidates t) (c''.IsClearFrom t) paths := by
  induction h using Searches.rec (motive_2 := fun _ ps base _ r c' _ =>
    ∀ c'', c'.Evolves false c'' → ∀ paths, r = .ok paths →
      Enumerates accepts base (c''.Route candidates ps) (c''.IsClearBehind ps) paths) with
  | failed =>
    rintro c'' - paths ⟨⟩
  | nowhere looked =>
    rintro c'' evolves paths ⟨⟩
    -- the type has no entity in the end, either, so no routes start there
    have absent := evolves.kept ((ensures_entity? _ _ looked).2 _ rfl)
    apply Enumerates.none
    rintro qs ⟨e, found, -⟩
    cases absent.symm.trans found
  | through looked tries ih =>
    rintro c'' evolves paths hr
    have later : Evolves false _ c'' := tries.evolves.trans evolves
    have found := later.kept ((ensures_entity? _ _ looked).2 _ rfl)
    -- the entity that was found is still the one of the type, so the routes start with its
    -- properties
    refine (ih c'' evolves paths hr).congr (fun qs _ => (routeFrom_iff found).symm) fun clear => ?_
    refine ⟨clear _ (.here found), fun p hp entity e meets => ?_⟩
    exact clear e (.further found hp entity meets)
  | nil c'' _ paths hr =>
    cases hr
    exact .none fun qs => not_route_nil
  | passed passed _ ih c'' evolves paths hr =>
    exact (ih c'' evolves paths hr).skip passed
  | refused | broken =>
    rename_i hr
    cases hr
  | leaf fresh appended leaf tries ih c'' evolves paths hr =>
    obtain ⟨rest, rfl, rfl⟩ := map_eq_ok.mp hr
    -- no paths lead behind a leaf
    rw [← List.append_nil (ending accepts _ _)]
    refine Enumerates.cons fresh appended (.none ?_) (ih c'' evolves rest rfl)
    exact fun qs ⟨entity, _⟩ => Bool.false_ne_true (leaf.symm.trans entity)
  | further fresh appended entity searches tries ihs iht c'' evolves paths hr =>
    obtain ⟨rest, rfl, rfl⟩ := map_eq_ok.mp hr
    have found := ihs c'' (tries.evolves.trans evolves) _ rfl
    refine Enumerates.cons fresh appended ?_ (iht c'' evolves rest rfl)
    exact found.congr (fun qs _ => (and_iff_right entity).symm) fun clear => clear entity

end Context

end EntityModel
