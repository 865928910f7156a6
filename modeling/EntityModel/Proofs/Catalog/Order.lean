import EntityModel.Proofs.Catalog.Walk

/-!
# The order of a walk

A way up from a type is the list of the positions of the supertypes that it takes
(`Catalog.climb`). Ways are ordered by the first position at which they part, and a way comes before
those that go on from its end. A name comes before another one above a type if some way to it comes
before all ways to the other one (`Catalog.Precedes`).

If no type is a supertype of itself, a walk meets declarations in that order
(`Catalog.pairwise_precedes`). Each name that waits is kept together with the way to it
(`Catalog.IsFrontier`): every way to a name that was not met yet goes through one that waits. This
needs that the supertypes of a name that is met again were all met, which fails on a cycle.
-/

namespace EntityModel.Catalog

/-- The name at the end of a way up. -/
def climb (c : Catalog) (name : String) : List Nat → Option String
  | [] => some name
  | i :: way => do
    let d ← c.find? name
    let t ← d.supertypes[i]?
    climb c t.name way

/-- Above a type, a way to the first name comes before all ways to the second one. -/
def Precedes (c : Catalog) (start a b : String) : Prop :=
  ∃ way, c.climb start way = some a ∧ ∀ other, c.climb start other = some b → way < other

/-- No type is a supertype of itself. -/
def IsAcyclic (c : Catalog) : Prop :=
  ∀ name, ¬ Relation.TransGen c.Extends name name

variable {c : Catalog} {start a b name : String} {met : List String} {d : TypeDecl}
  {ds : List TypeDecl}

/-! ### Ways up -/

/-- A way comes before all that it is continued to. -/
lemma lt_append_cons (way : List Nat) (i : Nat) (further : List Nat) :
    way < way ++ i :: further := by
  have longer : way ++ [] < way ++ i :: further := List.append_left_lt (List.nil_lt_cons _ _)
  rwa [List.append_nil] at longer

/-- A climb goes up to a supertype of the place given first and on from there. -/
lemma climb_cons_eq_some {i : Nat} {way : List Nat} :
    c.climb a (i :: way) = some b ↔
      ∃ d t, c.find? a = some d ∧ d.supertypes[i]? = some t ∧ c.climb t.name way = some b := by
  simp only [climb, Option.bind_eq_bind, Option.bind_eq_some_iff]
  tauto

/-- A climb can be made in two parts. -/
lemma climb_append (way further : List Nat) :
    c.climb a (way ++ further) = (c.climb a way).bind fun b => c.climb b further := by
  induction way generalizing a with
  | nil => rfl
  | cons i way ih =>
    simp only [List.cons_append, climb, Option.bind_eq_bind, Option.bind_assoc, ih]

/-- A climb can go on to a supertype of the declaration at its end. -/
lemma climb_snoc {way : List Nat} {i : Nat} {t : TypeRef} (here : c.climb start way = some a)
    (declared : c.find? a = some d) (up : d.supertypes[i]? = some t) :
    c.climb start (way ++ [i]) = some t.name := by
  rw [climb_append, here, Option.bind_some, climb_cons_eq_some]
  exact ⟨d, t, declared, up, rfl⟩

/-- Where a climb leads is reached. -/
lemma reaches_of_climb {way : List Nat} (leads : c.climb a way = some b) : c.Reaches a b := by
  induction way generalizing a with
  | nil =>
    cases leads
    exact .refl
  | cons i way ih =>
    obtain ⟨d, t, declared, up, further⟩ := climb_cons_eq_some.mp leads
    have step : c.Extends a t.name :=
      (extends_iff declared).mpr (List.mem_map_of_mem (List.mem_of_getElem? up))
    exact .head step (ih further)

/-- Of two names at most one precedes the other one. -/
lemma Precedes.asymm (h : c.Precedes start a b) : ¬ c.Precedes start b a := by
  rintro ⟨wayB, leadsB, beforeA⟩
  obtain ⟨wayA, leadsA, beforeB⟩ := h
  exact List.lt_asymm (beforeB wayB leadsB) (beforeA wayA leadsA)

/-- Ranks that fall with each step to a supertype leave no cycle. -/
lemma IsAcyclic.of_rank (rank : String → Nat)
    (falls : ∀ d ∈ c.declarations, ∀ t ∈ d.supertypes, rank t.name < rank d.name) :
    c.IsAcyclic := by
  have step : ∀ a b, c.Extends a b → rank b < rank a := by
    rintro a b ⟨d, declared, up⟩
    have listed : b ∈ d.supertypes.map TypeRef.name :=
      (extends_iff declared).mp ⟨d, declared, up⟩
    obtain ⟨t, ht, rfl⟩ := List.mem_map.mp listed
    exact name_of_find? declared ▸ falls d (mem_of_find? declared) t ht
  intro name cycle
  have below : ∀ b, Relation.TransGen c.Extends name b → rank b < rank name := by
    intro b route
    induction route with
    | single last => exact step _ _ last
    | tail _ last ih => exact Nat.lt_trans (step _ _ last) ih
  exact Nat.lt_irrefl _ (below name cycle)

/-! ### Names that wait -/

/-- A name that waits, and the way on which the walk came to it. -/
structure Waiting where
  name : String
  way : List Nat

/-- The supertypes of a declaration, with the ways to them through the declaration. -/
def above (d : TypeDecl) (way : List Nat) : List Waiting :=
  d.supertypes.mapIdx fun i t => ⟨t.name, way ++ [i]⟩

/-- The supertypes of a name are met, except for those that are reached from its own supertypes
among the first names that wait. -/
def IsSettled (c : Catalog) (met : List String) (waiting : List Waiting) (a : String) : Prop :=
  ∃ own others, waiting = own ++ others ∧ (∀ w ∈ own, Relation.TransGen c.Extends a w.name) ∧
    ∀ b, c.Reaches a b → b ∈ met ∨ ∃ w ∈ own, c.Reaches w.name b

/-- Names that wait on a walk from a type after others were met. They wait in the order of the ways
to them and to what is above them. Every way to a name that was not met goes through one of them,
and the names that were met are settled. -/
structure IsFrontier (c : Catalog) (start : String) (met : List String) (waiting : List Waiting) :
    Prop where
  leads : ∀ w ∈ waiting, c.climb start w.way = some w.name
  sorted : waiting.Pairwise fun w v => ∀ further, w.way ++ further < v.way
  covers : ∀ way b, c.climb start way = some b → b ∉ met →
    ∃ w ∈ waiting, ∃ further, c.climb w.name further = some b ∧ way = w.way ++ further
  settled : ∀ a ∈ met, c.IsSettled met waiting a

variable {w : Waiting} {waiting : List Waiting}

/-- What waits above a declaration are its supertypes, each with its place at the end of the way. -/
lemma mem_above {v : Waiting} {way : List Nat} :
    v ∈ above d way ↔ ∃ i t, d.supertypes[i]? = some t ∧ v = ⟨t.name, way ++ [i]⟩ := by
  rw [above, List.mem_mapIdx]
  constructor
  · rintro ⟨i, inside, rfl⟩
    exact ⟨i, _, List.getElem?_eq_getElem inside, rfl⟩
  · rintro ⟨i, t, up, rfl⟩
    obtain ⟨inside, rfl⟩ := List.getElem?_eq_some_iff.mp up
    exact ⟨i, inside, rfl⟩

/-- The names above a declaration are those of its supertypes. -/
lemma map_name_above (d : TypeDecl) (way : List Nat) :
    (above d way).map (·.name) = d.supertypes.map TypeRef.name := by
  apply List.ext_getElem
  · simp [above]
  · simp [above]

/-- What a declared name reaches is the name itself or reached from one of its supertypes. -/
lemma Reaches.from_above (declared : c.find? a = some d) (way : List Nat) (route : c.Reaches a b) :
    b = a ∨ ∃ v ∈ above d way, c.Reaches v.name b := by
  rcases route.cases_head with rfl | ⟨x, step, further⟩
  · exact .inl rfl
  · rw [extends_iff declared, ← map_name_above d way] at step
    obtain ⟨v, hv, rfl⟩ := List.mem_map.mp step
    exact .inr ⟨v, hv, further⟩

/-- A way up from a declared name goes on from one of its supertypes. -/
lemma climb_above {i : Nat} {further : List Nat} (declared : c.find? a = some d) (way : List Nat)
    (up : c.climb a (i :: further) = some b) :
    ∃ v ∈ above d way, c.climb v.name further = some b ∧
      way ++ i :: further = v.way ++ further := by
  obtain ⟨e, t, found, position, up⟩ := climb_cons_eq_some.mp up
  cases declared.symm.trans found
  refine ⟨_, mem_above.mpr ⟨i, t, position, rfl⟩, up, ?_⟩
  rw [List.append_assoc, List.singleton_append]

/-- Supertypes wait in their order, and all that is above one of them comes before the next one. -/
lemma sorted_above (d : TypeDecl) (way : List Nat) :
    (above d way).Pairwise fun w v => ∀ further, w.way ++ further < v.way := by
  rw [List.pairwise_iff_getElem]
  intro i j hi hj lt further
  simp only [above, List.getElem_mapIdx, List.append_assoc]
  exact List.append_left_lt (List.cons_lt_cons_iff.mpr (.inl lt))

/-- Names that take the place of the first one that waits keep a name settled if they are supertypes
of the first one and what it reaches is met or reached from them. -/
lemma IsSettled.replace {met' : List String} {new : List Waiting}
    (settled : c.IsSettled met (w :: waiting) a) (kept : met ⊆ met')
    (up : ∀ v ∈ new, Relation.TransGen c.Extends w.name v.name)
    (behind : ∀ b, c.Reaches w.name b → b ∈ met' ∨ ∃ v ∈ new, c.Reaches v.name b) :
    c.IsSettled met' (new ++ waiting) a := by
  obtain ⟨own, others, split, higher, reached⟩ := settled
  cases own with
  -- nothing waits above the name any more, and nothing new does
  | nil =>
    refine ⟨[], new ++ waiting, rfl, nofun, fun b route => .inl (kept ?_)⟩
    simpa using reached b route
  | cons v own =>
    obtain ⟨rfl, rfl⟩ := List.cons.inj split
    refine ⟨new ++ own, others, (List.append_assoc ..).symm, fun u hu => ?_, fun b route => ?_⟩
    · rcases List.mem_append.mp hu with hu | hu
      -- what is new is above what it replaces
      · exact (higher w List.mem_cons_self).trans (up u hu)
      · exact higher u (List.mem_cons_of_mem _ hu)
    · rcases reached b route with here | ⟨u, hu, further⟩
      · exact .inl (kept here)
      · rcases List.mem_cons.mp hu with rfl | hu
        -- a way through the replaced one goes on through what is new, or ends at what was met
        · rcases behind b further with here | ⟨v, hv, further⟩
          · exact .inl here
          · exact .inr ⟨v, List.mem_append_left _ hv, further⟩
        · exact .inr ⟨u, List.mem_append_right _ hu, further⟩

namespace IsFrontier

/-- Before the walk the type itself waits. -/
lemma initial (c : Catalog) (start : String) : c.IsFrontier start [] [⟨start, []⟩] where
  leads := List.forall_mem_singleton.mpr rfl
  sorted := List.pairwise_singleton _ _
  covers way _ leads _ := ⟨_, List.mem_singleton_self _, way, leads, rfl⟩
  settled := nofun

/-- The first name that waits comes before all names that are left. -/
lemma precedes (frontier : c.IsFrontier start met (w :: waiting)) (unmet : b ∉ w.name :: met) :
    c.Precedes start w.name b := by
  have here := frontier.leads w List.mem_cons_self
  refine ⟨w.way, here, fun other leads => ?_⟩
  obtain ⟨v, hv, further, up, rfl⟩ :=
    frontier.covers other b leads (List.not_mem_of_not_mem_cons unmet)
  rcases List.mem_cons.mp hv with rfl | hv
  · cases further with
    | nil => exact absurd (Option.some.inj up).symm (List.ne_of_not_mem_cons unmet)
    | cons i further => exact lt_append_cons _ i further
  · obtain ⟨first, -⟩ := List.pairwise_cons.mp frontier.sorted
    have before := first v hv []
    rw [List.append_nil] at before
    cases further with
    | nil => rwa [List.append_nil]
    | cons i further => exact List.lt_trans before (lt_append_cons _ i further)

/-- The first name that waits can be left out once all that it reaches is met. -/
lemma leave {met' : List String} (frontier : c.IsFrontier start met (w :: waiting))
    (kept : met ⊆ met') (only : ∀ a ∈ met', a = w.name ∨ a ∈ met)
    (behind : ∀ b, c.Reaches w.name b → b ∈ met') : c.IsFrontier start met' waiting where
  leads v hv := frontier.leads v (List.mem_cons_of_mem _ hv)
  sorted := (List.pairwise_cons.mp frontier.sorted).2
  covers way b leads unmet := by
    obtain ⟨v, hv, further, up, way_eq⟩ := frontier.covers way b leads (mt (kept ·) unmet)
    rcases List.mem_cons.mp hv with rfl | hv
    · exact absurd (behind b (reaches_of_climb up)) unmet
    · exact ⟨v, hv, further, up, way_eq⟩
  settled a ha := by
    rcases only a ha with rfl | ha
    · exact ⟨[], waiting, rfl, nofun, fun b route => .inl (behind b route)⟩
    · have up : ∀ v ∈ ([] : List Waiting), Relation.TransGen c.Extends w.name v.name := nofun
      exact (frontier.settled a ha).replace kept up fun b route => .inl (behind b route)

/-- A name that was met before can be left out. -/
lemma repeated (frontier : c.IsFrontier start met (w :: waiting)) (acyclic : c.IsAcyclic)
    (here : w.name ∈ met) : c.IsFrontier start met waiting := by
  refine frontier.leave (List.Subset.refl _) (fun _ => .inr) fun b route => ?_
  obtain ⟨own, others, split, higher, reached⟩ := frontier.settled _ here
  cases own with
  | nil => simpa using reached b route
  | cons v own =>
    -- the name waits above itself, which is a cycle
    cases (List.cons.inj split).1
    exact absurd (higher w List.mem_cons_self) (acyclic _)

/-- A name that is not declared leads nowhere. -/
lemma undeclared (frontier : c.IsFrontier start met (w :: waiting))
    (absent : c.find? w.name = none) : c.IsFrontier start (w.name :: met) waiting := by
  refine frontier.leave (List.subset_cons_self _ _) (fun _ => List.mem_cons.mp) fun b route => ?_
  exact route.eq_of_undeclared absent ▸ List.mem_cons_self

/-- The supertypes of a declared name wait in its place. -/
lemma declared (frontier : c.IsFrontier start met (w :: waiting))
    (declared : c.find? w.name = some d) :
    c.IsFrontier start (w.name :: met) (above d w.way ++ waiting) := by
  have here := frontier.leads w List.mem_cons_self
  obtain ⟨first, sorted⟩ := List.pairwise_cons.mp frontier.sorted
  have up : ∀ v ∈ above d w.way, Relation.TransGen c.Extends w.name v.name := by
    intro v hv
    have step : v.name ∈ (above d w.way).map (·.name) := List.mem_map_of_mem hv
    rw [map_name_above, ← extends_iff declared] at step
    exact .single step
  have behind : ∀ b, c.Reaches w.name b →
      b ∈ w.name :: met ∨ ∃ v ∈ above d w.way, c.Reaches v.name b := by
    intro b route
    rcases route.from_above declared w.way with rfl | further
    · exact .inl List.mem_cons_self
    · exact .inr further
  refine ⟨fun v hv => ?_, ?_, fun way b leads unmet => ?_, fun a ha => ?_⟩
  -- what waits is led to: the new ones behind the declaration, the others as before
  · rcases List.mem_append.mp hv with hv | hv
    · obtain ⟨i, t, position, rfl⟩ := mem_above.mp hv
      exact climb_snoc here declared position
    · exact frontier.leads v (List.mem_cons_of_mem _ hv)
  · refine List.pairwise_append.mpr ⟨sorted_above d w.way, sorted, fun v hv u hu further => ?_⟩
    obtain ⟨i, t, -, rfl⟩ := mem_above.mp hv
    rw [List.append_assoc]
    exact first u hu _
  -- a way that is not covered through the declaration itself is covered by the others
  · obtain ⟨v, hv, further, up, rfl⟩ :=
      frontier.covers way b leads (List.not_mem_of_not_mem_cons unmet)
    rcases List.mem_cons.mp hv with rfl | hv
    · cases further with
      | nil => exact absurd (Option.some.inj up).symm (List.ne_of_not_mem_cons unmet)
      -- the way goes on through a supertype of the declaration
      | cons i further =>
        obtain ⟨u, hu, up, way_eq⟩ := climb_above declared v.way up
        exact ⟨u, List.mem_append_left _ hu, further, up, way_eq⟩
    · exact ⟨v, List.mem_append_right _ hv, further, up, rfl⟩
  -- the declaration is settled by its supertypes, which come first
  · rcases List.mem_cons.mp ha with rfl | ha
    · exact ⟨above d w.way, waiting, rfl, up, behind⟩
    · exact (frontier.settled a ha).replace (List.subset_cons_self _ _) up behind

end IsFrontier

/-! ### Walks in order -/

/-- What a walk meets first comes before what it meets later. -/
theorem Walks.pairwise_precedes {names : List String} (walk : c.Walks met names ds)
    (acyclic : c.IsAcyclic) (frontier : c.IsFrontier start met waiting)
    (names_eq : waiting.map (·.name) = names) :
    ds.Pairwise fun d e => c.Precedes start d.name e.name := by
  -- what the walk meets later is still ahead at this point, and the frontier orders it behind
  induction walk generalizing waiting with
  | finished => exact .nil
  | repeated here _ ih =>
    obtain ⟨w, waiting, rfl, rfl, rest_eq⟩ := List.map_eq_cons_iff.mp names_eq
    exact ih (frontier.repeated acyclic here) rest_eq
  | undeclared _ absent _ ih =>
    obtain ⟨w, waiting, rfl, rfl, rest_eq⟩ := List.map_eq_cons_iff.mp names_eq
    exact ih (frontier.undeclared absent) rest_eq
  | @declared met name rest d ds _ declared walk ih =>
    obtain ⟨w, waiting, rfl, rfl, rest_eq⟩ := List.map_eq_cons_iff.mp names_eq
    have names_eq : (above d w.way ++ waiting).map (·.name) =
        d.supertypes.map TypeRef.name ++ rest := by
      rw [List.map_append, map_name_above, rest_eq]
    refine List.Pairwise.cons (fun e he => ?_) (ih (frontier.declared declared) names_eq)
    obtain ⟨-, unmet, -⟩ := walk.mem_iff.mp he
    rw [name_of_find? declared]
    exact frontier.precedes unmet

/-- In a catalog without cycles a visit meets declarations in the order of the least ways to them.
-/
theorem pairwise_precedes (acyclic : c.IsAcyclic) (start : String) :
    (visit c.declarations [start]).Pairwise fun d e => c.Precedes start d.name e.name :=
  (walks_iff.mpr rfl).pairwise_precedes acyclic (IsFrontier.initial c start) rfl

end EntityModel.Catalog
