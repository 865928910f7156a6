import EntityModel.Path.Shared
import EntityModel.Proofs.Path.Remembered

/-!
# Shared resolvers answer alike

Whatever resolvers were asked, copied, extended and resized before, in whichever order, each of them
answers what its own catalog gives, and no cache outgrows its capacity (`Resolvers.Sound`). What is
remembered changes no answer, neither one's own nor that of a copy
(`Resolvers.answers_unremembered`).
-/

namespace EntityModel

/-! ### Bounded caches -/

namespace RecentCache

variable {κ α : Type} {cache cache' : RecentCache κ α} {key : κ} {value : α}

/-- There are no more entries than there is room for. -/
def IsBounded (cache : RecentCache κ α) : Prop :=
  cache.entries.length ≤ max 1 cache.capacity

/-- There is always room for no entries. -/
lemma IsBounded.of_nil (h : cache.entries = []) : cache.IsBounded := by
  rw [IsBounded, h]
  exact Nat.zero_le _

variable [DecidableEq κ]

/-- A use moves an entry to the front. -/
lemma IsBounded.use? (bounded : cache.IsBounded) (h : cache.use? key = some (value, cache')) :
    cache'.IsBounded := by
  unfold RecentCache.use? at h
  split at h
  · rename_i e found
    cases h
    have moved : (without cache.entries key).length < cache.entries.length :=
      List.length_filter_lt_length_iff_exists.mpr
        ⟨e, List.mem_of_find?_eq_some found, by simpa using List.find?_some found⟩
    exact Nat.le_trans moved bounded
  · cases h

/-- A write drops what there is no room for. -/
lemma IsBounded.put : (cache.put key value).IsBounded :=
  List.length_take_le _ _

/-- A use does not change how much room there is. -/
lemma capacity_of_use? (h : cache.use? key = some (value, cache')) :
    cache'.capacity = cache.capacity := by
  unfold RecentCache.use? at h
  split at h <;> cases h
  rfl

end RecentCache

namespace PathResolver

variable {r r' : PathResolver} {source : String} {owner : TypeRef}
  {result : Except Error PathInstance}

/-- An answer leaves no more entries than there is room for. -/
lemma Answers.bounded (h : r.Answers source owner result r') (bounded : r.cache.IsBounded) :
    r'.cache.IsBounded := by
  cases h with
  | remembered hit => exact bounded.use? hit
  | refused => exact bounded
  | made => exact .put

/-- An answer does not change how much room there is. -/
lemma Answers.capacity_eq (h : r.Answers source owner result r') :
    r'.cache.capacity = r.cache.capacity := by
  cases h with
  | remembered hit => exact RecentCache.capacity_of_use? hit
  | refused | made => rfl

/-- A request that fails changes nothing. -/
lemma Answers.unchanged {e : Error} (h : r.Answers source owner (.error e) r') : r' = r := by
  cases h with
  | refused => rfl

end PathResolver

namespace Resolvers

variable {rs rs' : Resolvers} {s : SharedResolver} {r : PathResolver} {i : Nat} {c : Catalog}

/-! ### Requests -/

/-- What resolvers are asked for: paths and their continuations, copies, and resolvers for more
declarations or with other capacities. -/
inductive Request where
  | path (i : Nat) (source : String) (owner : TypeRef)
  | nested (i : Nat) (p : PropertyPath) (source : String)
  | copy (i : Nat)
  | extend (i : Nat) (d : TypeDecl)
  | resize (i capacity : Nat)

/-- The resolvers after a request to one of them, if there is one of that number. An extension that
fails adds none. -/
def Request.run : Request → Resolvers → Option Resolvers
  | path i source owner, rs => (rs.resolve i source owner).map (·.2)
  | nested i p source, rs => (rs.nested i p source).map (·.2)
  | copy i, rs => rs.copy i
  | extend i d, rs => (rs.extend i d).map fun
    | .ok extended => extended
    | .error _ => rs
  | resize i capacity, rs => rs.resize i capacity

/-- The resolvers after requests, one after the other. -/
def after (requests : List Request) (rs : Resolvers) : Option Resolvers :=
  requests.foldlM (fun rs request => request.run rs) rs

/-- Later resolvers: those that were in use still are, with the room that there was. -/
structure Extends (rs rs' : Resolvers) : Prop where
  inUse : rs.inUse <+: rs'.inUse
  capacities : rs.caches.map (·.capacity) <+: rs'.caches.map (·.capacity)

namespace Extends

/-- Resolvers are later ones of themselves. -/
lemma refl (rs : Resolvers) : rs.Extends rs :=
  ⟨List.prefix_rfl, List.prefix_rfl⟩

/-- Resolvers that are later than later ones are later. -/
lemma trans {rs₁ rs₂ : Resolvers} (h₁ : rs.Extends rs₁) (h₂ : rs₁.Extends rs₂) :
    rs.Extends rs₂ :=
  ⟨h₁.inUse.trans h₂.inUse, h₁.capacities.trans h₂.capacities⟩

/-- One more resolver makes later ones. -/
lemma enter (rs : Resolvers) (r : PathResolver) : rs.Extends (rs.enter r) where
  inUse := List.prefix_append _ _
  capacities := (List.prefix_append _ _).map _

/-- A copy makes later resolvers. -/
lemma copy (h : rs.copy i = some rs') : rs.Extends rs' := by
  obtain ⟨s, -, h⟩ := Option.bind_eq_some_iff.mp h
  cases h
  exact ⟨List.prefix_append _ _, List.prefix_rfl⟩

end Extends

/-! ### Sound resolvers -/

/-- What is remembered is what the catalogs give, and is not more than there is room for. -/
structure Sound (rs : Resolvers) : Prop where
  cached : ∀ s ∈ rs.inUse, s.cache < rs.caches.length
  /-- Resolvers that share a cache are copies. -/
  copies : ∀ s ∈ rs.inUse, ∀ s' ∈ rs.inUse, s'.cache = s.cache → s' = s
  faithful : ∀ s ∈ rs.inUse, ∀ cache, rs.caches[s.cache]? = some cache →
    ∀ e ∈ cache.entries, Path.resolve s.catalog e.1.2 e.1.1 = .ok e.2.path
  bounded : ∀ cache ∈ rs.caches, cache.IsBounded

/-- A resolver is found by its number, and reads the cache that is noted for it. -/
lemma get?_eq_some_iff : rs.get? i = some (s, r) ↔
    rs.inUse[i]? = some s ∧ ∃ cache, rs.caches[s.cache]? = some cache ∧
      r = { catalog := s.catalog, cache, next := rs.next } := by
  unfold get?
  simp only [Option.bind_eq_bind, Option.bind_eq_some_iff, Option.pure_def, Option.some.injEq,
    Prod.mk.injEq]
  constructor
  · rintro ⟨s', hs, cache, hcache, rfl, rfl⟩
    exact ⟨hs, cache, hcache, rfl⟩
  · rintro ⟨hs, cache, hcache, rfl⟩
    exact ⟨s, hs, cache, hcache, rfl, rfl⟩

namespace Sound

/-- A single resolver shares its cache with nobody. -/
lemma single (c : Catalog) (capacity : Nat) : (single c capacity).Sound where
  cached s hs := by
    rw [List.mem_singleton.mp hs]
    exact Nat.one_pos
  copies s hs s' hs' _ := (List.mem_singleton.mp hs').trans (List.mem_singleton.mp hs).symm
  faithful s _ cache hcache e he := by
    rw [List.mem_singleton.mp (List.mem_of_getElem? hcache)] at he
    cases he
  bounded cache h := by
    rw [List.mem_singleton.mp h]
    exact .of_nil rfl

/-- A resolver in use remembers what its catalog gives. -/
lemma faithful_get? (sound : rs.Sound) (found : rs.get? i = some (s, r)) : r.Faithful := by
  obtain ⟨hs, cache, hcache, rfl⟩ := get?_eq_some_iff.mp found
  exact sound.faithful s (List.mem_of_getElem? hs) cache hcache

/-- A resolver that is in use has a cache. -/
lemma get? (sound : rs.Sound) (hs : rs.inUse[i]? = some s) :
    ∃ r, rs.get? i = some (s, r) ∧ r.catalog = s.catalog := by
  have hcache := List.getElem?_eq_getElem (sound.cached s (List.mem_of_getElem? hs))
  exact ⟨_, get?_eq_some_iff.mpr ⟨hs, _, hcache, rfl⟩, rfl⟩

/-- What one resolver remembers is right for all of its copies. -/
lemma write (sound : rs.Sound) (found : rs.get? i = some (s, r)) {r' : PathResolver}
    (catalog_eq : r'.catalog = r.catalog) (faithful : r'.Faithful)
    (bounded : r'.cache.IsBounded) :
    Sound { rs with caches := rs.caches.set s.cache r'.cache, next := r'.next } := by
  obtain ⟨hs, cache, hcache, rfl⟩ := get?_eq_some_iff.mp found
  have hs := List.mem_of_getElem? hs
  refine ⟨?_, sound.copies, ?_, ?_⟩
  · intro s' hs'
    rw [List.length_set]
    exact sound.cached s' hs'
  · intro s' hs' cache' hcache' e he
    -- a resolver that shares the cache is a copy, so what was remembered is right for it, too
    by_cases shared : s.cache = s'.cache
    · obtain rfl := sound.copies s' hs' s hs shared
      rw [List.getElem?_set_self (sound.cached s hs)] at hcache'
      cases hcache'
      have remembered := faithful e he
      rwa [catalog_eq] at remembered
    · rw [List.getElem?_set_ne shared] at hcache'
      exact sound.faithful s' hs' cache' hcache' e he
  · intro cache' hcache'
    rcases List.mem_or_eq_of_mem_set hcache' with old | rfl
    · exact sound.bounded cache' old
    · exact bounded

/-- A resolver with a cache of its own shares nothing with the others. -/
lemma enter (sound : rs.Sound) (nothing : r.cache.entries = []) : (rs.enter r).Sound := by
  -- the new cache comes behind all others, so none of the resolvers uses it
  have fresh (s : SharedResolver) (hs : s ∈ rs.inUse) : s.cache ≠ rs.caches.length :=
    Nat.ne_of_lt (sound.cached s hs)
  refine ⟨?_, ?_, ?_, ?_⟩
  · intro s hs
    rw [Resolvers.enter, List.length_append, List.length_singleton]
    rcases List.mem_append.mp hs with old | new
    · exact Nat.lt_succ_of_lt (sound.cached s old)
    · rw [List.mem_singleton.mp new]
      exact Nat.lt_succ_self _
  · intro s hs s' hs' shared
    rcases List.mem_append.mp hs with old | new <;> rcases List.mem_append.mp hs' with old' | new'
    · exact sound.copies s old s' old' shared
    · rw [List.mem_singleton.mp new'] at shared
      exact absurd shared.symm (fresh s old)
    · rw [List.mem_singleton.mp new] at shared
      exact absurd shared (fresh s' old')
    · rw [List.mem_singleton.mp new, List.mem_singleton.mp new']
  · intro s hs cache hcache
    rcases List.mem_append.mp hs with old | new
    · rw [Resolvers.enter, List.getElem?_append_left (sound.cached s old)] at hcache
      exact sound.faithful s old cache hcache
    · rw [List.mem_singleton.mp new, Resolvers.enter, List.getElem?_concat_length] at hcache
      cases hcache
      rw [nothing]
      exact fun e he => absurd he List.not_mem_nil
  · intro cache hcache
    rcases List.mem_append.mp hcache with old | new
    · exact sound.bounded cache old
    · rw [List.mem_singleton.mp new]
      exact .of_nil nothing

/-- A copy remembers what the resolver remembers that it was made from. -/
lemma copy (sound : rs.Sound) (h : rs.copy i = some rs') : rs'.Sound := by
  obtain ⟨s, hs, h⟩ := Option.bind_eq_some_iff.mp h
  cases h
  have known (s' : SharedResolver) (hs' : s' ∈ rs.inUse ++ [s]) : s' ∈ rs.inUse := by
    rcases List.mem_append.mp hs' with old | new
    · exact old
    · rw [List.mem_singleton.mp new]
      exact List.mem_of_getElem? hs
  exact ⟨fun s' hs' => sound.cached s' (known s' hs'),
    fun s₁ h₁ s₂ h₂ => sound.copies s₁ (known s₁ h₁) s₂ (known s₂ h₂),
    fun s' hs' => sound.faithful s' (known s' hs'), sound.bounded⟩

end Sound

/-! ### Answers -/

/-- A call is answered by what a source is resolved to, and changes nothing if that is a failure. -/
def IsAnswered (rs : Resolvers) (resolved : Except Error PropertyPath)
    (outcome : Option (Except Error PathInstance × Resolvers)) : Prop :=
  ∃ answer rs', outcome = some (answer, rs') ∧ answer.map (·.path) = resolved ∧
    ∀ e, answer = .error e → rs' = rs

/-- A resolver in use answers a source, and what it remembers is written back to its cache. -/
lemma resolve_of_get? (found : rs.get? i = some (s, r)) (source : String) (owner : TypeRef) :
    ∃ answer r', r.Answers source owner answer r' ∧ rs.resolve i source owner =
      some (answer, { rs with caches := rs.caches.set s.cache r'.cache, next := r'.next }) := by
  refine ⟨_, _, r.answers_resolve source owner, ?_⟩
  unfold resolve ask
  rw [found]
  rfl

namespace Sound

/-- A resolver in use answers with what the source is resolved to. -/
lemma isAnswered (sound : rs.Sound) (found : rs.get? i = some (s, r)) (source : String)
    (owner : TypeRef) :
    rs.IsAnswered (Path.resolve s.catalog source owner) (rs.resolve i source owner) := by
  obtain ⟨answer, r', answers, asked⟩ := resolve_of_get? found source owner
  have path_eq := (sound.faithful_get? found).map_path answers
  obtain ⟨-, cache, hcache, rfl⟩ := get?_eq_some_iff.mp found
  refine ⟨answer, _, asked, path_eq, ?_⟩
  rintro e rfl
  obtain rfl := answers.unchanged
  obtain ⟨present, rfl⟩ := List.getElem?_eq_some_iff.mp hcache
  dsimp only
  rw [List.set_getElem_self]

/-- A call keeps resolvers sound. -/
lemma resolve (sound : rs.Sound) {source : String} {owner : TypeRef}
    {answer : Except Error PathInstance} (h : rs.resolve i source owner = some (answer, rs')) :
    rs'.Sound ∧ rs.Extends rs' := by
  obtain ⟨⟨s, r⟩, found, -⟩ := Option.bind_eq_some_iff.mp h
  obtain ⟨answer', r', answers, asked⟩ := resolve_of_get? found source owner
  cases asked.symm.trans h
  have faithful := (sound.faithful_get? found).answer answers
  obtain ⟨-, cache, hcache, rfl⟩ := get?_eq_some_iff.mp found
  have bounded := answers.bounded (sound.bounded cache (List.mem_of_getElem? hcache))
  have capacities : (rs.caches.set s.cache r'.cache).map (·.capacity) =
      rs.caches.map (·.capacity) := by
    obtain ⟨present, rfl⟩ := List.getElem?_eq_some_iff.mp hcache
    rw [List.map_set, answers.capacity_eq, ← List.map_set, List.set_getElem_self]
  exact ⟨sound.write found answers.catalog_eq faithful bounded, List.prefix_rfl,
    capacities ▸ List.prefix_rfl⟩

/-- A request keeps resolvers sound and in use. -/
theorem run (sound : rs.Sound) {request : Request} (h : request.run rs = some rs') :
    rs'.Sound ∧ rs.Extends rs' := by
  cases request with
  | path i source owner =>
    obtain ⟨⟨answer, rs₁⟩, asked, rfl⟩ := Option.map_eq_some_iff.mp h
    exact sound.resolve asked
  | nested i p source =>
    obtain ⟨⟨answer, rs₁⟩, asked, rfl⟩ := Option.map_eq_some_iff.mp h
    exact sound.resolve asked
  | copy i => exact ⟨sound.copy h, .copy h⟩
  | extend i d =>
    obtain ⟨extended, made, result⟩ := Option.map_eq_some_iff.mp h
    obtain ⟨⟨s, r⟩, -, made⟩ := Option.bind_eq_some_iff.mp made
    dsimp only at made
    -- a declaration that is refused leaves everything as it is
    cases added : r.catalog.add d with
    | error e =>
      rw [added] at made
      cases made
      cases result
      exact ⟨sound, .refl rs⟩
    | ok c =>
      rw [added] at made
      cases made
      cases result
      exact ⟨sound.enter rfl, .enter rs _⟩
  | resize i capacity =>
    obtain ⟨⟨s, r⟩, -, h⟩ := Option.bind_eq_some_iff.mp h
    cases h
    exact ⟨sound.enter rfl, .enter rs _⟩

/-- Any requests keep resolvers sound and in use. -/
theorem after (sound : rs.Sound) {requests : List Request}
    (h : Resolvers.after requests rs = some rs') : rs'.Sound ∧ rs.Extends rs' := by
  induction requests generalizing rs with
  | nil =>
    cases h
    exact ⟨sound, .refl _⟩
  | cons request requests ih =>
    obtain ⟨rs₁, first, h⟩ := Option.bind_eq_some_iff.mp h
    obtain ⟨sound₁, kept₁⟩ := sound.run first
    obtain ⟨sound', kept⟩ := ih sound₁ h
    exact ⟨sound', kept₁.trans kept⟩

end Sound

/-- What enters is found under the next number. -/
lemma get?_enter (rs : Resolvers) (r : PathResolver) :
    ∃ s, (rs.enter r).get? rs.inUse.length = some (s, { r with next := rs.next }) :=
  ⟨_, get?_eq_some_iff.mpr
    ⟨List.getElem?_concat_length, _, List.getElem?_concat_length, rfl⟩⟩

/-- A resolver answers calls by what its catalog gives for them. -/
structure Transparent (rs : Resolvers) (i : Nat) (s : SharedResolver) : Prop where
  path (source : String) (owner : TypeRef) :
    rs.IsAnswered (Path.resolve s.catalog source owner) (rs.resolve i source owner)
  nested (p : PropertyPath) (source : String) :
    rs.IsAnswered (Path.resolve s.catalog (p.nestedSource source) p.head.owner)
      (rs.nested i p source)

/-- A copy of a resolver shares its cache. One for a further declaration or with another capacity
remembers nothing yet. -/
structure Renews (rs : Resolvers) (i : Nat) (s : SharedResolver) (r : PathResolver) : Prop where
  copied : ∃ rs', rs.copy i = some rs' ∧ rs'.inUse = rs.inUse ++ [s] ∧ rs'.caches = rs.caches
  extended (d : TypeDecl) (c : Catalog) : s.catalog.add d = .ok c →
    ∃ rs' s', rs.extend i d = some (.ok rs') ∧ rs'.get? rs.inUse.length =
      some (s', { catalog := c, cache := { capacity := r.cache.capacity }, next := rs.next })
  resized (capacity : Nat) : ∃ rs' s', rs.resize i capacity = some rs' ∧
    rs'.get? rs.inUse.length =
      some (s', { catalog := s.catalog, cache := { capacity }, next := rs.next })

/-- Every resolver in use answers by its catalog. -/
lemma Sound.transparent (sound : rs.Sound) (found : rs.get? i = some (s, r)) :
    rs.Transparent i s where
  path source owner := sound.isAnswered found source owner
  nested p source := sound.isAnswered found (p.nestedSource source) p.head.owner

/-- What is made from a resolver in use starts with nothing remembered, but a copy shares its cache.
-/
lemma renews_of_get? (found : rs.get? i = some (s, r)) : rs.Renews i s r := by
  obtain ⟨hs, cache, -, rfl⟩ := get?_eq_some_iff.mp found
  refine ⟨⟨{ rs with inUse := rs.inUse ++ [s] }, ?_, rfl, rfl⟩, ?_, ?_⟩
  · unfold copy
    rw [hs]
    rfl
  · intro d c added
    obtain ⟨s', entered⟩ := rs.get?_enter
      { catalog := c, cache := { capacity := cache.capacity }, next := rs.next }
    refine ⟨_, s', ?_, entered⟩
    unfold extend
    rw [found]
    dsimp only [Option.bind_eq_bind, Option.bind_some]
    rw [added]
    rfl
  · intro capacity
    obtain ⟨s', entered⟩ := rs.get?_enter
      { catalog := s.catalog, cache := { capacity }, next := rs.next }
    refine ⟨_, s', ?_, entered⟩
    unfold resize
    rw [found]
    rfl

/-- After any requests, each resolver in use answers calls by what its catalog gives for them, and
failures change nothing. No cache has more entries than there is room for. Resolvers stay in use
with their catalogs, caches and capacities, and those that are made from them start anew. -/
theorem answers_unremembered {capacity : Nat} {requests : List Request}
    (before : after requests (single c capacity) = some rs) :
    (∀ i s, rs.inUse[i]? = some s →
      rs.Transparent i s ∧ ∃ r, rs.get? i = some (s, r) ∧ rs.Renews i s r) ∧
      (∀ cache ∈ rs.caches, cache.entries.length ≤ max 1 cache.capacity) ∧
      ∀ more rs', after more rs = some rs' → rs.Extends rs' := by
  have sound : rs.Sound := ((Sound.single c capacity).after before).1
  refine ⟨?_, sound.bounded, fun more rs' later => (sound.after later).2⟩
  intro i s hs
  obtain ⟨r, found, -⟩ := sound.get? hs
  exact ⟨sound.transparent found, r, found, renews_of_get? found⟩

/-- The name of a city, once it was asked for, is answered by a copy, and by a resolver made from
the copy that has room for a single path. -/
theorem answers_unremembered_homeCity : ∃ rs,
    after [.path 0 "homeCityName" Path.Sample.customer, .copy 0, .resize 1 0]
        (single Path.Sample.homes 8) = some rs ∧
      ∀ i ∈ [1, 2], ∃ found rs',
        rs.resolve i "homeCityName" Path.Sample.customer = some (.ok found, rs') ∧
          found.path = ⟨Path.Sample.homeCity, [Path.Sample.cityName]⟩ := by
  obtain ⟨rs, asked, inUse_eq⟩ : ∃ rs,
      after [.path 0 "homeCityName" Path.Sample.customer, .copy 0, .resize 1 0]
        (single Path.Sample.homes 8) = some rs ∧
      rs.inUse = [⟨Path.Sample.homes, 0⟩, ⟨Path.Sample.homes, 0⟩, ⟨Path.Sample.homes, 1⟩] :=
    ⟨_, rfl, rfl⟩
  obtain ⟨answering, -⟩ := answers_unremembered asked
  refine ⟨rs, asked, ?_⟩
  intro i hi
  obtain ⟨s, hs, catalog_eq⟩ : ∃ s, rs.inUse[i]? = some s ∧ s.catalog = Path.Sample.homes := by
    rw [inUse_eq]
    rcases List.mem_pair.mp hi with rfl | rfl <;> exact ⟨_, rfl, rfl⟩
  obtain ⟨answer, rs', answered, path_eq, -⟩ :=
    (answering i s hs).1.path "homeCityName" Path.Sample.customer
  -- the copy found it remembered, the other one resolved it anew
  rw [catalog_eq, Path.Sample.homeCityName_resolved] at path_eq
  cases answer with
  | error => cases path_eq
  | ok found => exact ⟨found, rs', answered, Except.ok.inj path_eq⟩

end Resolvers

end EntityModel
