import EntityModel.Path.Cache
import EntityModel.Proofs.Path.Typing

/-!
# What a resolver remembers

Every path that a resolver remembers is the one that its source is resolved to from its type,
against the catalog of the resolver (`PathResolver.Faithful`). That is so at first and after every
request, so what a resolver answers does not depend on what it remembers
(`PathResolver.Faithful.map_path`), and every path that it answers is well typed
(`PathResolver.path_wellTyped`).
-/

namespace EntityModel

/-! ### Entries -/

namespace RecentCache

variable {κ α : Type} [DecidableEq κ] {cache cache' : RecentCache κ α} {key : κ} {value : α}
  {e : κ × α}

/-- What is left without a key was there before. -/
lemma mem_of_mem_without {entries : List (κ × α)} (h : e ∈ without entries key) : e ∈ entries :=
  (List.mem_filter.mp h).1

/-- What a cache answers is one of its entries. -/
lemma mem_of_use? (h : cache.use? key = some (value, cache')) : (key, value) ∈ cache.entries := by
  unfold use? at h
  split at h
  · rename_i found
    cases h
    have key_eq := List.find?_some found
    rw [decide_eq_true_eq] at key_eq
    rw [← key_eq]
    exact List.mem_of_find?_eq_some found
  · cases h

/-- A use changes the order of entries at most. -/
lemma mem_entries_of_use? (h : cache.use? key = some (value, cache')) (he : e ∈ cache'.entries) :
    e ∈ cache.entries := by
  unfold use? at h
  split at h
  · rename_i found
    cases h
    rcases List.mem_cons.mp he with rfl | he
    · exact List.mem_of_find?_eq_some found
    · exact mem_of_mem_without he
  · cases h

/-- What was just written is known. -/
lemma use?_put (cache : RecentCache κ α) (key : κ) (value : α) :
    ∃ cache', (cache.put key value).use? key = some (value, cache') := by
  obtain ⟨n, room⟩ : ∃ n, max 1 cache.capacity = n + 1 :=
    Nat.exists_eq_add_one.mpr (Nat.lt_of_lt_of_le Nat.one_pos (Nat.le_max_left _ _))
  have found : ((key, value) :: (without cache.entries key).take n).find?
      (fun e => decide (e.1 = key)) = some (key, value) :=
    List.find?_cons_of_pos (decide_eq_true rfl)
  unfold use? put
  rw [room, List.take_succ_cons]
  dsimp only
  rw [found]
  exact ⟨_, rfl⟩

/-- A write adds its own entry and no other. -/
lemma mem_entries_of_put (he : e ∈ (cache.put key value).entries) :
    e = (key, value) ∨ e ∈ cache.entries := by
  rcases List.mem_cons.mp (List.mem_of_mem_take he) with rfl | he
  · exact .inl rfl
  · exact .inr (mem_of_mem_without he)

end RecentCache

namespace PathResolver

variable {r r' : PathResolver} {c : Catalog} {source : String} {owner : TypeRef}
  {found : PathInstance}

/-! ### Requests -/

/-- What may come of a request for a path: it is remembered, or it is resolved now, which may fail.
-/
inductive Answers (r : PathResolver) (source : String) (owner : TypeRef) :
    Except Error PathInstance → PathResolver → Prop
  | remembered {found : PathInstance} {cache : RecentCache (TypeRef × String) PathInstance} :
      r.cache.use? (owner, source) = some (found, cache) →
      Answers r source owner (.ok found) { r with cache }
  | refused {e : Error} :
      r.cache.use? (owner, source) = none → Path.resolve r.catalog source owner = .error e →
      Answers r source owner (.error e) r
  | made {path : PropertyPath} :
      r.cache.use? (owner, source) = none → Path.resolve r.catalog source owner = .ok path →
      Answers r source owner (.ok ⟨path, r.next⟩)
        { r with cache := r.cache.put (owner, source) ⟨path, r.next⟩, next := r.next + 1 }

/-- A resolver answers every request in one of the ways that there are. -/
lemma answers_resolve (r : PathResolver) (source : String) (owner : TypeRef) :
    r.Answers source owner (r.resolve source owner).1 (r.resolve source owner).2 := by
  unfold resolve
  split
  · rename_i hit
    exact .remembered hit
  · rename_i miss
    split
    · rename_i refused
      exact .refused miss refused
    · rename_i resolved
      exact .made miss resolved

/-- The catalog stays. -/
lemma Answers.catalog_eq {result : Except Error PathInstance}
    (h : r.Answers source owner result r') : r'.catalog = r.catalog := by
  cases h with
  | remembered | refused | made => rfl

/-- A path that is resolved now is answered again when it is asked for next. -/
lemma resolve_again {path : PropertyPath} (miss : r.cache.use? (owner, source) = none)
    (resolved : Path.resolve r.catalog source owner = .ok path) :
    ∃ r', (r.resolve source owner).2.resolve source owner = (.ok ⟨path, r.next⟩, r') := by
  have made : (r.resolve source owner).2 =
      { r with cache := r.cache.put (owner, source) ⟨path, r.next⟩, next := r.next + 1 } := by
    unfold resolve
    rw [miss, resolved]
  obtain ⟨cache', hit⟩ := r.cache.use?_put (owner, source) ⟨path, r.next⟩
  rw [made]
  unfold resolve
  rw [hit]
  exact ⟨_, rfl⟩

/-- What a resolver is asked for: a path, the continuation of a path, or a resolver for another
catalog or with another capacity. -/
inductive Request where
  | path (source : String) (owner : TypeRef)
  | nested (p : PropertyPath) (source : String)
  | catalog (c : Catalog)
  | capacity (n : Nat)

def Request.run : Request → PathResolver → PathResolver
  | path source owner, r => (r.resolve source owner).2
  | nested p source, r => (r.nested p source).2
  | catalog c, r => r.withCatalog c
  | capacity n, r => r.withCapacity n

/-- The resolver after requests, one after the other. -/
def after (requests : List Request) (r : PathResolver) : PathResolver :=
  requests.foldl (fun r request => request.run r) r

/-! ### Faithful memory -/

/-- Every path that is remembered is what its source is resolved to. -/
def Faithful (r : PathResolver) : Prop :=
  ∀ e ∈ r.cache.entries, Path.resolve r.catalog e.1.2 e.1.1 = .ok e.2.path

namespace Faithful

/-- A resolver that remembers nothing is faithful. -/
lemma of_nil (h : r.cache.entries = []) : r.Faithful := by
  intro e he
  rw [h] at he
  exact absurd he List.not_mem_nil

/-- An answer leaves a resolver faithful. -/
lemma answer (faithful : r.Faithful) {result : Except Error PathInstance}
    (h : r.Answers source owner result r') : r'.Faithful := by
  cases h with
  | remembered hit => exact fun e he => faithful e (RecentCache.mem_entries_of_use? hit he)
  | refused => exact faithful
  | made _ resolved =>
    -- an entry may be dropped to make room, but none changes
    intro e he
    rcases RecentCache.mem_entries_of_put he with rfl | he
    · exact resolved
    · exact faithful e he

/-- A request leaves a resolver faithful. -/
lemma run (faithful : r.Faithful) (request : Request) : (request.run r).Faithful := by
  cases request with
  | path source owner => exact faithful.answer (r.answers_resolve source owner)
  | nested p source =>
    exact faithful.answer (r.answers_resolve (p.nestedSource source) p.head.owner)
  | catalog | capacity => exact .of_nil rfl

/-- Requests leave a resolver faithful, however many. -/
lemma after (faithful : r.Faithful) (requests : List Request) :
    (PathResolver.after requests r).Faithful := by
  induction requests generalizing r with
  | nil => exact faithful
  | cons request requests ih => exact ih (faithful.run request)

/-- A resolver made from a catalog is faithful after any requests. -/
lemma of_after {requests : List Request} (before : PathResolver.after requests (ofCatalog c) = r) :
    r.Faithful := by
  rw [← before]
  exact after (.of_nil rfl) requests

/-- A faithful resolver answers as if it remembered nothing. -/
lemma map_path (faithful : r.Faithful) {result : Except Error PathInstance}
    (h : r.Answers source owner result r') :
    result.map (·.path) = Path.resolve r.catalog source owner := by
  cases h with
  | remembered hit => exact (faithful _ (RecentCache.mem_of_use? hit)).symm
  | refused _ refused => exact refused.symm
  | made _ resolved => exact resolved.symm

/-- What a faithful resolver answers is what the source is resolved to. -/
lemma path_eq (faithful : r.Faithful) (answered : (r.resolve source owner).1 = .ok found) :
    Path.resolve r.catalog source owner = .ok found.path := by
  have same := faithful.map_path (r.answers_resolve source owner)
  rw [answered] at same
  exact same.symm

/-- A faithful resolver refuses what is refused without memory, for the same reason. -/
lemma resolve_error (faithful : r.Faithful) {e : Error} :
    (r.resolve source owner).1 = .error e ↔ Path.resolve r.catalog source owner = .error e := by
  rw [← faithful.map_path (r.answers_resolve source owner)]
  cases (r.resolve source owner).1 with
  | ok found => exact iff_of_false nofun nofun
  | error e' =>
    constructor <;>
    · intro same
      cases same
      rfl

end Faithful

/-- A path that is answered after any requests has a segment, leads from the given type through
properties of the types on the way, and every node that can be reached from it has its place in the
list of its segments. -/
theorem path_wellTyped {requests : List Request}
    (before : after requests (ofCatalog c) = r)
    (answered : r.resolve source owner = (.ok found, r')) :
    found.path.segments ≠ [] ∧ found.path.WellTyped r.catalog owner ∧
      ∀ q, found.path.Reaches q ↔
        ∃ i < found.path.length, q.segments = found.path.segments.drop i := by
  have faithful : r.Faithful := by
    rw [← before]
    exact Faithful.after (.of_nil rfl) requests
  have answers := r.answers_resolve source owner
  rw [answered] at answers
  refine ⟨List.cons_ne_nil _ _, ?_, fun q => PropertyPath.reaches_iff⟩
  exact Path.wellTyped_of_resolve (faithful.map_path answers).symm

/-- The name of a city is asked for twice. The second answer is remembered. -/
theorem path_wellTyped_homeCity : ∃ found r',
    (after [.path "homeCityName" Path.Sample.customer] (ofCatalog Path.Sample.homes)).resolve
        "homeCityName" Path.Sample.customer = (.ok found, r') ∧
      found.path = ⟨Path.Sample.homeCity, [Path.Sample.cityName]⟩ ∧
      found.path.WellTyped Path.Sample.homes Path.Sample.customer := by
  have resolved := Path.Sample.homeCityName_resolved
  obtain ⟨r', again⟩ := resolve_again (r := ofCatalog Path.Sample.homes) rfl resolved
  have requested : (after [.path "homeCityName" Path.Sample.customer]
      (ofCatalog Path.Sample.homes)).resolve "homeCityName" Path.Sample.customer = _ := again
  have catalog_eq : (after [.path "homeCityName" Path.Sample.customer]
      (ofCatalog Path.Sample.homes)).catalog = Path.Sample.homes :=
    (answers_resolve _ _ _).catalog_eq
  have typed := (path_wellTyped rfl requested).2.1
  rw [catalog_eq] at typed
  exact ⟨_, r', requested, rfl, typed⟩

end PathResolver

end EntityModel
