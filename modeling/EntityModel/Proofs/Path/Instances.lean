import EntityModel.Proofs.Path.Nested
import EntityModel.Proofs.Path.Recency

/-!
# Instances of paths

A resolver answers a path either with an instance that it answered before or with a new one. Its
cache holds the most recently answered paths (`PathResolver.Tracks`), whatever mix of known, new and
refused paths it was asked for. So the latest instance for a type and a source is answered again as
long as fewer other paths than there is room for were answered since, and after that there is a new
one (`PathResolver.instance_recollected`).
-/

namespace EntityModel

namespace PathResolver

open RecentCache

variable {r r' : PathResolver} {capacity : Nat} {source : String} {owner : TypeRef}
  {known found : PathInstance}

/-! ### Calls and their log -/

/-- A call for a path, or for the continuation of a path. -/
inductive Call where
  | path (source : String) (owner : TypeRef)
  | nested (p : PropertyPath) (source : String)

namespace Call

/-- What a call looks up: the type from which the path leads, and the exact source. -/
def key : Call → TypeRef × String
  | path source owner => (owner, source)
  | nested p source => (p.head.owner, p.nestedSource source)

def ask : Call → PathResolver → Except Error PathInstance × PathResolver
  | path source owner, r => r.resolve source owner
  | nested p source, r => r.nested p source

/-- A call is answered as what it looks up is answered. -/
lemma answers_ask {call : Call} {result : Except Error PathInstance}
    (h : call.ask r = (result, r')) : r.Answers call.key.2 call.key.1 result r' := by
  cases call with
  | path source owner =>
    have answers := r.answers_resolve source owner
    rwa [show r.resolve source owner = (result, r') from h] at answers
  | nested p source =>
    have answers := r.answers_resolve (p.nestedSource source) p.head.owner
    rwa [show r.resolve (p.nestedSource source) p.head.owner = (result, r') from h] at answers

end Call

/-- The paths that were answered with what was looked up for them, the latest first. -/
abbrev Log := List ((TypeRef × String) × PathInstance)

/-- One more call. A call that is refused is not logged. -/
def serve (served : Log × PathResolver) (call : Call) : Log × PathResolver :=
  match call.ask served.2 with
  | (.ok found, r) => ((call.key, found) :: served.1, r)
  | (.error _, r) => (served.1, r)

/-- The log of calls, one after the other, and the resolver after them. -/
def serveAll (calls : List Call) (r : PathResolver) : Log × PathResolver :=
  calls.foldl serve ([], r)

/-! ### What a resolver remembers of its log -/

/-- A resolver remembers the most recent paths of a log and has numbered all of them. -/
structure Tracks (capacity : Nat) (log : Log) (r : PathResolver) : Prop where
  capacity_eq : r.cache.capacity = capacity
  recalls : r.cache.Recalls log
  numbered : ∀ e ∈ log, e.2.serial < r.next

namespace Tracks

variable {log : Log}

/-- A new resolver has logged nothing. -/
lemma start (c : Catalog) (capacity next : Nat) :
    Tracks capacity [] { catalog := c, cache := { capacity }, next } :=
  ⟨rfl, .nil rfl, nofun⟩

/-- An answer is logged, and remembered as the most recent one. -/
lemma answer (tracks : Tracks capacity log r) (h : r.Answers source owner (.ok found) r') :
    Tracks capacity (((owner, source), found) :: log) r' := by
  have recalls := tracks.recalls.put (owner, source) found
  cases h with
  | remembered hit =>
    obtain rfl := use?_eq_put tracks.recalls.isBounded hit
    refine ⟨tracks.capacity_eq, recalls, List.forall_mem_cons.mpr ⟨?_, tracks.numbered⟩⟩
    have listed := mem_of_use? hit
    rw [tracks.recalls] at listed
    exact tracks.numbered _ (mem_of_mem_recency (List.mem_of_mem_take listed))
  | made =>
    refine ⟨tracks.capacity_eq, recalls, List.forall_mem_cons.mpr ⟨Nat.lt_succ_self _, ?_⟩⟩
    exact fun e he => Nat.lt_succ_of_lt (tracks.numbered e he)

/-- A call is logged if it is answered, and changes nothing if it is refused. -/
lemma serve {served : Log × PathResolver} (tracks : Tracks capacity served.1 served.2)
    (call : Call) :
    Tracks capacity (PathResolver.serve served call).1 (PathResolver.serve served call).2 := by
  unfold PathResolver.serve
  split
  · rename_i answered
    exact tracks.answer (Call.answers_ask answered)
  · rename_i refused
    rw [(Call.answers_ask refused).unchanged]
    exact tracks

/-- After any calls a resolver tracks their log. -/
lemma serveAll {c : Catalog} {next : Nat} {calls : List Call}
    (h : PathResolver.serveAll calls { catalog := c, cache := { capacity }, next } = (log, r)) :
    Tracks capacity log r := by
  have kept : ∀ (calls : List Call) (served : Log × PathResolver),
      Tracks capacity served.1 served.2 →
      Tracks capacity (calls.foldl PathResolver.serve served).1
        (calls.foldl PathResolver.serve served).2 := by
    intro calls
    induction calls with
    | nil => exact fun _ tracks => tracks
    | cons call calls ih => exact fun served tracks => ih _ (tracks.serve call)
  have tracks := kept calls ([], _) (start c capacity next)
  rw [PathResolver.serveAll] at h
  rw [h] at tracks
  exact tracks

/-- Nothing is remembered for a key if too many other keys were answered since, or none was. -/
lemma use?_eq_none (tracks : Tracks capacity log r) {key : TypeRef × String}
    (lost : ∀ known since, Latest log key known since → max 1 capacity ≤ (keys since).card) :
    r.cache.use? key = none := by
  by_cases used : key ∈ keys log
  · obtain ⟨known, since, latest⟩ := exists_latest used
    have many := lost known since latest
    rw [← tracks.capacity_eq] at many
    rw [tracks.recalls.use?_of_latest latest, if_neg (Nat.not_lt_of_le many)]
  · exact tracks.recalls.use?_of_unused used

end Tracks

/-! ### Known and new instances -/

/-- What was not remembered is a new instance. -/
lemma Answers.serial_eq (h : r.Answers source owner (.ok found) r')
    (miss : r.cache.use? (owner, source) = none) : found.serial = r.next := by
  cases h with
  | remembered hit => cases miss.symm.trans hit
  | made => rfl

/-- What is remembered is answered. -/
lemma Answers.eq_known (h : r.Answers source owner (.ok found) r')
    {cache : RecentCache (TypeRef × String) PathInstance}
    (hit : r.cache.use? (owner, source) = some (known, cache)) : found = known := by
  cases h with
  | remembered hit' =>
    cases hit.symm.trans hit'
    rfl
  | made miss => cases miss.symm.trans hit

/-- How the instance that is answered for a key depends on the log. -/
structure Recollects (capacity : Nat) (log : Log) (key : TypeRef × String) (found : PathInstance) :
    Prop where
  /-- The latest instance for the key is answered again exactly if fewer other keys than there is
  room for were answered since. -/
  again : ∀ known since, Latest log key known since →
    (found = known ↔ (keys since).card < max 1 capacity)
  /-- If there is none, or too many other keys were answered since, the instance is new. -/
  new : (∀ known since, Latest log key known since → max 1 capacity ≤ (keys since).card) →
    ∀ e ∈ log, e.2.serial ≠ found.serial

/-- What a resolver remembers decides which instance it answers with. -/
lemma Tracks.recollects {log : Log} (tracks : Tracks capacity log r)
    (h : r.Answers source owner (.ok found) r') :
    Recollects capacity log (owner, source) found where
  again known since latest := by
    have used := tracks.recalls.use?_of_latest latest
    rw [tracks.capacity_eq] at used
    split at used
    · rename_i enough
      exact iff_of_true (h.eq_known used) enough
    · rename_i many
      refine iff_of_false ?_ many
      rintro rfl
      have numbered := tracks.numbered _ latest.mem
      rw [h.serial_eq used] at numbered
      exact Nat.lt_irrefl _ numbered
  new lost e he := by
    rw [h.serial_eq (tracks.use?_eq_none lost)]
    exact Nat.ne_of_lt (tracks.numbered e he)

/-- After any calls, a path that is answered is the latest instance that was answered for the same
type and source if there is one and fewer other paths than there is room for were answered since,
and a new instance otherwise. There is always room for one. A call that is refused changes nothing.
-/
theorem instance_recollected {c : Catalog} {next : Nat} {calls : List Call} {log : Log}
    (served : serveAll calls { catalog := c, cache := { capacity }, next } = (log, r))
    (call : Call) :
    (∀ found r', call.ask r = (.ok found, r') → Recollects capacity log call.key found) ∧
      ∀ e r', call.ask r = (.error e, r') → r' = r := by
  refine ⟨fun found r' answered => ?_, fun e r' refused => ?_⟩
  · exact (Tracks.serveAll served).recollects (Call.answers_ask answered)
  · exact (Call.answers_ask refused).unchanged

/-! ### Links of a chain -/

namespace Sample

open Path.Sample

/-- Two links are looked up in three spellings, the first one once more by a continuation. An empty
source is refused in between. -/
def lookUps : List Call :=
  [.path "next.next" (.of "Link"), .path "next_next" (.of "Link"), .path "" (.of "Link"),
    .nested ⟨nextLink, []⟩ "next", .path "next_next." (.of "Link")]

/-- The answers to the calls: the second one for the first spelling is known. -/
def lookedUp : Log :=
  [((.of "Link", "next_next."), ⟨⟨nextLink, [nextLink]⟩, 2⟩),
    ((.of "Link", "next.next"), ⟨⟨nextLink, [nextLink]⟩, 0⟩),
    ((.of "Link", "next_next"), ⟨⟨nextLink, [nextLink]⟩, 1⟩),
    ((.of "Link", "next.next"), ⟨⟨nextLink, [nextLink]⟩, 0⟩)]

/-- There is room for the two latest answers. -/
def afterLookUps : PathResolver where
  catalog := links
  cache := { capacity := 2, entries := lookedUp.take 2 }
  next := 3

/-- The calls run to this log and this resolver. -/
lemma served_lookUps :
    serveAll lookUps { catalog := links, cache := { capacity := 2 } } =
      (lookedUp, afterLookUps) := by
  have dotted := nextLinks_resolved "next.next" (by decide +kernel)
  have underscored := nextLinks_resolved "next_next" (by decide +kernel)
  have delimited := nextLinks_resolved "next_next." (by decide +kernel)
  have empty : Path.resolve links "" (.of "Link") = .error (.emptySource "") := by cbv
  have continued : PropertyPath.nestedSource ⟨nextLink, []⟩ "next" = "next.next" := by
    decide +kernel
  have owner_eq : nextLink.owner = .of "Link" := rfl
  simp [serveAll, lookUps, lookedUp, afterLookUps, serve, Call.ask, Call.key, PathResolver.resolve,
    PathResolver.nested, RecentCache.use?, RecentCache.put, RecentCache.without, dotted,
    underscored, delimited, empty, continued, owner_eq]

/-- Each spelling of two links is answered after the calls. -/
lemma afterLookUps_answers (source : String)
    (parts_eq : Path.parts source.toList = ["next".toList, "next".toList]) :
    ∃ found r', (Call.path source (.of "Link")).ask afterLookUps = (.ok found, r') := by
  have resolved := nextLinks_resolved source parts_eq
  dsimp only [Call.ask]
  unfold PathResolver.resolve
  rw [show afterLookUps.catalog = links from rfl, resolved]
  split <;> exact ⟨_, _, rfl⟩

end Sample

open Sample in
/-- The first of three spellings was used again, so its instance is still known where there is room
for two. The second one is read anew. -/
theorem instance_recollected_links :
    serveAll lookUps { catalog := Path.Sample.links, cache := { capacity := 2 } } =
        (lookedUp, afterLookUps) ∧
      (∃ found r', (Call.path "next.next" (.of "Link")).ask afterLookUps = (.ok found, r') ∧
        found.serial = 0) ∧
      ∃ found r', (Call.path "next_next" (.of "Link")).ask afterLookUps = (.ok found, r') ∧
        ∀ e ∈ lookedUp, e.2.serial ≠ found.serial := by
  refine ⟨served_lookUps, ?_, ?_⟩
  · obtain ⟨found, r', answered⟩ := afterLookUps_answers "next.next" (by decide +kernel)
    have recollects := (instance_recollected served_lookUps _).1 found r' answered
    -- the first spelling was used again behind the second one, and only one other since
    have latest : Latest lookedUp (.of "Link", "next.next")
        ⟨⟨Path.Sample.nextLink, [Path.Sample.nextLink]⟩, 0⟩ (lookedUp.take 1) :=
      ⟨⟨lookedUp.drop 2, rfl⟩, by decide⟩
    have same := (recollects.again _ _ latest).mpr (by decide)
    exact ⟨found, r', answered, congrArg PathInstance.serial same⟩
  · obtain ⟨found, r', answered⟩ := afterLookUps_answers "next_next" (by decide +kernel)
    have recollects := (instance_recollected served_lookUps _).1 found r' answered
    -- two others were used after the second spelling, which is as many as there is room for
    have latest : Latest lookedUp (.of "Link", "next_next")
        ⟨⟨Path.Sample.nextLink, [Path.Sample.nextLink]⟩, 1⟩ (lookedUp.take 2) :=
      ⟨⟨lookedUp.drop 3, rfl⟩, by decide⟩
    refine ⟨found, r', answered, recollects.new fun known since latest' => ?_⟩
    obtain ⟨-, rfl⟩ := latest.unique latest'
    decide

end PathResolver

end EntityModel
