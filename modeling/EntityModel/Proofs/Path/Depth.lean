import EntityModel.Proofs.Path.Attempts
import EntityModel.Proofs.Path.Dotted

/-!
# The depth limit

Two counts are held against the limit: the segments that were found before a part, and those before
a head together with the humps that were cut off to get there. No source that is too short to reach
the limit is refused for it, no path gets longer than the limit and one more segment, and there is
no way to go on behind a path of that length (`PathResolver.resolve_depth`).
-/

namespace EntityModel

namespace Path

variable {c : Catalog} {owner : TypeRef} {source : String} {names : List String}
  {part : List Char} {later : List (List Char)}

/-- Parts that are named by the properties of a chain spell them. -/
lemma IsChain.exists_spellsParts (h : IsChain c owner (names.map fun n => spelling n.toList)) :
    ∃ segments, SpellsParts c owner (names.map String.toList) segments := by
  obtain ⟨segments, last, leads, names_eq⟩ := h.leads
  refine ⟨segments, .of_leads leads ?_⟩
  rw [names_eq, List.map_map]
  rfl

/-- No part is tried behind the longest path. -/
theorem resolve_of_long (long : names.length = maxDepth + 1)
    (chain : IsChain c owner (names.map fun n => spelling n.toList))
    (parts_eq : parts source.toList = names.map String.toList ++ part :: later) :
    resolve c source owner = .error (.depthExceeded maxDepth) := by
  obtain ⟨segments, spells⟩ := chain.exists_spellsParts
  have length_eq : segments.length = maxDepth + 1 := by
    rw [spells.length_eq, List.length_map]
    exact long
  -- one part beyond the limit may still be read
  have first : (names.map String.toList).foldlM (resolvePart c owner) [] = .ok segments :=
    foldlM_of_spells spells (by rw [List.length_nil, Nat.zero_add, length_eq])
  have next : resolvePart c owner segments part = .error (.depthExceeded maxDepth) := by
    rw [resolvePart_eq]
    apply if_pos
    rw [length_eq]
    exact Nat.lt_succ_self _
  have all : (parts source.toList).foldlM (resolvePart c owner) [] =
      .error (.depthExceeded maxDepth) := by
    rw [parts_eq, List.foldlM_append, first]
    show (part :: later).foldlM (resolvePart c owner) segments = _
    rw [List.foldlM_cons, next]
    rfl
  unfold resolve
  rw [all]
  rfl

/-- A dotted source that goes on with anything but delimiters has a further part. -/
lemma exists_parts_dotted {rest : String} {ch : Char} (isPart : ∀ n ∈ names, IsPart n)
    (names_ne : names ≠ []) (mem : ch ∈ rest.toList) (other : isUnderscoreOrDot ch = false) :
    ∃ part later, parts (dotted names ++ "." ++ rest).toList =
      names.map String.toList ++ part :: later := by
  obtain ⟨before, run, more, runs_eq⟩ := exists_runs_eq mem other
  exact ⟨_, _, parts_dotted_dot isPart names_ne runs_eq⟩

end Path

namespace PathResolver

variable {c : Catalog} {r : PathResolver} {source : String} {owner : TypeRef}

/-- After any requests, every source comes to the one result that the resolver gives for it. No path
has more segments than the limit and one more, and no source that has no more characters than the
limit is refused for its depth. A source whose first parts name the properties of the longest path
is always refused for its depth if there is a further part, as there is in a dotted source if
anything but delimiters follows. -/
theorem resolve_depth {requests : List Request} (before : after requests (ofCatalog c) = r) :
    (∀ source owner,
      (∃ failures, Path.SourceComesTo r.catalog source owner failures
        ((r.resolve source owner).1.map (·.path))) ∧
      ∀ failures result, Path.SourceComesTo r.catalog source owner failures result →
        result = (r.resolve source owner).1.map (·.path)) ∧
    (∀ source owner found r', r.resolve source owner = (.ok found, r') →
      found.path.length ≤ Path.maxDepth + 1) ∧
    (∀ source owner limit, source.length ≤ Path.maxDepth →
      (r.resolve source owner).1 ≠ .error (.depthExceeded limit)) ∧
    ∀ owner (names : List String), names.length = Path.maxDepth + 1 →
      Path.IsChain r.catalog owner (names.map fun n => Path.spelling n.toList) →
      (∀ source part later,
        Path.parts source.toList = names.map String.toList ++ part :: later →
        (r.resolve source owner).1 = .error (.depthExceeded Path.maxDepth)) ∧
      ((∀ n ∈ names, Path.IsPart n) → ∀ rest : String, (∃ ch ∈ rest.toList, ch ≠ '_' ∧ ch ≠ '.') →
        (r.resolve (Path.dotted names ++ "." ++ rest) owner).1 =
          .error (.depthExceeded Path.maxDepth)) := by
  have faithful := Faithful.of_after before
  refine ⟨?_, ?_, ?_, ?_⟩
  · intro source owner
    rw [faithful.map_path (r.answers_resolve source owner)]
    -- what a resolver remembers was resolved once, so the attempts are those at the source
    exact ⟨Path.exists_sourceComesTo r.catalog source owner, fun _ _ comes => comes.result_eq⟩
  · intro source owner found r' answered
    exact Path.length_of_resolve (faithful.path_eq (congrArg Prod.fst answered))
  · intro source owner limit short refused
    have outcome := Path.resolve_outcome r.catalog source owner
    rw [faithful.resolve_error.mp refused] at outcome
    exact Nat.not_lt.mpr short outcome.length_of_deep
  · intro owner names long chain
    have refused : ∀ source part later,
        Path.parts source.toList = names.map String.toList ++ part :: later →
        (r.resolve source owner).1 = .error (.depthExceeded Path.maxDepth) := by
      intro source part later parts_eq
      exact faithful.resolve_error.mpr (Path.resolve_of_long long chain parts_eq)
    refine ⟨refused, ?_⟩
    intro isPart rest further
    obtain ⟨ch, mem, no_underscore, no_dot⟩ := further
    have names_ne : names ≠ [] := List.ne_nil_of_length_eq_add_one long
    -- the dot behind the names cuts them off, whatever delimiters follow
    obtain ⟨part, later, parts_eq⟩ := Path.exists_parts_dotted isPart names_ne mem
      (Path.isUnderscoreOrDot_eq_false no_underscore no_dot)
    exact refused _ part later parts_eq

/-- One more link than the limit is followed, two more are not, and a source of two humps is far
from the limit. -/
theorem resolve_depth_links :
    (∃ found r', (ofCatalog Path.Sample.links).resolve
        (Path.dotted (List.replicate 1001 "next")) (.of "Link") = (.ok found, r') ∧
      found.path.length ≤ 1001) ∧
    ((ofCatalog Path.Sample.links).resolve "nextNext" (.of "Link")).1 ≠
      .error (.depthExceeded 1000) ∧
    ((ofCatalog Path.Sample.links).resolve
        (Path.dotted (List.replicate 1001 "next") ++ "." ++ "_Next.") (.of "Link")).1 =
      .error (.depthExceeded 1000) := by
  have start : after [] (ofCatalog Path.Sample.links) = ofCatalog Path.Sample.links := rfl
  obtain ⟨-, longest, short, long⟩ := resolve_depth start
  have plain : ∀ n ∈ List.replicate 1001 "next", Path.IsPlain n :=
    fun n hn => List.eq_of_mem_replicate hn ▸ Path.Sample.next_plain
  have length_eq : (List.replicate 1001 "next").length = Path.maxDepth + 1 := List.length_replicate
  have chain := Path.Sample.next_chain 1001
  have spelled : (List.replicate 1001 "next").map (fun n => Path.spelling n.toList) =
      List.replicate 1001 "next" := by
    rw [List.map_replicate, Path.Sample.next_plain.spelling_eq]
  refine ⟨?_, short _ _ _ (by decide), ?_⟩
  -- the longest source that is accepted
  · obtain ⟨p, resolved, -⟩ := Path.resolve_dotted (by decide) plain chain (Nat.le_of_eq length_eq)
    have faithful : (ofCatalog Path.Sample.links).Faithful := .of_nil rfl
    obtain ⟨found, r', answered, -⟩ := faithful.resolve_ok resolved
    exact ⟨found, r', answered, longest _ _ found r' answered⟩
  -- one more part is refused, also with further delimiters around it
  · rw [← spelled] at chain
    obtain ⟨-, dotted⟩ := long (.of "Link") _ length_eq chain
    apply dotted fun n hn => (plain n hn).isPart
    exact ⟨'N', by decide +kernel, by decide, by decide⟩

end PathResolver

end EntityModel
