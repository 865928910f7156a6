import EntityModel.Proofs.Path.Dotted

/-!
# Continuations of a path

A path is continued by resolving its dot path and a further source from the start. The names of the
path are found again one by one, and what comes behind them depends on them through the type that
they lead to and through the depth limit only (`Path.foldlM_of_append`). So the continuation of a
path is the path and what the source is resolved to from the type at its leaf
(`PathResolver.nested_segments`).
-/

namespace EntityModel

variable {c : Catalog} {owner last type : TypeRef} {p q : PropertyPath}

/-- The segments of a path lead to the type of its leaf. -/
lemma Path.typeAfter_segments (owner : TypeRef) (p : PropertyPath) :
    typeAfter owner p.segments = p.leafType := by
  obtain ⟨head, tail⟩ := p
  induction tail generalizing head owner with
  | nil => rfl
  | cons s tail ih =>
    rw [PropertyPath.leafType, PropertyPath.leafSegment, List.getLastD_cons]
    exact ih head.actual s

namespace Path

variable {text part : List Char} {ps : List (List Char)} {found short segments : List Segment}

/-! ### Fewer segments before a part -/

/-- A text that is resolved after some segments is resolved to the same after fewer of them. -/
lemma resolveText_of_shorter {before before' : List String}
    (h : resolveText c owner text before = .ok segments)
    (shorter : before'.length ≤ before.length) :
    resolveText c owner text before' = .ok segments := by
  -- fewer names stand before the text, so no step that was within the limit meets it now
  induction owner, text, before using resolveText.induct c generalizing segments before' with
  | case1 owner text before cut _ search deep =>
    rw [resolveText_eq, search, if_pos deep] at h
    cases h
  | case2 owner text before cut shallow search _ =>
    rw [resolveText_eq, search, if_neg shallow] at h
    cases h
  | case3 owner text before cut shallow s search _ =>
    rw [resolveText_eq, search, if_neg shallow] at h
    rw [resolveText_eq, search, if_neg (by omega)]
    exact h
  | case4 owner text before cut shallow s t rest search _ ih =>
    rw [resolveText_eq, search, if_neg shallow] at h
    rw [resolveText_eq, search, if_neg (by omega)]
    dsimp only at h ⊢
    cases more : resolveText c s.actual (t :: rest) (before ++ [s.name]) with
    | error e =>
      rw [more] at h
      cases h
    | ok behind =>
      rw [more] at h
      have shorter : (before' ++ [s.name]).length ≤ (before ++ [s.name]).length := by
        rw [List.length_append, List.length_append]
        exact Nat.add_le_add_right shorter _
      rw [ih more shorter]
      exact h

/-- The type that comes next is the one that the last segments lead to. -/
lemma nextOwner_of_append (next : nextOwner owner (found ++ short) = .ok type) :
    nextOwner (typeAfter owner found) short = .ok type := by
  rcases List.eq_nil_or_concat short with rfl | ⟨init, s, rfl⟩
  · rw [List.append_nil] at next
    rcases nextOwner_cases owner found with ⟨_, -, refused⟩ | same
    · cases next.symm.trans refused
    · exact same.symm.trans next
  · rw [List.concat_eq_append, nextOwner, ← List.append_assoc, List.getLast?_concat] at next
    rw [List.concat_eq_append, nextOwner, List.getLast?_concat]
    exact next

/-- A part that is resolved behind more segments adds the same ones behind the later of them alone.
-/
lemma resolvePart_of_append (h : resolvePart c owner (found ++ short) part = .ok segments) :
    ∃ rest, resolvePart c (typeAfter owner found) short part = .ok rest ∧
      segments = found ++ rest := by
  rw [resolvePart_eq] at h
  by_cases deep : maxDepth < (found ++ short).length
  · rw [if_pos deep] at h
    cases h
  rw [if_neg deep] at h
  cases next : nextOwner owner (found ++ short) with
  | error e =>
    rw [next] at h
    cases h
  | ok type =>
    rw [next, Except.bind] at h
    cases more : resolveText c type part ((found ++ short).map (·.name)) with
    | error e =>
      rw [more] at h
      cases h
    | ok created =>
      rw [more] at h
      cases h
      rw [List.length_append] at deep
      -- the text is the same, and only the names in front of it are fewer
      have same : resolveText c type part (short.map (·.name)) = .ok created := by
        apply resolveText_of_shorter more
        rw [List.map_append, List.length_append]
        exact Nat.le_add_left _ _
      refine ⟨short ++ created, ?_, List.append_assoc ..⟩
      rw [resolvePart_eq, if_neg (by omega), nextOwner_of_append next, Except.bind, same]
      rfl

/-- Parts that are resolved after some segments are resolved to the same from the type that these
segments lead to. -/
theorem foldlM_of_append (h : ps.foldlM (resolvePart c owner) (found ++ short) = .ok segments) :
    ∃ rest, ps.foldlM (resolvePart c (typeAfter owner found)) short = .ok rest ∧
      segments = found ++ rest := by
  induction ps generalizing short with
  | nil =>
    cases h
    exact ⟨short, rfl, rfl⟩
  | cons part ps ih =>
    rw [List.foldlM_cons] at h
    cases first : resolvePart c owner (found ++ short) part with
    | error e =>
      rw [first] at h
      cases h
    | ok extended =>
      rw [first] at h
      -- each part adds its segments behind those of the part before it
      obtain ⟨extended', first', rfl⟩ := resolvePart_of_append first
      obtain ⟨rest, later, rfl⟩ := ih h
      refine ⟨rest, ?_, rfl⟩
      rw [List.foldlM_cons, first']
      exact later

/-! ### Continuations -/

/-- A source that can follow a path: it is not quoted, and not all of its characters are delimiters.
-/
structure IsFurther (source : String) : Prop where
  unquoted : isQuoted source.toList = false
  exists_other : ∃ ch ∈ source.toList, ch ≠ '_' ∧ ch ≠ '.'

namespace IsFurther

variable {source : String}

/-- The first part of a further source is its first run with all delimiters before it. -/
lemma exists_runs_eq (h : IsFurther source) :
    ∃ before run more, runs isUnderscoreOrDot source.toList = (before, run) :: more ∧
      parts source.toList = (before ++ run) :: more.map separated := by
  obtain ⟨ch, mem, no_underscore, no_dot⟩ := h.exists_other
  obtain ⟨before, run, more, runs_eq⟩ :=
    Path.exists_runs_eq mem (isUnderscoreOrDot_eq_false no_underscore no_dot)
  refine ⟨before, run, more, runs_eq, ?_⟩
  unfold parts
  rw [h.unquoted, runs_eq]
  rfl

/-- A further source has parts. -/
lemma parts_ne_nil (h : IsFurther source) : parts source.toList ≠ [] := by
  obtain ⟨_, _, _, -, parts_eq⟩ := h.exists_runs_eq
  rw [parts_eq]
  exact List.cons_ne_nil _ _

/-- Delimiters at the joint but the first one stay with the first part of the source. -/
lemma parts_nestedSource (h : IsFurther source) (isPart : ∀ s ∈ p.segments, IsPart s.name) :
    parts (p.nestedSource source).toList =
      p.segments.map (·.name.toList) ++ parts source.toList := by
  obtain ⟨before, run, more, runs_eq, parts_eq⟩ := h.exists_runs_eq
  have cut : parts (p.nestedSource source).toList = _ :=
    parts_dotted_dot (List.forall_mem_map.mpr isPart) (List.cons_ne_nil _ _) runs_eq
  rwa [List.map_map, ← parts_eq] at cut

/-- The names of a path are found again before the source that follows them. -/
lemma foldlM_nestedSource (h : IsFurther source) (leads : Leads c owner p.segments last)
    (plain : ∀ s ∈ p.segments, IsPlain s.name) (room : p.length ≤ maxDepth + 1) :
    (parts (p.nestedSource source).toList).foldlM (resolvePart c owner) [] =
      (parts source.toList).foldlM (resolvePart c owner) p.segments := by
  have again : (p.segments.map (·.name.toList)).foldlM (resolvePart c owner) [] =
      .ok p.segments :=
    foldlM_of_spells (.of_plain leads plain) (by rw [List.length_nil, Nat.zero_add]; exact room)
  rw [h.parts_nestedSource fun s hs => (plain s hs).isPart, List.foldlM_append, again]
  rfl

/-- A continuation goes on from the leaf with the path of the source. -/
theorem resolve_of_nested (h : IsFurther source) (leads : Leads c owner p.segments last)
    (plain : ∀ s ∈ p.segments, IsPlain s.name) (room : p.length ≤ maxDepth + 1)
    (nested : resolve c (p.nestedSource source) owner = .ok q) :
    ∃ rest, resolve c source p.leafType = .ok rest ∧ q.segments = p.segments ++ rest.segments := by
  have folded := resolve_eq_ok_iff.mp nested
  rw [h.foldlM_nestedSource leads plain room, ← List.append_nil p.segments] at folded
  obtain ⟨rest, alone, split⟩ := foldlM_of_append folded
  rw [typeAfter_segments] at alone
  have rest_ne := ne_nil_of_foldlM (fun _ => ne_nil_of_mem_parts) h.parts_ne_nil alone
  obtain ⟨s, ss, rfl⟩ := List.exists_cons_of_ne_nil rest_ne
  exact ⟨⟨s, ss⟩, resolve_eq_ok_iff.mpr alone, split⟩

/-- A source that is short enough for the limit can follow the path if it can be resolved from its
leaf. -/
theorem nested_of_resolve (h : IsFurther source) (leads : Leads c owner p.segments last)
    (plain : ∀ s ∈ p.segments, IsPlain s.name) (room : p.length + source.length ≤ maxDepth)
    (resolved : resolve c source p.leafType = .ok q) :
    ∃ whole, resolve c (p.nestedSource source) owner = .ok whole := by
  obtain ⟨readings, reached, reads, -⟩ := reads_of_resolve resolved
  rw [← typeAfter_segments owner] at reads
  have room' : p.length ≤ maxDepth + 1 := by omega
  have folded := h.foldlM_nestedSource leads plain room'
  have parts_ne : ∀ part ∈ parts source.toList, part ≠ [] := fun part => ne_nil_of_mem_parts
  have outcome := foldlM_outcome c owner p.segments parts_ne
  rw [← folded] at outcome
  generalize result_eq : (parts (p.nestedSource source).toList).foldlM (resolvePart c owner) [] =
    result at outcome
  cases outcome with
  | read => exact ⟨⟨p.head, p.tail ++ _⟩, resolve_eq_ok_iff.mpr result_eq⟩
  | stuck stuck | unbound stuck => exact absurd stuck reads.not_getsStuck
  | deep deep =>
    -- no part of the source is longer than the source, so the limit is not met
    have short := flatten_parts_length source.toList
    rw [String.length_toList] at short
    have length_eq : p.segments.length = p.length := rfl
    omega

end IsFurther

end Path

namespace PathResolver

variable {r r₁ : PathResolver} {source : String} {found : PathInstance}

namespace Faithful

/-- No node is longer than the path. -/
lemma length_of_node (faithful : r.Faithful) (parsed : r.resolve source owner = (.ok found, r₁))
    (node : found.path.Reaches p) : p.length ≤ Path.maxDepth + 1 := by
  have longest := Path.length_of_resolve (faithful.path_eq (congrArg Prod.fst parsed))
  obtain ⟨i, -, dropped⟩ := PropertyPath.reaches_iff.mp node
  rw [PropertyPath.length, dropped, List.length_drop]
  exact Nat.le_trans (Nat.sub_le _ _) longest

/-- The names of a node are plain unless they have delimiters in them, since those of the path are.
-/
lemma isPlain_of_node (faithful : r.Faithful) (parsed : r.resolve source owner = (.ok found, r₁))
    (node : found.path.Reaches p) (undelimited : ∀ s ∈ p.segments, Path.IsUndelimited s.name) :
    ∀ s ∈ p.segments, Path.IsPlain s.name := by
  have resolved := faithful.path_eq (congrArg Prod.fst parsed)
  obtain ⟨i, -, dropped⟩ := PropertyPath.reaches_iff.mp node
  intro s hs
  have mem : s ∈ found.path.segments := by
    apply List.mem_of_mem_drop
    rwa [dropped] at hs
  exact Path.isPlain_of_resolve resolved mem (undelimited s hs)

end Faithful

/-- A node of a path that was resolved, without delimiters in its names, is continued by a source
just as the source is resolved from the type at its leaf, at any later time: the continuation goes
through the segments of the node and then through those of the path of the source. If there is such
a path and the limit is far enough, there is a continuation. -/
theorem nested_segments {requests : List Request} (before : after requests (ofCatalog c) = r)
    (parsed : r.resolve source owner = (.ok found, r₁)) (node : found.path.Reaches p)
    (undelimited : ∀ s ∈ p.segments, Path.IsUndelimited s.name) :
    ∀ further, Path.IsFurther further →
      ∀ more₂ r₂, after more₂ r₁ = r₂ → r₂.catalog = r₁.catalog →
      ∀ more₃ r₃, after more₃ r₁ = r₃ → r₃.catalog = r₁.catalog →
        (∀ whole, (r₂.nested p further).1 = .ok whole →
          ∃ rest, (r₃.resolve further p.leafType).1 = .ok rest ∧
            whole.path.segments = p.segments ++ rest.path.segments) ∧
        ∀ rest, (r₃.resolve further p.leafType).1 = .ok rest →
          p.length + further.length ≤ Path.maxDepth →
          ∃ whole, (r₂.nested p further).1 = .ok whole := by
  have faithful := Faithful.of_after before
  obtain ⟨last, leads⟩ := faithful.leads parsed node
  have plain := faithful.isPlain_of_node parsed node undelimited
  have room := faithful.length_of_node parsed node
  have answers := r.answers_resolve source owner
  rw [parsed] at answers
  have faithful₁ : r₁.Faithful := faithful.answer answers
  intro further isFurther more₂ r₂ later₂ same₂ more₃ r₃ later₃ same₃
  have faithful₂ : r₂.Faithful := by
    rw [← later₂]
    exact faithful₁.after more₂
  have faithful₃ : r₃.Faithful := by
    rw [← later₃]
    exact faithful₁.after more₃
  rw [answers.catalog_eq] at same₂ same₃
  refine ⟨?_, ?_⟩
  -- what the continuation resolves is split where the path ends
  · intro whole nested
    have nested := faithful₂.path_eq nested
    rw [same₂] at nested
    obtain ⟨path, alone, split⟩ := isFurther.resolve_of_nested leads plain room nested
    rw [← same₃] at alone
    obtain ⟨rest, _, answered, rfl⟩ := faithful₃.resolve_ok alone
    exact ⟨rest, congrArg Prod.fst answered, split⟩
  -- both together are within the limit, so nothing keeps the continuation from being resolved
  · intro rest alone room
    have alone := faithful₃.path_eq alone
    rw [same₃] at alone
    obtain ⟨path, nested⟩ := isFurther.nested_of_resolve leads plain room alone
    rw [← same₂] at nested
    obtain ⟨whole, _, answered, -⟩ := faithful₂.resolve_ok nested
    exact ⟨whole, congrArg Prod.fst answered⟩

end PathResolver

/-! ### Links that go on -/

namespace Path.Sample

def nextLink : Segment := ⟨.of "Link", "next", .of "Link"⟩

/-- A link has a property that is spelled like this. -/
lemma nextLink_spelled : Spells links (.of "Link") "next".toList nextLink := by
  have type_eq : links.propertyType? (.of "Link") "next" = some (.of "Link") := by cbv
  exact .of_spelling rfl next_plain.spelling_eq type_eq

/-- Two links are spelled by two parts. -/
lemma nextLinks_spelled :
    SpellsParts links (.of "Link") ["next".toList, "next".toList] [nextLink, nextLink] :=
  .cons nextLink_spelled (.cons nextLink_spelled .nil)

/-- Two links are found in any source of two parts that name them. -/
lemma nextLinks_resolved (source : String)
    (parts_eq : parts source.toList = ["next".toList, "next".toList]) :
    resolve links source (.of "Link") = .ok ⟨nextLink, [nextLink]⟩ := by
  apply resolve_eq_ok_iff.mpr
  rw [parts_eq]
  exact foldlM_of_spells nextLinks_spelled (by decide)

end Path.Sample

namespace PathResolver

/-- From the second of two links, two more are followed. They are found in a source that has another
delimiter and one at the end, which the continuation keeps. -/
theorem nested_segments_links : ∃ found r₁ whole,
    (ofCatalog Path.Sample.links).resolve "next.next" (.of "Link") = (.ok found, r₁) ∧
      ((after [.capacity 1] r₁).nested ⟨Path.Sample.nextLink, []⟩ "next_next.").1 = .ok whole ∧
      whole.path.segments = List.replicate 3 Path.Sample.nextLink := by
  have faithful : (ofCatalog Path.Sample.links).Faithful := .of_nil rfl
  obtain ⟨found, r₁, answered, path_eq⟩ := faithful.resolve_ok
    (Path.Sample.nextLinks_resolved "next.next" (by decide +kernel))
  have answers := (ofCatalog Path.Sample.links).answers_resolve "next.next" (.of "Link")
  rw [answered] at answers
  have node : found.path.Reaches ⟨Path.Sample.nextLink, []⟩ := by
    rw [path_eq]
    exact .next .refl rfl
  have undelimited : ∀ s ∈ [Path.Sample.nextLink], Path.IsUndelimited s.name :=
    List.forall_mem_singleton.mpr Path.Sample.next_plain.undelimited
  have isFurther : Path.IsFurther "next_next." :=
    ⟨by decide +kernel, 'n', by decide +kernel, by decide, by decide⟩
  have start : after [] (ofCatalog Path.Sample.links) = ofCatalog Path.Sample.links := rfl
  obtain ⟨split, continued⟩ := nested_segments start answered node undelimited _ isFurther
    [.capacity 1] _ rfl rfl [] _ rfl rfl
  have catalog_eq : r₁.catalog = Path.Sample.links := answers.catalog_eq
  have alone := Path.Sample.nextLinks_resolved "next_next." (by decide +kernel)
  rw [← catalog_eq] at alone
  obtain ⟨rest, _, rest_answered, rest_eq⟩ := (faithful.answer answers).resolve_ok alone
  have rest_found := congrArg Prod.fst rest_answered
  obtain ⟨whole, nested⟩ := continued rest rest_found (by decide)
  obtain ⟨rest', rest_found', segments⟩ := split whole nested
  -- the rest is resolved once, so both answers are the same
  cases rest_found.symm.trans rest_found'
  rw [rest_eq] at segments
  exact ⟨found, r₁, whole, answered, nested, segments⟩

end PathResolver

end EntityModel
