import EntityModel.Proofs.Path.Remembered
import EntityModel.Proofs.Path.Spelling

/-!
# Dotted sources

A dotted source spells its names one by one: if each of them is a property of the type behind the
property before it, the source is resolved to just these properties, up to the longest path that
the limit allows (`Path.resolve_dotted`). The dot path of a resolved path is such a source, whatever
the path was resolved from (`PathResolver.dotted_roundTrip`).
-/

namespace EntityModel

namespace Path

variable {c : Catalog} {owner last : TypeRef} {found segments : List Segment} {s : Segment}
  {isDelimiter : Char → Bool} {text run : List Char}

/-! ### Parts of a dotted source -/

/-- A run is found before a text whose first run, if there is one, stands behind delimiters. -/
lemma runs_append_of_others (run_ne : run ≠ []) (others : ∀ c ∈ run, isDelimiter c = false)
    (apart : ∀ next ∈ (runs isDelimiter text).head?, next.1 ≠ []) :
    runs isDelimiter (run ++ text) = ([], run) :: runs isDelimiter text := by
  induction run with
  | nil => exact absurd rfl run_ne
  | cons c run ih =>
    obtain ⟨hc, others⟩ := List.forall_mem_cons.mp others
    have step := runs_cons isDelimiter c (run ++ text)
    rw [List.cons_append]
    -- the last character of the run meets the text behind it, all others meet one of their own kind
    cases run with
    | nil =>
      rw [List.nil_append] at step ⊢
      generalize runs isDelimiter (c :: text) = extended at step ⊢
      generalize runs isDelimiter text = found at step apart ⊢
      cases step with
      | dropped isDelim | joinsDelimiters isDelim => rw [hc] at isDelim; cases isDelim
      -- the next run stands behind delimiters, so the character does not join it
      | joinsRun => exact absurd rfl (apart _ rfl)
      | startsRun => rfl
    | cons d run =>
      rw [ih (List.cons_ne_nil _ _) others] at step
      generalize runs isDelimiter (c :: (d :: run ++ text)) = extended at step ⊢
      cases step with
      | joinsDelimiters isDelim => rw [hc] at isDelim; cases isDelim
      | joinsRun => rfl
      | startsRun _ apart => exact absurd rfl (apart _ rfl)

/-- One more delimiter in front goes to the first run. -/
lemma runs_delimiter {c : Char} {before : List Char} {more : List (List Char × List Char)}
    (hc : isDelimiter c = true) (found : runs isDelimiter text = (before, run) :: more) :
    runs isDelimiter (c :: text) = (c :: before, run) :: more := by
  have step := runs_cons isDelimiter c text
  rw [found] at step
  generalize runs isDelimiter (c :: text) = extended at step ⊢
  cases step with
  | joinsDelimiters => rfl
  | joinsRun other | startsRun other => rw [hc] at other; cases other

/-- A name without the characters that delimit parts or quote a source. -/
def IsUndelimited (name : String) : Prop :=
  ∀ c ∈ name.toList, c ≠ '_' ∧ c ≠ '.' ∧ c ≠ '\\'

instance : DecidablePred IsUndelimited := fun name => List.decidableBAll _ name.toList

/-- A name that a part of a source can spell: it has a character and is not changed by
decapitalizing it. -/
structure IsPlain (name : String) : Prop where
  ne_empty : name ≠ ""
  undelimited : IsUndelimited name
  decapitalized : decapitalize name.toList = name.toList

/-- A name that is a part of a source as it stands: it has a character, and none that delimits parts
or quotes a source. -/
structure IsPart (name : String) : Prop where
  ne_empty : name ≠ ""
  undelimited : IsUndelimited name

/-- A plain name is a part of a source. -/
lemma IsPlain.isPart {name : String} (h : IsPlain name) : IsPart name :=
  ⟨h.ne_empty, h.undelimited⟩

/-- A plain name spells itself. -/
lemma IsPlain.spelling_eq {name : String} (h : IsPlain name) : spelling name.toList = name := by
  rw [spelling, h.decapitalized, String.ofList_toList]

namespace IsPart

variable {name : String}

/-- A part has characters. -/
lemma chars_ne_nil (h : IsPart name) : name.toList ≠ [] := by
  intro empty
  exact h.ne_empty (String.toList_eq_nil_iff.mp empty)

/-- A part has no delimiters. -/
lemma others (h : IsPart name) : ∀ c ∈ name.toList, isUnderscoreOrDot c = false := by
  intro c hc
  obtain ⟨no_underscore, no_dot, -⟩ := h.undelimited c hc
  exact isUnderscoreOrDot_eq_false no_underscore no_dot

/-- A source that starts with a part is not quoted. -/
lemma isQuoted_append (h : IsPart name) (text : List Char) :
    isQuoted (name.toList ++ text) = false := by
  obtain ⟨c, cs, chars⟩ := List.exists_cons_of_ne_nil h.chars_ne_nil
  have no_backslash : c ≠ '\\' := (h.undelimited c (chars ▸ List.mem_cons_self)).2.2
  rw [chars, List.cons_append]
  unfold isQuoted
  split
  · rename_i quoted
    exact absurd (List.cons.inj quoted).1 no_backslash
  · rfl

end IsPart

def dotted (names : List String) : String :=
  ".".intercalate names

/-- The characters of dotted names are those of the names with dots between them. -/
lemma toList_dotted (names : List String) :
    (dotted names).toList = ['.'].intercalate (names.map String.toList) := by
  rw [dotted, String.toList_intercalate]
  rfl

/-- A dotted source starts with its first name. -/
lemma exists_dotted_append (name : String) (names : List String) (text : List Char) :
    ∃ rest, (dotted (name :: names)).toList ++ text = name.toList ++ rest := by
  rw [toList_dotted, List.map_cons]
  cases names with
  | nil => exact ⟨text, by rw [List.map_nil, List.intercalate_singleton]⟩
  | cons next names =>
    rw [List.map_cons, List.intercalate_cons_cons, List.append_assoc, List.append_assoc]
    exact ⟨_, rfl⟩

/-- The names of a dotted source are its first runs, whatever follows behind a delimiter. -/
lemma runs_dotted_append {name : String} {names : List String}
    (isPart : ∀ n ∈ name :: names, IsPart n)
    (apart : ∀ next ∈ (runs isUnderscoreOrDot text).head?, next.1 ≠ []) :
    runs isUnderscoreOrDot ((dotted (name :: names)).toList ++ text) =
      ([], name.toList) :: ((names.map fun n => (['.'], n.toList)) ++
        runs isUnderscoreOrDot text) := by
  rw [toList_dotted]
  induction names generalizing name with
  | nil =>
    have hname := isPart name List.mem_cons_self
    rw [List.map_singleton, List.intercalate_singleton,
      runs_append_of_others hname.chars_ne_nil hname.others apart]
    rfl
  | cons next names ih =>
    obtain ⟨hname, isPart⟩ := List.forall_mem_cons.mp isPart
    -- the dot between two names is the delimiter before the later one
    have rest := runs_delimiter (c := '.') rfl (ih isPart)
    rw [List.map_cons, List.map_cons, List.intercalate_cons_cons, List.append_assoc,
      List.append_assoc, List.singleton_append, ← List.map_cons]
    rw [runs_append_of_others hname.chars_ne_nil hname.others, rest]
    · rfl
    · rw [rest]
      simp

/-- The names of a dotted source are its first parts, and what follows behind a delimiter is cut
into parts of its own. -/
lemma parts_dotted_append {names : List String} (isPart : ∀ n ∈ names, IsPart n)
    (names_ne : names ≠ [])
    (apart : ∀ next ∈ (runs isUnderscoreOrDot text).head?, next.1 ≠ []) :
    parts ((dotted names).toList ++ text) =
      names.map String.toList ++ (runs isUnderscoreOrDot text).map separated := by
  obtain ⟨name, names, rfl⟩ := List.exists_cons_of_ne_nil names_ne
  have unquoted : isQuoted ((dotted (name :: names)).toList ++ text) = false := by
    obtain ⟨rest, starts⟩ := exists_dotted_append name names text
    rw [starts]
    exact (isPart name List.mem_cons_self).isQuoted_append rest
  unfold parts
  rw [unquoted, runs_dotted_append isPart apart]
  simp only [Bool.false_eq_true, if_false, List.nil_append, List.map_append, List.map_map,
    List.map_cons, List.cons_append]
  rfl

/-- Dotted names are cut into the names again. -/
lemma parts_dotted {names : List String} (isPart : ∀ n ∈ names, IsPart n) (names_ne : names ≠ []) :
    parts (dotted names).toList = names.map String.toList := by
  have nothing : ∀ next ∈ (runs isUnderscoreOrDot []).head?, next.1 ≠ [] := nofun
  have alone := parts_dotted_append isPart names_ne nothing
  rwa [List.append_nil, runs, List.map_nil, List.append_nil] at alone

/-- What follows a dotted source behind a dot is cut into parts like a source that is not quoted. -/
lemma parts_dotted_dot {names : List String} {rest : String} {before : List Char}
    {more : List (List Char × List Char)} (isPart : ∀ n ∈ names, IsPart n) (names_ne : names ≠ [])
    (runs_eq : runs isUnderscoreOrDot rest.toList = (before, run) :: more) :
    parts (dotted names ++ "." ++ rest).toList =
      names.map String.toList ++ (before ++ run) :: more.map separated := by
  have chars : (dotted names ++ "." ++ rest).toList =
      (dotted names).toList ++ '.' :: rest.toList := by
    rw [String.toList_append, String.toList_append, List.append_assoc]
    rfl
  have behind : runs isUnderscoreOrDot ('.' :: rest.toList) = ('.' :: before, run) :: more :=
    runs_delimiter rfl runs_eq
  have apart : ∀ next ∈ (runs isUnderscoreOrDot ('.' :: rest.toList)).head?, next.1 ≠ [] := by
    rw [behind]
    intro next head
    cases head
    exact List.cons_ne_nil _ _
  rw [chars, parts_dotted_append isPart names_ne apart, behind]
  rfl

/-! ### Resolving a dotted source -/

/-- A text that spells a property is resolved to it, unless too many names stand before it. -/
lemma resolveText_of_spells {before : List String} (spells : Spells c owner text s)
    (room : before.length ≤ maxDepth) : resolveText c owner text before = .ok [s] := by
  rw [resolveText_eq, longestHead_of_spells spells]
  exact if_neg (Nat.not_lt.mpr room)

/-- A type with a property is no type variable. -/
lemma not_isVariable_of_spells (spells : Spells c owner text s) : owner.isVariable = false := by
  rw [Bool.eq_false_iff]
  exact fun isVariable => isStuck_of_isVariable isVariable text s .refl spells

/-- A part that spells a property adds its segment to those that were found. -/
lemma resolvePart_of_spells (spells : Spells c (typeAfter owner found) text s)
    (room : found.length ≤ maxDepth) : resolvePart c owner found text = .ok (found ++ [s]) := by
  rcases resolvePart_cases c owner found text with ⟨deep, -⟩ | ⟨type, isVariable, -⟩ | eq
  · exact absurd deep (Nat.not_lt.mpr room)
  · rw [not_isVariable_of_spells spells] at isVariable
    cases isVariable
  · rw [eq, resolveText_of_spells spells (by rwa [List.length_map])]
    rfl

/-- Parts spell properties one by one, each of them a property of the type behind the one before it.
-/
inductive SpellsParts (c : Catalog) : TypeRef → List (List Char) → List Segment → Prop
  | nil {owner : TypeRef} : SpellsParts c owner [] []
  | cons {owner : TypeRef} {part : List Char} {ps : List (List Char)} {s : Segment}
      {segments : List Segment} :
      Spells c owner part s → SpellsParts c s.actual ps segments →
      SpellsParts c owner (part :: ps) (s :: segments)

namespace SpellsParts

variable {ps : List (List Char)}

/-- Parts that spell the names of segments one by one are resolved to them. -/
lemma of_leads (leads : Leads c owner segments last)
    (names_eq : segments.map (·.name) = ps.map spelling) : SpellsParts c owner ps segments := by
  induction leads generalizing ps with
  | nil =>
    cases List.map_eq_nil_iff.mp names_eq.symm
    exact .nil
  | cons owner_eq type_eq _ ih =>
    cases ps with
    | nil => cases names_eq
    | cons part ps =>
      obtain ⟨name_eq, names_eq⟩ := List.cons.inj names_eq
      exact .cons (.of_spelling owner_eq name_eq.symm type_eq) (ih names_eq)

/-- Plain names spell the segments that they are the names of. -/
lemma of_plain (leads : Leads c owner segments last) (plain : ∀ s ∈ segments, IsPlain s.name) :
    SpellsParts c owner (segments.map (·.name.toList)) segments := by
  apply of_leads leads
  rw [List.map_map]
  exact List.map_congr_left fun s hs => (plain s hs).spelling_eq.symm

/-- There is a segment for each part. -/
lemma length_eq (h : SpellsParts c owner ps segments) : segments.length = ps.length := by
  induction h with
  | nil => rfl
  | cons _ _ ih => exact congrArg Nat.succ ih

end SpellsParts

/-- Parts that spell a chain of properties are resolved to them, up to the longest path. -/
lemma foldlM_of_spells {ps : List (List Char)}
    (spells : SpellsParts c (typeAfter owner found) ps segments)
    (room : found.length + segments.length ≤ maxDepth + 1) :
    ps.foldlM (resolvePart c owner) found = .ok (found ++ segments) := by
  generalize start : typeAfter owner found = type at spells
  induction spells generalizing found with
  | nil => exact congrArg Except.ok (List.append_nil found).symm
  | @cons type part ps s segments spells _ ih =>
    rw [List.length_cons] at room
    rw [← start] at spells
    rw [List.foldlM_cons, resolvePart_of_spells spells (by omega)]
    have room : (found ++ [s]).length + segments.length ≤ maxDepth + 1 := by
      rw [List.length_append, List.length_singleton]
      omega
    have further := ih room (by rw [typeAfter_append]; rfl)
    rwa [List.append_assoc] at further

/-- A source is resolved to the segments that its parts come to, one after the other. -/
lemma resolve_eq_ok_iff {source : String} {p : PropertyPath} : resolve c source owner = .ok p ↔
    (parts source.toList).foldlM (resolvePart c owner) [] = .ok p.segments := by
  unfold resolve
  generalize (parts source.toList).foldlM (resolvePart c owner) [] = result
  rcases result with e | _ | ⟨s, segments⟩
  · exact iff_of_false nofun nofun
  · exact iff_of_false nofun nofun
  · constructor
    · intro resolved
      cases resolved
      rfl
    · intro folded
      cases folded
      rfl

/-- The dotted names of a path are resolved to the path, if they are plain and not too many. -/
theorem resolve_of_leads {p : PropertyPath} (leads : Leads c owner p.segments last)
    (plain : ∀ s ∈ p.segments, IsPlain s.name) (room : p.length ≤ maxDepth + 1) :
    resolve c p.dotPath owner = .ok p := by
  have parts_eq : parts p.dotPath.toList = p.segments.map (·.name.toList) := by
    have isPart : ∀ n ∈ p.segments.map (·.name), IsPart n :=
      List.forall_mem_map.mpr fun s hs => (plain s hs).isPart
    have cut := parts_dotted isPart (List.cons_ne_nil _ _)
    rwa [List.map_map] at cut
  apply resolve_eq_ok_iff.mpr
  rw [parts_eq]
  exact foldlM_of_spells (.of_plain leads plain) (by rw [List.length_nil, Nat.zero_add]; exact room)

/-- A path that a source was resolved to was read from its parts. -/
lemma reads_of_resolve {source : String} {p : PropertyPath} (h : resolve c source owner = .ok p) :
    ∃ readings last, ReadsParts c owner (parts source.toList) readings last ∧
      p.segments = readings.flatten.map (·.segment) := by
  have outcome := resolve_outcome c source owner
  rw [h] at outcome
  exact outcome.reads

/-! ### The length of a resolved path -/

/-- The names before a text and the segments it is resolved to are one more than the limit at most.
-/
lemma resolveText_length {before : List String} (h : resolveText c owner text before = .ok found) :
    before.length + found.length ≤ maxDepth + 1 := by
  -- the cases are those of the resolution itself, and only the last one goes on
  induction owner, text, before using resolveText.induct c generalizing found with
  | case1 owner text before cut _ search deep =>
    rw [resolveText_eq, search, if_pos deep] at h
    cases h
  | case2 owner text before cut shallow search _ =>
    rw [resolveText_eq, search, if_neg shallow] at h
    cases h
  | case3 owner text before cut shallow s search _ =>
    rw [resolveText_eq, search, if_neg shallow] at h
    cases h
    rw [List.length_singleton]
    omega
  | case4 owner text before cut shallow s t rest search _ ih =>
    rw [resolveText_eq, search, if_neg shallow] at h
    dsimp only at h
    cases more : resolveText c s.actual (t :: rest) (before ++ [s.name]) with
    | error e =>
      rw [more] at h
      cases h
    | ok segments =>
      rw [more] at h
      cases h
      have short := ih more
      rw [List.length_append, List.length_singleton] at short
      rw [List.length_cons]
      omega

/-- A part leaves no more segments than one beyond the limit. -/
lemma resolvePart_length (h : resolvePart c owner found text = .ok segments) :
    segments.length ≤ maxDepth + 1 := by
  rcases resolvePart_cases c owner found text with ⟨-, eq⟩ | ⟨type, -, eq⟩ | eq
  · rw [eq] at h
    cases h
  · rw [eq] at h
    cases h
  · rw [eq] at h
    cases more : resolveText c (typeAfter owner found) text (found.map (·.name)) with
    | error e =>
      rw [more] at h
      cases h
    | ok created =>
      rw [more] at h
      cases h
      have short := resolveText_length more
      rw [List.length_map] at short
      rwa [List.length_append]

/-- However many parts there are, they leave no more segments than one beyond the limit. -/
lemma foldlM_length {ps : List (List Char)} (start : found.length ≤ maxDepth + 1)
    (h : ps.foldlM (resolvePart c owner) found = .ok segments) :
    segments.length ≤ maxDepth + 1 := by
  induction ps generalizing found with
  | nil =>
    cases h
    exact start
  | cons part ps ih =>
    rw [List.foldlM_cons] at h
    cases first : resolvePart c owner found part with
    | error e =>
      rw [first] at h
      cases h
    | ok extended =>
      rw [first] at h
      exact ih (resolvePart_length first) h

/-- No path is longer than the limit and one more segment. -/
theorem length_of_resolve {source : String} {p : PropertyPath}
    (h : resolve c source owner = .ok p) : p.length ≤ maxDepth + 1 :=
  foldlM_length (Nat.zero_le _) (resolve_eq_ok_iff.mp h)

/-- A name on a resolved path is plain unless it has delimiters in it. -/
lemma isPlain_of_resolve {source : String} {p : PropertyPath} (h : resolve c source owner = .ok p)
    (hs : s ∈ p.segments) (undelimited : IsUndelimited s.name) : IsPlain s.name := by
  obtain ⟨readings, last, reads, segments⟩ := reads_of_resolve h
  have spelled := reads.spelledOut
  have named : s.name ∈ readings.flatten.map (·.segment.name) := by
    rw [segments] at hs
    obtain ⟨choice, hchoice, rfl⟩ := List.mem_map.mp hs
    exact List.mem_map.mpr ⟨choice, hchoice, rfl⟩
  rw [spelled.names_eq] at named
  obtain ⟨head, hhead, name_eq⟩ := List.mem_map.mp named
  obtain ⟨part, hpart, hhead⟩ := List.mem_flatten.mp hhead
  have chars : s.name.toList = decapitalize head := by
    rw [← name_eq, spelling, String.toList_ofList]
  refine ⟨fun empty => ?_, undelimited, ?_⟩
  · have head_ne := spelled.ne_nil part hpart head hhead
    rw [empty] at chars
    exact decapitalize_ne_nil head_ne chars.symm
  · rw [chars, decapitalize_decapitalize]

/-- The dot path of a resolved path is resolved to the same path, unless its names have delimiters
in them. -/
theorem resolve_dotPath {source : String} {p : PropertyPath} (h : resolve c source owner = .ok p)
    (undelimited : ∀ s ∈ p.segments, IsUndelimited s.name) :
    resolve c p.dotPath owner = .ok p := by
  obtain ⟨readings, last, reads, segments⟩ := reads_of_resolve h
  have leads := reads.leads
  rw [← segments] at leads
  have plain : ∀ s ∈ p.segments, IsPlain s.name :=
    fun s hs => isPlain_of_resolve h hs (undelimited s hs)
  exact resolve_of_leads leads plain (length_of_resolve h)

/-! ### Chains of names -/

/-- Each name is that of a property of the type behind the property before it, the first one of a
property of the given type. -/
def IsChain (c : Catalog) : TypeRef → List String → Prop
  | _, [] => True
  | owner, name :: names =>
    ∃ type, c.propertyType? owner name = some type ∧ IsChain c type.actual names

/-- A chain of property names is a chain of segments. -/
lemma IsChain.leads {names : List String} (h : IsChain c owner names) :
    ∃ segments last, Leads c owner segments last ∧ segments.map (·.name) = names := by
  induction names generalizing owner with
  | nil => exact ⟨[], owner, .nil, rfl⟩
  | cons name names ih =>
    obtain ⟨type, type_eq, more⟩ := h
    obtain ⟨segments, last, leads, names_eq⟩ := ih more
    refine ⟨⟨owner, name, type⟩ :: segments, last, .cons rfl type_eq leads, ?_⟩
    rw [List.map_cons, names_eq]

/-- A chain of plain names, written with dots between them, is resolved to a path of just these
names, up to the longest path. -/
theorem resolve_dotted {names : List String} (names_ne : names ≠ [])
    (plain : ∀ n ∈ names, IsPlain n) (chain : IsChain c owner names)
    (room : names.length ≤ maxDepth + 1) :
    ∃ p, resolve c (dotted names) owner = .ok p ∧ p.segments.map (·.name) = names := by
  obtain ⟨segments, last, leads, rfl⟩ := chain.leads
  cases segments with
  | nil => exact absurd rfl names_ne
  | cons s segments =>
    rw [List.length_map] at room
    have resolved := resolve_of_leads (p := ⟨s, segments⟩) leads (List.forall_mem_map.mp plain) room
    exact ⟨⟨s, segments⟩, resolved, rfl⟩

/-! ### Links of a chain -/

namespace Sample

/-- Links that lead from one to the next one. -/
def links : Catalog where
  declarations := [{ name := "Link", fields := [{ name := "next", type := .of "Link" }] }]

/-- A link leads to a link as often as one likes. -/
lemma next_chain (n : Nat) : IsChain links (.of "Link") (List.replicate n "next") := by
  have type_eq : links.propertyType? (.of "Link") "next" = some (.of "Link") := by cbv
  induction n with
  | zero => trivial
  | succ n ih => exact ⟨_, type_eq, ih⟩

/-- The sample's property has a plain name. -/
lemma next_plain : IsPlain "next" where
  ne_empty := by decide
  undelimited := by decide +kernel
  decapitalized := by decide +kernel

end Sample

end Path

namespace PathResolver

variable {c : Catalog} {r : PathResolver} {source : String} {owner : TypeRef} {p : PropertyPath}

/-- A resolver that remembers what is right answers with the path that a source is resolved to. -/
lemma Faithful.resolve_ok (faithful : r.Faithful)
    (resolved : Path.resolve r.catalog source owner = .ok p) :
    ∃ found r', r.resolve source owner = (.ok found, r') ∧ found.path = p := by
  have same := faithful.map_path (r.answers_resolve source owner)
  rw [resolved] at same
  cases answer : r.resolve source owner with
  | mk result r' =>
    rw [answer] at same
    cases result with
    | error e => cases same
    | ok found => exact ⟨found, r', rfl, Except.ok.inj same⟩

/-- Every node of a path that a resolver answers leads on from its own type. -/
lemma Faithful.leads {r' : PathResolver} {found : PathInstance} {q : PropertyPath}
    (faithful : r.Faithful) (answered : r.resolve source owner = (.ok found, r'))
    (node : found.path.Reaches q) : ∃ last, Leads r.catalog q.head.owner q.segments last := by
  obtain ⟨readings, last, reads, segments_eq⟩ :=
    Path.reads_of_resolve (faithful.path_eq (congrArg Prod.fst answered))
  obtain ⟨n, -, dropped⟩ := PropertyPath.reaches_iff.mp node
  obtain ⟨next, leads⟩ := reads.leads.drop n
  rw [← segments_eq, ← dropped] at leads
  cases leads with
  | cons owner_eq type_eq more => exact ⟨last, .cons rfl (owner_eq ▸ type_eq) more⟩

/-- A dotted source of plain names that are properties one behind the other is resolved to a path of
just these names, whose dot path it is. A path that was resolved from any source, without delimiters
in its names, is resolved from its dot path again. -/
theorem dotted_roundTrip {requests : List Request} (before : after requests (ofCatalog c) = r) :
    (∀ owner names, names ≠ [] → names.length ≤ Path.maxDepth + 1 →
      (∀ n ∈ names, Path.IsPlain n) → Path.IsChain r.catalog owner names →
      ∃ found r', r.resolve (Path.dotted names) owner = (.ok found, r') ∧
        found.path.segments.map (·.name) = names ∧ found.path.dotPath = Path.dotted names) ∧
    ∀ source owner found r₁, r.resolve source owner = (.ok found, r₁) →
      (∀ s ∈ found.path.segments, Path.IsUndelimited s.name) →
      ∀ more r₂, after more r₁ = r₂ → r₂.catalog = r₁.catalog →
        ∃ again r₃, r₂.resolve found.path.dotPath owner = (.ok again, r₃) ∧
          again.path = found.path := by
  have faithful : r.Faithful := by
    rw [← before]
    exact Faithful.after (.of_nil rfl) requests
  refine ⟨?_, ?_⟩
  · intro owner names names_ne room plain chain
    obtain ⟨p, resolved, names_eq⟩ := Path.resolve_dotted names_ne plain chain room
    obtain ⟨found, r', answered, rfl⟩ := faithful.resolve_ok resolved
    refine ⟨found, r', answered, names_eq, ?_⟩
    rw [PropertyPath.dotPath, names_eq, Path.dotted]
  · intro source owner found r₁ answered undelimited more r₂ later same
    have answers := r.answers_resolve source owner
    rw [answered] at answers
    -- the path was resolved then, and it is resolved alike now, whatever was remembered since
    have resolved := (faithful.map_path answers).symm
    have again := Path.resolve_dotPath resolved undelimited
    rw [← answers.catalog_eq, ← same] at again
    have faithful : r₂.Faithful := by
      rw [← later]
      exact (faithful.answer answers).after more
    exact faithful.resolve_ok again

/-- The longest path goes through one more link than the limit. The name of a city, read from camel
case, is read again from its dot path, also after the room to remember paths has changed. -/
theorem dotted_roundTrip_homeCity :
    (∃ found r', (ofCatalog Path.Sample.links).resolve
        (Path.dotted (List.replicate 1001 "next")) (.of "Link") = (.ok found, r') ∧
      found.path.length = 1001) ∧
    ∃ found r₁, (ofCatalog Path.Sample.homes).resolve "homeCityName" Path.Sample.customer =
        (.ok found, r₁) ∧ found.path.dotPath = "homeCity.name" ∧
      ∃ again r₃, (after [.capacity 1] r₁).resolve "homeCity.name" Path.Sample.customer =
        (.ok again, r₃) ∧ again.path = found.path := by
  refine ⟨?_, ?_⟩
  · have start : after [] (ofCatalog Path.Sample.links) = ofCatalog Path.Sample.links := rfl
    obtain ⟨long, -⟩ := dotted_roundTrip start
    obtain ⟨found, r', answered, names_eq, -⟩ := long (.of "Link") (List.replicate 1001 "next")
      (by decide) (by rw [List.length_replicate]; decide)
      (fun n hn => List.eq_of_mem_replicate hn ▸ Path.Sample.next_plain) (Path.Sample.next_chain _)
    refine ⟨found, r', answered, ?_⟩
    have lengths := congrArg List.length names_eq
    rwa [List.length_map, List.length_replicate] at lengths
  · have start : after [] (ofCatalog Path.Sample.homes) = ofCatalog Path.Sample.homes := rfl
    obtain ⟨-, short⟩ := dotted_roundTrip start
    obtain ⟨found, r₁, answered, path_eq⟩ := Faithful.resolve_ok (r := ofCatalog Path.Sample.homes)
      (.of_nil rfl) Path.Sample.homeCityName_resolved
    have undelimited : ∀ s ∈ found.path.segments, Path.IsUndelimited s.name := by
      rw [path_eq]
      decide +kernel
    have dots : found.path.dotPath = "homeCity.name" := by
      rw [path_eq]
      decide +kernel
    have again := short _ _ found r₁ answered undelimited [.capacity 1] _ rfl rfl
    rw [dots] at again
    exact ⟨found, r₁, answered, dots, again⟩

end PathResolver

end EntityModel
