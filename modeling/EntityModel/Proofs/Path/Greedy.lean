import EntityModel.Proofs.Path.Parts
import EntityModel.Proofs.Path.Reading

/-!
# Resolving follows the greedy reading

The parts of a source are read one after the other, each of them to its end (`Path.ReadsParts`), or
the reading gets stuck in one of them (`Path.GetsStuck`); it cannot do both. A source that does not
meet the depth limit is resolved to the segments of its reading, and is refused if the reading gets
stuck or if there are no parts (`Path.resolve_greedy`).
-/

namespace EntityModel

/-- A path is determined by its segments. -/
lemma PropertyPath.eq_of_segments {p q : PropertyPath} (h : p.segments = q.segments) : p = q := by
  obtain ⟨head, tail⟩ := p
  obtain ⟨rfl, rfl⟩ := List.cons.inj h
  rfl

namespace Path

variable {c : Catalog} {owner next last reached : TypeRef} {found : List Segment}
  {text part left : List Char} {ps : List (List Char)} {choices : List Choice}
  {readings : List (List Choice)}

/-! ### Types along segments -/

def typeAfter (owner : TypeRef) (found : List Segment) : TypeRef :=
  found.foldl (fun _ s => s.actual) owner

/-- What follows segments starts at the type that they lead to. -/
lemma typeAfter_append (owner : TypeRef) (found more : List Segment) :
    typeAfter owner (found ++ more) = typeAfter (typeAfter owner found) more :=
  List.foldl_append

/-- A reading ends at the type that its segments lead to. -/
lemma Reads.typeAfter_eq (h : Reads c owner text choices last left) :
    typeAfter owner (choices.map (·.segment)) = last := by
  induction h with
  | stop => rfl
  | choose _ _ _ ih => exact ih

/-! ### Readings of several parts -/

/-- Each part is read to its end, against the type that the part before it led to. -/
inductive ReadsParts (c : Catalog) :
    TypeRef → List (List Char) → List (List Choice) → TypeRef → Prop
  | nil {owner : TypeRef} : ReadsParts c owner [] [] owner
  | cons {owner next last : TypeRef} {part : List Char} {ps : List (List Char)}
      {choices : List Choice} {readings : List (List Choice)} :
      Reads c owner part choices next [] → ReadsParts c next ps readings last →
      ReadsParts c owner (part :: ps) (choices :: readings) last

/-- After the parts before it are read, no head of what is left of a part spells a property. -/
inductive GetsStuck (c : Catalog) :
    TypeRef → List (List Char) → List Choice → TypeRef → List Char → Prop
  | here {owner reached : TypeRef} {part left : List Char} {later : List (List Char)}
      {choices : List Choice} :
      Reads c owner part choices reached left → left ≠ [] → IsStuck c reached left →
      GetsStuck c owner (part :: later) choices reached left
  | later {owner next reached : TypeRef} {part left : List Char} {ps : List (List Char)}
      {choices more : List Choice} :
      Reads c owner part choices next [] → GetsStuck c next ps more reached left →
      GetsStuck c owner (part :: ps) (choices ++ more) reached left

/-- Parts are put together from heads that spell out names. -/
structure SpelledOut (ps : List (List Char)) (heads : List (List (List Char)))
    (names : List String) : Prop where
  flatten : heads.map List.flatten = ps
  names_eq : names = heads.flatten.map spelling
  ne_nil : ∀ part ∈ heads, ∀ head ∈ part, head ≠ []
  upper : ∀ part ∈ heads, ∀ head ∈ part.tail,
    ∃ d ds, head = d :: ds ∧ Text.isUppercaseLetter d = true

namespace ReadsParts

/-- Parts are read in one way only. -/
lemma unique (h : ReadsParts c owner ps readings last) {readings' : List (List Choice)}
    {last' : TypeRef} (h' : ReadsParts c owner ps readings' last') :
    readings' = readings ∧ last' = last := by
  induction h generalizing readings' with
  | nil =>
    cases h'
    exact ⟨rfl, rfl⟩
  | cons reads _ ih =>
    obtain _ | ⟨reads', more'⟩ := h'
    obtain ⟨rfl, rfl, -⟩ := reads.unique (.inl rfl) reads' (.inl rfl)
    obtain ⟨rfl, rfl⟩ := ih more'
    exact ⟨rfl, rfl⟩

/-- Parts that are read to their end do not get stuck. -/
lemma not_getsStuck (h : ReadsParts c owner ps readings last) :
    ¬ GetsStuck c owner ps choices reached left := by
  intro h'
  induction h generalizing choices with
  | nil => cases h'
  | cons reads _ ih =>
    cases h' with
    | here reads' left_ne stuck =>
      obtain ⟨-, -, nothing⟩ := reads.unique (.inl rfl) reads' (.inr stuck)
      exact left_ne nothing
    | later reads' stuck =>
      obtain ⟨-, rfl, -⟩ := reads.unique (.inl rfl) reads' (.inl rfl)
      exact ih stuck

/-- Some part gives a segment, if there are parts and none of them is empty. -/
lemma flatten_ne_nil (h : ReadsParts c owner ps readings last) (ps_ne : ps ≠ [])
    (parts_ne : ∀ part ∈ ps, part ≠ []) : readings.flatten ≠ [] := by
  cases h with
  | nil => exact absurd rfl ps_ne
  | cons reads _ =>
    cases reads with
    | stop => exact absurd rfl (parts_ne [] List.mem_cons_self)
    | choose => exact List.cons_ne_nil _ _

/-- The heads of the readings make up the parts and spell the names of the segments. -/
lemma spelledOut (h : ReadsParts c owner ps readings last) :
    SpelledOut ps (readings.map fun choices => choices.map (·.head))
      (readings.flatten.map (·.segment.name)) := by
  induction h with
  | nil => exact ⟨rfl, rfl, by simp, by simp⟩
  | cons reads _ ih =>
    refine ⟨?_, ?_, ?_, ?_⟩
    · have rebuilt := reads.flatten_heads
      rw [List.append_nil] at rebuilt
      rw [List.map_cons, List.map_cons, rebuilt, ih.flatten]
    · rw [List.flatten_cons, List.map_append, reads.names, ih.names_eq, List.map_cons,
        List.flatten_cons, List.map_append, List.map_map]
      rfl
    · exact List.forall_mem_cons.mpr ⟨List.forall_mem_map.mpr reads.heads_ne_nil, ih.ne_nil⟩
    · refine List.forall_mem_cons.mpr ⟨?_, ih.upper⟩
      rw [← List.map_tail]
      exact List.forall_mem_map.mpr reads.starts_upper

end ReadsParts

/-! ### What comes of several parts -/

/-- What may come of parts that are resolved after some segments: they are read to their ends, the
reading gets stuck, possibly at a type variable, or the limit is met. -/
inductive PartsOutcome (c : Catalog) (owner : TypeRef) (ps : List (List Char))
    (found : List Segment) : Except Error (List Segment) → Prop
  | read {readings : List (List Choice)} {last : TypeRef} :
      ReadsParts c (typeAfter owner found) ps readings last →
      PartsOutcome c owner ps found (.ok (found ++ readings.flatten.map (·.segment)))
  | stuck {choices : List Choice} {reached : TypeRef} {left : List Char} :
      GetsStuck c (typeAfter owner found) ps choices reached left →
      PartsOutcome c owner ps found (.error (.propertyReference (spelling left) reached.text
        ((found ++ choices.map (·.segment)).map (·.name))))
  | unbound {choices : List Choice} {reached : TypeRef} {left : List Char} {type : String} :
      GetsStuck c (typeAfter owner found) ps choices reached left → reached.isVariable = true →
      PartsOutcome c owner ps found (.error (.unresolvedActualType type))
  | deep : maxDepth < found.length + ps.flatten.length →
      PartsOutcome c owner ps found (.error (.depthExceeded maxDepth))

/-- What comes of the later parts comes of all, if the first part is read to its end. -/
lemma PartsOutcome.cons {result : Except Error (List Segment)}
    (reads : Reads c (typeAfter owner found) part choices next [])
    (h : PartsOutcome c owner ps (found ++ choices.map (·.segment)) result) :
    PartsOutcome c owner (part :: ps) found result := by
  -- what the later parts start from is where the first one has led
  have type_eq : typeAfter owner (found ++ choices.map (·.segment)) = next := by
    rw [typeAfter_append, reads.typeAfter_eq]
  cases h with
  | read more =>
    rw [type_eq] at more
    rw [List.append_assoc, ← List.map_append, ← List.flatten_cons]
    exact .read (.cons reads more)
  | stuck more =>
    rw [type_eq] at more
    rw [List.append_assoc, ← List.map_append]
    exact .stuck (.later reads more)
  | unbound more isVariable =>
    rw [type_eq] at more
    exact .unbound (.later reads more) isVariable
  | deep deep =>
    refine .deep ?_
    -- the segments of the first part came from characters of its own, one at least for each
    have short := reads.length_le
    rw [List.length_append, List.length_map] at deep
    rw [List.flatten_cons, List.length_append]
    omega

/-- Nothing can be read from a type variable. -/
lemma isStuck_of_isVariable (h : owner.isVariable = true) : IsStuck c owner text := by
  intro head s _ spells
  have hasType := spells.type_eq
  cases owner <;> first | cases hasType | cases h

/-- The type that a part is tried on: the type behind the last segment, which must not be a type
variable, or the given type if there is no segment. -/
def nextOwner (owner : TypeRef) (found : List Segment) : Except Error TypeRef :=
  match found.getLast? with
  | some s => s.type.requiredActual
  | none => .ok owner

/-- The next part is tried on the type that the segments lead to, unless that is a type variable. -/
lemma nextOwner_cases (owner : TypeRef) (found : List Segment) :
    (∃ type, (typeAfter owner found).isVariable = true ∧
        nextOwner owner found = .error (.unresolvedActualType type)) ∨
      nextOwner owner found = .ok (typeAfter owner found) := by
  rcases List.eq_nil_or_concat found with rfl | ⟨init, s, rfl⟩
  · exact .inr rfl
  · have type_eq : typeAfter owner (init ++ [s]) = s.type.actual := typeAfter_append ..
    rw [List.concat_eq_append, nextOwner, List.getLast?_concat, type_eq]
    unfold TypeRef.requiredActual
    dsimp only
    by_cases isVariable : s.type.actual.isVariable = true
    · rw [if_pos isVariable]
      exact .inl ⟨s.type.text, isVariable, rfl⟩
    · rw [if_neg isVariable]
      exact .inr rfl

/-- A part is resolved as a text, unless too many segments were found or there is no type to go on
from. -/
lemma resolvePart_eq (c : Catalog) (owner : TypeRef) (found : List Segment) (part : List Char) :
    resolvePart c owner found part =
      if maxDepth < found.length then .error (.depthExceeded maxDepth)
      else (nextOwner owner found).bind fun type =>
        (resolveText c type part (found.map (·.name))).map (found ++ ·) := by
  unfold resolvePart nextOwner
  split
  · rfl
  · cases found.getLast? <;> rfl

/-- A part is resolved against the type that the segments before it lead to. It is refused if there
are too many of them, or if they lead to a type variable. -/
lemma resolvePart_cases (c : Catalog) (owner : TypeRef) (found : List Segment) (part : List Char) :
    maxDepth < found.length ∧
        resolvePart c owner found part = .error (.depthExceeded maxDepth) ∨
      (∃ type, (typeAfter owner found).isVariable = true ∧
        resolvePart c owner found part = .error (.unresolvedActualType type)) ∨
      resolvePart c owner found part =
        (resolveText c (typeAfter owner found) part (found.map (·.name))).map (found ++ ·) := by
  rw [resolvePart_eq]
  by_cases deep : maxDepth < found.length
  · exact .inl ⟨deep, if_pos deep⟩
  · rw [if_neg deep]
    rcases nextOwner_cases owner found with ⟨type, isVariable, next⟩ | next
    · rw [next]
      exact .inr (.inl ⟨type, isVariable, rfl⟩)
    · rw [next]
      exact .inr (.inr rfl)

/-- Resolving parts follows their greedy reading, and meets the limit in long sources only. -/
theorem foldlM_outcome (c : Catalog) (owner : TypeRef) (found : List Segment)
    (parts_ne : ∀ part ∈ ps, part ≠ []) :
    PartsOutcome c owner ps found (ps.foldlM (resolvePart c owner) found) := by
  -- a part is read against the type that all segments before it lead to, whatever they are
  induction ps generalizing found with
  | nil =>
    have nothing : PartsOutcome c owner [] found (.ok (found ++ [])) := .read .nil
    rwa [List.append_nil] at nothing
  | cons part ps ih =>
    obtain ⟨part_ne, parts_ne⟩ := List.forall_mem_cons.mp parts_ne
    rw [List.foldlM_cons]
    rcases resolvePart_cases c owner found part with ⟨deep, eq⟩ | ⟨type, isVariable, eq⟩ | eq
    · rw [eq]
      exact .deep (Nat.lt_add_right _ deep)
    · rw [eq]
      exact .unbound (.here .stop part_ne (isStuck_of_isVariable isVariable)) isVariable
    · rw [eq]
      have outcome := resolveText_outcome c (typeAfter owner found) (found.map (·.name)) part_ne
      generalize resolveText c (typeAfter owner found) part (found.map (·.name)) = result at *
      cases outcome with
      | read reads => exact .cons reads (ih _ parts_ne)
      | stuck reads left_ne stuck =>
        have outcome : PartsOutcome c owner (part :: ps) found _ :=
          .stuck (.here reads left_ne stuck)
        rwa [List.map_append, List.map_map] at outcome
      | deep deep =>
        refine .deep ?_
        rw [List.length_map] at deep
        rw [List.flatten_cons, List.length_append]
        omega

/-- Parts, if there are any, are resolved to one segment at least. -/
lemma ne_nil_of_foldlM {segments : List Segment} (parts_ne : ∀ part ∈ ps, part ≠ [])
    (ps_ne : ps ≠ []) (folded : ps.foldlM (resolvePart c owner) [] = .ok segments) :
    segments ≠ [] := by
  have outcome := foldlM_outcome c owner [] parts_ne
  rw [folded] at outcome
  cases outcome with
  | read reads =>
    intro nothing
    exact reads.flatten_ne_nil ps_ne parts_ne (List.map_eq_nil_iff.mp nothing)

/-! ### What comes of a source -/

/-- What may come of a source: its parts are read to their ends, there are no parts, the reading
gets stuck, possibly at a type variable, or the limit is met. -/
inductive SourceOutcome (c : Catalog) (source : String) (owner : TypeRef) :
    Except Error PropertyPath → Prop
  | read {readings : List (List Choice)} {last : TypeRef} {p : PropertyPath} :
      ReadsParts c owner (parts source.toList) readings last →
      p.segments = readings.flatten.map (·.segment) → SourceOutcome c source owner (.ok p)
  | empty : parts source.toList = [] → SourceOutcome c source owner (.error (.emptySource source))
  | stuck {choices : List Choice} {reached : TypeRef} {left : List Char} :
      GetsStuck c owner (parts source.toList) choices reached left →
      SourceOutcome c source owner (.error (.propertyReference (spelling left) reached.text
        (choices.map (·.segment.name))))
  | unbound {choices : List Choice} {reached : TypeRef} {left : List Char} {type : String} :
      GetsStuck c owner (parts source.toList) choices reached left → reached.isVariable = true →
      SourceOutcome c source owner (.error (.unresolvedActualType type))
  | deep : maxDepth < source.length →
      SourceOutcome c source owner (.error (.depthExceeded maxDepth))

/-- Resolving a source follows the greedy reading of its parts. -/
theorem resolve_outcome (c : Catalog) (source : String) (owner : TypeRef) :
    SourceOutcome c source owner (resolve c source owner) := by
  have parts_ne : ∀ part ∈ parts source.toList, part ≠ [] := fun part => ne_nil_of_mem_parts
  have outcome := foldlM_outcome c owner [] parts_ne
  unfold resolve
  generalize (parts source.toList).foldlM (resolvePart c owner) [] = result at *
  cases outcome with
  | @read readings last reads =>
    obtain nothing | ⟨s, ss, segments⟩ : readings.flatten.map (·.segment) = [] ∨
        ∃ s ss, readings.flatten.map (·.segment) = s :: ss := by
      cases readings.flatten.map (·.segment) with
      | nil => exact .inl rfl
      | cons s ss => exact .inr ⟨s, ss, rfl⟩
    · -- every part gives a segment, so there are no parts
      rw [nothing]
      refine .empty (Decidable.byContradiction fun ps_ne => ?_)
      exact reads.flatten_ne_nil ps_ne parts_ne (List.map_eq_nil_iff.mp nothing)
    · rw [segments]
      exact .read reads segments.symm
  | stuck stuck =>
    rw [List.nil_append, List.map_map]
    exact .stuck stuck
  | unbound stuck isVariable => exact .unbound stuck isVariable
  | deep deep =>
    refine .deep (Nat.lt_of_lt_of_le deep ?_)
    rw [List.length_nil, Nat.zero_add, ← String.length_toList]
    exact flatten_parts_length source.toList

namespace SourceOutcome

variable {source : String} {p : PropertyPath} {result : Except Error PropertyPath}

/-- A source that is resolved was read to its end. -/
lemma reads (h : SourceOutcome c source owner (.ok p)) :
    ∃ readings last, ReadsParts c owner (parts source.toList) readings last ∧
      p.segments = readings.flatten.map (·.segment) := by
  cases h with
  | read reads segments => exact ⟨_, _, reads, segments⟩

/-- The limit is met in long sources only. -/
lemma length_of_deep {limit : Nat}
    (h : SourceOutcome c source owner (.error (.depthExceeded limit))) :
    maxDepth < source.length := by
  cases h with
  | deep long => exact long

/-- A source that is read to its end is resolved to what was read, unless it meets the limit. -/
lemma eq_ok (h : SourceOutcome c source owner result)
    (within : result ≠ .error (.depthExceeded maxDepth))
    (reads : ReadsParts c owner (parts source.toList) readings last)
    (segments : p.segments = readings.flatten.map (·.segment)) : result = .ok p := by
  cases h with
  | read reads' segments' =>
    obtain ⟨rfl, -⟩ := reads.unique reads'
    rw [PropertyPath.eq_of_segments (segments.trans segments'.symm)]
  | empty no_parts =>
    rw [no_parts] at reads
    cases reads
    cases segments
  | stuck stuck | unbound stuck => exact absurd stuck reads.not_getsStuck
  | deep => exact absurd rfl within

/-- A source is refused for want of parts or because its reading gets stuck. -/
lemma refused_iff (h : SourceOutcome c source owner result)
    (within : result ≠ .error (.depthExceeded maxDepth)) :
    (∃ e, result = .error e) ↔ parts source.toList = [] ∨
      ∃ choices reached left, GetsStuck c owner (parts source.toList) choices reached left := by
  cases h with
  | read reads segments =>
    refine iff_of_false (by rintro ⟨e, refused⟩; cases refused) ?_
    rintro (no_parts | ⟨choices, reached, left, stuck⟩)
    · rw [no_parts] at reads
      cases reads
      cases segments
    · exact reads.not_getsStuck stuck
  | empty no_parts => exact iff_of_true ⟨_, rfl⟩ (.inl no_parts)
  | stuck stuck | unbound stuck => exact iff_of_true ⟨_, rfl⟩ (.inr ⟨_, _, _, stuck⟩)
  | deep => exact absurd rfl within

end SourceOutcome

/-- Only a source of more characters than the limit can meet it. Any other source is resolved to the
segments of the greedy reading of its parts, which is cut into heads that make up the parts, or it
is refused because it has no parts or because the greedy reading gets stuck. -/
theorem resolve_greedy (c : Catalog) (source : String) (owner : TypeRef) :
    (resolve c source owner = .error (.depthExceeded maxDepth) → maxDepth < source.length) ∧
      (resolve c source owner ≠ .error (.depthExceeded maxDepth) →
        (∀ p, resolve c source owner = .ok p ↔ ∃ readings last,
            ReadsParts c owner (parts source.toList) readings last ∧
              p.segments = readings.flatten.map (·.segment)) ∧
          ((∃ e, resolve c source owner = .error e) ↔ parts source.toList = [] ∨
            ∃ choices reached left,
              GetsStuck c owner (parts source.toList) choices reached left) ∧
          ∀ p, resolve c source owner = .ok p →
            ∃ heads, SpelledOut (parts source.toList) heads (p.segments.map (·.name))) := by
  have outcome := resolve_outcome c source owner
  refine ⟨fun refused => ?_, fun within => ⟨fun p => ⟨fun resolved => ?_, ?_⟩,
    outcome.refused_iff within, fun p resolved => ?_⟩⟩
  · rw [refused] at outcome
    exact outcome.length_of_deep
  · rw [resolved] at outcome
    exact outcome.reads
  · rintro ⟨readings, last, reads, segments⟩
    exact outcome.eq_ok within reads segments
  · rw [resolved] at outcome
    obtain ⟨readings, last, reads, segments⟩ := outcome.reads
    refine ⟨readings.map fun choices => choices.map (·.head), ?_⟩
    rw [segments, List.map_map]
    exact reads.spelledOut

/-! ### A city that is read greedily -/

namespace Sample

def customer : TypeRef := .of "Customer"

def city : TypeRef := .of "City"

/-- Customers have a home, which has a zip code, and a city of that home, which has a name. -/
def homes : Catalog where
  declarations := [
    { name := "Customer",
      fields := [{ name := "home", type := .of "Home" }, { name := "homeCity", type := city }] },
    { name := "Home", fields := [{ name := "cityZip", type := .of "String" }] },
    { name := "City", fields := [{ name := "name", type := .of "String" }] }]

def homeCity : Segment := ⟨customer, "homeCity", city⟩

def cityName : Segment := ⟨city, "name", .of "String"⟩

def homeCityChars : List Char := ['h', 'o', 'm', 'e', 'C', 'i', 't', 'y']

/-- A customer has a home city. -/
lemma homeCity_spelled : Spells homes customer homeCityChars homeCity := by
  have type_eq : homes.propertyType? customer "homeCity" = some city := by cbv
  exact .of_spelling rfl (by decide +kernel) type_eq

/-- A city is taken if no longer head is a property of a customer. -/
lemma homeCity_taken {hump : List Char} {name : String} (isHump : IsHump hump)
    (name_eq : spelling (homeCityChars ++ hump) = name)
    (missing : homes.propertyType? customer name = none) :
    Takes homes customer (homeCityChars ++ hump) homeCityChars homeCity :=
  .of_shortens ⟨List.cons_ne_nil _ _, hump, isHump, rfl⟩ (not_spells name_eq missing)
    (.of_spells homeCity_spelled)

/-- A city has a name. -/
lemma name_spelled : Spells homes city ['N', 'a', 'm', 'e'] cityName := by
  have type_eq : homes.propertyType? city "name" = some (.of "String") := by cbv
  exact .of_spelling rfl (by decide +kernel) type_eq

/-- A city has no zip code. -/
lemma zip_stuck : IsStuck homes city ['Z', 'i', 'p'] := by
  have missing : homes.propertyType? city "zip" = none := by cbv
  exact .of_splitHump? (by decide +kernel) (not_spells (by decide +kernel) missing)

/-- The home city's name is read in two choices. -/
lemma homeCityName_reads : ∃ last, ReadsParts homes customer (parts "homeCityName".toList)
    [[⟨homeCityChars, homeCity⟩, ⟨['N', 'a', 'm', 'e'], cityName⟩]] last := by
  have chars : "homeCityName".toList = homeCityChars ++ ['N', 'a', 'm', 'e'] :=
    String.toList_ofList
  have one_part : parts (homeCityChars ++ ['N', 'a', 'm', 'e']) =
      [homeCityChars ++ ['N', 'a', 'm', 'e']] := by decide +kernel
  have missing : homes.propertyType? customer "homeCityName" = none := by cbv
  have isHump : IsHump ['N', 'a', 'm', 'e'] :=
    ⟨by decide +kernel, List.all_eq_true.mp (by decide +kernel)⟩
  have first := homeCity_taken isHump (by decide +kernel) missing
  rw [chars, one_part]
  exact ⟨_, .cons (.choose (List.cons_ne_nil _ _) first
    (.of_spells (List.cons_ne_nil _ _) name_spelled)) .nil⟩

/-- The home city's name is resolved. -/
lemma homeCityName_resolved :
    resolve homes "homeCityName" customer = .ok ⟨homeCity, [cityName]⟩ := by
  have outcome := resolve_outcome homes "homeCityName" customer
  obtain ⟨last, reads⟩ := homeCityName_reads
  refine outcome.eq_ok (fun refused => ?_) reads rfl
  rw [refused] at outcome
  exact absurd outcome.length_of_deep (by decide)

/-- The home city's zip code gets stuck at the city. -/
lemma homeCityZip_stuck : GetsStuck homes customer (parts "homeCityZip".toList)
    [⟨homeCityChars, homeCity⟩] city ['Z', 'i', 'p'] := by
  have chars : "homeCityZip".toList = homeCityChars ++ ['Z', 'i', 'p'] := String.toList_ofList
  have one_part : parts (homeCityChars ++ ['Z', 'i', 'p']) =
      [homeCityChars ++ ['Z', 'i', 'p']] := by decide +kernel
  have missing : homes.propertyType? customer "homeCityZip" = none := by cbv
  have isHump : IsHump ['Z', 'i', 'p'] :=
    ⟨by decide +kernel, List.all_eq_true.mp (by decide +kernel)⟩
  have first := homeCity_taken isHump (by decide +kernel) missing
  rw [chars, one_part]
  exact .here (.choose (List.cons_ne_nil _ _) first .stop) (List.cons_ne_nil _ _) zip_stuck

end Sample

/-- The name of the city is found. Its zip code is not, although there is one at home. -/
theorem resolve_greedy_homeCity :
    resolve Sample.homes "homeCityName" Sample.customer ≠ .error (.depthExceeded maxDepth) ∧
      resolve Sample.homes "homeCityName" Sample.customer =
        .ok ⟨Sample.homeCity, [Sample.cityName]⟩ ∧
      resolve Sample.homes "homeCityZip" Sample.customer ≠ .error (.depthExceeded maxDepth) ∧
      ∃ e, resolve Sample.homes "homeCityZip" Sample.customer = .error e := by
  obtain ⟨long, greedy⟩ := resolve_greedy Sample.homes "homeCityName" Sample.customer
  obtain ⟨long', greedy'⟩ := resolve_greedy Sample.homes "homeCityZip" Sample.customer
  have within : resolve Sample.homes "homeCityName" Sample.customer ≠
      .error (.depthExceeded maxDepth) := fun refused => absurd (long refused) (by decide)
  have within' : resolve Sample.homes "homeCityZip" Sample.customer ≠
      .error (.depthExceeded maxDepth) := fun refused => absurd (long' refused) (by decide)
  obtain ⟨last, reads⟩ := Sample.homeCityName_reads
  exact ⟨within, ((greedy within).1 _).mpr ⟨_, last, reads, rfl⟩, within',
    (greedy' within').2.1.mpr (.inr ⟨_, _, _, Sample.homeCityZip_stuck⟩)⟩

end Path

end EntityModel
