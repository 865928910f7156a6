import EntityModel.Proofs.Path.Attempts
import EntityModel.Proofs.Path.Remembered

/-!
# The failure that is reported

A source that is refused for want of a property is refused truthfully: the names that are reported
lead to the reported type, nothing in the rest of the part names a property of that type, and that
rest is what is reported as missing (`Path.IsMissing`). It is the first one of those failures on the
way that got furthest (`PathResolver.failure_deepest`).
-/

namespace EntityModel

namespace Path

variable {c : Catalog} {owner reached last : TypeRef} {found segments : List Segment}
  {front hump left : List Char} {ps : List (List Char)} {choices : List Choice}
  {failures earlier : List Error} {e f g : Error}

/-! ### The first of the deepest failures -/

/-- Of all failures in a list it is the first one that got as far as it did, and none got further.
-/
def IsFirstDeepest (e : Error) (failures : List Error) : Prop :=
  ∃ earlier later, failures = earlier ++ e :: later ∧
    (∀ f ∈ earlier, e.isDeeperThan f = true) ∧ ∀ f ∈ later, f.isDeeperThan e = false

namespace IsFirstDeepest

/-- A single failure is the first of the deepest. -/
lemma singleton (e : Error) : IsFirstDeepest e [e] :=
  ⟨[], [], rfl, nofun, nofun⟩

/-- Failures before the list that got less far do not matter. -/
lemma append_left (further : ∀ f ∈ earlier, f.resolutionDepth < e.resolutionDepth)
    (h : IsFirstDeepest e failures) : IsFirstDeepest e (earlier ++ failures) := by
  obtain ⟨before, later, rfl, deeper, none_deeper⟩ := h
  refine ⟨earlier ++ before, later, (List.append_assoc ..).symm, ?_, none_deeper⟩
  exact List.forall_mem_append.mpr ⟨fun f hf => decide_eq_true (further f hf), deeper⟩

/-- A failure that got as far as the first one does not matter. -/
lemma insert (same : g.resolutionDepth = f.resolutionDepth)
    (h : IsFirstDeepest e (f :: failures)) : IsFirstDeepest e (f :: g :: failures) := by
  obtain ⟨earlier, later, split, deeper, none_deeper⟩ := h
  cases earlier with
  | nil =>
    cases split
    refine ⟨[], g :: failures, rfl, nofun, List.forall_mem_cons.mpr ⟨?_, none_deeper⟩⟩
    rw [Error.isDeeperThan, same]
    exact decide_eq_false (Nat.lt_irrefl _)
  | cons first earlier =>
    cases split
    obtain ⟨deeper_first, deeper⟩ := List.forall_mem_cons.mp deeper
    have deeper_same : e.isDeeperThan g = true := by
      rw [Error.isDeeperThan, same]
      exact deeper_first
    refine ⟨f :: g :: earlier, later, rfl, ?_, none_deeper⟩
    exact List.forall_mem_cons.mpr
      ⟨deeper_first, List.forall_mem_cons.mpr ⟨deeper_same, deeper⟩⟩

end IsFirstDeepest

/-- What a text is refused for is the first of the deepest failures, among them the first failure
that was kept. -/
theorem Attempt.ComesTo.isFirstDeepest {a : Attempt} {result : Except Error (List Segment)}
    (h : ComesTo c a failures result) (level : a.IsLevel) (refused : result = .error e)
    (isReference : e.isPropertyReference = true) :
    IsFirstDeepest e (a.first?.toList ++ failures) := by
  induction h with
  | deep =>
    cases refused
    cases isReference
  | whole | read => cases refused
  | @refused a s failures e' _ _ _ next ih =>
    rw [level.report_eq next.depth_lt] at refused
    cases refused
    -- every failure that was kept stands in front, and none of them got as far
    refine IsFirstDeepest.append_left (fun f hf => ?_) (ih (isLevel_goOn a s) rfl)
    rw [level f (Option.mem_toList.mp hf)]
    exact next.depth_lt isReference
  | @shorter a front hump failures result _ _ _ _ ih =>
    -- the failure of this head is kept, if it is the first one at the text
    have further : IsFirstDeepest e (a.firstFailure :: failures) := ih level.shorten refused
    cases kept : a.first? with
    | none =>
      rw [firstFailure, kept] at further
      exact further
    | some f =>
      rw [firstFailure, kept] at further
      -- the kept failure and that of this head got equally far, so the earlier one stays the first
      exact further.insert (level f kept).symm
  | @stuck a =>
    cases refused
    cases kept : a.first? with
    | none =>
      rw [firstFailure, kept]
      exact .singleton _
    | some f =>
      rw [firstFailure, kept]
      exact (IsFirstDeepest.singleton f).insert (level f kept).symm

/-- What parts are refused for is the first of the deepest failures. -/
theorem PartsComeTo.isFirstDeepest {result : Except Error (List Segment)}
    (h : PartsComeTo c owner found ps failures result) (refused : result = .error e)
    (isReference : e.isPropertyReference = true) : IsFirstDeepest e failures := by
  induction h with
  | ended => cases refused
  | deep =>
    cases refused
    cases isReference
  | unbound _ next =>
    cases refused
    rw [isPropertyReference_of_nextOwner next] at isReference
    cases isReference
  | refused _ _ tried => exact tried.isFirstDeepest nofun refused isReference
  | @read found segments part ps type failures more result _ _ tried later ih =>
    -- failures at a part that is read did not even get behind that part
    have behind : found.length + segments.length ≤ e.resolutionDepth := by
      rw [← List.length_append]
      exact later.depth_le refused isReference
    refine IsFirstDeepest.append_left (fun f hf => ?_) (ih refused)
    have not_behind := (tried.depth_lt_of_ok rfl).2 f hf
    rw [Attempt.start, List.length_map] at not_behind
    exact Nat.lt_of_lt_of_le not_behind behind

/-- What a source is refused for is the first of the deepest failures. -/
lemma SourceComesTo.isFirstDeepest {source : String} {result : Except Error PropertyPath}
    (h : SourceComesTo c source owner failures result) (refused : result = .error e)
    (isReference : e.isPropertyReference = true) : IsFirstDeepest e failures := by
  cases h with
  | empty =>
    cases refused
    cases isReference
  | refused tried =>
    cases refused
    exact tried.isFirstDeepest rfl isReference
  | read => cases refused

/-! ### What is reported -/

/-- The type behind the last of some names, each of which has to be a property of the type behind
the one before it, the first one of the given type. -/
def reached? (c : Catalog) (owner : TypeRef) (names : List String) : Option TypeRef :=
  names.foldlM (fun type name => (c.propertyType? type name).map TypeRef.actual) owner

/-- The names of segments lead to the type that the segments lead to. -/
lemma reached?_of_leads (h : Leads c owner segments last) :
    reached? c owner (segments.map (·.name)) = some last := by
  induction h with
  | nil => rfl
  | cons _ type_eq _ ih =>
    rw [List.map_cons, reached?, List.foldlM_cons, type_eq]
    exact ih

/-- Names spell out the first ones of some parts and the next part up to a rest of it. -/
def SpelledUpTo (ps : List (List Char)) (left : List Char) (names : List String) : Prop :=
  ∃ (heads : List (List (List Char))) (taken later : List (List Char)),
    ps = heads.map List.flatten ++ (taken.flatten ++ left) :: later ∧
      names = (heads.flatten ++ taken).map spelling

/-- A source is refused because nothing in the rest of a part names a property of the type reached.
The names that were resolved lead to that type and spell out the source up to the rest. -/
structure IsMissing (c : Catalog) (source : String) (owner : TypeRef) (property type : String)
    (resolved : List String) (reached : TypeRef) (left : List Char) : Prop where
  reached_eq : reached? c owner resolved = some reached
  type_eq : type = reached.text
  spelled : SpelledUpTo (parts source.toList) left resolved
  left_ne : left ≠ []
  property_eq : property = spelling left
  missing : c.propertyType? reached property = none
  heads_missing : ∀ head, IsHead left head → c.propertyType? reached (spelling head) = none

/-- What cannot be read starts with no name of a property. -/
lemma IsStuck.missing (h : IsStuck c reached left) :
    ∀ head, IsHead left head → c.propertyType? reached (spelling head) = none := by
  intro head isHead
  apply Option.eq_none_iff_forall_ne_some.mpr
  intro type type_eq
  exact h head ⟨reached, spelling head, type⟩ isHead ⟨rfl, rfl, type_eq⟩

namespace GetsStuck

/-- A reading that gets stuck has something left, which it cannot read. -/
lemma isStuck (h : GetsStuck c owner ps choices reached left) :
    left ≠ [] ∧ IsStuck c reached left := by
  induction h with
  | here _ left_ne stuck => exact ⟨left_ne, stuck⟩
  | later _ _ ih => exact ih

/-- The choices of a reading that gets stuck lead to the type that it reached. -/
lemma leads (h : GetsStuck c owner ps choices reached left) :
    Leads c owner (choices.map (·.segment)) reached := by
  induction h with
  | here reads _ _ => exact reads.leads
  | later reads _ ih =>
    rw [List.map_append]
    exact reads.leads.append ih

/-- The heads that were taken make up the parts up to what is left, and spell out the names. -/
lemma spelledUpTo (h : GetsStuck c owner ps choices reached left) :
    SpelledUpTo ps left (choices.map (·.segment.name)) := by
  induction h with
  | @here owner reached part left later choices reads _ _ =>
    refine ⟨[], choices.map (·.head), later, ?_, ?_⟩
    · rw [reads.flatten_heads]
      rfl
    · rw [reads.names, List.flatten_nil, List.nil_append, List.map_map]
      rfl
  | @later owner next reached part left ps choices more reads _ ih =>
    obtain ⟨heads, taken, later, rfl, names⟩ := ih
    refine ⟨choices.map (·.head) :: heads, taken, later, ?_, ?_⟩
    · have rebuilt := reads.flatten_heads
      rw [List.append_nil] at rebuilt
      rw [List.map_cons, rebuilt]
      rfl
    · simp only [List.map_append, List.map_map, List.flatten_cons, List.append_assoc, reads.names,
        names]
      rfl

end GetsStuck

/-- A source that is refused for want of a property gets to a type and a rest of a part, no head of
which names a property of the type. -/
lemma exists_isMissing {source property type : String} {resolved : List String}
    (refused : resolve c source owner = .error (.propertyReference property type resolved)) :
    ∃ reached left, IsMissing c source owner property type resolved reached left := by
  have outcome := resolve_outcome c source owner
  rw [refused] at outcome
  cases outcome with
  | @stuck choices reached left stuck =>
    obtain ⟨left_ne, isStuck⟩ := stuck.isStuck
    have leads := reached?_of_leads stuck.leads
    rw [List.map_map] at leads
    exact ⟨reached, left, {
      reached_eq := leads
      type_eq := rfl
      spelled := stuck.spelledUpTo
      left_ne
      property_eq := rfl
      missing := isStuck.missing left .refl
      heads_missing := isStuck.missing }⟩

end Path

namespace PathResolver

variable {c : Catalog} {r : PathResolver} {source property type : String} {owner : TypeRef}
  {resolved : List String}

/-- If a source is refused for want of a property, the names that are reported as resolved lead to
the type that is reported, and what is reported as missing is the rest of a part, no head of which
names a property of that type. The attempts at the source come to an end with this failure, which
is the first of the deepest ones among them. -/
theorem failure_deepest {requests : List Request} (before : after requests (ofCatalog c) = r)
    (refused : (r.resolve source owner).1 =
      .error (.propertyReference property type resolved)) :
    (∃ reached left,
      Path.IsMissing r.catalog source owner property type resolved reached left) ∧
      (∃ failures, Path.SourceComesTo r.catalog source owner failures
        (.error (.propertyReference property type resolved))) ∧
      ∀ failures result, Path.SourceComesTo r.catalog source owner failures result →
        result = .error (.propertyReference property type resolved) ∧
          Path.IsFirstDeepest (.propertyReference property type resolved) failures := by
  have faithful := Faithful.of_after before
  have error_eq := faithful.resolve_error.mp refused
  refine ⟨Path.exists_isMissing error_eq, ?_, fun failures result comes => ?_⟩
  · have tried := Path.exists_sourceComesTo r.catalog source owner
    rwa [error_eq] at tried
  · have result_eq := comes.result_eq.trans error_eq
    exact ⟨result_eq, comes.isFirstDeepest result_eq rfl⟩

end PathResolver

/-! ### A zip code that is missing -/

namespace Path.Sample

/-- The first attempt is at a property of the customer, the last one at a property of the city. -/
def homeCityZip : Attempt :=
  .start customer [] (homeCityChars ++ ['Z', 'i', 'p'])

def zip : Attempt :=
  .start city ["homeCity"] ['Z', 'i', 'p']

/-- The first attempt reports the whole name as missing in the customer. -/
lemma homeCityZip_failure :
    homeCityZip.failure = .propertyReference "homeCityZip" "Customer" [] := by
  decide +kernel

/-- The last attempt reports the zip code as missing in the city. -/
lemma zip_failure : zip.failure = .propertyReference "zip" "City" ["homeCity"] := by
  decide +kernel

/-- A customer has no property of the whole name, and the city that is found next has no zip code.
-/
lemma homeCityZip_tried : SourceComesTo homes "homeCityZip" customer
    [.propertyReference "homeCityZip" "Customer" [], .propertyReference "zip" "City" ["homeCity"]]
    (.error (.propertyReference "zip" "City" ["homeCity"])) := by
  have chars : "homeCityZip".toList = homeCityChars ++ ['Z', 'i', 'p'] := String.toList_ofList
  have one_part : parts (homeCityChars ++ ['Z', 'i', 'p']) =
      [homeCityChars ++ ['Z', 'i', 'p']] := by decide +kernel
  have no_whole : homes.propertyType? customer "homeCityZip" = none := by cbv
  have no_zip : homes.propertyType? city "zip" = none := by cbv
  have split : splitHump? homeCityZip.head = some (homeCityChars, ['Z', 'i', 'p']) := by
    decide +kernel
  have behind : Attempt.ComesTo homes zip [zip.failure] (.error zip.failure) :=
    .stuck (by decide) (not_spells (by decide +kernel) no_zip) (by decide +kernel)
  -- the whole name is tried first, then the shorter head and what stands behind it
  have tried : Attempt.ComesTo homes homeCityZip [homeCityZip.failure, zip.failure]
      (.error (Attempt.report (some homeCityZip.failure) zip.failure)) :=
    .shorter (by decide) (not_spells (by decide +kernel) no_whole) split
      (.refused (by decide) homeCity_spelled (List.cons_ne_nil _ _) behind)
  rw [homeCityZip_failure, zip_failure] at tried
  apply SourceComesTo.refused
  rw [chars, one_part]
  exact .refused (by decide) rfl tried

end Path.Sample

namespace PathResolver

/-- The zip code is missing in the city, which was found after the customer was searched for a
property of the whole name. -/
theorem failure_deepest_homeCityZip :
    ((ofCatalog Path.Sample.homes).resolve "homeCityZip" Path.Sample.customer).1 =
        .error (.propertyReference "zip" "City" ["homeCity"]) ∧
      (∃ reached left, Path.IsMissing Path.Sample.homes "homeCityZip" Path.Sample.customer
        "zip" "City" ["homeCity"] reached left) ∧
      Path.IsFirstDeepest (.propertyReference "zip" "City" ["homeCity"])
        [.propertyReference "homeCityZip" "Customer" [],
          .propertyReference "zip" "City" ["homeCity"]] := by
  have start : after [] (ofCatalog Path.Sample.homes) = ofCatalog Path.Sample.homes := rfl
  have tried := Path.Sample.homeCityZip_tried
  have refused : ((ofCatalog Path.Sample.homes).resolve "homeCityZip" Path.Sample.customer).1 =
      .error (.propertyReference "zip" "City" ["homeCity"]) := by
    have faithful : (ofCatalog Path.Sample.homes).Faithful := .of_nil rfl
    exact faithful.resolve_error.mpr tried.result_eq.symm
  obtain ⟨missing, -, deepest⟩ := failure_deepest start refused
  exact ⟨refused, missing, (deepest _ _ tried).2⟩

end PathResolver

end EntityModel
