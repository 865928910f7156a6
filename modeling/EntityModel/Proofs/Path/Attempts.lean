import EntityModel.Proofs.Path.Greedy

/-!
# Attempts

A source is resolved by one attempt after the other. An attempt tries a head of a text on a type
(`Path.Attempt`); if that is no property, the next attempt tries what is left of the head without
its last hump, and if it is one, what stands behind the head is tried on the type behind the
property. Before each attempt the segments and the humps that were cut off are counted against the
limit. The first failure at a text is kept, and it is reported instead of a later one that got no
further.

Every source comes to a result after finitely many attempts (`Path.exists_sourceComesTo`), and that
is what it is resolved to (`Path.SourceComesTo.result_eq`): a failure behind a head that is a
property gets further than those before it, so nothing is ever reported instead of it.
-/

namespace EntityModel.Path

variable {c : Catalog} {owner : TypeRef} {found segments : List Segment} {s : Segment}
  {front hump : List Char} {ps : List (List Char)} {failures : List Error} {e : Error}

/-! ### Attempts at a text -/

/-- A head that is tried on a type after segments of the given names. Some humps were cut off before
that, they make up the tail, and there was a first failure unless the head is the whole text. -/
structure Attempt where
  owner : TypeRef
  before : List String
  head : List Char
  tail : List Char := []
  cut : Nat := 0
  first? : Option Error := none

namespace Attempt

variable {a : Attempt}

/-- The first attempt at a text. -/
def start (owner : TypeRef) (before : List String) (text : List Char) : Attempt :=
  { owner, before, head := text }

/-- There are too many segments and humps for the attempt to be made. -/
def IsDeep (a : Attempt) : Prop :=
  maxDepth < a.before.length + a.cut

instance : Decidable a.IsDeep := Nat.decLt _ _

def failure (a : Attempt) : Error :=
  .propertyReference (spelling a.head) a.owner.text a.before

/-- The first failure at the text, this one if there was none before. -/
def firstFailure (a : Attempt) : Error :=
  a.first?.getD a.failure

/-- The next attempt, with the head without its last hump. -/
def shorten (a : Attempt) (front hump : List Char) : Attempt :=
  { a with head := front, tail := hump ++ a.tail, cut := a.cut + 1, first? := some a.firstFailure }

/-- The first attempt at what stands behind a head that is a property. -/
def goOn (a : Attempt) (s : Segment) : Attempt :=
  start s.actual (a.before ++ [s.name]) a.tail

/-- What is reported of a later failure and the first one: the one that got further, the first one
if they got equally far. Other errors than missing properties are always reported. -/
def report (first? : Option Error) (e : Error) : Error :=
  match first? with
  | some first => if e.isPropertyReference && !e.isDeeperThan first then first else e
  | none => e

/-- An attempt and those that follow it fail in some ways and come to a result. -/
inductive ComesTo (c : Catalog) :
    Attempt → List Error → Except Error (List Segment) → Prop where
  | deep {a : Attempt} :
    a.IsDeep →
    ComesTo c a [] (.error (.depthExceeded maxDepth))
  | whole {a : Attempt} {s : Segment} :
    ¬ a.IsDeep →
    Spells c a.owner a.head s →
    a.tail = [] →
    ComesTo c a [] (.ok [s])
  | read {a : Attempt} {s : Segment} {failures : List Error} {segments : List Segment} :
    ¬ a.IsDeep →
    Spells c a.owner a.head s →
    a.tail ≠ [] →
    ComesTo c (a.goOn s) failures (.ok segments) →
    ComesTo c a failures (.ok (s :: segments))
  | refused {a : Attempt} {s : Segment} {failures : List Error} {e : Error} :
    ¬ a.IsDeep →
    Spells c a.owner a.head s →
    a.tail ≠ [] →
    ComesTo c (a.goOn s) failures (.error e) →
    ComesTo c a failures (.error (report a.first? e))
  | shorter {a : Attempt} {front hump : List Char} {failures : List Error}
      {result : Except Error (List Segment)} :
    ¬ a.IsDeep →
    (∀ s, ¬ Spells c a.owner a.head s) →
    splitHump? a.head = some (front, hump) →
    ComesTo c (a.shorten front hump) failures result →
    ComesTo c a (a.failure :: failures) result
  | stuck {a : Attempt} :
    ¬ a.IsDeep →
    (∀ s, ¬ Spells c a.owner a.head s) →
    splitHump? a.head = none →
    ComesTo c a [a.failure] (.error a.firstFailure)

/-- Every attempt is followed by finitely many others until there is a result. -/
theorem exists_comesTo (c : Catalog) (a : Attempt) (head_ne : a.head ≠ []) :
    ∃ failures result, ComesTo c a failures result := by
  -- what is left of the text gets shorter with each property, and the head with each hump
  have head_pos := List.length_pos_iff.mpr head_ne
  by_cases deep : a.IsDeep
  · exact ⟨_, _, .deep deep⟩
  cases search : segment? c a.owner a.head with
  | some s =>
    have spells := segment?_eq_some_iff.mp search
    by_cases tail_ne : a.tail = []
    · exact ⟨_, _, .whole deep spells tail_ne⟩
    · obtain ⟨failures, result, next⟩ := exists_comesTo c (a.goOn s) tail_ne
      cases result with
      | ok segments => exact ⟨_, _, .read deep spells tail_ne next⟩
      | error e => exact ⟨_, _, .refused deep spells tail_ne next⟩
  | none =>
    have unspelled := segment?_eq_none_iff.mp search
    cases split : splitHump? a.head with
    | none => exact ⟨_, _, .stuck deep unspelled split⟩
    | some parts =>
      obtain ⟨front, hump⟩ := parts
      have front_ne : front ≠ [] := (splitHump?_eq_some split).2.1
      obtain ⟨failures, result, next⟩ := exists_comesTo c (a.shorten front hump) front_ne
      exact ⟨_, _, .shorter deep unspelled split next⟩
termination_by (a.head.length + a.tail.length, a.head.length)
decreasing_by
  · obtain ⟨rebuilt, -, hump_ne⟩ := splitHump?_eq_some split
    have hump_pos := List.length_pos_iff.mpr hump_ne
    have lengths := congrArg List.length rebuilt
    rw [List.length_append] at lengths
    have same : front.length + (hump ++ a.tail).length = a.head.length + a.tail.length := by
      rw [List.length_append]
      omega
    show Prod.Lex _ _ (front.length + (hump ++ a.tail).length, front.length) _
    rw [same]
    apply Prod.Lex.right
    omega
  · apply Prod.Lex.left
    show a.tail.length + 0 < a.head.length + a.tail.length
    omega

/-! ### How far failures get -/

/-- Behind a property that was found there is one name more. -/
lemma length_before_goOn (a : Attempt) (s : Segment) :
    (a.goOn s).before.length = a.before.length + 1 :=
  List.length_append

/-- The first failure, if there was one, got as far as all failures at the same text do. -/
def IsLevel (a : Attempt) : Prop :=
  ∀ first ∈ a.first?, first.resolutionDepth = a.before.length

/-- Behind a property that was found no failure is kept yet. -/
lemma isLevel_goOn (a : Attempt) (s : Segment) : (a.goOn s).IsLevel :=
  nofun

/-- The first failure of a level attempt got as far as the attempt itself. -/
lemma IsLevel.depth_firstFailure (level : a.IsLevel) :
    a.firstFailure.resolutionDepth = a.before.length := by
  unfold firstFailure
  cases first : a.first? with
  | none => rfl
  | some e => exact level e first

/-- Shortening the head keeps the first failure, or makes one that got just as far. -/
lemma IsLevel.shorten (level : a.IsLevel) : (a.shorten front hump).IsLevel := by
  rintro _ ⟨⟩
  exact level.depth_firstFailure

/-- A later failure is reported if it got further than the first one. -/
lemma IsLevel.report_eq (level : a.IsLevel)
    (further : e.isPropertyReference = true → a.before.length < e.resolutionDepth) :
    report a.first? e = e := by
  unfold report
  cases first : a.first? with
  | none => rfl
  | some f =>
    apply if_neg
    rw [Bool.and_eq_true, not_and]
    intro isReference
    have deeper : f.resolutionDepth < e.resolutionDepth := by
      rw [level f first]
      exact further isReference
    rw [Error.isDeeperThan, decide_eq_true deeper]
    exact Bool.false_ne_true

/-- A property that is missing is missed behind the segments that were found before. -/
lemma ComesTo.depth_le {result : Except Error (List Segment)} (h : ComesTo c a failures result)
    (level : a.IsLevel) (refused : result = .error e) (isReference : e.isPropertyReference = true) :
    a.before.length ≤ e.resolutionDepth := by
  induction h generalizing e with
  | deep =>
    cases refused
    cases isReference
  | whole | read => cases refused
  | @refused a s failures e' _ _ _ _ ih =>
    -- a failure behind the property got further than the attempt, so it is the one that is reported
    have further : e'.isPropertyReference = true → a.before.length < e'.resolutionDepth := by
      intro isReference
      have behind := ih (isLevel_goOn a s) rfl isReference
      rwa [length_before_goOn] at behind
    rw [level.report_eq further] at refused
    cases refused
    exact Nat.le_of_lt (further isReference)
  | shorter _ _ _ _ ih => exact ih level.shorten refused isReference
  | stuck =>
    cases refused
    exact Nat.le_of_eq level.depth_firstFailure.symm

/-- A failure behind a property that was found got further than the attempt at that property. -/
lemma ComesTo.depth_lt (h : ComesTo c (a.goOn s) failures (.error e))
    (isReference : e.isPropertyReference = true) : a.before.length < e.resolutionDepth := by
  have behind := h.depth_le (isLevel_goOn a s) rfl isReference
  rwa [length_before_goOn] at behind

/-- No failure on the way to a result got as far as the segments that were found. -/
lemma ComesTo.depth_lt_of_ok {result : Except Error (List Segment)}
    (h : ComesTo c a failures result) (resolved : result = .ok segments) :
    segments ≠ [] ∧ ∀ f ∈ failures, f.resolutionDepth < a.before.length + segments.length := by
  induction h generalizing segments with
  | deep | refused | stuck => cases resolved
  | whole =>
    cases resolved
    exact ⟨List.cons_ne_nil _ _, nofun⟩
  | @read a s failures segments _ _ _ _ ih =>
    cases resolved
    refine ⟨List.cons_ne_nil _ _, fun f hf => ?_⟩
    have behind := (ih rfl).2 f hf
    rw [length_before_goOn] at behind
    rw [List.length_cons]
    omega
  | @shorter a front hump failures result _ _ _ _ ih =>
    obtain ⟨segments_ne, behind⟩ := ih resolved
    refine ⟨segments_ne, List.forall_mem_cons.mpr ⟨?_, behind⟩⟩
    exact Nat.lt_add_of_pos_right (List.length_pos_iff.mpr segments_ne)

/-! ### What attempts come to -/

/-- What the longest head of an attempt that is a property leads to. -/
def resolved (c : Catalog) (a : Attempt) : Except Error (List Segment) :=
  if maxDepth < a.before.length + (a.cut + (longestHead c a.owner a.head a.tail).1) then
    .error (.depthExceeded maxDepth)
  else
    match (longestHead c a.owner a.head a.tail).2 with
    | none => .error a.firstFailure
    | some (s, []) => .ok [s]
    | some (s, t :: rest) =>
      (resolveText c s.actual (t :: rest) (a.before ++ [s.name])).map (s :: ·)

/-- The first attempt at a text leads to what the text is resolved to. -/
lemma resolved_start (c : Catalog) (owner : TypeRef) (before : List String) (text : List Char) :
    (start owner before text).resolved c = resolveText c owner text before := by
  rw [resolveText_eq]
  simp only [resolved, start, Nat.zero_add]
  rfl

/-- If the head is a property, what stands behind it is resolved on its own. -/
lemma resolved_of_spells (shallow : ¬ a.IsDeep) (spells : Spells c a.owner a.head s) :
    (a.tail = [] → a.resolved c = .ok [s]) ∧
      (a.tail ≠ [] → a.resolved c = ((a.goOn s).resolved c).map (s :: ·)) := by
  rw [goOn, resolved_start, resolved, longestHead_of_spells spells]
  refine ⟨fun whole => (if_neg shallow).trans ?_, fun tail_ne => (if_neg shallow).trans ?_⟩
  · rw [whole]
  · obtain ⟨t, rest, tail_eq⟩ := List.exists_cons_of_ne_nil tail_ne
    rw [tail_eq]

/-- If the head is no property, the attempt leads to what the shorter head leads to. -/
lemma resolved_of_shortens (unspelled : ∀ s, ¬ Spells c a.owner a.head s)
    (split : splitHump? a.head = some (front, hump)) :
    a.resolved c = (a.shorten front hump).resolved c := by
  have kept : (a.shorten front hump).firstFailure = a.firstFailure := rfl
  have cut_eq (n : Nat) : a.cut + 1 + n = a.cut + (n + 1) := by omega
  simp only [resolved, kept, longestHead_of_shortens unspelled split]
  simp only [shorten, cut_eq]

/-- If the head is no property and cannot be shortened, the attempt fails. -/
lemma resolved_of_unsplit (shallow : ¬ a.IsDeep) (unspelled : ∀ s, ¬ Spells c a.owner a.head s)
    (unsplit : splitHump? a.head = none) : a.resolved c = .error a.firstFailure := by
  rw [resolved, longestHead_of_unsplit unspelled unsplit]
  exact if_neg shallow

/-- Attempts come to what the longest head that is a property leads to, whatever failures were kept.
-/
theorem ComesTo.result_eq {result : Except Error (List Segment)} (h : ComesTo c a failures result)
    (level : a.IsLevel) : result = a.resolved c := by
  induction h with
  | deep deep =>
    symm
    apply if_pos
    exact Nat.lt_of_lt_of_le deep (Nat.add_le_add_left (Nat.le_add_right _ _) _)
  | whole shallow spells whole => exact ((resolved_of_spells shallow spells).1 whole).symm
  | @read a s _ _ shallow spells tail_ne _ ih =>
    rw [(resolved_of_spells shallow spells).2 tail_ne, ← ih (isLevel_goOn a s)]
    rfl
  | @refused a s _ _ shallow spells tail_ne next ih =>
    rw [(resolved_of_spells shallow spells).2 tail_ne, ← ih (isLevel_goOn a s),
      level.report_eq next.depth_lt]
    rfl
  | shorter _ unspelled split _ ih =>
    rw [resolved_of_shortens unspelled split]
    exact ih level.shorten
  | stuck shallow unspelled unsplit => exact (resolved_of_unsplit shallow unspelled unsplit).symm

end Attempt

/-! ### Attempts at several parts -/

/-- Attempts at the parts after some segments fail in some ways and come to a result. -/
inductive PartsComeTo (c : Catalog) (owner : TypeRef) :
    List Segment → List (List Char) → List Error → Except Error (List Segment) → Prop where
  | ended {found : List Segment} :
    PartsComeTo c owner found [] [] (.ok found)
  | deep {found : List Segment} {part : List Char} {ps : List (List Char)} :
    maxDepth < found.length →
    PartsComeTo c owner found (part :: ps) [] (.error (.depthExceeded maxDepth))
  | unbound {found : List Segment} {part : List Char} {ps : List (List Char)} {e : Error} :
    ¬ maxDepth < found.length →
    nextOwner owner found = .error e →
    PartsComeTo c owner found (part :: ps) [] (.error e)
  | refused {found : List Segment} {part : List Char} {ps : List (List Char)} {type : TypeRef}
      {failures : List Error} {e : Error} :
    ¬ maxDepth < found.length →
    nextOwner owner found = .ok type →
    Attempt.ComesTo c (.start type (found.map (·.name)) part) failures (.error e) →
    PartsComeTo c owner found (part :: ps) failures (.error e)
  | read {found segments : List Segment} {part : List Char} {ps : List (List Char)} {type : TypeRef}
      {failures more : List Error} {result : Except Error (List Segment)} :
    ¬ maxDepth < found.length →
    nextOwner owner found = .ok type →
    Attempt.ComesTo c (.start type (found.map (·.name)) part) failures (.ok segments) →
    PartsComeTo c owner (found ++ segments) ps more result →
    PartsComeTo c owner found (part :: ps) (failures ++ more) result

/-- There is a type variable to blame if there is no type to try a part on. -/
lemma isPropertyReference_of_nextOwner (h : nextOwner owner found = .error e) :
    e.isPropertyReference = false := by
  rcases nextOwner_cases owner found with ⟨type, -, refused⟩ | next
  · cases h.symm.trans refused
    rfl
  · cases h.symm.trans next

/-- The attempts at parts come to an end, too. -/
lemma exists_partsComeTo (c : Catalog) (owner : TypeRef) (found : List Segment)
    (parts_ne : ∀ part ∈ ps, part ≠ []) :
    ∃ failures result, PartsComeTo c owner found ps failures result := by
  induction ps generalizing found with
  | nil => exact ⟨_, _, .ended⟩
  | cons part ps ih =>
    obtain ⟨part_ne, parts_ne⟩ := List.forall_mem_cons.mp parts_ne
    by_cases deep : maxDepth < found.length
    · exact ⟨_, _, .deep deep⟩
    cases next : nextOwner owner found with
    | error e => exact ⟨_, _, .unbound deep next⟩
    | ok type =>
      obtain ⟨failures, result, tried⟩ :=
        Attempt.exists_comesTo c (.start type (found.map (·.name)) part) part_ne
      cases result with
      | error e => exact ⟨_, _, .refused deep next tried⟩
      | ok segments =>
        obtain ⟨more, result, later⟩ := ih (found ++ segments) parts_ne
        exact ⟨_, _, .read deep next tried later⟩

namespace PartsComeTo

variable {result : Except Error (List Segment)}

/-- Attempts at parts come to what the parts are resolved to, one after the other. -/
theorem result_eq (h : PartsComeTo c owner found ps failures result) :
    result = ps.foldlM (resolvePart c owner) found := by
  induction h with
  | ended => rfl
  | deep deep =>
    rw [List.foldlM_cons, resolvePart_eq, if_pos deep]
    rfl
  | unbound shallow next =>
    rw [List.foldlM_cons, resolvePart_eq, if_neg shallow, next]
    rfl
  | refused shallow next tried =>
    -- nothing was kept before the first attempt at a part, so that is level
    have text_eq := tried.result_eq nofun
    rw [Attempt.resolved_start] at text_eq
    rw [List.foldlM_cons, resolvePart_eq, if_neg shallow, next, Except.bind, ← text_eq]
    rfl
  | read shallow next tried _ ih =>
    have text_eq := tried.result_eq nofun
    rw [Attempt.resolved_start] at text_eq
    rw [List.foldlM_cons, resolvePart_eq, if_neg shallow, next, Except.bind, ← text_eq]
    exact ih

/-- A property that is missing is missed behind the segments that were found before. -/
lemma depth_le (h : PartsComeTo c owner found ps failures result) (refused : result = .error e)
    (isReference : e.isPropertyReference = true) : found.length ≤ e.resolutionDepth := by
  induction h with
  | ended => cases refused
  | deep =>
    cases refused
    cases isReference
  | unbound _ next =>
    cases refused
    rw [isPropertyReference_of_nextOwner next] at isReference
    cases isReference
  | refused _ _ tried =>
    cases refused
    have behind := tried.depth_le nofun rfl isReference
    rwa [Attempt.start, List.length_map] at behind
  | read _ _ _ _ ih =>
    have behind := ih refused
    rw [List.length_append] at behind
    exact Nat.le_of_add_right_le behind

/-- Every part that is read gives a segment. -/
lemma length_le (h : PartsComeTo c owner found ps failures result)
    (resolved : result = .ok segments) : found.length + ps.length ≤ segments.length := by
  induction h with
  | ended =>
    cases resolved
    exact Nat.le_refl _
  | deep | unbound | refused => cases resolved
  | read _ _ tried _ ih =>
    have some_segment := List.length_pos_iff.mpr (tried.depth_lt_of_ok rfl).1
    have further := ih resolved
    rw [List.length_append] at further
    rw [List.length_cons]
    omega

end PartsComeTo

/-! ### Attempts at a source -/

/-- Attempts at the parts of a source fail in some ways and come to a result. There are none if the
source has no parts. -/
inductive SourceComesTo (c : Catalog) (source : String) (owner : TypeRef) :
    List Error → Except Error PropertyPath → Prop where
  | empty :
    parts source.toList = [] →
    SourceComesTo c source owner [] (.error (.emptySource source))
  | refused {failures : List Error} {e : Error} :
    PartsComeTo c owner [] (parts source.toList) failures (.error e) →
    SourceComesTo c source owner failures (.error e)
  | read {failures : List Error} {p : PropertyPath} :
    PartsComeTo c owner [] (parts source.toList) failures (.ok p.segments) →
    SourceComesTo c source owner failures (.ok p)

variable {source : String}

/-- The attempts at a source come to what the source is resolved to. -/
theorem SourceComesTo.result_eq {result : Except Error PropertyPath}
    (h : SourceComesTo c source owner failures result) : result = resolve c source owner := by
  unfold resolve
  cases h with
  | empty no_parts =>
    rw [no_parts]
    rfl
  | refused tried =>
    rw [← tried.result_eq]
    rfl
  | read tried =>
    rw [← tried.result_eq]
    rfl

/-- Every source comes to a result after finitely many attempts. -/
theorem exists_sourceComesTo (c : Catalog) (source : String) (owner : TypeRef) :
    ∃ failures, SourceComesTo c source owner failures (resolve c source owner) := by
  have parts_ne : ∀ part ∈ parts source.toList, part ≠ [] := fun part => ne_nil_of_mem_parts
  obtain ⟨failures, result, tried⟩ := exists_partsComeTo c owner [] parts_ne
  have exists_result : ∃ failures result, SourceComesTo c source owner failures result := by
    cases result with
    | error e => exact ⟨_, _, .refused tried⟩
    | ok segments =>
      cases segments with
      | cons s segments => exact ⟨_, .ok ⟨s, segments⟩, .read tried⟩
      | nil =>
        -- each part gives a segment, so there was none
        have none_read := tried.length_le rfl
        rw [List.length_nil, Nat.zero_add] at none_read
        exact ⟨_, _, .empty (List.length_eq_zero_iff.mp (Nat.le_zero.mp none_read))⟩
  obtain ⟨failures, result, comes⟩ := exists_result
  rw [← comes.result_eq]
  exact ⟨failures, comes⟩

end EntityModel.Path
