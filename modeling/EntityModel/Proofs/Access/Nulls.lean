import EntityModel.Proofs.Access.Writable
import EntityModel.Proofs.Context.Failures

/-!
# Nulls on the way

A read looks at a value before it goes on from it, a write as soon as it has read it. Along the same
properties both come to the same null, in the same context and before the same property
(`MeetsNull`), and nothing else fails as they do there (`Error.IsOfProperty`). So reads and writes
that reject nulls are rejected together, and where they are, a read that may answer null does so and
a write that may be left out leaves the bean alone (`PathAccessor.nulls_agree`).
-/

namespace EntityModel

open ContextM

/-- The failures of access to one property of a value. -/
inductive Error.IsOfProperty : Error → Prop where
  | entity {err : Error} :
    err.IsOfEntity →
    IsOfProperty err
  | notABean {type} :
    IsOfProperty (.notABean type)
  | notAnInstance {entity type} :
    IsOfProperty (.notAnInstance entity type)
  | rejected {entity} :
    IsOfProperty (.rejected entity)
  | unreadable {property owner} :
    IsOfProperty (.noGetter property owner)
  | immutable {property owner} :
    IsOfProperty (.immutableProperty property owner)

variable {c c' : Context} {x v root : Value} {p q : EntityProperty} {ps : List EntityProperty}
  {path : EntityPath} {options : WriteOptions} {nulls : ReadNulls} {err : Error}

/-! ### Failures of access -/

/-- Access to a property never fails at a null on the way of a path. -/
lemma Error.IsOfProperty.not_null {text property owner : String} :
    ¬Error.IsOfProperty (.nullIntermediate text property owner) := by
  intro h
  cases h with
  | entity failed => cases failed

/-- An instance that cannot be opened is refused for another reason than a null. -/
lemma Entity.isOfProperty_of_openInstance {e : Entity} (h : e.openInstance x = .error err) :
    err.IsOfProperty := by
  unfold openInstance at h
  split at h
  · cases h
    exact .rejected
  · unfold instanceOf at h
    split at h <;> cases h
    exact .notAnInstance

namespace ContextM

/-- A value without an entity is refused for another reason than a null. -/
lemma isOfProperty_of_entityForValue (h : (entityForValue x).runOn c = some (.error err, c')) :
    err.IsOfProperty := by
  unfold entityForValue at h
  split at h
  · exact .entity (isOfEntity_of_requiredEntity h)
  · cases h
    exact .notABean

/-- A property that cannot be read is refused for another reason than a null. -/
lemma isOfProperty_of_readProperty (h : (readProperty x p).runOn c = some (.error err, c')) :
    err.IsOfProperty := by
  rcases runOn_bind_error.mp h with h | ⟨e, c₁, -, h⟩
  · exact isOfProperty_of_entityForValue h
  · rcases runOn_bind_error.mp h with h | ⟨b, c₂, -, h⟩
    · exact Entity.isOfProperty_of_openInstance (runOn_lift_error.mp h).1
    · have unread := (runOn_lift_error.mp h).1
      unfold Entity.read at unread
      split at unread <;> cases unread
      exact .unreadable

/-- A property that cannot be written is refused for another reason than a null. -/
lemma isOfProperty_of_writeProperty (h : (writeProperty x p v).runOn c = some (.error err, c')) :
    err.IsOfProperty := by
  rcases runOn_bind_error.mp h with h | ⟨e, c₁, -, h⟩
  · exact isOfProperty_of_entityForValue h
  · rcases runOn_bind_error.mp h with h | ⟨b, c₂, -, h⟩
    · exact Entity.isOfProperty_of_openInstance (runOn_lift_error.mp h).1
    · rcases runOn_bind_error.mp h with h | ⟨_, _, -, ⟨⟩⟩
      have unwritten := (runOn_lift_error.mp h).1
      unfold Entity.write at unwritten
      split at unwritten <;> cases unwritten
      exact .immutable

variable {text property owner : String}

/-- The read of a single property never fails at a null. -/
lemma readProperty_not_null :
    (readProperty x p).runOn c ≠ some (.error (.nullIntermediate text property owner), c') :=
  fun h => (isOfProperty_of_readProperty h).not_null

/-- The write of a single property never fails at a null. -/
lemma writeProperty_not_null :
    (writeProperty x p v).runOn c ≠ some (.error (.nullIntermediate text property owner), c') :=
  fun h => (isOfProperty_of_writeProperty h).not_null

end ContextM

/-! ### The null that is met -/

/-- A way meets a null behind a property that is not its last one; the next property and the context
by then are those of the failure. -/
inductive MeetsNull :
    Context → List EntityProperty → Value → EntityProperty → Context → Prop where
  | here {c p next rest x child c'} :
    (readProperty x p).runOn c = some (.ok child, c') →
    child.isNull = true →
    MeetsNull c (p :: next :: rest) x next c'
  | beyond {c p next rest x child c₁ q c'} :
    (readProperty x p).runOn c = some (.ok child, c₁) →
    child.isNull = false →
    MeetsNull c₁ (next :: rest) child q c' →
    MeetsNull c (p :: next :: rest) x q c'

/-- What becomes of a read that meets a null before a property. -/
def endAtNull (root : Value) (path : EntityPath) (nulls : ReadNulls) (p : EntityProperty) :
    ContextM Value :=
  readOn root path nulls .null [p]

/-- A value that is there is read on. -/
lemma readOn_of_present (present : x.isNull = false) :
    readOn root path nulls x (p :: ps) =
      readProperty x p >>= fun child => readOn root path nulls child ps := by
  rw [readOn.eq_def]
  dsimp only
  rw [present]
  rfl

/-- It does not matter what would be read from a null. -/
lemma readOn_of_null (null : x.isNull = true) :
    readOn root path nulls x (p :: ps) = endAtNull root path nulls p := by
  rw [endAtNull, readOn.eq_def, readOn.eq_def]
  dsimp only
  rw [null]
  rfl

namespace MeetsNull

/-- A read that meets a null ends there, in the way that it was asked to. -/
lemma readOn (meets : MeetsNull c ps x q c') (present : x.isNull = false) :
    (readOn root path nulls x ps).runOn c = (endAtNull root path nulls q).runOn c' := by
  induction meets with
  | here read null => rw [readOn_of_present present, runOn_bind_of_ok read, readOn_of_null null]
  | beyond read null _ ih => rw [readOn_of_present present, runOn_bind_of_ok read, ih null]

/-- A write that meets a null ends there, in the way that it was asked to. -/
lemma writeOn (meets : MeetsNull c ps x q c') (straight : IsStraight ps) :
    (writeOn root path options v ps x).runOn c =
      (skipNull root path options.nulls q).runOn c' := by
  induction meets with
  | here read null => exact writeOn_null read null
  | @beyond c p next rest x child c₁ q c' read null _ ih =>
    have further := ih straight.tail
    rw [writeOn_through straight read null, runOn_bind, further]
    unfold skipNull
    cases options.nulls <;> rfl

/-- What a read is rejected for is the null that it meets. -/
lemma of_readOn {text property owner : String} (present : x.isNull = false)
    (h : (ContextM.readOn root path .reject x ps).runOn c =
      some (.error (.nullIntermediate text property owner), c')) :
    ∃ q, MeetsNull c ps x q c' ∧
      nullBefore root path q = .nullIntermediate text property owner := by
  -- the null is met right behind this property or further below
  induction ps generalizing c x with
  | nil => cases h
  | cons p ps ih =>
    rw [readOn_of_present present] at h
    -- a property that cannot be read fails otherwise
    rcases runOn_bind_error.mp h with h | ⟨child, c₁, read, h⟩
    · exact absurd h readProperty_not_null
    · cases ps with
      | nil => cases h
      | cons next rest =>
        cases null : child.isNull with
        | true =>
          rw [readOn_of_null null] at h
          cases h
          exact ⟨next, .here read null, rfl⟩
        | false =>
          obtain ⟨q, meets, same⟩ := ih null h
          exact ⟨q, .beyond read null meets, same⟩

/-- What a write is rejected for is the null that it meets. -/
lemma of_writeOn {text property owner : String} (straight : IsStraight ps)
    (rejects : options.nulls = .reject)
    (h : (ContextM.writeOn root path options v ps x).runOn c =
      some (.error (.nullIntermediate text property owner), c')) :
    ∃ q, MeetsNull c ps x q c' ∧
      nullBefore root path q = .nullIntermediate text property owner := by
  induction ps generalizing c x c' with
  | nil => cases h
  | cons p ps ih =>
    cases ps with
    | nil => exact absurd (runOn_map_error.mp h) writeProperty_not_null
    | cons next rest =>
      have run := h
      rw [ContextM.writeOn] at run
      rcases runOn_bind_error.mp run with failed | ⟨child, c₁, read, -⟩
      · exact absurd failed readProperty_not_null
      cases null : child.isNull with
      | true =>
        rw [writeOn_null read null, rejects] at h
        cases h
        exact ⟨next, .here read null, rfl⟩
      | false =>
        rw [writeOn_through straight read null] at h
        -- the failure comes from below: what is written afterwards fails otherwise
        rcases runOn_bind_error.mp h with h | ⟨written, c₂, -, h⟩
        · obtain ⟨q, meets, same⟩ := ih straight.tail h
          exact ⟨q, .beyond read null meets, same⟩
        · cases written with
          | none => cases h
          | some updated =>
            exact absurd (runOn_map_error.mp h) writeProperty_not_null

end MeetsNull

/-! ### Accessors -/

namespace PathAccessor

variable {a later : PathAccessor} {text property owner : String}

/-- A read that fails leaves the bean as it was. -/
lemma read_eq_error : a.read path nulls = some (.error err, later) ↔
    (readPath a.bean path nulls).runOn a.context = some (.error err, later.context) ∧
      later.bean = a.bean := by
  unfold read
  rw [Option.bind_eq_bind, Option.bind_eq_some_iff]
  constructor
  · rintro ⟨⟨answer, context⟩, run, ⟨⟩⟩
    exact ⟨run, rfl⟩
  · rintro ⟨run, same⟩
    refine ⟨_, run, ?_⟩
    rw [← same]
    rfl

/-- A write is rejected at a null where the way down its path is. -/
lemma writePath_rejected : (writePath x path v options).runOn c =
      some (.error (.nullIntermediate text property owner), c') ↔
    (ContextM.writeOn x path options v path.properties x).runOn c =
      some (.error (.nullIntermediate text property owner), c') := by
  by_cases empty : path.properties = []
  · rw [writePath, EntityPath.isEmpty, empty]
    exact ⟨nofun, nofun⟩
  · rw [writePath_of_nonempty empty, runOn_bind_error]
    refine ⟨?_, .inl⟩
    rintro (h | ⟨_, _, -, ⟨⟩⟩)
    exact h

/-- A read that rejects nulls is rejected for the null that it meets. -/
lemma read_rejected_iff (present : a.bean.isNull = false) :
    a.read path = some (.error (.nullIntermediate text property owner), later) ↔
      (∃ q, MeetsNull a.context path.properties a.bean q later.context ∧
        nullBefore a.bean path q = .nullIntermediate text property owner) ∧
      later.bean = a.bean := by
  rw [read_eq_error, readPath]
  refine and_congr_left fun _ => ⟨MeetsNull.of_readOn present, ?_⟩
  rintro ⟨q, meets, same⟩
  rw [meets.readOn present, ← same]
  rfl

/-- A write that rejects nulls is rejected for the null that it meets. -/
lemma write_rejected_iff (straight : IsStraight path.properties)
    (rejects : options.nulls = .reject) :
    a.write path v options = some (.error (.nullIntermediate text property owner), later) ↔
      (∃ q, MeetsNull a.context path.properties a.bean q later.context ∧
        nullBefore a.bean path q = .nullIntermediate text property owner) ∧
      later.bean = a.bean := by
  rw [write_eq_error, writePath_rejected]
  refine and_congr_left fun _ => ⟨MeetsNull.of_writeOn straight rejects, ?_⟩
  rintro ⟨q, meets, same⟩
  rw [meets.writeOn straight, rejects, ← same]
  rfl

/-- A write that may be left out at nulls leaves the bean alone where it meets one. -/
lemma write_of_meetsNull (meets : MeetsNull a.context path.properties a.bean q c)
    (straight : IsStraight path.properties) (tolerates : options.nulls ≠ .reject) :
    ∃ context, a.write path v options = some (.ok (), { a with context }) := by
  have nonempty : path.properties ≠ [] := by
    intro empty
    rw [empty] at meets
    cases meets
  obtain ⟨context, skipped⟩ : ∃ context,
      (skipNull a.bean path options.nulls q).runOn c = some (.ok none, context) := by
    cases chosen : options.nulls with
    | reject => exact absurd chosen tolerates
    | skip | report => exact ⟨_, rfl⟩
  refine ⟨context, write_ok.mpr ?_⟩
  rw [writePath_of_nonempty nonempty,
    runOn_bind_of_ok ((meets.writeOn straight).trans skipped)]
  rfl

/-- Reads and writes of a bean along properties none of which but the last one holds a container,
both rejecting nulls, are rejected at the same null: with the same path, property and type of bean,
and leaving the same context. Where they are, a read that may answer null does, and a write that may
be left out is, with the bean as it was. -/
theorem nulls_agree {b : Bean} (bean : a.bean = b.toValue) (straight : IsStraight path.properties)
    (v : Value) :
    (∀ options : WriteOptions, options.nulls = .reject → ∀ text property owner later,
      a.read path = some (.error (.nullIntermediate text property owner), later) ↔
        a.write path v options =
          some (.error (.nullIntermediate text property owner), later)) ∧
    ∀ text property owner later,
      a.read path = some (.error (.nullIntermediate text property owner), later) →
        a.read path .answerNull = some (.ok .null, later) ∧
          ∀ options : WriteOptions, options.nulls ≠ .reject → ∃ context,
            a.write path v options = some (.ok (), { a with context }) := by
  have present : a.bean.isNull = false := by
    rw [bean]
    rfl
  refine ⟨fun options rejects text property owner later => ?_, ?_⟩
  -- both sides say that a null is met on the way, in the words of one error
  · exact (read_rejected_iff present).trans (write_rejected_iff straight rejects).symm
  · intro text property owner later rejected
    obtain ⟨⟨q, meets, -⟩, same⟩ := (read_rejected_iff present).mp rejected
    refine ⟨?_, fun options tolerates => write_of_meetsNull meets straight tolerates⟩
    have answered : (readPath a.bean path .answerNull).runOn a.context =
        some (.ok .null, later.context) := meets.readOn present
    unfold read
    rw [answered, ← same]
    rfl

/-- The title of the parent of a folder without a parent. -/
theorem nulls_agree_title : ∃ (a : PathAccessor) (b : Bean) (path : EntityPath),
    a.bean = b.toValue ∧ IsStraight path.properties ∧ path.IsGiven ∧
      a.read path = some (.error (.nullIntermediate "parent.title" "title" "Folder"), a) ∧
      a.write path (.text "outer") =
        some (.error (.nullIntermediate "parent.title" "title" "Folder"), a) ∧
      a.read path .answerNull = some (.ok .null, a) ∧
      ∃ context, a.write path (.text "outer") { nulls := .report } =
        some (.ok (), { a with context }) := by
  obtain ⟨c, e, -, known, direct, given⟩ := Sample.folder_known
  have opens : c.Opens ⟨"Folder", []⟩ e := ⟨known, direct⟩
  let a : PathAccessor := ⟨c, .object "Folder" []⟩
  have straight : IsStraight [Sample.parentProperty, Sample.titleProperty] :=
    isStraight_pair rfl rfl
  have meets : MeetsNull c [Sample.parentProperty, Sample.titleProperty] a.bean
      Sample.titleProperty c := .here (opens.readProperty (.inl rfl)) rfl
  have rejected : a.read ⟨[Sample.parentProperty, Sample.titleProperty]⟩ =
      some (.error (.nullIntermediate "parent.title" "title" "Folder"), a) :=
    (read_rejected_iff rfl).mpr ⟨⟨_, meets, rfl⟩, rfl⟩
  obtain ⟨agree, tolerated⟩ := nulls_agree (a := a) (b := ⟨"Folder", []⟩) rfl straight
    (.text "outer")
  obtain ⟨answered, skipped⟩ := tolerated _ _ _ _ rejected
  exact ⟨a, ⟨"Folder", []⟩, _, rfl, straight, given, rejected,
    (agree {} rfl _ _ _ _).mp rejected, answered, skipped _ (by decide)⟩

end PathAccessor

end EntityModel
