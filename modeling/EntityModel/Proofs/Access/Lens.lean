import EntityModel.Proofs.Access.Hop

/-!
# Access along ways

A way leads through properties none of which but the last one may hold a container. What is read
along properties (`Reads`) and what a bean becomes by a write along a way (`Writes`) are derivations
over what a context knows. They are what the operations compute.

A value that was written along a way is read there afterwards, what is read along paths that part
from it stays, the beans on it keep their types, and of two writes the later one stays
(`PathAccessor.write_lawful`).
-/

namespace EntityModel

/-- What is read from a value along properties. -/
inductive Reads (c : Context) (nulls : ReadNulls) : List EntityProperty → Value → Value → Prop where
  | here {v} :
    Reads c nulls [] v v
  | stopped {p ps} :
    nulls = .answerNull →
    Reads c nulls (p :: ps) .null .null
  | through {p ps b e v} :
    c.Opens b e →
    p.IsRead →
    Reads c nulls ps (b.get p.name) v →
    Reads c nulls (p :: ps) b.toValue v

/-- What a value becomes when another one is written along properties, none of which but the last
one leads to a container. -/
inductive Writes (c : Context) (v : Value) : List EntityProperty → Value → Value → Prop where
  | leaf {p b e} :
    c.Opens b e →
    e.canWrite p = true →
    Writes c v [p] b.toValue (b.set p.name v).toValue
  | through {p next rest b e new} :
    c.Opens b e →
    p.IsRead →
    e.canWrite p = true →
    Writes c v (next :: rest) (b.get p.name) new →
    Writes c v (p :: next :: rest) b.toValue (b.set p.name new).toValue

/-- No property before the last one is a collection or a map. -/
def IsStraight (ps : List EntityProperty) : Prop :=
  ∀ p ∈ ps.dropLast, p.isCollectionLike = false ∧ p.isMap = false

/-- The rest of a straight path is straight. -/
lemma IsStraight.tail {p next : EntityProperty} {rest : List EntityProperty}
    (straight : IsStraight (p :: next :: rest)) : IsStraight (next :: rest) :=
  fun q hq => straight q (List.mem_cons_of_mem p hq)

/-- Two properties are a straight path unless the first one holds several elements. -/
lemma isStraight_pair {p q : EntityProperty} (collection : p.isCollectionLike = false)
    (map : p.isMap = false) : IsStraight [p, q] :=
  List.forall_mem_singleton.mpr ⟨collection, map⟩

open ContextM

variable {c c' : Context} {target v new : Value} {p : EntityProperty} {b : Bean} {e : Entity}

/-! ### Reads -/

namespace Reads

variable {nulls : ReadNulls} {ps : List EntityProperty} {root : Value} {path : EntityPath}

/-- What can be read can be read later, too. -/
lemma evolve {forced : Bool} (h : Reads c nulls ps target v) (evolves : c.Evolves forced c') :
    Reads c' nulls ps target v := by
  induction h with
  | here => exact .here
  | stopped answers => exact .stopped answers
  | through opens isRead _ ih => exact .through (opens.evolve evolves) isRead ih

/-- To read through a property opens its bean and goes on in the field. -/
lemma through_inv (h : Reads c nulls (p :: ps) b.toValue v) :
    ∃ e, c.Opens b e ∧ p.IsRead ∧ Reads c nulls ps (b.get p.name) v := by
  generalize eq : b.toValue = target at h
  cases h with
  | stopped => cases eq
  | through opens isRead rest =>
    obtain rfl := Bean.toValue_injective eq
    exact ⟨_, opens, isRead, rest⟩

/-- What is read once everything is known is read without a change of the context. -/
lemma run (h : Reads c nulls ps target v) :
    (readOn root path nulls target ps).runOn c = some (.ok v, c) := by
  induction h with
  | here => rfl
  | stopped answers =>
    subst answers
    rfl
  | through opens isRead _ ih =>
    unfold readOn
    exact runOn_bind_ok.mpr ⟨_, c, opens.readProperty isRead, ih⟩

/-- A run that reads a value is such a reading. -/
lemma of_run (h : (readOn root path nulls target ps).runOn c = some (.ok v, c')) :
    Reads c' nulls ps target v := by
  induction ps generalizing c target with
  | nil =>
    cases h
    exact .here
  | cons p ps ih =>
    unfold readOn at h
    split at h
    -- the read has come to a null, which is answered or refused before a further property is read
    · rename_i null
      cases target with
      | null =>
        cases nulls with
        | reject => cases h
        | answerNull =>
          cases h
          exact .stopped rfl
      | integer | float | text | boolean | list | set | map | object => cases null
    · obtain ⟨child, c₁, read, h⟩ := runOn_bind_ok.mp h
      obtain ⟨b, e, rfl, looked, direct, isRead, rfl⟩ := readProperty_ok.mp read
      -- what is read below happens in a later context, where the bean is still opened alike
      have evolves : c₁.Evolves false c' := Evolving.readOn _ _ _ _ _ _ _ _ h
      have opens := Context.Opens.of_requiredEntity looked direct
      exact .through (opens.evolve evolves) isRead (ih h)

end Reads

/-! ### Writes -/

namespace Writes

variable {ps : List EntityProperty} {root : Value} {path : EntityPath} {options : WriteOptions}

/-- What can be written can be written later, too. -/
lemma evolve {forced : Bool} (h : Writes c v ps target new) (evolves : c.Evolves forced c') :
    Writes c' v ps target new := by
  induction h with
  | leaf opens writable => exact .leaf (opens.evolve evolves) writable
  | through opens isRead writable _ ih =>
    exact .through (opens.evolve evolves) isRead writable ih

/-- The last property is set in the bean that holds it. -/
lemma leaf_inv (h : Writes c v [p] b.toValue new) :
    ∃ e, c.Opens b e ∧ e.canWrite p = true ∧ new = (b.set p.name v).toValue := by
  generalize eq : b.toValue = target at h
  cases h with
  | leaf opens writable =>
    obtain rfl := Bean.toValue_injective eq
    exact ⟨_, opens, writable, rfl⟩

/-- To write through a property writes below it and sets what comes of it. -/
lemma through_inv {next : EntityProperty} {rest : List EntityProperty}
    (h : Writes c v (p :: next :: rest) b.toValue new) :
    ∃ e child, c.Opens b e ∧ p.IsRead ∧ e.canWrite p = true ∧
      Writes c v (next :: rest) (b.get p.name) child ∧ new = (b.set p.name child).toValue := by
  generalize eq : b.toValue = target at h
  cases h with
  | through opens isRead writable below =>
    obtain rfl := Bean.toValue_injective eq
    exact ⟨_, _, opens, isRead, writable, below, rfl⟩

/-- A write along a way that leads through no container writes to beans only. -/
lemma isNull_eq_false (h : Writes c v ps target new) : target.isNull = false := by
  cases h with
  | leaf | through => rfl

end Writes

namespace ContextM

variable {next : EntityProperty} {rest ps : List EntityProperty} {root : Value} {path : EntityPath}
  {options : WriteOptions} {r : Option Value}

/-- A write that rejects nulls goes on through a property that leads to no container. -/
lemma writeOn_through_ok (straight : IsStraight (p :: next :: rest))
    (rejects : options.nulls = .reject) :
    (writeOn root path options v (p :: next :: rest) target).runOn c = some (.ok r, c') ↔
      ∃ child c₁ written c₂, (readProperty target p).runOn c = some (.ok child, c₁) ∧
        child.isNull = false ∧
        (writeOn root path options v (next :: rest) child).runOn c₁ = some (.ok written, c₂) ∧
        (match written with
          | none => pure none
          | some updated => some <$> writeProperty target p updated : ContextM (Option Value)).runOn
            c₂ = some (.ok r, c') := by
  -- neither kind of container is on a straight way, so there is nothing to fan out over
  obtain ⟨collection, map⟩ := straight p List.mem_cons_self
  rw [writeOn, collection, map, runOn_bind_ok]
  refine exists_congr fun child => ?_
  cases null : child.isNull with
  | true =>
    -- a null is refused here, and no value is below it
    rw [if_pos rfl, rejects]
    refine ⟨?_, ?_⟩
    · rintro ⟨c₁, -, ⟨⟩⟩
    · rintro ⟨c₁, written, c₂, -, ⟨⟩, -⟩
  | false =>
    simp only [Bool.false_eq_true, Bool.or_self, if_false, runOn_bind_ok, true_and]
    constructor
    · rintro ⟨c₁, read, written, c₂, below, here⟩
      exact ⟨c₁, written, c₂, read, below, here⟩
    · rintro ⟨c₁, written, c₂, read, below, here⟩
      exact ⟨c₁, read, written, c₂, below, here⟩

/-- A write meets a null behind the first property. -/
lemma writeOn_null {child : Value} (read : (readProperty target p).runOn c = some (.ok child, c'))
    (null : child.isNull = true) :
    (writeOn root path options v (p :: next :: rest) target).runOn c =
      (skipNull root path options.nulls next).runOn c' := by
  rw [writeOn, runOn_bind_of_ok read, if_pos null]

/-- A write goes on behind a property that leads to no container, and then writes the property. -/
lemma writeOn_through {child : Value} (straight : IsStraight (p :: next :: rest))
    (read : (readProperty target p).runOn c = some (.ok child, c')) (null : child.isNull = false) :
    (writeOn root path options v (p :: next :: rest) target).runOn c =
      (writeOn root path options v (next :: rest) child >>= fun
        | none => pure none
        | some updated => some <$> writeProperty target p updated).runOn c' := by
  obtain ⟨collection, map⟩ := straight p List.mem_cons_self
  rw [writeOn, collection, map, runOn_bind_of_ok read, null]
  rfl

end ContextM

namespace Writes

variable {ps : List EntityProperty} {root : Value} {path : EntityPath} {options : WriteOptions}

/-- What is written once everything is known is written without a change of the context. -/
lemma run (h : Writes c v ps target new) (straight : IsStraight ps)
    (rejects : options.nulls = .reject) :
    (writeOn root path options v ps target).runOn c = some (.ok (some new), c) := by
  induction h with
  | leaf opens writable =>
    exact writeOn_leaf_ok.mpr ⟨_, opens.writeProperty writable v, rfl⟩
  | @through p next rest b e new opens isRead writable child ih =>
    have below := ih straight.tail
    refine (writeOn_through_ok straight rejects).mpr
      ⟨_, c, some new, c, opens.readProperty isRead, child.isNull_eq_false, below, ?_⟩
    exact runOn_map_ok.mpr ⟨_, opens.writeProperty writable new, rfl⟩

/-- A write that succeeds has written; any other value could have been written in its place, with
the same context in the end. -/
lemma of_run {r : Option Value} (straight : IsStraight ps) (nonempty : ps ≠ [])
    (rejects : options.nulls = .reject)
    (h : (writeOn root path options v ps target).runOn c = some (.ok r, c')) (w : Value) :
    ∃ new, (writeOn root path options w ps target).runOn c = some (.ok (some new), c') ∧
      Writes c' w ps target new := by
  induction ps generalizing c c' r target w with
  | nil => exact absurd rfl nonempty
  | cons p ps ih =>
    cases ps with
    | nil =>
      obtain ⟨_, written, rfl⟩ := writeOn_leaf_ok.mp h
      obtain ⟨b, e, rfl, looked, direct, writable, rfl⟩ := writeProperty_ok.mp written
      have opens := Context.Opens.of_requiredEntity looked direct
      refine ⟨_, writeOn_leaf_ok.mpr ⟨_, ?_, rfl⟩, .leaf opens writable⟩
      exact writeProperty_ok.mpr ⟨b, e, rfl, looked, direct, writable, rfl⟩
    | cons next rest =>
      obtain ⟨child, c₁, written, c₂, read, null, below, here⟩ :=
        (writeOn_through_ok straight rejects).mp h
      have any (w : Value) := ih straight.tail (List.cons_ne_nil _ _) below w
      -- below, a value was written and not left out
      obtain ⟨updated, same, -⟩ := any v
      cases below.symm.trans same
      obtain ⟨_, written, -⟩ := runOn_map_ok.mp here
      obtain ⟨b, e, rfl, looked, direct, isRead, rfl⟩ := readProperty_ok.mp read
      obtain ⟨b', e', same, looked', direct', writable, -⟩ := writeProperty_ok.mp written
      obtain rfl := Bean.toValue_injective same
      obtain ⟨new, below, writes⟩ := any w
      have opens := Context.Opens.of_requiredEntity looked' direct'
      have evolves : c₂.Evolves false c' := Evolving.requiredEntity _ _ _ looked'
      have here : (writeProperty b.toValue p new).runOn c₂ =
          some (.ok (b.set p.name new).toValue, c') :=
        writeProperty_ok.mpr ⟨b, e', rfl, looked', direct', writable, rfl⟩
      refine ⟨_, ?_, .through opens isRead writable (writes.evolve evolves)⟩
      exact (writeOn_through_ok straight rejects).mpr
        ⟨_, c₁, some new, c₂, read, null, below, runOn_map_ok.mpr ⟨_, here, rfl⟩⟩

end Writes

/-! ### Laws -/

section

variable {w x y z : Value} {nulls : ReadNulls} {ps qs : List EntityProperty}

namespace Writes

/-- What is written is read. -/
lemma reads (h : Writes c v ps x y) (isRead : ∀ p ∈ ps, p.IsRead) : Reads c nulls ps y v := by
  induction h with
  | @leaf p b e opens writable =>
    have here : Reads c nulls [] ((b.set p.name v).get p.name) v := by
      rw [Bean.get_set_self]
      exact .here
    exact .through opens.set (isRead p List.mem_cons_self) here
  | @through p next rest b e new opens isRead' writable _ ih =>
    have below := ih fun q hq => isRead q (List.mem_cons_of_mem p hq)
    rw [← Bean.get_set_self b p.name new] at below
    exact .through opens.set isRead' below

/-- What is read along properties that part from those of a write stays. -/
lemma frame (h : Writes c v ps x y) (before : Reads c nulls qs x w)
    (beyond : ¬ps.map (·.name) <+: qs.map (·.name))
    (above : ¬qs.map (·.name) <+: ps.map (·.name)) : Reads c nulls qs y w := by
  induction h generalizing qs with
  | @leaf p b e opens writable =>
    cases qs with
    | nil => exact absurd List.nil_prefix above
    | cons q qs =>
      obtain ⟨e', opens', isRead, rest⟩ := before.through_inv
      have parted : q.name ≠ p.name := by
        intro same
        exact beyond (List.cons_prefix_cons.mpr ⟨same.symm, List.nil_prefix⟩)
      rw [← Bean.get_set_of_ne b v parted] at rest
      exact .through opens'.set isRead rest
  | @through p next rest b e new opens isRead writable _ ih =>
    cases qs with
    | nil => exact absurd List.nil_prefix above
    | cons q qs =>
      obtain ⟨e', opens', isRead', remaining⟩ := before.through_inv
      refine .through opens'.set isRead' ?_
      by_cases same : q.name = p.name
      · -- the ways go on together, and part below
        rw [same] at remaining ⊢
        rw [Bean.get_set_self]
        refine ih remaining (fun h => beyond ?_) (fun h => above ?_)
        · exact List.cons_prefix_cons.mpr ⟨same.symm, h⟩
        · exact List.cons_prefix_cons.mpr ⟨same, h⟩
      · rwa [Bean.get_set_of_ne b new same]

/-- The beans along a write keep their types. -/
lemma types (h : Writes c v ps x y) {k : Nat} (hk : k < ps.length) :
    ∃ b b' : Bean, Reads c nulls (ps.take k) x b.toValue ∧
      Reads c nulls (ps.take k) y b'.toValue ∧ b'.type = b.type := by
  induction h generalizing k with
  | @leaf p b e opens writable =>
    obtain rfl : k = 0 := Nat.lt_one_iff.mp hk
    exact ⟨b, _, .here, .here, rfl⟩
  | @through p next rest b e new opens isRead writable _ ih =>
    cases k with
    | zero => exact ⟨b, _, .here, .here, rfl⟩
    | succ k =>
      obtain ⟨d, d', before, after, type_eq⟩ := ih (Nat.lt_of_succ_lt_succ hk)
      rw [← Bean.get_set_self b p.name new] at after
      exact ⟨d, d', .through opens isRead before, .through opens.set isRead after,
        type_eq⟩

/-- Of two writes along the same properties the later one stays. -/
lemma again (first : Writes c v ps x y) (alone : Writes c w ps x z) : Writes c w ps y z := by
  induction first generalizing z with
  | @leaf p b e opens writable =>
    obtain ⟨e', opens', writable', rfl⟩ := alone.leaf_inv
    rw [← Bean.set_set b p.name v w]
    exact .leaf opens'.set writable'
  | @through p next rest b e new opens isRead writable _ ih =>
    obtain ⟨e', child, opens', isRead', writable', below, rfl⟩ := alone.through_inv
    have below := ih below
    rw [← Bean.get_set_self b p.name new] at below
    rw [← Bean.set_set b p.name new child]
    exact .through opens'.set isRead' writable' below

end Writes

end

/-! ### Accessors -/

/-- A path with a property none of whose properties before the last one is a collection or a map. -/
structure EntityPath.IsWay (path : EntityPath) : Prop where
  nonempty : path.properties ≠ []
  straight : IsStraight path.properties

/-- Neither of two paths begins with the names of the other one. -/
structure EntityPath.PartsFrom (path other : EntityPath) : Prop where
  beyond : ¬path.properties.map (·.name) <+: other.properties.map (·.name)
  above : ¬other.properties.map (·.name) <+: path.properties.map (·.name)

namespace PathAccessor

variable {a a' : PathAccessor} {path : EntityPath} {nulls : ReadNulls}

/-- What can be read is read by an accessor, which stays as it was. -/
lemma read_of_reads (h : Reads a.context nulls path.properties a.bean v) :
    a.read path nulls = some (.ok v, a) := by
  have run : (ContextM.readPath a.bean path nulls).runOn a.context = some (.ok v, a.context) :=
    h.run
  unfold read
  rw [run]
  rfl

/-- An accessor reads nothing but what can be read. -/
lemma reads_of_read (h : a.read path nulls = some (.ok v, a')) :
    Reads a'.context nulls path.properties a.bean v := by
  obtain ⟨⟨answer, context⟩, run, h⟩ := Option.bind_eq_some_iff.mp h
  cases h
  exact .of_run run

/-- What could be written along a way is written without a change of the context. -/
lemma write_of_writes (way : path.IsWay) (h : Writes a.context v path.properties a.bean new) :
    a.write path v = some (.ok (), { a with bean := new }) := by
  have run : (ContextM.writeOn a.bean path {} v path.properties a.bean).runOn a.context =
    some (.ok (some new), a.context) := h.run way.straight rfl
  exact write_ok.mpr (writePath_ok.mpr ⟨way.nonempty, _, run, rfl⟩)

/-- Where a value was written along a way, any other one could have been written. -/
lemma writes_of_write (way : path.IsWay) (h : a.write path v = some (.ok (), a')) (w : Value) :
    ∃ new, a.write path w = some (.ok (), { a' with bean := new }) ∧
      Writes a'.context w path.properties a.bean new := by
  obtain ⟨-, r, run, -⟩ := writePath_ok.mp (write_ok.mp h)
  obtain ⟨new, run, writes⟩ := Writes.of_run way.straight way.nonempty rfl run w
  exact ⟨new, write_ok.mpr (writePath_ok.mpr ⟨way.nonempty, _, run, rfl⟩), writes⟩

/-- What a write along a path has come to, in an accessor of later on. -/
structure Wrote (a : PathAccessor) (path : EntityPath) (v : Value) (later : PathAccessor) :
    Prop where
  /-- What was written is read. -/
  reads (nulls : ReadNulls) : later.read path nulls = some (.ok v, later)
  /-- What was read from the bean along paths that part from this one is read again. -/
  keeps {earlier asked : PathAccessor} {other : EntityPath} {nulls : ReadNulls} {w : Value}
    {between : List Operation} :
    path.PartsFrom other → earlier.bean = a.bean →
    earlier.read other nulls = some (.ok w, asked) →
    Context.after between asked.context = some a.context →
    later.read other nulls = some (.ok w, later)
  /-- The beans on the way are of the types that they were of. -/
  types {k : Nat} : k < path.length → ∃ b b' : Bean,
    { later with bean := a.bean }.read ⟨path.properties.take k⟩ =
      some (.ok b.toValue, { later with bean := a.bean }) ∧
    later.read ⟨path.properties.take k⟩ = some (.ok b'.toValue, later) ∧
    b'.type = b.type
  /-- A further write comes to the same as that write alone. -/
  again (w : Value) : ∃ new context,
    later.write path w = some (.ok (), { later with bean := new }) ∧
    a.write path w = some (.ok (), { context, bean := new })

/-- A write along a path that a context gives, with neither collections nor maps before its last
property, leaves the bean alone if it fails. If it succeeds, whatever is done on the context after
that, the value is read at the end of the path, reads along paths that part from it give what they
gave before, the beans on the way keep their types, and the next write comes to the same as without
the first one. -/
theorem write_lawful {result : Except Error Unit} (given : path.IsGiven) (way : path.IsWay)
    (written : a.write path v = some (result, a')) :
    (∀ e, result = .error e → a'.bean = a.bean) ∧
      (result = .ok () → ∀ more c, Context.after more a'.context = some c →
        a.Wrote path v { a' with context := c }) := by
  refine ⟨?_, ?_⟩
  · rintro e rfl
    exact bean_of_error written
  · rintro rfl more c after
    have evolves := Context.evolves_of_after after
    obtain ⟨new, same, writes⟩ := writes_of_write way written v
    obtain rfl : new = a'.bean := by
      have outcome := Option.some.inj (written.symm.trans same)
      exact (congrArg (·.2.bean) outcome).symm
    have writes := writes.evolve evolves
    refine ⟨?_, ?_, ?_, ?_⟩
    -- the same path is read back
    · intro nulls
      exact read_of_reads (writes.reads fun p hp => given.isRead hp)
    -- the other path was read before, so its read is carried over the write and what came after it
    · intro earlier asked other nulls w between parts same_bean before elapsed
      have read := reads_of_read before
      rw [same_bean] at read
      have read := read.evolve (Context.evolves_of_after elapsed)
      have read := (read.evolve (evolves_of_write written)).evolve evolves
      exact read_of_reads (writes.frame read parts.beyond parts.above)
    -- the beans on the way keep their types
    · intro k hk
      obtain ⟨b, b', before, after, type_eq⟩ := writes.types hk
      exact ⟨b, b', read_of_reads before, read_of_reads after, type_eq⟩
    -- what was written first is written over
    · intro w
      obtain ⟨alone, written_alone, writes_alone⟩ := writes_of_write way written w
      refine ⟨alone, _, write_of_writes way ?_, written_alone⟩
      exact writes.again (writes_alone.evolve evolves)

/-- The title of the parent of a folder is written and read. The other title stays. -/
theorem write_lawful_title : ∃ (a a' : PathAccessor) (path : EntityPath),
    a.bean = .object "Folder" [("parent", .object "Folder" []), ("title", .text "inner")] ∧
      path.IsGiven ∧ a.write path (.text "outer") = some (.ok (), a') ∧
      a'.read path = some (.ok (.text "outer"), a') ∧
      a'.read ⟨[Sample.titleProperty]⟩ = some (.ok (.text "inner"), a') := by
  obtain ⟨c, e, -, known, direct, given⟩ := Sample.folder_known
  have opens (fields : Dictionary Value) : c.Opens ⟨"Folder", fields⟩ e := ⟨known, direct⟩
  have way : EntityPath.IsWay ⟨[Sample.parentProperty, Sample.titleProperty]⟩ := by
    refine ⟨List.cons_ne_nil _ _, fun p hp => ?_⟩
    rw [List.mem_singleton.mp hp]
    exact ⟨rfl, rfl⟩
  let a : PathAccessor := ⟨c, .object "Folder"
    [("parent", .object "Folder" []), ("title", .text "inner")]⟩
  have writes : Writes c (.text "outer") [Sample.parentProperty, Sample.titleProperty] a.bean _ :=
    .through (opens _) (.inl rfl) rfl (.leaf (opens []) rfl)
  have written := write_of_writes (a := a) way writes
  have read : a.read ⟨[Sample.titleProperty]⟩ = some (.ok (.text "inner"), a) :=
    read_of_reads (.through (opens _) (.inl rfl) .here)
  have parts : EntityPath.PartsFrom ⟨[Sample.parentProperty, Sample.titleProperty]⟩
      ⟨[Sample.titleProperty]⟩ := ⟨by decide, by decide⟩
  have wrote := (write_lawful given way written).2 rfl [] c rfl
  have elapsed : Context.after [] a.context = some a.context := rfl
  exact ⟨a, _, _, rfl, given, written, wrote.reads .reject, wrote.keeps parts rfl read elapsed⟩

end PathAccessor

end EntityModel
