import EntityModel.Proofs.Access.Hop
import EntityModel.Proofs.Value.Equality

/-!
# Writes to all elements

A write along a path that leads through collections and maps reaches all of their elements
(`PathAccessor.write_fansOut`). What it makes of a bean depends on the bean alone: `spread` is the
bean with the value written wherever the path leads, and a branch that stops at a null
(`stopsAtNull`) stays as it is.
-/

namespace EntityModel

/-! ### Values with a value written -/

namespace Value

/-- The value of a property of a bean, null if there is none. -/
def field (x : Value) (name : String) : Value :=
  (x.bean?.map (·.get name)).getD .null

/-- A bean with another value of a property. -/
def withField (x : Value) (name : String) (v : Value) : Value :=
  match x.bean? with
  | some b => (b.set name v).toValue
  | none => x

/-- The elements of a list or set and the values of a map. -/
def held : Value → List Value
  | list items | set items => items
  | map entries => entries.map (·.2)
  | _ => []

/-- A container with every element replaced: lists and maps keep their form, sets are formed anew.
-/
def mapHeld (f : Value → Value) : Value → Value
  | list items => .list (items.map f)
  | set items => .setOf (items.map f)
  | map entries => .map (entries.map fun e => (e.1, f e.2))
  | other => other

end Value

def EntityProperty.isContainer (p : EntityProperty) : Bool :=
  p.isCollectionLike || p.isMap

/-- Whether a null ends the way along properties before it comes to their last one or to a
container. -/
def stopsAtNull : List EntityProperty → Value → Bool
  | p :: next :: rest, x =>
    (x.field p.name).isNull || !p.isContainer && stopsAtNull (next :: rest) (x.field p.name)
  | _, _ => false

/-- A value with another one written at the end of all ways along properties. -/
def spread (v : Value) : List EntityProperty → Value → Value
  | [], _ => v
  | [p], x => x.withField p.name v
  | p :: next :: rest, x =>
    x.withField p.name <|
      if p.isContainer then
        (x.field p.name).mapHeld fun y =>
          if y.isNull || stopsAtNull (next :: rest) y then y else spread v (next :: rest) y
      else spread v (next :: rest) (x.field p.name)

/-- The ways along properties: the values to which they come, with the properties that are left
there. They end at nulls, and lead from a container to each of its elements. -/
inductive ComesTo : List EntityProperty → Value → List EntityProperty → Value → Prop where
  | here {ps x} :
    ComesTo ps x ps x
  | through {p next rest x qs y} :
    p.isContainer = false →
    (x.field p.name).isNull = false →
    ComesTo (next :: rest) (x.field p.name) qs y →
    ComesTo (p :: next :: rest) x qs y
  | into {p next rest x z qs y} :
    p.isContainer = true →
    z ∈ (x.field p.name).held →
    z.isNull = false →
    ComesTo (next :: rest) z qs y →
    ComesTo (p :: next :: rest) x qs y

/-- The fields of a value that is a bean are those of the bean. -/
@[simp]
lemma Value.field_toValue (b : Bean) (name : String) : b.toValue.field name = b.get name := rfl

/-- To set a field of a value that is a bean is to set it in the bean. -/
@[simp]
lemma Value.withField_toValue (b : Bean) (name : String) (v : Value) :
    b.toValue.withField name v = (b.set name v).toValue := rfl

/-! ### Updated elements -/

open ContextM

/-- An element of a container after an update: a null stays, and so does what the update skips. -/
inductive Updated (update : Value → ContextM (Option Value)) : Value → Value → Prop where
  | null {x} :
    x.isNull = true →
    Updated update x x
  | run {x c r c'} :
    x.isNull = false →
    (update x).runOn c = some (.ok r, c') →
    Updated update x (r.getD x)

/-- A container after an update of its elements. -/
inductive UpdatedIn (update : Value → ContextM (Option Value)) : Value → Value → Prop where
  | list {items updated} :
    List.Forall₂ (Updated update) items updated →
    UpdatedIn update (.list items) (.list updated)
  | set {items updated} :
    List.Forall₂ (Updated update) items updated →
    UpdatedIn update (.set items) (.setOf updated)
  | map {entries updated} :
    List.Forall₂ (fun e e' => e'.1 = e.1 ∧ Updated update e.2 e'.2) entries updated →
    UpdatedIn update (.map entries) (.map updated)

variable {c c' : Context} {x y v root : Value} {p next : EntityProperty}
  {ps rest : List EntityProperty} {b : Bean} {path : EntityPath} {options : WriteOptions}
  {r : Option Value} {update : Value → ContextM (Option Value)} {f : Value → Value}

/-- Where the update of an element succeeds the element is updated. -/
lemma updated_of_run (h : (updateElements.updateElement update x).runOn c = some (.ok y, c')) :
    Updated update x y := by
  unfold updateElements.updateElement at h
  cases null : x.isNull with
  | true =>
    rw [if_pos null] at h
    cases h
    exact .null null
  | false =>
    rw [null, if_neg Bool.false_ne_true] at h
    obtain ⟨r, c₁, run, h⟩ := runOn_bind_ok.mp h
    cases h
    exact .run null run

/-- Where the update of all elements succeeds they are updated, each in its place. -/
lemma updatedIn_of_run (h : (updateElements path update x).runOn c = some (.ok y, c')) :
    UpdatedIn update x y := by
  unfold updateElements at h
  split at h
  · obtain ⟨items, c₁, run, h⟩ := runOn_bind_ok.mp h
    cases h
    exact .list ((forall₂_of_mapM run).imp fun _ _ ⟨_, _, h⟩ => updated_of_run h)
  · obtain ⟨items, c₁, run, h⟩ := runOn_bind_ok.mp h
    cases h
    exact .set ((forall₂_of_mapM run).imp fun _ _ ⟨_, _, h⟩ => updated_of_run h)
  · obtain ⟨entries, c₁, run, h⟩ := runOn_bind_ok.mp h
    cases h
    refine .map ((forall₂_of_mapM run).imp fun e e' ⟨_, _, h⟩ => ?_)
    obtain ⟨y, _, run, h⟩ := runOn_bind_ok.mp h
    cases h
    exact ⟨rfl, updated_of_run run⟩
  · cases h

/-- A related list has a member for every member of the list that it is related to. -/
lemma exists_of_forall₂ {α β : Type} {R : α → β → Prop} {xs : List α} {ys : List β} {a : α}
    (h : List.Forall₂ R xs ys) (ha : a ∈ xs) : ∃ y, R a y := by
  induction h with
  | nil => cases ha
  | @cons x y _ _ first _ ih =>
    rcases List.mem_cons.mp ha with rfl | ha
    · exact ⟨y, first⟩
    · exact ih ha

namespace UpdatedIn

/-- Elements that are updated by a function are those that the function is mapped over. -/
lemma eq_mapHeld (h : UpdatedIn update x y) (hf : ∀ z z', Updated update z z' → z' = f z) :
    y = x.mapHeld f := by
  have each {items updated : List Value} (h : List.Forall₂ (Updated update) items updated) :
      updated = items.map f := by
    induction h with
    | nil => rfl
    | cons first _ ih => rw [List.map_cons, hf _ _ first, ih]
  cases h with
  | list h => rw [Value.mapHeld, each h]
  | set h => rw [Value.mapHeld, each h]
  | map h =>
    rw [Value.mapHeld]
    congr 1
    induction h with
    | nil => rfl
    | cons first _ ih => rw [List.map_cons, ← hf _ _ first.2, ← first.1, ih]

/-- Every element is updated. -/
lemma of_mem_held (h : UpdatedIn update x y) {z : Value} (hz : z ∈ x.held) :
    ∃ z', Updated update z z' := by
  cases h with
  | list h | set h => exact exists_of_forall₂ h hz
  | map h =>
    obtain ⟨e, he, rfl⟩ := List.mem_map.mp hz
    obtain ⟨e', -, updated⟩ := exists_of_forall₂ h he
    exact ⟨e'.2, updated⟩

/-- Every element of the new container was updated. -/
lemma of_mem_held_new (h : UpdatedIn update x y) {z' : Value} (hz : z' ∈ y.held) :
    ∃ z, Updated update z z' := by
  cases h with
  | list h => exact exists_of_forall₂ h.flip hz
  | set h => exact exists_of_forall₂ h.flip (Value.mem_of_mem_distinct hz)
  | map h =>
    obtain ⟨e', he, rfl⟩ := List.mem_map.mp hz
    obtain ⟨e, -, updated⟩ := exists_of_forall₂ h.flip he
    exact ⟨e.2, updated⟩

end UpdatedIn

/-! ### Writes -/

/-- How a write goes on from a bean. -/
inductive WriteGoes (root : Value) (path : EntityPath) (options : WriteOptions) (v : Value)
    (p next : EntityProperty) (rest : List EntityProperty) (b : Bean) : Option Value → Prop where
  | skipped :
    (b.get p.name).isNull = true →
    options.nulls ≠ .reject →
    WriteGoes root path options v p next rest b none
  | into {c updated c'} :
    (b.get p.name).isNull = false →
    p.isContainer = true →
    (updateElements path (writeOn root path options v (next :: rest)) (b.get p.name)).runOn c =
      some (.ok updated, c') →
    WriteGoes root path options v p next rest b (some (b.set p.name updated).toValue)
  | through {c written c'} :
    (b.get p.name).isNull = false →
    p.isContainer = false →
    (writeOn root path options v (next :: rest) (b.get p.name)).runOn c =
      some (.ok written, c') →
    WriteGoes root path options v p next rest b
      (written.map fun child => (b.set p.name child).toValue)

/-- Where a write goes through containers of all kinds. -/
structure WriteOptions.GoesOn (options : WriteOptions) : Prop where
  collections : options.intoCollections = true
  maps : options.intoMaps = true

/-- Where a write goes through containers of all kinds it goes through every property. -/
lemma WriteOptions.GoesOn.goesThrough (goesOn : options.GoesOn) (p : EntityProperty) :
    options.goesThrough p = true := by
  unfold WriteOptions.goesThrough
  rw [goesOn.collections, goesOn.maps]
  split
  · rfl
  · split <;> rfl

/-- Where a null is skipped nothing is written, and it was not to be rejected. -/
lemma skipNull_ok {nulls : WriteNulls}
    (h : (skipNull root path nulls p).runOn c = some (.ok r, c')) : nulls ≠ .reject ∧ r = none := by
  cases nulls <;> cases h <;> exact ⟨nofun, rfl⟩

/-- A write that goes on below a property starts from a bean and goes on in it. -/
lemma goes_of_writeOn (goesOn : options.GoesOn)
    (h : (writeOn root path options v (p :: next :: rest) x).runOn c = some (.ok r, c')) :
    ∃ b : Bean, x = b.toValue ∧ WriteGoes root path options v p next rest b r := by
  rw [writeOn] at h
  obtain ⟨child, c₁, read, h⟩ := runOn_bind_ok.mp h
  obtain ⟨b, e, rfl, -, -, -, rfl⟩ := readProperty_ok.mp read
  refine ⟨b, rfl, ?_⟩
  -- both ways through a value that is there end by writing back what came from below
  have rebuilt {c updated r} (h : (some <$> writeProperty b.toValue p updated).runOn c =
      some (.ok r, c')) : r = some (b.set p.name updated).toValue := by
    obtain ⟨new, written, rfl⟩ := runOn_map_ok.mp h
    obtain ⟨b', e, same, -, -, -, rfl⟩ := writeProperty_ok.mp written
    rw [Bean.toValue_injective same]
  cases null : (b.get p.name).isNull with
  | true =>
    rw [if_pos null] at h
    obtain ⟨skips, rfl⟩ := skipNull_ok h
    exact .skipped null skips
  | false =>
    rw [null, if_neg Bool.false_ne_true] at h
    split at h
    · rename_i container
      rw [if_pos (goesOn.goesThrough p)] at h
      obtain ⟨updated, c₂, run, h⟩ := runOn_bind_ok.mp h
      rw [rebuilt h]
      exact .into null container run
    · rename_i container
      obtain ⟨written, c₂, run, h⟩ := runOn_bind_ok.mp h
      have goes : WriteGoes root path options v p next rest b
          (written.map fun child => (b.set p.name child).toValue) :=
        .through null (Bool.eq_false_iff.mpr container) run
      cases written with
      | none =>
        cases h
        exact goes
      | some updated =>
        rw [rebuilt h]
        exact goes

/-- A write that succeeds is skipped if its way stops at a null. Otherwise it spreads the value. -/
lemma eq_spread_of_writeOn (goesOn : options.GoesOn)
    (h : (writeOn root path options v ps x).runOn c = some (.ok r, c')) :
    r = if stopsAtNull ps x then none else some (spread v ps x) := by
  -- only the spread below is known by induction, so what is written back here is compared with it
  induction ps generalizing c c' r x with
  | nil =>
    cases h
    rfl
  | cons p ps ih =>
    cases ps with
    | nil =>
      obtain ⟨new, written, rfl⟩ := writeOn_leaf_ok.mp h
      obtain ⟨b, e, rfl, -, -, -, rfl⟩ := writeProperty_ok.mp written
      rfl
    | cons next rest =>
      obtain ⟨b, rfl, goes⟩ := goes_of_writeOn goesOn h
      unfold stopsAtNull spread
      rw [Value.field_toValue, Value.withField_toValue]
      cases goes with
      | skipped null => rw [null]; rfl
      | into null container run =>
        -- an element that has a null below stays as it is, which is why the spread asks for nulls
        -- there
        have each (z z' : Value)
            (updated : Updated (writeOn root path options v (next :: rest)) z z') :
            z' = if z.isNull || stopsAtNull (next :: rest) z then z
              else spread v (next :: rest) z := by
          cases updated with
          | null null => rw [null]; rfl
          | run nonnull below =>
            rw [nonnull, ih below]
            cases stopsAtNull (next :: rest) z <;> rfl
        rw [null, container, (updatedIn_of_run run).eq_mapHeld each]
        rfl
      | through null straight run =>
        rw [null, straight, ih run]
        cases stopsAtNull (next :: rest) (b.get p.name) <;> rfl

/-- A write that rejects nulls and succeeds has met none. -/
lemma isNull_eq_false_of_writeOn (goesOn : options.GoesOn) (rejects : options.nulls = .reject)
    {q next : EntityProperty} {rest : List EntityProperty}
    (h : (writeOn root path options v ps x).runOn c = some (.ok r, c'))
    (comes : ComesTo ps x (q :: next :: rest) y) : (y.field q.name).isNull = false := by
  generalize left : q :: next :: rest = qs at comes
  induction comes generalizing c c' r with
  | here =>
    subst left
    obtain ⟨b, rfl, goes⟩ := goes_of_writeOn goesOn h
    cases goes with
    | skipped _ skips => exact absurd rejects skips
    | into null | through null => exact null
  | through straight _ _ ih =>
    obtain ⟨b, rfl, goes⟩ := goes_of_writeOn goesOn h
    cases goes with
    | skipped _ skips => exact absurd rejects skips
    | into _ container => cases straight.symm.trans container
    | through _ _ run => exact ih run left
  -- the write reached every element of the container, also the one that the way goes through
  | into container hz nonnull _ ih =>
    obtain ⟨b, rfl, goes⟩ := goes_of_writeOn goesOn h
    cases goes with
    | skipped _ skips => exact absurd rejects skips
    | through _ straight => cases straight.symm.trans container
    | into _ _ run =>
      obtain ⟨z', updated⟩ := (updatedIn_of_run run).of_mem_held hz
      cases updated with
      | null null => cases nonnull.symm.trans null
      | run _ below => exact ih below left

/-- A way that stops at a null does not come to the last property. -/
lemma not_comesTo_of_stops {q : EntityProperty} (stops : stopsAtNull ps x = true) :
    ¬ComesTo ps x [q] y := by
  generalize left : [q] = qs
  intro comes
  induction comes with
  | here =>
    subst left
    cases stops
  | through straight nonnull _ ih =>
    rw [stopsAtNull, nonnull, straight] at stops
    exact ih stops left
  | @into p next rest x z qs y container hz =>
    -- at a container the way stops only if that is null, and then it has no elements
    rw [stopsAtNull, container, Bool.not_true, Bool.false_and, Bool.or_false] at stops
    cases held : x.field p.name with
    | null =>
      rw [held] at hz
      cases hz
    | integer | float | text | boolean | list | set | map | object =>
      rw [held] at stops
      cases stops

/-- Whatever has the last property after a write has the value there that was written. -/
lemma field_eq_of_writeOn (goesOn : options.GoesOn) {new : Value} {q : EntityProperty}
    (h : (writeOn root path options v ps x).runOn c = some (.ok (some new), c'))
    (comes : ComesTo ps new [q] y) : y.field q.name = v := by
  induction ps generalizing c c' x new with
  | nil => cases comes
  | cons p ps ih =>
    cases ps with
    | nil =>
      obtain ⟨new, written, ⟨⟩⟩ := writeOn_leaf_ok.mp h
      obtain ⟨b, e, rfl, -, -, -, rfl⟩ := writeProperty_ok.mp written
      cases comes
      exact b.get_set_self q.name v
    | cons next rest =>
      obtain ⟨b, rfl, goes⟩ := goes_of_writeOn goesOn h
      generalize outcome : some new = r at goes
      cases goes with
      | skipped => cases outcome
      | @into _ updated _ _ container run =>
        cases outcome
        cases comes with
        | through straight => cases straight.symm.trans container
        | @into _ _ _ _ z' _ _ _ hz nonnull below =>
          rw [Value.field_toValue, Bean.get_set_self] at hz
          obtain ⟨z, element⟩ := (updatedIn_of_run run).of_mem_held_new hz
          cases element with
          | null null => cases nonnull.symm.trans null
          | @run _ r _ _ run =>
            cases r with
            | some new => exact ih run below
            | none =>
              -- an element that was skipped is as before, and the way through it stops
              have skipped := eq_spread_of_writeOn goesOn run
              split at skipped
              · rename_i stops
                exact absurd below (not_comesTo_of_stops stops)
              · cases skipped
      | @through _ written _ _ straight run =>
        cases written with
        | none => cases outcome
        | some child =>
          cases outcome
          cases comes with
          | into container => cases straight.symm.trans container
          | through _ _ below =>
            rw [Value.field_toValue, Bean.get_set_self] at below
            exact ih run below

/-! ### Accessors -/

/-- A write that goes through collections and maps and succeeds leaves a bean with the value written
at the end of all ways along the path; where the way stops at a null before it comes to a container,
the bean stays as it is. So the value is found wherever the path leads then. If the write rejects
nulls, none of the beans to which it came has a null before the end of the path. -/
theorem PathAccessor.write_fansOut {a a' : PathAccessor} (goesOn : options.GoesOn)
    (written : a.write path v options = some (.ok (), a')) :
    (a'.bean = if stopsAtNull path.properties a.bean then a.bean
      else spread v path.properties a.bean) ∧
    (∀ p x, ComesTo path.properties a'.bean [p] x → x.field p.name = v) ∧
    (options.nulls = .reject → ∀ p next rest x,
      ComesTo path.properties a.bean (p :: next :: rest) x → (x.field p.name).isNull = false) := by
  obtain ⟨-, r, run, bean_eq⟩ := writePath_ok.mp (write_ok.mp written)
  have outcome := eq_spread_of_writeOn goesOn run
  refine ⟨?_, ?_, ?_⟩
  · rw [bean_eq, outcome]
    cases stopsAtNull path.properties a.bean <;> rfl
  · intro p x comes
    rw [bean_eq] at comes
    cases r with
    | some new => exact field_eq_of_writeOn goesOn run comes
    | none =>
      split at outcome
      -- nothing was written, so the bean is as before and no way gets to its last property
      · rename_i stops
        exact absurd comes (not_comesTo_of_stops stops)
      · cases outcome
  · intro rejects p next rest x comes
    exact isNull_eq_false_of_writeOn goesOn rejects run comes

/-- A folder gets its title as an entry of another one, in which an entry is missing. -/
theorem PathAccessor.write_fansOut_entries : ∃ a a' : PathAccessor,
    a.bean = .object "Folder" [("entries", .list [.object "Folder" [], .null])] ∧
      a.write ⟨[Sample.entriesProperty, Sample.titleProperty]⟩ (.text "entry") =
        some (.ok (), a') ∧
      a'.bean = .object "Folder"
        [("entries", .list [.object "Folder" [("title", .text "entry")], .null])] := by
  obtain ⟨c, e, -, known, direct, -⟩ := Sample.folder_known
  have opens (fields : Dictionary Value) : c.Opens ⟨"Folder", fields⟩ e := ⟨known, direct⟩
  let a : PathAccessor := ⟨c, .object "Folder" [("entries", .list [.object "Folder" [], .null])]⟩
  let path : EntityPath := ⟨[Sample.entriesProperty, Sample.titleProperty]⟩
  let write := writeOn a.bean path {} (.text "entry") [Sample.titleProperty]
  have leaf : (write (.object "Folder" [])).runOn c = some (.ok (some _), c) :=
    writeOn_leaf_ok.mpr ⟨_, (opens []).writeProperty rfl _, rfl⟩
  have first : (updateElements.updateElement write (.object "Folder" [])).runOn c =
      some (.ok (.object "Folder" [("title", .text "entry")]), c) :=
    runOn_bind_ok.mpr ⟨_, c, leaf, rfl⟩
  have elements : (updateElements path write (.list [.object "Folder" [], .null])).runOn c =
      some (.ok (.list [.object "Folder" [("title", .text "entry")], .null]), c) := by
    refine runOn_bind_ok.mpr ⟨_, c, ?_, rfl⟩
    rw [List.mapM_cons, List.mapM_cons]
    exact runOn_bind_ok.mpr ⟨_, c, first, runOn_bind_ok.mpr ⟨_, c, rfl, rfl⟩⟩
  have last : (some <$> writeProperty a.bean Sample.entriesProperty
      (.list [.object "Folder" [("title", .text "entry")], .null])).runOn c =
        some (.ok (some _), c) := runOn_map_ok.mpr ⟨_, (opens _).writeProperty rfl _, rfl⟩
  have run : (writeOn a.bean path {} (.text "entry") path.properties a.bean).runOn c =
      some (.ok (some _), c) :=
    runOn_bind_ok.mpr ⟨_, c, (opens _).readProperty (.inl rfl),
      runOn_bind_ok.mpr ⟨_, c, elements, last⟩⟩
  obtain ⟨a', written⟩ : ∃ a', a.write path (.text "entry") = some (.ok (), a') :=
    ⟨⟨c, _⟩, write_ok.mpr (writePath_ok.mpr ⟨List.cons_ne_nil _ _, _, run, rfl⟩)⟩
  refine ⟨a, a', rfl, written, ?_⟩
  have bean_eq := (write_fansOut ⟨rfl, rfl⟩ written).1
  rw [bean_eq]
  rfl

end EntityModel
