import EntityModel.Proofs.Entity.Extension
import EntityModel.Proofs.Entity.Order

/-!
# Registration

What a client does to an entity that it built itself: it adds properties and associations and
verifies the entity, in any order and as often as it likes. The entity holds its properties in
several lists, which are written one after the other and sorted apart. `Entity.InStep` says that
they still agree; every request preserves it (`InStep.step`), and so does every sequence of requests
(`InStep.run`).

An addition is also given write by write, in `EntityM`, where a failure does not undo what was
written before. That it comes to the same (`EntityM.runOn_add`) is to say that every refusal comes
before the first write.
-/

namespace EntityModel

/-! ### Additions step by step -/

/-- An operation on an entity. What changed before a failure stays changed. -/
abbrev EntityM := ExceptT Error (StateM Entity)

namespace EntityM

variable {α β : Type} {e : Entity} {p : EntityProperty}

def runOn (x : EntityM α) (e : Entity) : Except Error α × Entity :=
  x.run.run e

/-- Refuses a second identifier. -/
def checkId (p : EntityProperty) : EntityM Unit := do
  let e ← get
  match (if p.isId then e.id else none) with
  | some existing => throw (.duplicateId e.type.text existing.name p.name)
  | none => return

/-- Refuses a second version. -/
def checkVersion (p : EntityProperty) : EntityM Unit := do
  let e ← get
  match (if p.isVersion then e.version else none) with
  | some existing => throw (.duplicateVersion e.type.text existing.name p.name)
  | none => return

/-- Writes a property to one list after the other. -/
def enter (p : EntityProperty) : EntityM Unit := do
  if p.isId then modify fun e => { e with id := some p }
  if p.isVersion then modify fun e => { e with version := some p }
  if !p.isTransient && !p.isAssociation then
    modify fun e => { e with persistent := e.persistent ++ [p] }
  modify fun e => { e with added := e.added ++ [p] }
  modify fun e => { e with properties := e.properties ++ [p] }

/-- Adds a property that is not there yet. -/
def add (p : EntityProperty) : EntityM Unit := do
  if !(← get).hasProperty p then
    checkId p
    checkVersion p
    enter p

/-- What is bound runs on the entity that was left, and not at all after a failure. -/
lemma runOn_bind (x : EntityM α) (f : α → EntityM β) :
    (x >>= f).runOn e =
      match x.runOn e with
      | (.ok a, e') => (f a).runOn e'
      | (.error err, e') => (.error err, e') := by
  show (ExceptT.bindCont f (x.run.run e).1).run (x.run.run e).2 = _
  unfold runOn
  cases x.run.run e with
  | mk r e' => cases r <;> rfl

/-- To get the entity changes nothing. -/
@[simp]
lemma runOn_get : (get : EntityM Entity).runOn e = (.ok e, e) := rfl

/-- A second identifier is refused before anything is changed. -/
lemma runOn_checkId : (checkId p).runOn e =
    match (if p.isId then e.id else none) with
    | some existing => (.error (.duplicateId e.type.text existing.name p.name), e)
    | none => (.ok (), e) := by
  unfold checkId
  rw [runOn_bind, runOn_get]
  dsimp only
  split <;> rfl

/-- A second version is refused before anything is changed. -/
lemma runOn_checkVersion : (checkVersion p).runOn e =
    match (if p.isVersion then e.version else none) with
    | some existing => (.error (.duplicateVersion e.type.text existing.name p.name), e)
    | none => (.ok (), e) := by
  unfold checkVersion
  rw [runOn_bind, runOn_get]
  dsimp only
  split <;> rfl

/-- To enter a property pushes it and succeeds. -/
lemma runOn_enter : (enter p).runOn e = (.ok (), e.push p) := by
  unfold enter Entity.push
  cases p.isId <;> cases p.isVersion <;> cases !p.isTransient && !p.isAssociation <;> rfl

/-- What is done step by step is an addition as a whole, and nothing is done if that is refused. -/
theorem runOn_add (p : EntityProperty) (e : Entity) :
    (add p).runOn e =
      match e.add p with
      | .ok e' => (.ok (), e')
      | .error err => (.error err, e) := by
  unfold add Entity.add
  rw [runOn_bind, runOn_get]
  dsimp only
  cases e.hasProperty p with
  | true => rfl
  | false =>
    simp only [Bool.not_false, if_true, Bool.false_eq_true, if_false]
    rw [runOn_bind, runOn_checkId]
    -- an identifier is refused before a version is, also where a property is both
    cases (if p.isId = true then e.id else none) with
    | some existing => rfl
    | none =>
      dsimp only
      rw [runOn_bind, runOn_checkVersion]
      cases (if p.isVersion = true then e.version else none) with
      | some existing => rfl
      | none => exact runOn_enter

end EntityM

/-! ### Requests -/

/-- A call by which a client builds an entity. -/
inductive EntityRequest where
  | add (p : EntityProperty)
  | associate (a : Association)
  | verify
  deriving DecidableEq

namespace EntityRequest

def act : EntityRequest → EntityM Unit
  | add p => EntityM.add p
  | associate a => modify fun e => e.addAssociation a
  | verify => modify Entity.verify

/-- The property that is there by a call which had an answer. -/
def accepted? : EntityRequest → Except Error Unit → Option EntityProperty
  | add p, .ok _ => some p
  | add _, .error _ => none
  | associate _, _ => none
  | verify, _ => none

end EntityRequest

namespace Entity

/-- The entity after requests, whether they were answered or refused. -/
def after (e : Entity) : List EntityRequest → Entity
  | [] => e
  | r :: rs => (r.act.runOn e).2.after rs

/-- The properties whose additions were not refused, in the order of the calls. -/
def accepted (e : Entity) : List EntityRequest → List EntityProperty
  | [] => []
  | r :: rs =>
    let (answer, e') := r.act.runOn e
    (r.accepted? answer).toList ++ e'.accepted rs

/-- What a request does to an entity, and how it is answered. -/
inductive Change (e : Entity) : EntityRequest → Except Error Unit → Entity → Prop where
  | repeated {p : EntityProperty} :
    e.hasProperty p = true →
    Change e (.add p) (.ok ()) e
  | refused {p : EntityProperty} {err} :
    e.hasProperty p = false →
    Change e (.add p) (.error err) e
  | entered {p : EntityProperty} :
    e.hasProperty p = false →
    (p.isId = true → e.id = none) →
    (p.isVersion = true → e.version = none) →
    Change e (.add p) (.ok ()) (e.push p)
  | associated {a associations} :
    Change e (.associate a) (.ok ()) { e with associations }
  | unsorted :
    e.order = none →
    Change e .verify (.ok ()) { e with isVerified := true }
  | sorted {order associations} :
    e.order = some order →
    Change e .verify (.ok ())
      { e with
        properties := order.sort e.properties
        persistent := order.sort e.persistent
        associations
        isVerified := true }

variable {e e' : Entity} {p q : EntityProperty} {acc : List EntityProperty} {r : EntityRequest}
  {answer : Except Error Unit}

/-- The addition of a property makes one of the changes. -/
lemma change_of_add (h : (EntityM.add p).runOn e = (answer, e')) : e.Change (.add p) answer e' := by
  rw [EntityM.runOn_add, add] at h
  -- what the entity holds decides in this order: the property, its identifier, its version
  cases present : e.hasProperty p with
  | true =>
    simp only [present, if_true] at h
    cases h
    exact .repeated present
  | false =>
    simp only [present, Bool.false_eq_true, if_false] at h
    cases id : (if p.isId then e.id else none) with
    | some existing =>
      simp only [id] at h
      cases h
      exact .refused present
    | none =>
      cases version : (if p.isVersion then e.version else none) with
      | some existing =>
        simp only [id, version] at h
        cases h
        exact .refused present
      | none =>
        simp only [id, version] at h
        cases h
        apply Change.entered present
        · intro isId
          simpa [isId] using id
        · intro isVersion
          simpa [isVersion] using version

/-- Every request makes one of the changes. -/
theorem change_of_act (h : r.act.runOn e = (answer, e')) : e.Change r answer e' := by
  cases r with
  | add p => exact change_of_add h
  | associate a =>
    cases h
    show e.Change (.associate a) (.ok ()) (e.addAssociation a)
    rw [addAssociation_eq]
    exact .associated
  | verify =>
    cases h
    show e.Change .verify (.ok ()) e.verify
    unfold verify
    split
    case h_1 order => exact .unsorted order
    case h_2 order => exact .sorted order

/-! ### The lists of an entity -/

/-- Everything that an entity knows of its properties agrees with the list of them, and with the
additions that were accepted so far. -/
structure InStep (e : Entity) (acc : List EntityProperty) : Prop where
  /-- No two properties have both name and type in common. -/
  distinct : e.properties.Pairwise fun p q => ¬(p.name = q.name ∧ p.type = q.type)
  persistent_eq : e.persistent = e.properties.filter fun p => !p.isTransient && !p.isAssociation
  /-- There is no identifier property besides the one that the entity knows. -/
  id_eq : e.properties.filter (·.isId) = e.id.toList
  version_eq : e.properties.filter (·.isVersion) = e.version.toList
  added_perm : e.added.Perm e.properties
  /-- A name stands for the earliest property of that name. -/
  property?_eq : ∀ name, e.property? name = acc.find? fun p => p.name == name

/-- A property is there if one of its name and type is. -/
lemma hasProperty_iff :
    e.hasProperty p = true ↔ ∃ q ∈ e.properties, q.name = p.name ∧ q.type = p.type := by
  simp [hasProperty]

namespace InStep

/-- A new entity is in step with no additions. -/
lemma fresh (serial : Nat) (type : TypeRef) (decl : TypeDecl) (c : Catalog)
    (order : Option PropertyOrder) : (Entity.make serial type decl c order).InStep [] where
  distinct := .nil
  persistent_eq := rfl
  id_eq := rfl
  version_eq := rfl
  added_perm := .nil
  property?_eq _ := rfl

/-- A property that is added again leaves the entity in step. -/
lemma repeated (inStep : e.InStep acc) (present : e.hasProperty p = true) :
    e.InStep (acc ++ [p]) := by
  obtain ⟨q, hq, hn, -⟩ := hasProperty_iff.mp present
  refine { inStep with property?_eq name := ?_ }
  cases found : acc.find? fun p => p.name == name with
  | some first => rw [inStep.property?_eq, found, List.find?_append, found, Option.some_or]
  | none =>
    -- no property has the name, so the repeated one has another name
    have absent : e.property? name = none := (inStep.property?_eq name).trans found
    have other : p.name ≠ name := by
      simpa [hn] using List.find?_eq_none.mp absent q (inStep.added_perm.mem_iff.mpr hq)
    rw [absent, List.find?_append, found, Option.none_or]
    simp [other]

/-- The new property is the only one that is singled out if none was before. -/
lemma filter_entered {singles : EntityProperty → Bool} {single : Option EntityProperty}
    (known : e.properties.filter singles = single.toList)
    (free : singles p = true → single = none) :
    (e.push p).properties.filter singles = (if singles p then some p else single).toList := by
  show (e.properties ++ [p]).filter singles = _
  rw [List.filter_append, known, List.filter_cons]
  cases here : singles p with
  | true =>
    rw [free here]
    rfl
  | false => simp

/-- A property that is entered leaves the entity in step. -/
lemma entered (inStep : e.InStep acc) (absent : e.hasProperty p = false)
    (id : p.isId = true → e.id = none) (version : p.isVersion = true → e.version = none) :
    (e.push p).InStep (acc ++ [p]) where
  distinct := by
    apply List.pairwise_append.mpr
    refine ⟨inStep.distinct, List.pairwise_singleton _ p, fun q hq _ hp same => ?_⟩
    cases List.mem_singleton.mp hp
    cases absent.symm.trans (hasProperty_iff.mpr ⟨q, hq, same⟩)
  persistent_eq := by
    show (if _ then _ else _) = (e.properties ++ [p]).filter _
    rw [List.filter_append, ← inStep.persistent_eq, List.filter_cons]
    cases !p.isTransient && !p.isAssociation <;> simp
  id_eq := filter_entered inStep.id_eq id
  version_eq := filter_entered inStep.version_eq version
  added_perm := inStep.added_perm.append (.refl [p])
  property?_eq name := by
    show (e.added ++ [p]).find? _ = _
    rw [List.find?_append, List.find?_append, ← inStep.property?_eq name]
    rfl

/-- To sort the properties leaves the entity in step. -/
lemma sorted {order : PropertyOrder} [Std.TransCmp order] {associations} (inStep : e.InStep acc) :
    { e with
      properties := order.sort e.properties
      persistent := order.sort e.persistent
      associations
      isVerified := true : Entity }.InStep acc where
  distinct := by
    apply inStep.distinct.perm (order.sort_perm e.properties).symm
    rintro p q differ ⟨name, type⟩
    exact differ ⟨name.symm, type.symm⟩
  -- sorting moves the properties, but selects the same ones in the same relative order
  persistent_eq := by
    show order.sort e.persistent = (order.sort e.properties).filter _
    rw [PropertyOrder.filter_sort, inStep.persistent_eq]
  id_eq := by
    show (order.sort e.properties).filter _ = e.id.toList
    rw [PropertyOrder.filter_sort, inStep.id_eq, order.sort_toList]
  version_eq := by
    show (order.sort e.properties).filter _ = e.version.toList
    rw [PropertyOrder.filter_sort, inStep.version_eq, order.sort_toList]
  added_perm := inStep.added_perm.trans (order.sort_perm _).symm
  property?_eq := inStep.property?_eq

/-- What a request preserves. -/
lemma step (preorder : ∀ order, e.order = some order → Std.TransCmp order) (inStep : e.InStep acc)
    (change : e.Change r answer e') : e'.InStep (acc ++ (r.accepted? answer).toList) := by
  cases change with
  | repeated present => exact inStep.repeated present
  | refused absent => simpa [EntityRequest.accepted?] using inStep
  | entered absent id version => exact inStep.entered absent id version
  | associated =>
    rw [EntityRequest.accepted?, Option.toList_none, List.append_nil]
    exact { inStep with }
  | unsorted =>
    rw [EntityRequest.accepted?, Option.toList_none, List.append_nil]
    exact { inStep with }
  | sorted order =>
    have total := preorder _ order
    rw [EntityRequest.accepted?, Option.toList_none, List.append_nil]
    exact inStep.sorted

end InStep

/-- No change is made to the order of an entity. -/
lemma Change.order_eq (change : e.Change r answer e') : e'.order = e.order := by
  cases change <;> rfl

/-- What any sequence of requests preserves. -/
lemma InStep.run (preorder : ∀ order, e.order = some order → Std.TransCmp order)
    (inStep : e.InStep acc) (rs : List EntityRequest) :
    (e.after rs).InStep (acc ++ e.accepted rs) := by
  induction rs generalizing e acc with
  | nil => simpa [after, accepted] using inStep
  | cons r rs ih =>
    have change : e.Change r (r.act.runOn e).1 (r.act.runOn e).2 := change_of_act rfl
    rw [after, accepted, ← List.append_assoc]
    apply ih
    · rw [change.order_eq]
      exact preorder
    · exact inStep.step preorder change

/-- A request that is refused, or repeats a property that is there, changes nothing. -/
lemma Change.unchanged (change : e.Change (.add p) answer e')
    (idle : (∃ err, answer = .error err) ∨ ∃ q ∈ e.properties, q.name = p.name ∧ q.type = p.type) :
    e' = e := by
  cases change with
  | repeated present => rfl
  | refused absent => rfl
  | entered absent id version =>
    rcases idle with ⟨err, ⟨⟩⟩ | present
    cases absent.symm.trans (hasProperty_iff.mpr present)

/-- The lists of an entity agree after every sequence of requests, whatever they add and however
often they verify, if its order is total or it has none. A request that is refused, or repeats a
property that is there, changes nothing. -/
theorem inStep_of_requests (serial : Nat) (type : TypeRef) (decl : TypeDecl) (c : Catalog)
    (order : Option PropertyOrder) (total : ∀ o, order = some o → Std.TransCmp o)
    (rs : List EntityRequest) :
    let fresh := make serial type decl c order
    (fresh.after rs).InStep (fresh.accepted rs) ∧
      ∀ p answer e', (EntityM.add p).runOn (fresh.after rs) = (answer, e') →
        ((∃ err, answer = .error err) ∨
          ∃ q ∈ (fresh.after rs).properties, q.name = p.name ∧ q.type = p.type) →
        e' = fresh.after rs := by
  intro fresh
  constructor
  · exact (InStep.fresh serial type decl c order).run total rs
  · intro p answer e' h idle
    exact (change_of_add h).unchanged idle

end Entity

namespace Sample

def volume : TypeRef := .of "Volume"

def volumeDecl : TypeDecl where
  name := "Volume"

def volumeProperty (name : String) (annotations : List Annotation) : EntityProperty :=
  .make (.field { name, type := .of "String", annotations } none) volume volumeDecl .default
    .annotated

/-- A volume is given a title, its key, a second key and the title once more. -/
def volumeRequests : List EntityRequest :=
  [.add (volumeProperty "title" []), .add (volumeProperty "number" [.id]),
   .add (volumeProperty "code" [.id]), .add (volumeProperty "title" []), .verify]

def blankVolume : Entity :=
  .make 0 volume volumeDecl ⟨[volumeDecl]⟩ (some .byName)

end Sample

open Sample in
/-- The title is found by its name, and the number is the only identifier in every order. -/
theorem Entity.inStep_volume :
    (blankVolume.after volumeRequests).InStep
      [volumeProperty "title" [], volumeProperty "number" [.id], volumeProperty "title" []] :=
  (inStep_of_requests 0 volume volumeDecl ⟨[volumeDecl]⟩ (some .byName)
    (fun _ h => Option.some.inj h ▸ PropertyOrder.byName_trans) volumeRequests).1

end EntityModel
