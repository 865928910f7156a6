import EntityModel.Proofs.Entity.Registration

/-!
# Settled answers

Two questions to an entity are settled when they are first answered: which properties carry an
annotation, once the entity is verified, and by which rule new instances are told, as soon as it is
asked about a bean. Questions may come between the requests that build the entity.

An answer is that of the moment at which it was settled (`Entity.getD_settled`), and so it is up to
date as long as nothing was changed since. If nothing is added after verification, then nothing that
is asked for changes after it (`Entity.steady_firstWhen`).
-/

namespace EntityModel

/-- A call by which a client builds an entity or asks it. -/
inductive EntityCall where
  | request (r : EntityRequest)
  | propertiesWith (kind : AnnotationKind)
  | isNew (v : Value)

namespace EntityCall

/-- No property is added once the entity was verified. -/
def IsSealed (calls : List EntityCall) : Prop :=
  calls.Pairwise fun earlier later =>
    earlier = request .verify → ∀ p, later ≠ request (.add p)

/-- Whether a call settles which properties carry an annotation. -/
def settlesAnnotated (kind : AnnotationKind) (e : Entity) : EntityCall → Bool
  | propertiesWith k => e.isVerified && k == kind
  | request _ => false
  | isNew _ => false

/-- Whether a call settles the rule for new instances. -/
def settlesNewness (_ : Entity) : EntityCall → Bool
  | isNew v => v.bean?.isSome
  | request _ => false
  | propertiesWith _ => false

end EntityCall

namespace Entity

/-- The entity after a call. -/
def next (e : Entity) : EntityCall → Entity
  | .request r => (r.act.runOn e).2
  | .propertiesWith kind => (e.propertiesWith kind).2
  | .isNew v => (e.isNew v).2

def afterCalls (e : Entity) : List EntityCall → Entity
  | [] => e
  | c :: cs => (e.next c).afterCalls cs

/-- The entity as it was when a call was made that settles something, or as it is in the end if no
call does. -/
def firstWhen (settles : Entity → EntityCall → Bool) (e : Entity) : List EntityCall → Entity
  | [] => e
  | c :: cs => if settles e c then e else (e.next c).firstWhen settles cs

/-- What a call does to an entity. -/
inductive Serves (e : Entity) : EntityCall → Entity → Prop where
  | requested {r answer e'} :
    e.Change r answer e' →
    Serves e (.request r) e'
  /-- A question changes nothing but what is settled by it. -/
  | propertiesWith {kind} (annotated) :
    Serves e (.propertiesWith kind) { e with annotated }
  | isNew {v} (newness) :
    Serves e (.isNew v) { e with newness }

variable {e e' : Entity} {r : EntityRequest} {answer : Except Error Unit} {c : EntityCall}
  {calls : List EntityCall} {kind : AnnotationKind} {v : Value} {b : Bean}

/-! ### Questions -/

/-- The answer that was settled for an annotation. -/
def settledWith (kind : AnnotationKind) (e : Entity) : Option (List EntityProperty) :=
  (e.annotated.find? fun a => a.1 == kind).map (·.2)

/-- Before verification the current properties are answered, and nothing is settled. -/
lemma propertiesWith_of_unverified (h : e.isVerified = false) :
    e.propertiesWith kind = (e.withAnnotation kind, e) := by
  rw [propertiesWith, h]
  rfl

/-- After verification the settled answer is given, or the current one, which is settled by that. -/
lemma propertiesWith_of_verified (h : e.isVerified = true) :
    e.propertiesWith kind =
      match e.settledWith kind with
      | some ps => (ps, e)
      | none => (e.withAnnotation kind,
          { e with annotated := (kind, e.withAnnotation kind) :: e.annotated }) := by
  rw [propertiesWith, h, settledWith]
  cases e.annotated.find? fun a => a.1 == kind <;> rfl

/-- A bean is told by the settled rule, or by the current one, which is settled by that. -/
lemma isNew_of_bean (bean : v.bean? = some b) :
    e.isNew v = ((e.newness.getD e.newnessRule).bind (·.isNew b),
      { e with newness := some (e.newness.getD e.newnessRule) }) := by
  rw [isNew, instanceOf, bean]

/-- A question about something that is no bean settles nothing. -/
lemma isNew_of_not_bean (bean : v.bean? = none) : (e.isNew v).2 = e := by
  rw [isNew, instanceOf, bean]

/-- Every call does one of the things that calls do. -/
theorem serves_next (e : Entity) (c : EntityCall) : e.Serves c (e.next c) := by
  cases c with
  | request r => exact .requested (change_of_act rfl)
  | propertiesWith kind =>
    rw [next]
    -- what was settled for the kind before is answered again and not replaced
    by_cases verified : e.isVerified = true
    · rw [propertiesWith_of_verified verified]
      cases e.settledWith kind with
      | some ps => exact .propertiesWith e.annotated
      | none => exact .propertiesWith _
    · rw [propertiesWith_of_unverified (Bool.eq_false_iff.mpr verified)]
      exact .propertiesWith e.annotated
  | isNew v =>
    rw [next]
    cases bean : v.bean? with
    | none =>
      rw [isNew_of_not_bean bean]
      exact .isNew e.newness
    | some b =>
      rw [isNew_of_bean bean]
      exact .isNew _

/-- A question about an annotation does not settle the rule. -/
@[simp]
lemma newness_propertiesWith : (e.propertiesWith kind).2.newness = e.newness := by
  unfold propertiesWith
  split
  · rfl
  · split <;> rfl

/-- A question about a bean does not settle properties. -/
@[simp]
lemma annotated_isNew : (e.isNew v).2.annotated = e.annotated := by
  unfold isNew
  split <;> rfl

/-- No change is made to the settled properties. -/
lemma Change.annotated_eq (change : e.Change r answer e') : e'.annotated = e.annotated := by
  cases change <;> rfl

/-- No change is made to the settled rule. -/
lemma Change.newness_eq (change : e.Change r answer e') : e'.newness = e.newness := by
  cases change <;> rfl

/-- A settled answer stays, and only a question about the same annotation settles it. -/
lemma settledWith_next (kind : AnnotationKind) (e : Entity) (c : EntityCall) :
    (e.next c).settledWith kind = (e.settledWith kind).or
      (bif EntityCall.settlesAnnotated kind e c then some (e.withAnnotation kind) else none) := by
  cases c with
  | request r =>
    have kept : (e.next (.request r)).annotated = e.annotated := (change_of_act rfl).annotated_eq
    simp [settledWith, kept, EntityCall.settlesAnnotated]
  | propertiesWith k =>
    simp only [next, EntityCall.settlesAnnotated]
    -- nothing is settled before the verification
    cases verified : e.isVerified with
    | false =>
      rw [propertiesWith_of_unverified verified]
      simp
    | true =>
      rw [propertiesWith_of_verified verified]
      -- questions for another kind settle nothing for this one
      by_cases same : k = kind
      · subst same
        cases known : e.settledWith k with
        | some ps => simp [known]
        | none => simp [settledWith]
      · have other : (k == kind) = false := beq_false_of_ne same
        cases e.settledWith k with
        | some ps => simp [other]
        | none => simp [settledWith, other]
  | isNew v => simp [next, settledWith, EntityCall.settlesAnnotated]

/-- A settled rule stays, and only a question about a bean settles it. -/
lemma newness_next (e : Entity) (c : EntityCall) : (e.next c).newness =
    e.newness.or (bif EntityCall.settlesNewness e c then some e.newnessRule else none) := by
  cases c with
  | request r =>
    have kept : (e.next (.request r)).newness = e.newness := (change_of_act rfl).newness_eq
    simp [kept, EntityCall.settlesNewness]
  | propertiesWith kind => simp [next, EntityCall.settlesNewness]
  | isNew v =>
    simp only [next, EntityCall.settlesNewness]
    cases bean : v.bean? with
    | none =>
      rw [isNew_of_not_bean bean]
      simp
    | some b =>
      rw [isNew_of_bean bean]
      cases e.newness <;> rfl

section Settling

variable {α : Type} {settled : Entity → Option α} {current : Entity → α}
  {settles : Entity → EntityCall → Bool}

/-- An answer that is settled by a call stays as it was at that call. -/
lemma getD_settled
    (step : ∀ e c, settled (e.next c) =
      (settled e).or (bif settles e c then some (current e) else none))
    (e : Entity) (calls : List EntityCall) :
    (settled (e.afterCalls calls)).getD (current (e.afterCalls calls)) =
      (settled e).getD (current (e.firstWhen settles calls)) := by
  induction calls generalizing e with
  | nil => rfl
  | cons c cs ih =>
    rw [afterCalls, ih, step, firstWhen]
    cases settled e with
    | some a => rfl
    | none => cases settles e c <;> rfl

end Settling

/-! ### Between the calls -/

/-- What no call changes. -/
structure Persists (e e' : Entity) : Prop where
  order_eq : e'.order = e.order
  hasFlag_eq : e'.hasFlag = e.hasFlag
  isVerified : e.isVerified = true → e'.isVerified = true

/-- An entity is what it is. -/
lemma Persists.refl : e.Persists e := ⟨rfl, rfl, fun h => h⟩

/-- No call changes what persists. -/
lemma Serves.persists (serves : e.Serves c e') : e.Persists e' := by
  cases serves with
  | requested change =>
    cases change with
    | unsorted | sorted => exact ⟨rfl, rfl, fun _ => rfl⟩
    | repeated | refused | entered | associated => exact ⟨rfl, rfl, fun h => h⟩
  | propertiesWith | isNew => exact ⟨rfl, rfl, fun h => h⟩

/-- No calls change what persists. -/
lemma persists_afterCalls (e : Entity) (calls : List EntityCall) :
    e.Persists (e.afterCalls calls) := by
  induction calls generalizing e with
  | nil => exact .refl
  | cons c cs ih =>
    have first := (e.serves_next c).persists
    have rest := ih (e.next c)
    exact ⟨rest.order_eq.trans first.order_eq, rest.hasFlag_eq.trans first.hasFlag_eq,
      fun h => rest.isVerified (first.isVerified h)⟩

/-- What was settled was settled before the end. -/
lemma persists_firstWhen (settles : Entity → EntityCall → Bool) (e : Entity)
    (calls : List EntityCall) :
    (e.firstWhen settles calls).Persists (e.afterCalls calls) := by
  induction calls generalizing e with
  | nil => exact .refl
  | cons c cs ih =>
    rw [firstWhen]
    split
    · exact persists_afterCalls e (c :: cs)
    · exact ih (e.next c)

/-! ### Answers -/

/-- No answer about an annotation is settled before the entity is verified. -/
lemma firstWhen_of_unverified
    (h : (e.firstWhen (EntityCall.settlesAnnotated kind) calls).isVerified = false) :
    e.firstWhen (EntityCall.settlesAnnotated kind) calls = e.afterCalls calls := by
  induction calls generalizing e with
  | nil => rfl
  | cons c cs ih =>
    cases settles : EntityCall.settlesAnnotated kind e c with
    | false =>
      rw [firstWhen, settles] at h ⊢
      exact ih h
    | true =>
      rw [firstWhen, settles] at h
      cases c with
      | propertiesWith k => cases h.symm.trans (Bool.and_eq_true_iff.mp settles).1
      | request r => cases settles
      | isNew v => cases settles

/-- After any calls the annotated properties are answered as they were when that was settled. -/
lemma propertiesWith_afterCalls (unsettled : e.settledWith kind = none) :
    ((e.afterCalls calls).propertiesWith kind).1 =
      withAnnotation (e.firstWhen (EntityCall.settlesAnnotated kind) calls) kind := by
  cases verified : (e.afterCalls calls).isVerified with
  | true =>
    have answered := getD_settled (settledWith_next kind) e calls
    rw [unsettled, Option.getD_none] at answered
    rw [← answered, propertiesWith_of_verified verified]
    cases (e.afterCalls calls).settledWith kind <;> rfl
  | false =>
    -- what is not verified in the end never was, so nothing was settled on the way
    rw [propertiesWith_of_unverified verified]
    cases before : (e.firstWhen (EntityCall.settlesAnnotated kind) calls).isVerified with
    | true => cases verified.symm.trans ((persists_firstWhen _ e calls).isVerified before)
    | false => rw [firstWhen_of_unverified before]

/-- After any calls a bean is told by the rule as it was when that was settled. -/
lemma isNew_afterCalls (unsettled : e.newness = none) (bean : v.bean? = some b) :
    ((e.afterCalls calls).isNew v).1 =
      (e.firstWhen EntityCall.settlesNewness calls).newnessRule.bind (·.isNew b) := by
  have answered := getD_settled newness_next e calls
  rw [unsettled, Option.getD_none] at answered
  rw [isNew_of_bean bean, answered]

/-! ### Nothing added after verification -/

/-- What is asked for is the same for both entities. -/
structure Steady (e e' : Entity) : Prop where
  properties_eq : e'.properties = e.properties
  id_eq : e'.id = e.id
  version_eq : e'.version = e.version

/-- The properties are in their final order. -/
def InOrder (e : Entity) : Prop :=
  ∀ order, e.order = some order → order.sort e.properties = e.properties

/-- If the entity is verified, then its properties stay as they are during the calls. -/
def IsQuiet (e : Entity) (calls : List EntityCall) : Prop :=
  e.isVerified = true → e.InOrder ∧ ∀ p, EntityCall.request (.add p) ∉ calls

/-- A call that adds nothing changes nothing that is asked for. -/
lemma Serves.steady (serves : e.Serves c e') (inOrder : e.InOrder)
    (noAddition : ∀ p, EntityCall.request (.add p) ∉ c :: calls) : e.Steady e' := by
  cases serves with
  | requested change =>
    cases change with
    | entered => cases noAddition _ List.mem_cons_self
    | sorted order => exact ⟨inOrder _ order, rfl, rfl⟩
    | repeated | refused | associated | unsorted => exact ⟨rfl, rfl, rfl⟩
  | propertiesWith | isNew => exact ⟨rfl, rfl, rfl⟩

/-- What is in order stays in order where nothing that is asked for changes. -/
lemma Steady.inOrder (steady : e.Steady e') (persists : e.Persists e') (inOrder : e.InOrder) :
    e'.InOrder := by
  intro order h
  rw [steady.properties_eq]
  exact inOrder order (persists.order_eq ▸ h)

/-- Only verification seals an entity. -/
lemma Serves.wasVerified (serves : e.Serves c e') (other : c ≠ .request .verify)
    (h : e'.isVerified = true) : e.isVerified = true := by
  cases serves with
  | requested change =>
    cases change with
    | unsorted | sorted => cases other rfl
    | repeated | refused | entered | associated => exact h
  | propertiesWith | isNew => exact h

/-- The calls that are left are as quiet as they were, if there is no addition after verification.
-/
lemma IsQuiet.next (total : ∀ order, e.order = some order → Std.TransCmp order)
    (quiet : e.IsQuiet (c :: calls)) (apart : EntityCall.IsSealed (c :: calls)) :
    (e.next c).IsQuiet calls := by
  have serves := e.serves_next c
  generalize e.next c = e' at serves ⊢
  intro verified
  by_cases verifies : c = .request .verify
  · -- verification itself puts the properties into order, and no addition follows it
    subst verifies
    refine ⟨?_, fun p added => List.rel_of_pairwise_cons apart added rfl p rfl⟩
    cases serves with
    | requested change =>
      cases change with
      | unsorted unordered =>
        intro order h
        cases unordered.symm.trans h
      | sorted ordered =>
        intro order h
        cases Option.some.inj (ordered.symm.trans h)
        have lawful := total _ ordered
        exact PropertyOrder.sort_sort _
  · obtain ⟨inOrder, noAddition⟩ := quiet (serves.wasVerified verifies verified)
    have steady : e.Steady e' := serves.steady inOrder noAddition
    exact ⟨steady.inOrder serves.persists inOrder,
      fun p added => noAddition p (List.mem_cons_of_mem c added)⟩

/-- What is steady twice is steady. -/
lemma Steady.trans {e'' : Entity} (first : e.Steady e') (second : e'.Steady e'') :
    e.Steady e'' where
  properties_eq := second.properties_eq.trans first.properties_eq
  id_eq := second.id_eq.trans first.id_eq
  version_eq := second.version_eq.trans first.version_eq

/-- Calls that add nothing change nothing that is asked for. -/
lemma steady_afterCalls (inOrder : e.InOrder)
    (noAddition : ∀ p, EntityCall.request (.add p) ∉ calls) : e.Steady (e.afterCalls calls) := by
  induction calls generalizing e with
  | nil => exact ⟨rfl, rfl, rfl⟩
  | cons c cs ih =>
    have serves := e.serves_next c
    have first : e.Steady (e.next c) := serves.steady inOrder noAddition
    apply first.trans
    apply ih
    · exact first.inOrder serves.persists inOrder
    · exact fun p added => noAddition p (List.mem_cons_of_mem c added)

/-- What was settled after verification is up to date. -/
lemma steady_firstWhen {settles : Entity → EntityCall → Bool}
    (total : ∀ order, e.order = some order → Std.TransCmp order) (quiet : e.IsQuiet calls)
    (apart : EntityCall.IsSealed calls) (h : (e.firstWhen settles calls).isVerified = true) :
    (e.firstWhen settles calls).Steady (e.afterCalls calls) := by
  induction calls generalizing e with
  | nil => exact ⟨rfl, rfl, rfl⟩
  | cons c cs ih =>
    cases settled : settles e c with
    | true =>
      rw [firstWhen, settled] at h ⊢
      obtain ⟨inOrder, noAddition⟩ := quiet h
      exact steady_afterCalls inOrder noAddition
    | false =>
      rw [firstWhen, settled] at h ⊢
      apply ih _ (quiet.next total apart) apart.of_cons h
      rw [(e.serves_next c).persists.order_eq]
      exact total

/-- The rule depends on the flag, the identifier and the version only. -/
lemma newnessRule_congr (flag : e'.hasFlag = e.hasFlag) (id : e'.id = e.id)
    (version : e'.version = e.version) : e'.newnessRule = e.newnessRule := by
  rw [newnessRule, newnessRule, flag, id, version]

/-- However an entity is built and asked, it answers with the annotated properties of the first
question about them after verification, and with those of the moment before verification. New
instances are told by the rule of the moment if identifier and version are what they were at the
first question about a bean, and by the rule of that question if it came after verification. If
nothing is added after verification, then all that was settled after it is up to date. -/
theorem answers_settled (serial : Nat) (type : TypeRef) (decl : TypeDecl) (c : Catalog)
    (order : Option PropertyOrder) (calls : List EntityCall) :
    let fresh := make serial type decl c order
    let e := fresh.afterCalls calls
    let asked := fresh.firstWhen EntityCall.settlesNewness calls
    (∀ kind, (e.propertiesWith kind).1 =
      (fresh.firstWhen (EntityCall.settlesAnnotated kind) calls).properties.filter
        (·.isAnnotated kind)) ∧
    (e.isVerified = false → ∀ kind,
      (e.propertiesWith kind).1 = e.properties.filter (·.isAnnotated kind)) ∧
    (∀ v b, v.bean? = some b → asked.id = e.id → asked.version = e.version →
      (e.isNew v).1 = e.newnessRule.bind (·.isNew b)) ∧
    (∀ v b, v.bean? = some b → asked.isVerified = true →
      (e.isNew v).1 = asked.newnessRule.bind (·.isNew b)) ∧
    ((∀ o, order = some o → Std.TransCmp o) → EntityCall.IsSealed calls →
      (∀ kind, (e.propertiesWith kind).1 = e.properties.filter (·.isAnnotated kind)) ∧
      ∀ v b, v.bean? = some b → asked.isVerified = true →
        (e.isNew v).1 = e.newnessRule.bind (·.isNew b)) := by
  intro fresh e asked
  -- both answers are those of the state at the question that settled them
  have annotated (kind : AnnotationKind) : (e.propertiesWith kind).1 =
      withAnnotation (fresh.firstWhen (EntityCall.settlesAnnotated kind) calls) kind :=
    propertiesWith_afterCalls rfl
  have newness {v b} (bean : v.bean? = some b) :
      (e.isNew v).1 = asked.newnessRule.bind (·.isNew b) :=
    isNew_afterCalls rfl bean
  have flag : e.hasFlag = asked.hasFlag := (persists_firstWhen _ fresh calls).hasFlag_eq
  refine ⟨annotated, ?_, ?_, fun v b bean _ => newness bean, ?_⟩
  · intro unverified kind
    rw [propertiesWith_of_unverified unverified]
    rfl
  · intro v b bean id version
    rw [newness bean, newnessRule_congr flag id.symm version.symm]
  -- no addition follows a verification, so that state has the properties of the last one
  · intro total apart
    have quiet : fresh.IsQuiet calls := nofun
    constructor
    · intro kind
      rw [annotated kind]
      cases verified :
          (fresh.firstWhen (EntityCall.settlesAnnotated kind) calls).isVerified with
      | true =>
        have steady := steady_firstWhen total quiet apart verified
        exact congrArg (List.filter _) steady.properties_eq.symm
      | false => rw [firstWhen_of_unverified verified, withAnnotation]
    · intro v b bean verified
      have steady : asked.Steady e := steady_firstWhen total quiet apart verified
      rw [newness bean, newnessRule_congr flag steady.id_eq steady.version_eq]

end Entity

namespace Sample

/-- A volume without properties yet. -/
def newVolume (order : Option PropertyOrder) : Entity :=
  .make 0 volume volumeDecl ⟨[volumeDecl]⟩ order

def unsavedVolume : Bean := ⟨"Volume", []⟩

def savedVolume : Bean := ⟨"Volume", [("number", .text "7")]⟩

/-- A volume is asked for its identifiers before it has any, and again once it is verified. -/
def volumeCalls : List EntityCall :=
  [.propertiesWith .id, .request (.add (volumeProperty "number" [.id])),
   .request (.add (volumeProperty "title" [])), .request .verify, .isNew savedVolume.toValue,
   .propertiesWith .id]

/-- The volume gets its identifier after it was verified, asked for one and asked whether an
instance is new. -/
def lateCalls : List EntityCall :=
  [.request .verify, .propertiesWith .id, .isNew savedVolume.toValue,
    .request (.add (volumeProperty "number" [.id]))]

/-- Volumes do not say themselves whether they are new. -/
lemma volume_unflagged (order : Option PropertyOrder) : (newVolume order).hasFlag = false := by
  cbv

/-- A volume whose identifier is its number is new if it has none. -/
lemma isNew_by_number {e : Entity} (unflagged : e.hasFlag = false) (unversioned : e.version = none)
    (number : e.id = some (volumeProperty "number" [.id])) (b : Bean) :
    e.newnessRule.bind (·.isNew b) = (NewnessRule.property "number" false).isNew b := by
  rw [Entity.newnessRule, unflagged, unversioned, number]
  rfl

/-- Without an identifier and a version every volume is new. -/
lemma isNew_by_nothing {e : Entity} (unflagged : e.hasFlag = false) (unversioned : e.version = none)
    (unidentified : e.id = none) (b : Bean) :
    e.newnessRule.bind (·.isNew b) = .ok true := by
  rw [Entity.newnessRule, unflagged, unversioned, unidentified]
  rfl

end Sample

open Sample in
/-- The number is answered before verification and after it, and tells new volumes. -/
theorem Entity.answers_settled_volume :
    let fresh := newVolume (some .byNameLength)
    ((fresh.afterCalls (volumeCalls.take 3)).propertiesWith .id).1 =
        [volumeProperty "number" [.id]] ∧
      ((fresh.afterCalls volumeCalls).propertiesWith .id).1 = [volumeProperty "number" [.id]] ∧
      ((fresh.afterCalls volumeCalls).isNew savedVolume.toValue).1 = .ok false ∧
      ((fresh.afterCalls volumeCalls).isNew unsavedVolume.toValue).1 = .ok true := by
  obtain ⟨-, current, -⟩ := answers_settled 0 volume volumeDecl ⟨[volumeDecl]⟩
    (some .byNameLength) (volumeCalls.take 3)
  obtain ⟨-, -, unchanged, sealedRule, upToDate⟩ := answers_settled 0 volume volumeDecl
    ⟨[volumeDecl]⟩ (some .byNameLength) volumeCalls
  have total : ∀ o, some PropertyOrder.byNameLength = some o → Std.TransCmp o :=
    fun _ h => Option.some.inj h ▸ PropertyOrder.byNameLength_trans
  have apart : EntityCall.IsSealed volumeCalls := by simp [EntityCall.IsSealed, volumeCalls]
  obtain ⟨annotated, -⟩ := upToDate total apart
  refine ⟨?_, ?_, ?_, ?_⟩
  · exact current rfl .id
  · refine (annotated .id).trans ?_
    show (PropertyOrder.byNameLength.sort
      [volumeProperty "number" [.id], volumeProperty "title" []]).filter _ = _
    -- the number is the only identifier, and sorting keeps it wherever it moves
    rw [PropertyOrder.filter_sort]
    exact PropertyOrder.sort_toList _ (some (volumeProperty "number" [.id]))
  · refine (sealedRule savedVolume.toValue savedVolume rfl rfl).trans ?_
    apply isNew_by_number _ rfl rfl
    exact volume_unflagged (some .byNameLength)
  · refine (unchanged unsavedVolume.toValue unsavedVolume rfl rfl rfl).trans ?_
    apply isNew_by_number _ rfl rfl
    exact volume_unflagged (some .byNameLength)

open Sample in
/-- The answers that were settled first do not know an identifier that is added later: it is not
among the annotated properties, and a volume that has a number is still new, as every volume was at
the first question, though the current rule would tell it from new ones. -/
theorem Entity.late_volume :
    let late := (newVolume none).afterCalls lateCalls
    ((late.propertiesWith .id).1 = [] ∧
      late.properties.filter (·.isAnnotated .id) = [volumeProperty "number" [.id]]) ∧
    (late.isNew savedVolume.toValue).1 = .ok true ∧
      late.newnessRule.bind (·.isNew savedVolume) = .ok false := by
  refine ⟨⟨rfl, rfl⟩, ?_, ?_⟩
  -- at the question that settled the rule there was neither an identifier nor a version
  · refine (isNew_afterCalls rfl rfl).trans ?_
    apply isNew_by_nothing _ rfl rfl
    exact volume_unflagged none
  · apply isNew_by_number _ rfl rfl
    exact volume_unflagged none

end EntityModel
