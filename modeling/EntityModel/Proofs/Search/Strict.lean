import EntityModel.Proofs.Context.Strict
import EntityModel.Proofs.Search.Termination

/-!
# Operations on strict contexts

Where additions are the only way to make entities, nothing else can go on without end: a path search
is confined to the entities that are there, and everything else looks up finitely many types
(`ContextM.Ends`). Whatever is done on a strict context apart from additions comes to an end, leaves
its entities as they are and tells listeners nothing (`Context.strict_keepsEntities`).
-/

namespace EntityModel

open Context

namespace ContextM

variable {α β : Type} {c : Context} {t : TypeRef}

/-- Under strict rules an operation has an outcome. -/
def Ends (x : ContextM α) : Prop :=
  ∀ c : Context, c.mapping.rules.isStrict = true → ∃ r c', x.runOn c = some (r, c')

namespace Ends

/-! ### Composed operations -/

/-- An answer that is there already has an outcome. -/
lemma pure (a : α) : Ends (pure a) :=
  fun _ _ => ⟨_, _, rfl⟩

/-- An error is an outcome. -/
lemma throw (err : Error) : Ends (throw err : ContextM α) :=
  fun _ _ => ⟨_, _, rfl⟩

/-- A result that does not depend on the context is an outcome. -/
lemma lift (x : Except Error α) : Ends (liftM x : ContextM α) :=
  fun _ _ => ⟨_, _, runOn_lift x⟩

/-- A change of the context has an outcome. -/
lemma modify (f : Context → Context) : Ends (modify f : ContextM PUnit) :=
  fun _ _ => ⟨_, _, rfl⟩

/-- The rules are still strict after the first part. -/
lemma bind {x : ContextM α} {f : α → ContextM β} (evolving : Evolving false x) (ends : Ends x)
    (next : ∀ a, Ends (f a)) : Ends (x >>= f) := by
  intro c strict
  obtain ⟨r, c₁, first⟩ := ends c strict
  cases r with
  | error err => exact ⟨_, _, runOn_bind_of_error first⟩
  | ok a =>
    have mapping_eq : c₁.mapping = c.mapping := (evolving c _ c₁ first).mapping_eq
    rw [runOn_bind_of_ok first]
    exact next a c₁ (mapping_eq ▸ strict)

/-- What follows a result is asked only if that is a success. -/
lemma lift_bind {x : Except Error α} {f : α → ContextM β} (next : ∀ a, Ends (f a)) :
    Ends (liftM x >>= f) :=
  (lift x).bind (.lift x) next

/-- An answer may be converted. -/
lemma map {x : ContextM α} (f : α → β) (evolving : Evolving false x) (ends : Ends x) :
    Ends (f <$> x) := by
  rw [map_eq_pure_bind]
  exact bind evolving ends fun a => pure (f a)

/-- Operations for the elements of a list come to an end one after the other. -/
lemma mapM {f : α → ContextM β} (evolving : ∀ a, Evolving false (f a)) (ends : ∀ a, Ends (f a))
    (xs : List α) : Ends (xs.mapM f) := by
  induction xs with
  | nil => exact pure []
  | cons a xs ih =>
    rw [List.mapM_cons]
    refine bind (evolving a) (ends a) fun b => ?_
    exact bind (.mapM fun a _ => evolving a) ih fun bs => pure _

/-! ### Entities -/

/-- A strict lookup does not visit a type. -/
lemma entity? : Ends (entity? t) := by
  intro c strict
  rw [EntityLookup.runOn_entity?]
  cases c.table.get? t with
  | some answer => exact ⟨_, _, rfl⟩
  | none =>
    cases eligible : c.mapping.isEligible t with
    | false => exact ⟨_, _, rfl⟩
    | true => exact ⟨_, _, by simp only [strict, Bool.true_eq_false, if_false, if_true]; rfl⟩

/-- A strict lookup refuses a type that has no entity. -/
lemma requiredEntity : Ends (requiredEntity t) := by
  unfold ContextM.requiredEntity
  refine bind .entity? entity? fun answer => ?_
  cases answer with
  | some e => exact pure e
  | none => exact throw _

/-- The entity for a property is looked up as others are. -/
lemma entityForProperty? (p : EntityProperty) : Ends (entityForProperty? p) := by
  unfold ContextM.entityForProperty?
  split
  · exact lift_bind fun t => entity?
  · exact pure none

/-- The entity for a value is looked up as others are. -/
lemma entityForValue (v : Value) : Ends (entityForValue v) := by
  unfold ContextM.entityForValue
  split
  · exact requiredEntity
  · exact throw _

/-! ### Paths -/

/-- A path is followed name by name. -/
lemma follow (e : Entity) (path : EntityPath) (name : String) (names : List String) :
    Ends (follow e path name names) := by
  induction names generalizing e path name with
  | nil =>
    unfold ContextM.follow
    exact lift_bind fun p => lift _
  | cons next names ih =>
    unfold ContextM.follow
    refine lift_bind fun p => lift_bind fun t => ?_
    refine bind .requiredEntity requiredEntity fun target => ?_
    exact lift_bind fun extended => ih target extended next

/-- A source is resolved from the entity of the type. -/
lemma resolve (source : String) : Ends (resolve source t) := by
  unfold ContextM.resolve
  split
  · exact pure _
  · split
    · exact pure _
    · exact bind .requiredEntity requiredEntity fun e => follow e _ _ _

/-- A path is resolved, unless it is remembered. -/
lemma path (source : String) : Ends (path source t) := by
  unfold ContextM.path
  refine bind .get (fun c _ => ⟨_, _, runOn_get⟩) fun c => ?_
  split
  · exact pure _
  · exact bind (.resolve _) (resolve _) fun p => fun _ _ => ⟨_, _, rfl⟩

/-! ### Values -/

/-- Reading a property looks up the entity of its bean. -/
lemma readProperty (target : Value) (p : EntityProperty) : Ends (readProperty target p) := by
  unfold ContextM.readProperty
  exact bind (.entityForValue target) (entityForValue target) fun e =>
    lift_bind fun opened => lift _

/-- Writing a property looks up the entity of its bean. -/
lemma writeProperty (target : Value) (p : EntityProperty) (v : Value) :
    Ends (writeProperty target p v) := by
  unfold ContextM.writeProperty
  refine bind (.entityForValue target) (entityForValue target) fun e => lift_bind fun opened => ?_
  exact lift_bind fun written => pure _

/-- A read goes down the properties of the path, one at a time. -/
lemma readOn (root : Value) (path : EntityPath) (nulls : ReadNulls) (current : Value)
    (ps : List EntityProperty) : Ends (readOn root path nulls current ps) := by
  induction ps generalizing current with
  | nil => exact pure current
  | cons p ps ih =>
    unfold ContextM.readOn
    split
    · cases nulls with
      | reject => exact throw _
      | answerNull => exact pure _
    · exact bind (.readProperty current p) (readProperty current p) fun v => ih v

/-- What is done about a null on the way comes to an end. -/
lemma skipNull (root : Value) (path : EntityPath) (nulls : WriteNulls) (p : EntityProperty) :
    Ends (skipNull root path nulls p) := by
  unfold ContextM.skipNull
  cases nulls with
  | reject => exact throw _
  | skip => exact pure _
  | report => exact fun _ _ => ⟨_, _, rfl⟩

/-- An element is updated if it is no null. -/
lemma updateElement {update : Value → ContextM (Option Value)}
    (evolving : ∀ v, Evolving false (update v)) (ends : ∀ v, Ends (update v)) (element : Value) :
    Ends (updateElements.updateElement update element) := by
  unfold updateElements.updateElement
  split
  · exact pure _
  · exact bind (evolving element) (ends element) fun updated => pure _

/-- The elements of a container are updated one after the other. -/
lemma updateElements (path : EntityPath) {update : Value → ContextM (Option Value)}
    (evolving : ∀ v, Evolving false (update v)) (ends : ∀ v, Ends (update v)) (container : Value) :
    Ends (updateElements path update container) := by
  have element := updateElement evolving ends
  have evolves := fun v => Evolving.updateElement evolving v
  unfold ContextM.updateElements
  split
  · exact bind (.mapM fun v _ => evolves v) (mapM evolves element _) fun items => pure _
  · exact bind (.mapM fun v _ => evolves v) (mapM evolves element _) fun items => pure _
  · have entry : ∀ e : String × Value, Evolving false (do
        return (e.1, ← updateElements.updateElement update e.2)) :=
      fun e => (evolves e.2).bind fun v => .pure _
    refine bind (.mapM fun e _ => entry e) (mapM entry (fun e => ?_) _) fun entries => pure _
    exact bind (evolves e.2) (element e.2) fun v => pure _
  · exact throw _

/-- A write goes down the properties of the path, and fans out over the elements on its way. -/
lemma writeOn (root : Value) (path : EntityPath) (options : WriteOptions) (v : Value)
    (ps : List EntityProperty) (target : Value) :
    Ends (writeOn root path options v ps target) := by
  induction ps generalizing target with
  | nil => exact pure _
  | cons p ps ih =>
    -- the value comes back through the same bean, whatever was written below it
    have write (target v : Value) : Ends (some <$> ContextM.writeProperty target p v) :=
      (writeProperty target p v).map some (.writeProperty target p v)
    cases ps with
    | nil =>
      unfold ContextM.writeOn
      exact write target v
    | cons next rest =>
      have evolving (child : Value) :
          Evolving false (ContextM.writeOn root path options v (next :: rest) child) :=
        .writeOn root path options v (next :: rest) child
      unfold ContextM.writeOn
      refine bind (.readProperty target p) (readProperty target p) fun child => ?_
      split
      · exact skipNull root path options.nulls next
      · split
        · split
          · exact bind (.updateElements path evolving child) (updateElements path evolving ih child)
              fun updated => write target updated
          · exact pure _
        · refine bind (evolving child) (ih child) fun written => ?_
          cases written with
          | none => exact pure _
          | some updated => exact write target updated

/-- A write at a path comes to an end. -/
lemma writePath (root : Value) (path : EntityPath) (v : Value) (options : WriteOptions) :
    Ends (writePath root path v options) := by
  unfold ContextM.writePath
  split
  · exact throw _
  · exact bind (.writeOn root path options v _ root) (writeOn root path options v _ root)
      fun written => pure _

end Ends

end ContextM

namespace Context

variable {c c' : Context}

/-! ### Path searches -/

/-- The types behind the properties that the entities of a context offer to paths. -/
def typesBehind (c : Context) : Finset TypeRef :=
  (c.entities.flatMap fun e => (ContextM.candidates e).map (·.actual)).toFinset

/-- The type behind a property that a known entity offers is one of those behind the context's. -/
lemma mem_typesBehind {e : Entity} {p : EntityProperty} (he : e ∈ c.entities)
    (hp : p ∈ ContextM.candidates e) : p.actual ∈ c.typesBehind :=
  List.mem_toFinset.mpr (List.mem_flatMap.mpr ⟨e, he, List.mem_map_of_mem hp⟩)

/-- Under strict rules a search goes through the entities that are there, so fewer and fewer types
are ahead of its paths. -/
lemma exists_strict_searches (strict : c.mapping.rules.isStrict = true)
    (accepts : EntityProperty → Bool) (n : Nat) (evolves : c.Evolves false c') (t : TypeRef)
    (base : EntityPath) (small : (base.ahead c.typesBehind).card < n) :
    ∃ lookups r c'', Searches accepts c' t base lookups r c'' := by
  induction n generalizing c' t base with
  | zero => exact absurd small (Nat.not_lt_zero _)
  | succ n ih =>
    have strict' : c'.mapping.rules.isStrict = true := evolves.mapping_eq ▸ strict
    obtain ⟨answer, c₁, looked⟩ := ContextM.Ends.entity? c' strict'
    rcases answer with err | (_ | e)
    · exact ⟨_, _, _, .failed looked⟩
    · exact ⟨_, _, _, .nowhere looked⟩
    · have later : c.Evolves false c₁ := evolves.trans (ContextM.Evolving.entity? _ _ _ looked)
      have yields : EntityLookup.Yields c' (.entity t.actual) (.ok (some e)) c₁ :=
        EntityLookup.run_iff.mp looked
      -- the entity was there from the start, so the types behind its properties were counted
      have known := (later.keepsEntities strict).mem_entities_iff.mp
        (mem_entities_iff.mpr ⟨_, yields.get?_eq⟩)
      obtain ⟨lookups, r, c'', tries⟩ := exists_tries (fun c' evolves u _ path small =>
        ih evolves u path small) later (fun p hp _ => mem_typesBehind known hp)
        (Nat.lt_succ_iff.mp small)
      exact ⟨_, _, _, .through looked tries⟩

end Context

namespace ContextM.Ends

/-- A search for paths comes to an end. -/
lemma findPaths (accepts : EntityProperty → Bool) (t : TypeRef) : Ends (findPaths accepts t) := by
  unfold ContextM.findPaths
  refine bind (.pathsFrom accepts _) (fun c strict => ?_) fun found => pure _
  obtain ⟨lookups, r, c', searches⟩ :=
    exists_strict_searches strict accepts _ .refl t {} (Nat.lt_succ_self _)
  exact ⟨r, c', searches.run⟩

end ContextM.Ends

/-- Every operation but additions comes to an end under strict rules. -/
lemma Operation.ends {op : Operation} (unforced : op.isForced = false) :
    ContextM.Ends op.run := by
  cases op with
  | addInitial => cases unforced
  | lookup call =>
    cases call with
    | entity t => exact ContextM.Ends.entity?.map _ .entity?
    | add t => cases unforced
  | required t => exact ContextM.Ends.requiredEntity.map _ .requiredEntity
  | behindProperty p => exact (ContextM.Ends.entityForProperty? p).map _ (.entityForProperty? p)
  | behindValue v => exact (ContextM.Ends.entityForValue v).map _ (.entityForValue v)
  | path source t => exact (ContextM.Ends.path source).map _ (.path source)
  | pathOf p => exact (ContextM.Ends.path p.dotPath).map _ (.pathOf p)
  | findPaths accepts t => exact (ContextM.Ends.findPaths accepts t).map _ (.findPaths accepts)
  | read root along nulls =>
    exact (ContextM.Ends.readOn root along nulls root _).map _ (.readPath root along nulls)
  | write root along v options =>
    exact (ContextM.Ends.writePath root along v options).map _ (.writePath root along v options)
  | listen => exact .modify _

namespace Context

variable {m : Mapping} {c c' : Context}

/-- Operations that add nothing come to an end on a strict context. -/
lemma exists_after {ops : List Operation} (strict : c.mapping.rules.isStrict = true)
    (unforced : ∀ op ∈ ops, op.isForced = false) :
    ∃ c', after ops c = some c' ∧ c.Evolves false c' := by
  induction ops generalizing c with
  | nil => exact ⟨c, rfl, .refl⟩
  | cons op ops ih =>
    obtain ⟨here, others⟩ := List.forall_mem_cons.mp unforced
    obtain ⟨r, c₁, first⟩ := Operation.ends here c strict
    have evolves : c.Evolves false c₁ := here ▸ op.evolving c r c₁ first
    obtain ⟨c', rest, further⟩ := ih (evolves.mapping_eq ▸ strict) others
    refine ⟨c', ?_, evolves.trans further⟩
    unfold after
    rw [first]
    exact rest

/-- On a strict context, whatever was done on it before, operations in any order that add nothing
come to an end. The managed types and their entities stay the same, and listeners are told nothing.
Afterwards, too, a lookup answers the entity of a managed type, that there is none for a type that
is not eligible, and refuses all other types. -/
theorem strict_keepsEntities {earlier later : List Operation} (strict : m.rules.isStrict = true)
    (before : after earlier (ofMapping m) = some c)
    (unforced : ∀ op ∈ later, op.isForced = false) :
    ∃ c', after later c = some c' ∧
      (∀ t e, c'.table.get? t = some (some e) ↔ c.table.get? t = some (some e)) ∧
      (∀ t, t ∈ c'.managedTypes ↔ t ∈ c.managedTypes) ∧
      (∀ e, e ∈ c'.entities ↔ e ∈ c.entities) ∧
      c'.deliveries = c.deliveries ∧ c'.StrictAnswers := by
  have sound : c.Sound m := .of_after before
  have strict' : c.mapping.rules.isStrict = true := sound.mapping_eq ▸ strict
  obtain ⟨c', done, evolves⟩ := exists_after strict' unforced
  have keeps := evolves.keepsEntities strict'
  exact ⟨c', done, keeps.get?_iff, fun _ => keeps.mem_managedTypes_iff,
    fun _ => keeps.mem_entities_iff, keeps.deliveries_eq,
    (sound.evolve evolves).strict_answers strict⟩

end Context

namespace Sample

def shelf : TypeRef := .of "Shelf"

def box : TypeRef := .of "Box"

def shelfDecl : TypeDecl where
  name := "Shelf"
  fields := [{ name := "label", type := .of "String" }]

/-- Shelves and boxes, which have to be added. -/
def depot : Mapping where
  catalog := ⟨[shelfDecl, { name := "Box" }]⟩
  rules := { isStrict := true }

/-- A shelf has its label. -/
lemma outline_shelf :
    depot.outline shelf = .ok (shelfDecl, shelfDecl.fields.map (property shelfDecl)) := by
  cbv

/-- A shelf is added in spite of the rules. -/
lemma shelf_added : ∃ c e,
    Context.after [.lookup (.add shelf)] (.ofMapping depot) = some c ∧
      c.table.get? shelf = some (some e) ∧ ∀ u ≠ shelf, c.table.get? u = none := by
  have nothing (t : TypeRef) : (Context.ofMapping depot).table.get? t = none :=
    EntityTable.get?_empty
  obtain ⟨d, vis, found, others⟩ := Mapping.exists_visits_alone
    (d := (Context.ofMapping depot).discovery)
    (EntityTable.contains_eq_false.mpr (nothing shelf)) outline_shelf rfl
    (List.forall_mem_singleton.mpr rfl)
  have added : EntityLookup.Yields (.ofMapping depot) (.add shelf) _ _ :=
    .made (nothing shelf) rfl vis found
  exact ⟨_, _, Context.after_lookup added.run, found, fun u hu => (others u hu).trans (nothing u)⟩

end Sample

namespace Context

open Sample in
/-- On a context that knows shelves, paths from a shelf are resolved and searched, but no box is
made, and a text is no entity. -/
theorem strict_keepsEntities_shelf : ∃ c c' e,
    after [.lookup (.add shelf)] (ofMapping depot) = some c ∧
      after [.path "label" shelf, .findPaths (fun _ => true) shelf, .lookup (.entity box)] c =
        some c' ∧
      (ContextM.entity? shelf).runOn c' = some (.ok (some e), c') ∧
      (∃ c'', (ContextM.entity? (.of "String")).runOn c' = some (.ok none, c'')) ∧
      (ContextM.entity? box).runOn c' = some (.error (.unknownEntity "Box"), c') ∧
      c'.deliveries = c.deliveries := by
  obtain ⟨c, e, before, known, unknown⟩ := shelf_added
  have unforced : ∀ op ∈ [Operation.path "label" shelf, .findPaths (fun _ => true) shelf,
      .lookup (.entity box)], op.isForced = false := by
    simp [Operation.isForced]
  obtain ⟨c', done, get?_iff, managed_iff, -, told, answers⟩ :=
    strict_keepsEntities rfl before unforced
  have mapping_eq : c'.mapping = depot :=
    ((Sound.of_after before).evolve (evolves_of_after done)).mapping_eq
  have other {t : TypeRef} (h : t ≠ shelf) : t ∉ c'.managedTypes := by
    rw [managed_iff, mem_managedTypes_iff, unknown t h]
    rintro ⟨e, managed⟩
    cases managed
  have found := (get?_iff shelf e).mpr known
  have text_ineligible : depot.isEligible (.of "String") = false := by cbv
  have box_eligible : depot.isEligible box = true := by cbv
  rw [← mapping_eq] at text_ineligible box_eligible
  exact ⟨c, c', e, before, done, answers.managed shelf e found,
    answers.ineligible _ (other (by decide)) text_ineligible,
    answers.unknown box (other (by decide)) box_eligible, told⟩

end Context

end EntityModel
