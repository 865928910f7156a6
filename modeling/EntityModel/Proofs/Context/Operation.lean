import EntityModel.Context.PathAccess
import EntityModel.Context.Paths
import EntityModel.Proofs.Context.Lookup

/-!
# Operations on contexts

All operations on a context, in any order, with failing ones in between (`Context.after`). Whatever
they do is done in steps (`Context.evolves_of_after`). Only additions are made by force.
-/

namespace EntityModel

namespace ContextM.Evolving

variable {forced : Bool} {t : TypeRef}

/-! ### Entities -/

/-- A lookup makes a step, or none. -/
lemma lookup (call : EntityLookup) (h : forced = true ∨ ∃ t, call = .entity t) :
    Evolving forced call.run := by
  intro c r c' hr
  have visited {m : Mapping} (allowed : call.isAllowed m = true) :
      forced = true ∨ m.isEligible call.type = true ∧ m.rules.isStrict = false := by
    rcases h with h | ⟨t, rfl⟩
    · exact .inl h
    · rw [EntityLookup.isAllowed, Bool.and_eq_true, Bool.not_eq_true'] at allowed
      exact .inr allowed
  cases EntityLookup.run_iff.mp hr with
  | answered | unknown => exact .refl
  | refused absent eligible => exact .single (.refused absent eligible)
  | made _ allowed vis _ => exact .single (.visited (visited allowed) vis)
  | failed _ allowed vis => exact .single (.visited (visited allowed) vis)

/-- To ask for the entity of a type is to look it up. -/
lemma entity? : Evolving forced (entity? t) :=
  lookup (.entity t) (.inr ⟨t, rfl⟩)

/-- An addition looks a type up by force. -/
lemma addEntity : Evolving true (addEntity t) :=
  lookup (.add t) (.inl rfl)

/-- To require an entity is to look it up and to fail where there is none. -/
lemma requiredEntity : Evolving forced (requiredEntity t) := by
  unfold ContextM.requiredEntity
  refine entity?.bind fun answer => ?_
  cases answer with
  | some e => exact pure e
  | none => exact throw _

/-- The initial types are added one after the other. -/
lemma addInitial : Evolving true addInitial := by
  unfold ContextM.addInitial
  refine get.bind fun c => forM fun t _ => ?_
  exact addEntity.map _

/-- The entity behind a property is looked up by its type. -/
lemma entityForProperty? (p : EntityProperty) : Evolving forced (entityForProperty? p) := by
  unfold ContextM.entityForProperty?
  split
  · exact (lift _).bind fun t => entity?
  · exact pure none

/-- The entity of a value is looked up by the type of the bean. -/
lemma entityForValue (v : Value) : Evolving forced (entityForValue v) := by
  unfold ContextM.entityForValue
  split
  · exact requiredEntity
  · exact throw _

/-! ### Paths -/

/-- To follow names is to look up an entity for each of them but the last. -/
lemma follow (e : Entity) (path : EntityPath) (name : String) (names : List String) :
    Evolving forced (follow e path name names) := by
  induction names generalizing e path name with
  | nil =>
    unfold ContextM.follow
    exact (lift _).bind fun p => lift _
  | cons next names ih =>
    unfold ContextM.follow
    refine (lift _).bind fun p => (lift _).bind fun t => requiredEntity.bind fun target => ?_
    exact (lift _).bind fun extended => ih target extended next

/-- A path is resolved by lookups only. -/
lemma resolve (source : String) : Evolving forced (resolve source t) := by
  unfold ContextM.resolve
  split
  · exact pure _
  · split
    · exact pure _
    · exact requiredEntity.bind fun e => follow e _ _ _

/-- A path is remembered once it was resolved, which is a step of its own. -/
lemma path (source : String) : Evolving forced (path source t) := by
  intro c r c' h
  unfold ContextM.path at h
  rw [runOn_bind, runOn_get, Option.bind_some] at h
  dsimp only at h
  split at h
  · cases h
    exact .refl
  · rw [runOn_bind] at h
    obtain ⟨⟨found, c₁⟩, resolved, h⟩ := Option.bind_eq_some_iff.mp h
    have first : c.Evolves forced c₁ := resolve _ c found c₁ resolved
    cases found with
    | error err =>
      cases h
      exact first
    | ok p =>
      cases h
      exact first.tail (.remembered resolved)

/-- The path of a parsed path is asked for by its source. -/
lemma pathOf (p : PropertyPath) : Evolving forced (pathOf p) :=
  path p.dotPath

/-- A search makes a lookup for each type that it gets behind. -/
lemma pathsFrom (accepts : EntityProperty → Bool) (base : EntityPath) :
    Evolving forced (ExceptT.mk fun c => c.pathsFrom accepts t base) := by
  intro c r c' h
  -- the walk is a partial fixed point: it evolves if each of its approximations does
  refine Context.pathsFrom.partial_correctness accepts (fun c _ _ o => c.Evolves forced o.2) ?_
    c t base (r, c') h
  intro walk ih c t base o h
  refine outcome (entity?.bind fun answer => ?_) h
  cases answer with
  | none => exact pure _
  | some e =>
    refine (mapM fun p _ => ?_).bind fun found => pure _
    split
    · exact pure _
    · refine (lift _).bind fun path => ?_
      dsimp only
      split
      · refine bind ?_ fun further => pure _
        intro c r c' h
        exact ih c p.actual path (r, c') h
      · exact (pure _).bind fun further => pure _

/-- To find paths is to search and to sort what was found. -/
lemma findPaths (accepts : EntityProperty → Bool) : Evolving forced (findPaths accepts t) := by
  unfold ContextM.findPaths
  exact (pathsFrom accepts _).bind fun found => pure _

/-! ### Values -/

/-- To read a property is to look up the entity that it is read by. -/
lemma readProperty (target : Value) (p : EntityProperty) :
    Evolving forced (readProperty target p) := by
  unfold ContextM.readProperty
  exact (entityForValue target).bind fun e => (lift _).bind fun opened => lift _

/-- To write a property is to look up the entity that it is written by. -/
lemma writeProperty (target : Value) (p : EntityProperty) (v : Value) :
    Evolving forced (writeProperty target p v) := by
  unfold ContextM.writeProperty
  refine (entityForValue target).bind fun e => (lift _).bind fun opened => ?_
  exact (lift _).bind fun written => pure _

/-- To read down a path looks up an entity for each property on the way. -/
lemma readOn (root : Value) (path : EntityPath) (nulls : ReadNulls) (current : Value)
    (ps : List EntityProperty) : Evolving forced (readOn root path nulls current ps) := by
  induction ps generalizing current with
  | nil => exact pure current
  | cons p ps ih =>
    unfold ContextM.readOn
    split
    · cases nulls with
      | reject => exact throw _
      | answerNull => exact pure _
    · exact (readProperty current p).bind fun v => ih v

/-- A path is read from its first property on. -/
lemma readPath (root : Value) (path : EntityPath) (nulls : ReadNulls) :
    Evolving forced (readPath root path nulls) :=
  readOn root path nulls root path.properties

/-- Where a write stops at a null no entity is looked up; a report of it is a step. -/
lemma skipNull (root : Value) (path : EntityPath) (nulls : WriteNulls) (p : EntityProperty) :
    Evolving forced (skipNull root path nulls p) := by
  unfold ContextM.skipNull
  cases nulls with
  | reject => exact throw _
  | skip => exact pure _
  | report => exact (modify fun c => .reported).bind fun _ => pure _

/-- The update of an element makes the steps that the update itself makes. -/
lemma updateElement {update : Value → ContextM (Option Value)}
    (hu : ∀ v, Evolving forced (update v)) (element : Value) :
    Evolving forced (updateElements.updateElement update element) := by
  unfold updateElements.updateElement
  split
  · exact pure _
  · exact (hu element).bind fun updated => pure _

/-- The elements of a container are updated one after the other. -/
lemma updateElements (path : EntityPath) {update : Value → ContextM (Option Value)}
    (hu : ∀ v, Evolving forced (update v)) (container : Value) :
    Evolving forced (updateElements path update container) := by
  unfold ContextM.updateElements
  split
  · exact (mapM fun v _ => updateElement hu v).bind fun items => pure _
  · exact (mapM fun v _ => updateElement hu v).bind fun items => pure _
  · refine (mapM fun entry _ => ?_).bind fun entries => pure _
    exact (updateElement hu entry.2).bind fun v => pure _
  · exact throw _

/-- To write down a path reads on the way down, and writes on the way up. -/
lemma writeOn (root : Value) (path : EntityPath) (options : WriteOptions) (v : Value)
    (ps : List EntityProperty) (target : Value) :
    Evolving forced (writeOn root path options v ps target) := by
  induction ps generalizing target with
  | nil => exact pure _
  | cons p ps ih =>
    cases ps with
    | nil =>
      unfold ContextM.writeOn
      exact (writeProperty target p v).map _
    | cons next rest =>
      unfold ContextM.writeOn
      refine (readProperty target p).bind fun child => ?_
      split
      -- a null on the way ends the write, else it goes on into a container or through a bean
      · exact skipNull root path options.nulls next
      · split
        · split
          · refine (updateElements path ih child).bind fun updated => ?_
            exact (writeProperty target p updated).map _
          · exact pure _
        · refine (ih child).bind fun written => ?_
          cases written with
          | none => exact pure _
          | some updated => exact (writeProperty target p updated).map _

/-- A path is written from its first property on, and an empty one is refused. -/
lemma writePath (root : Value) (path : EntityPath) (v : Value) (options : WriteOptions) :
    Evolving forced (writePath root path v options) := by
  unfold ContextM.writePath
  split
  · exact throw _
  · exact (writeOn root path options v _ root).bind fun written => pure _

end ContextM.Evolving

open ContextM

inductive Operation where
  | addInitial
  | lookup (call : EntityLookup)
  | required (t : TypeRef)
  | behindProperty (p : EntityProperty)
  | behindValue (v : Value)
  | path (source : String) (t : TypeRef)
  | pathOf (p : PropertyPath)
  | findPaths (accepts : EntityProperty → Bool) (t : TypeRef)
  | read (root : Value) (along : EntityPath) (nulls : ReadNulls)
  | write (root : Value) (along : EntityPath) (v : Value) (options : WriteOptions)
  | listen

namespace Operation

/-- What an operation does, apart from its answer. -/
def run : Operation → ContextM Unit
  | addInitial => ContextM.addInitial
  | lookup call => discard call.run
  | required t => discard (requiredEntity t)
  | behindProperty p => discard (entityForProperty? p)
  | behindValue v => discard (entityForValue v)
  | path source t => discard (ContextM.path source t)
  | pathOf p => discard (ContextM.pathOf p)
  | findPaths accepts t => discard (ContextM.findPaths accepts t)
  | read root along nulls => discard (readPath root along nulls)
  | write root along v options => discard (writePath root along v options)
  | listen => modify Context.addListener

/-- Whether an operation adds types without regard to the rules. -/
def isForced : Operation → Bool
  | addInitial | lookup (.add _) => true
  | _ => false

/-- Every operation does what it does in steps. -/
theorem evolving (op : Operation) : Evolving op.isForced op.run := by
  cases op with
  | addInitial => exact Evolving.addInitial
  | lookup call =>
    cases call with
    | entity t => exact Evolving.entity?.map _
    | add t => exact Evolving.addEntity.map _
  | required t => exact Evolving.requiredEntity.map _
  | behindProperty p => exact (Evolving.entityForProperty? p).map _
  | behindValue v => exact (Evolving.entityForValue v).map _
  | path source t => exact (Evolving.path source).map _
  | pathOf p => exact (Evolving.pathOf p).map _
  | findPaths accepts t => exact (Evolving.findPaths accepts).map _
  | read root along nulls => exact (Evolving.readPath root along nulls).map _
  | write root along v options => exact (Evolving.writePath root along v options).map _
  | listen => exact .modify fun c => .listened

end Operation

namespace Context

/-- The context after operations one after the other, each of which may succeed or fail. -/
def after : List Operation → Context → Option Context
  | [], c => some c
  | op :: ops, c => do
    let (_, c) ← op.run.runOn c
    after ops c

/-- Operations in any order change a context in steps. -/
theorem evolves_of_after {ops : List Operation} {c c' : Context} (h : after ops c = some c') :
    c.Evolves true c' := by
  induction ops generalizing c with
  | nil =>
    cases h
    exact .refl
  | cons op ops ih =>
    obtain ⟨⟨r, c₁⟩, h₁, h⟩ := Option.bind_eq_some_iff.mp h
    exact (op.evolving c r c₁ h₁).force.trans (ih h)

/-- A lookup, whether it succeeds or fails, is followed by the rest of the operations. -/
lemma after_lookup {call : EntityLookup} {ops : List Operation} {c c' : Context} {r}
    (h : call.run.runOn c = some (r, c')) : after (.lookup call :: ops) c = after ops c' := by
  show ((discard call.run).runOn c).bind _ = _
  rw [ContextM.runOn_discard h]
  rfl

/-- A type that is visited at once is known after it was looked up, and no path is remembered. -/
lemma exists_looked_up {m : Mapping} {t : TypeRef} {e : Entity} {d : Discovery}
    (allowed : (EntityLookup.entity t).isAllowed m = true)
    (vis : m.Visits t (ofMapping m).discovery (.ok ()) d)
    (found : d.table.get? t = some (some e)) :
    ∃ c, after [.lookup (.entity t)] (ofMapping m) = some c ∧ c.table = d.table ∧ c.paths = [] := by
  have yields : EntityLookup.Yields (ofMapping m) (.entity t) _ _ :=
    .made EntityTable.get?_empty allowed vis found
  exact ⟨_, after_lookup yields.run, rfl, rfl⟩

end Context

namespace Sample

/-- The lookup of an author fails wherever neither the author nor its book is known. The book is
known then. -/
lemma author_fails {c : Context} (mapping_eq : c.mapping = library)
    (author_absent : c.table.get? author = none) (book_absent : c.table.get? book = none) :
    ∃ e d, (EntityLookup.entity author).run.runOn c =
        some (.error twoIdentifiers, c.afterDiscovery d) ∧
      d.table.get? book = some (some e) := by
  obtain ⟨e, d, vis, found⟩ := author_withdrawn (d := c.discovery)
    (EntityTable.contains_eq_false.mpr author_absent)
    (EntityTable.contains_eq_false.mpr book_absent)
  have allowed : (EntityLookup.entity author).isAllowed library = true := by cbv
  rw [← mapping_eq] at allowed vis
  exact ⟨e, d, EntityLookup.run_iff.mpr (.failed author_absent allowed vis), found⟩

/-- The lookup of an author fails, and its book is known then. -/
lemma author_looked_up : ∃ c e,
    (entity? author).runOn (.ofMapping library) = some (.error twoIdentifiers, c) ∧
      Context.after [.lookup (.entity author)] (.ofMapping library) = some c ∧
      c.table.get? book = some (some e) := by
  obtain ⟨e, d, failed, found⟩ := author_fails (c := .ofMapping library) rfl EntityTable.get?_empty
    EntityTable.get?_empty
  exact ⟨_, e, failed, Context.after_lookup failed, found⟩

end Sample

end EntityModel
