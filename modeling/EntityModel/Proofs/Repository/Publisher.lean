import EntityModel.Repository.Publisher
import Mathlib.Data.List.Forall2
import Mathlib.Tactic.Lemma

/-!
# Published events

A repository that publishes events answers as its composition does: a search for events never fails,
since a property is looked for in declared types only. What is remembered of earlier searches is
what a search finds (`EventPublisher.Recalls`), so what a call publishes depends on the call and its
answer alone (`EventPublisher.run_transparent`).
-/

namespace EntityModel

namespace EventPublisher

variable {c : Catalog} {type name : String}

/-! ### Properties -/

/-- The first field on a superclass chain that is marked for events. -/
def eventField? (levels : List Level) : Option FieldDecl :=
  (levels.flatMap Level.fields).find? (.domainEvents ∈ ·.annotations)

/-- The first accessor on a superclass chain that is marked for events, among those that are not
hidden by a nearer one of the same name. -/
def eventAccessor? (levels : List Level) : Option AccessorDecl :=
  (distinctOn (·.name) [] (levels.flatMap Level.accessors)).find? (.domainEvents ∈ ·.annotations)

/-- The property that holds the events of a type: a field of the type or of its superclasses, else
an accessor. -/
inductive HoldsEvents (c : Catalog) (type : String) : String → Prop where
  | field {levels f} :
    c.hierarchy (.of type) = .ok levels → eventField? levels = some f → HoldsEvents c type f.name
  | accessor {levels a} :
    c.hierarchy (.of type) = .ok levels → eventField? levels = none →
    eventAccessor? levels = some a → HoldsEvents c type a.name

/-- The superclass chain of a declared type begins with its declaration. -/
lemma exists_hierarchy_iff :
    (∃ levels, c.hierarchy (.of type) = .ok levels) ↔ c.contains type = true := by
  have contains_eq : c.contains type =
    (c.declarations.find? fun d => d.name == (TypeRef.of type).name).isSome := rfl
  rw [contains_eq]
  unfold Catalog.hierarchy
  unfold Catalog.chain
  cases c.declarations.find? fun d => d.name == (TypeRef.of type).name <;> simp

/-- There is one annotation of the kind. -/
lemma marksEvents_eq_decide (annotations : List Annotation) :
    marksEvents annotations = decide (.domainEvents ∈ annotations) := by
  have kind_iff (a : Annotation) : a.kind = .domainEvents ↔ a = .domainEvents := by
    unfold Annotation.kind
    cases a <;> simp
  rw [Bool.eq_iff_iff, decide_eq_true_eq]
  unfold marksEvents Annotation.isPresent Annotation.find?
  simp only [List.find?_isSome, beq_iff_eq, kind_iff, exists_eq_right]

/-- The property is looked for among the fields of all levels before any accessor. -/
lemma eventProperty?_of_hierarchy {levels : List Level}
    (chain_eq : c.hierarchy (.of type) = .ok levels) :
    eventProperty? c type =
      .ok (((eventField? levels).map (·.name)).or ((eventAccessor? levels).map (·.name))) := by
  unfold eventProperty? Catalog.fieldsOf Catalog.accessorsOf eventField?
  rw [if_pos (exists_hierarchy_iff.mp ⟨levels, chain_eq⟩), chain_eq]
  dsimp only [bind, Except.bind, pure, Except.pure]
  simp only [marksEvents_eq_decide]
  split
  · rename_i f field
    rw [field]
    rfl
  · rename_i no_field
    rw [no_field]
    rfl

/-- What is not declared holds no events. -/
lemma eventProperty?_of_undeclared (h : c.contains type ≠ true) :
    eventProperty? c type = .ok none := by
  unfold eventProperty?
  rw [if_neg h]
  rfl

/-- A search for the property never fails. -/
lemma exists_eventProperty? (c : Catalog) (type : String) :
    ∃ property, eventProperty? c type = .ok property := by
  by_cases declared : c.contains type = true
  · obtain ⟨levels, chain_eq⟩ := exists_hierarchy_iff.mpr declared
    exact ⟨_, eventProperty?_of_hierarchy chain_eq⟩
  · exact ⟨none, eventProperty?_of_undeclared declared⟩

/-- A search finds the property that holds the events. -/
lemma eventProperty?_eq_some_iff :
    eventProperty? c type = .ok (some name) ↔ HoldsEvents c type name := by
  constructor
  · intro found
    by_cases declared : c.contains type = true
    · obtain ⟨levels, chain_eq⟩ := exists_hierarchy_iff.mpr declared
      rw [eventProperty?_of_hierarchy chain_eq, Except.ok.injEq, Option.or_eq_some_iff] at found
      rcases found with named | ⟨no_field, named⟩
      · obtain ⟨f, field, rfl⟩ := Option.map_eq_some_iff.mp named
        exact .field chain_eq field
      · obtain ⟨a, accessor, rfl⟩ := Option.map_eq_some_iff.mp named
        exact .accessor chain_eq (Option.map_eq_none_iff.mp no_field) accessor
    · cases found.symm.trans (eventProperty?_of_undeclared declared)
  · intro holds
    cases holds with
    | field chain_eq field =>
      rw [eventProperty?_of_hierarchy chain_eq, field]
      rfl
    | accessor chain_eq no_field accessor =>
      rw [eventProperty?_of_hierarchy chain_eq, no_field, accessor]
      rfl

/-- A type has one property that holds its events at most. -/
lemma HoldsEvents.unique {name' : String} (h : HoldsEvents c type name)
    (h' : HoldsEvents c type name') : name = name' := by
  cases (eventProperty?_eq_some_iff.mpr h).symm.trans (eventProperty?_eq_some_iff.mpr h')
  rfl

/-! ### Events -/

/-- The events that are held by a value of a property. -/
inductive EventsIn : Value → List Value → Prop where
  | null : EventsIn .null []
  | list (items : List Value) : EventsIn (.list items) (items.filter fun e => !e.isNull)
  | set (items : List Value) : EventsIn (.set items) (items.filter fun e => !e.isNull)
  | single {v} :
    v ≠ .null → (∀ items, v ≠ .list items) → (∀ items, v ≠ .set items) → EventsIn v [v]

/-- A value holds one list of events. -/
lemma EventsIn.unique {v : Value} {events events' : List Value} (h : EventsIn v events)
    (h' : EventsIn v events') : events = events' := by
  cases h with
  | null =>
    cases h' with
    | null => rfl
    | single present => exact absurd rfl present
  | list items =>
    cases h' with
    | list => rfl
    | single _ no_list => exact absurd rfl (no_list items)
  | set items =>
    cases h' with
    | set => rfl
    | single _ _ no_set => exact absurd rfl (no_set items)
  | single present no_list no_set =>
    cases h' with
    | null => exact absurd rfl present
    | list items => exact absurd rfl (no_list items)
    | set items => exact absurd rfl (no_set items)
    | single => rfl

/-- The events that an aggregate announces: those of its property, if it is a bean that has one. -/
inductive Announces (c : Catalog) : Value → List Value → Prop where
  | held {aggregate b name events} :
    aggregate.bean? = some b → HoldsEvents c b.type name → EventsIn (b.get name) events →
    Announces c aggregate events
  | silent {aggregate} :
    (∀ b name, aggregate.bean? = some b → ¬ HoldsEvents c b.type name) → Announces c aggregate []

/-- An aggregate announces one list of events. -/
lemma Announces.unique {aggregate : Value} {events events' : List Value}
    (h : Announces c aggregate events) (h' : Announces c aggregate events') : events = events' := by
  cases h with
  | held bean holds held =>
    cases h' with
    | held bean' holds' held' =>
      cases bean.symm.trans bean'
      cases holds.unique holds'
      exact held.unique held'
    | silent none_held => exact absurd holds (none_held _ _ bean)
  | silent none_held =>
    cases h' with
    | held bean holds => exact absurd holds (none_held _ _ bean)
    | silent => rfl

/-- A property that is remembered is the one that would be found. -/
def Recalls (c : Catalog) (properties : EventProperties) : Prop :=
  ∀ p ∈ properties, eventProperty? c p.1 = .ok p.2

/-- A search succeeds if what is remembered is right, and what is remembered afterwards is right. -/
def Yields {α : Type} (c : Catalog) (search : EventSearch α) (post : α → Prop) : Prop :=
  ∀ properties, Recalls c properties → ∃ a properties',
    search.run.run properties = (.ok a, properties') ∧ post a ∧ Recalls c properties'

namespace Yields

variable {α β : Type} {post : α → Prop} {post' : β → Prop}

/-- A result that needs no search is yielded. -/
lemma pure {a : α} (h : post a) : Yields c (pure a) post :=
  fun properties recalls => ⟨a, properties, rfl, h, recalls⟩

/-- A search yields what it yields from every result of the search before it. -/
lemma bind {x : EventSearch α} {f : α → EventSearch β} (hx : Yields c x post)
    (hf : ∀ a, post a → Yields c (f a) post') : Yields c (x >>= f) post' := by
  intro properties recalls
  obtain ⟨a, properties₁, first, ha, recalls₁⟩ := hx properties recalls
  obtain ⟨b, properties₂, second, hb, recalls₂⟩ := hf a ha properties₁ recalls₁
  refine ⟨b, properties₂, ?_, hb, recalls₂⟩
  rw [ExceptT.run_bind, StateT.run_bind, first]
  exact second

/-- What is remembered is right when it is looked at. -/
lemma read {f : EventProperties → EventSearch α}
    (h : ∀ properties, Recalls c properties → Yields c (f properties) post) :
    Yields c (get >>= f) post :=
  fun properties recalls => h properties recalls properties recalls

/-- What was searched for may be remembered. -/
lemma remember {property : Option String} (h : eventProperty? c type = .ok property) :
    Yields c (modify fun properties => (type, property) :: properties) fun _ => True := by
  refine fun properties recalls => ⟨(), (type, property) :: properties, rfl, trivial, ?_⟩
  intro p hp
  rcases List.mem_cons.mp hp with rfl | old
  · exact h
  · exact recalls p old

/-- Searches for one after the other yield the results in order. -/
lemma mapM {f : α → EventSearch β} {related : α → β → Prop} (hf : ∀ a, Yields c (f a) (related a))
    (xs : List α) : Yields c (xs.mapM f) (List.Forall₂ related xs) := by
  induction xs with
  | nil => exact pure .nil
  | cons x xs ih =>
    rw [List.mapM_cons]
    exact (hf x).bind fun y hy => ih.bind fun ys hys => pure (.cons hy hys)

end Yields

/-- The property of a type is looked up in what is remembered, else searched for and remembered. -/
lemma yields_property? (c : Catalog) (type : String) :
    Yields c (property? c type) fun property => eventProperty? c type = .ok property := by
  refine .read fun properties recalls => ?_
  split
  · rename_i id property known
    have same := List.find?_some known
    rw [decide_eq_true_eq] at same
    have recalled := recalls _ (List.mem_of_find?_eq_some known)
    rw [same] at recalled
    exact .pure recalled
  · obtain ⟨property, searched⟩ := exists_eventProperty? c type
    have yields : Yields c (liftM (eventProperty? c type))
        fun property => eventProperty? c type = .ok property := by
      rw [searched]
      exact .pure rfl
    exact yields.bind fun _ found => (Yields.remember found).bind fun _ _ => .pure found

/-- The events of an aggregate are what it announces. -/
lemma yields_eventsOf (c : Catalog) (aggregate : Value) :
    Yields c (eventsOf c aggregate) (Announces c aggregate) := by
  unfold eventsOf
  cases bean : aggregate.bean? with
  | none =>
    refine .pure (.silent fun b name is_bean => ?_)
    cases bean.symm.trans is_bean
  | some b =>
    refine (yields_property? c b.type).bind fun property searched => ?_
    cases property with
    -- the search is complete, so no property holds events if it finds none
    | none =>
      refine .pure (.silent fun b' name is_bean holds => ?_)
      cases bean.symm.trans is_bean
      cases searched.symm.trans (eventProperty?_eq_some_iff.mpr holds)
    | some property =>
      have announces {events : List Value} (held : EventsIn (b.get property) events) :
          Yields c (pure events) (Announces c aggregate) :=
        .pure (.held bean (eventProperty?_eq_some_iff.mp searched) held)
      dsimp only
      generalize b.get property = v at announces
      -- only lists and sets are opened, and a null holds nothing
      cases v with
      | null => exact announces .null
      | list items => exact announces (.list items)
      | set items => exact announces (.set items)
      | integer | float | text | boolean | map | object =>
        exact announces (.single nofun nofun nofun)

/-- The aggregates of an argument: its elements if it is a list or set, else the argument. -/
inductive Aggregates : Value → List Value → Prop where
  | list (items : List Value) : Aggregates (.list items) items
  | set (items : List Value) : Aggregates (.set items) items
  | single {v} : (∀ items, v ≠ .list items) → (∀ items, v ≠ .set items) → Aggregates v [v]

/-- The aggregates that are looked for are those of the argument. -/
lemma aggregates_iff {argument : Value} {found : List Value} :
    Aggregates argument found ↔ aggregates argument = found := by
  constructor
  · intro h
    cases h with
    | list | set => rfl
    | single no_list no_set =>
      cases argument with
      | list items => exact absurd rfl (no_list items)
      | set items => exact absurd rfl (no_set items)
      | null | integer | float | text | boolean | map | object => rfl
  · rintro rfl
    cases argument with
    | list items => exact .list items
    | set items => exact .set items
    | null | integer | float | text | boolean | map | object => exact .single nofun nofun

/-- What is collected for an argument is what its aggregates announce, one after the other. -/
lemma yields_collect (c : Catalog) (argument : Value) :
    Yields c (collect c argument) fun events => ∃ announced,
      List.Forall₂ (Announces c) (aggregates argument) announced ∧ events = announced.flatten :=
  (Yields.mapM (yields_eventsOf c) _).bind fun announced h => .pure ⟨announced, h, rfl⟩

/-! ### Calls -/

/-- The methods whose calls publish events: they have one parameter, and their name begins with
`save` or is one of four that delete. -/
def Publishing (m : Method) : Prop :=
  m.parameterTypes.length = 1 ∧ ("save".toList <+: m.name.toList ∨
    m.name ∈ ["delete", "deleteAll", "deleteInBatch", "deleteAllInBatch"])

/-- A method is taken for one that publishes exactly if it is one. -/
lemma publishes_iff {m : Method} : publishes m = true ↔ Publishing m := by
  unfold publishes Publishing deleteMethods
  simp only [Bool.and_eq_true, beq_iff_eq, Bool.or_eq_true, List.isPrefixOf_iff_prefix,
    List.contains_iff_mem]

/-- What a call publishes if it is answered so: nothing if it fails or if its method does not
publish, else what the aggregates of its first argument announce, one after the other. An argument
that is missing counts as null. -/
inductive Publishes (c : Catalog) (m : Method) (arguments : List Value) :
    Except Error Value → List Value → Prop where
  | failed (e : Error) : Publishes c m arguments (.error e) []
  | other (v : Value) : ¬ Publishing m → Publishes c m arguments (.ok v) []
  | announced {found announced} (v : Value) :
    Publishing m → Aggregates (arguments.headD .null) found →
    List.Forall₂ (Announces c) found announced → Publishes c m arguments (.ok v) announced.flatten

/-- What a call publishes depends on the call and its answer alone. -/
lemma Publishes.unique {m : Method} {arguments : List Value} {answer : Except Error Value}
    {events events' : List Value} (h : Publishes c m arguments answer events)
    (h' : Publishes c m arguments answer events') : events = events' := by
  cases h with
  | failed =>
    cases h'
    rfl
  | other _ other =>
    cases h' with
    | other => rfl
    | announced _ publishing => exact absurd publishing other
  | announced _ publishing found all =>
    cases h' with
    | other _ other => exact absurd publishing other
    | announced _ _ found' all' =>
      have unique : Relator.RightUnique (Announces c) := fun _ _ _ h h' => h.unique h'
      rw [← aggregates_iff.mp found] at all
      rw [← aggregates_iff.mp found'] at all'
      rw [List.right_unique_forall₂' unique all all']

/-- A call is answered by the composition, and what is remembered stays right. -/
lemma invoke_transparent {p : EventPublisher} (recalls : Recalls p.catalog p.properties)
    (m : Method) (arguments : List Value) (log : CallLog) : ∃ events properties,
      p.invoke m arguments log =
        ((p.composition.invoke m arguments log).1, events,
          { p with composition := (p.composition.invoke m arguments log).2.1, properties },
          (p.composition.invoke m arguments log).2.2) ∧
      Publishes p.catalog m arguments (p.composition.invoke m arguments log).1 events ∧
      Recalls p.catalog properties := by
  unfold invoke
  generalize p.composition.invoke m arguments log = invoked
  obtain ⟨answer, composition, log'⟩ := invoked
  cases answer with
  | error e => exact ⟨[], p.properties, rfl, .failed e, recalls⟩
  | ok v =>
    dsimp only
    by_cases publishing : Publishing m
    -- the events are collected after the call, when its answer is known
    · obtain ⟨events, properties, collected, ⟨announced, all, rfl⟩, recalls'⟩ :=
        yields_collect p.catalog (arguments.headD .null) p.properties recalls
      rw [if_pos (publishes_iff.mpr publishing), collected]
      exact ⟨_, properties, rfl, .announced v publishing (aggregates_iff.mpr rfl) all, recalls'⟩
    · rw [if_neg (publishes_iff.not.mpr publishing)]
      exact ⟨[], p.properties, rfl, .other v publishing, recalls⟩

/-! ### Runs -/

/-- What happens to a repository: a method is called on it, or others use the composition. -/
inductive Use where
  | call (m : Method) (arguments : List Value)
  | elsewhere (use : Composition → CallLog → Composition × CallLog)

/-- The calls among what happens to a repository. -/
def calls : List Use → List (Method × List Value)
  | [] => []
  | .call m arguments :: uses => (m, arguments) :: calls uses
  | .elsewhere _ :: uses => calls uses

/-- The answers to calls with the events that they publish. -/
def run : List Use → EventPublisher → CallLog →
    List (Except Error Value × List Value) × EventPublisher × CallLog
  | [], p, log => ([], p, log)
  | .call m arguments :: uses, p, log =>
    let (answer, events, p, log) := p.invoke m arguments log
    let (rest, p, log) := run uses p log
    ((answer, events) :: rest, p, log)
  | .elsewhere use :: uses, p, log =>
    let (composition, log) := use p.composition log
    run uses { p with composition } log

/-- The answers of a composition to the same calls. -/
def runComposition : List Use → Composition → CallLog →
    List (Except Error Value) × Composition × CallLog
  | [], c, log => ([], c, log)
  | .call m arguments :: uses, c, log =>
    let (answer, c, log) := c.invoke m arguments log
    let (rest, c, log) := runComposition uses c log
    (answer :: rest, c, log)
  | .elsewhere use :: uses, c, log =>
    let (c, log) := use c log
    runComposition uses c log

/-- A publisher that remembers what is right gives the answers of the composition and publishes what
its calls publish. -/
lemma run_of_recalls {p : EventPublisher} (recalls : Recalls p.catalog p.properties)
    (uses : List Use) (log : CallLog) : ∃ outcomes properties composition log',
      run uses p log = (outcomes, { p with composition, properties }, log') ∧
      runComposition uses p.composition log = (outcomes.map (·.1), composition, log') ∧
      List.Forall₂ (fun call outcome => Publishes p.catalog call.1 call.2 outcome.1 outcome.2)
        (calls uses) outcomes := by
  induction uses generalizing p log with
  | nil => exact ⟨[], p.properties, p.composition, log, rfl, rfl, .nil⟩
  | cons use uses ih =>
    cases use with
    | call m arguments =>
      obtain ⟨events, properties, invoked, publishes, recalls'⟩ :=
        invoke_transparent recalls m arguments log
      unfold run runComposition
      rw [invoked]
      generalize p.composition.invoke m arguments log = called at publishes ⊢
      obtain ⟨answer, composition, log₁⟩ := called
      obtain ⟨outcomes, properties', composition', log', ran, ran', all⟩ :=
        ih (p := { p with composition, properties }) recalls' log₁
      dsimp only at ran ran' ⊢
      rw [ran, ran']
      exact ⟨(answer, events) :: outcomes, properties', composition', log', rfl, rfl,
        .cons publishes all⟩
    -- what is done elsewhere leaves the remembered properties alone
    | elsewhere use =>
      unfold run runComposition
      exact ih (p := { p with composition := (use p.composition log).1 }) recalls _

/-- Whatever was called before and however others use the composition meanwhile, a repository that
publishes events answers every call as the composition alone would. A call that succeeds publishes
the events of its aggregates if its method saves or deletes, and no other call publishes any. -/
theorem run_transparent (composition : Composition) (c : Catalog) (uses : List Use)
    (log : CallLog) : ∃ outcomes p log',
      run uses { composition, catalog := c } log = (outcomes, p, log') ∧
      runComposition uses composition log = (outcomes.map (·.1), p.composition, log') ∧
      List.Forall₂ (fun call outcome =>
          ∀ events, Publishes c call.1 call.2 outcome.1 events ↔ outcome.2 = events)
        (calls uses) outcomes := by
  obtain ⟨outcomes, properties, composition', log', ran, ran', all⟩ :=
    run_of_recalls (p := { composition, catalog := c }) nofun uses log
  refine ⟨outcomes, _, log', ran, ran', all.imp fun call outcome publishes events => ?_⟩
  constructor
  · exact publishes.unique
  · rintro rfl
    exact publishes

end EventPublisher

end EntityModel
