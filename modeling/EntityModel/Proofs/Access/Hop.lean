import EntityModel.Proofs.Context.Given

/-!
# Single steps of an access

When a property of a bean is read or written, the entity of the bean decides. Where that succeeds,
the context knows the entity afterwards and the entity gives access (`Context.Opens`); a context
that knows it answers without a change.
-/

namespace EntityModel

/-- A context knows the entity of a bean, which gives access to the bean. -/
structure Context.Opens (c : Context) (b : Bean) (e : Entity) : Prop where
  known : c.table.get? (.of b.type) = some (some e)
  direct : e.access = .direct

/-- Different beans are different values. -/
lemma Bean.toValue_injective : Function.Injective Bean.toValue := by
  intro b b' h
  exact Option.some.inj (congrArg Value.bean? h)

/-- An instance that could be opened can be opened later, too. -/
lemma Context.Opens.evolve {forced : Bool} {c c' : Context} {b : Bean} {e : Entity}
    (h : c.Opens b e) (evolves : c.Evolves forced c') : c'.Opens b e :=
  ⟨evolves.kept h.known, h.direct⟩

open ContextM

variable {c c' : Context} {target v new : Value} {p : EntityProperty} {b : Bean} {e : Entity}

/-! ### Properties -/

namespace Entity

/-- An instance is opened as it is, and only where access is direct. -/
lemma openInstance_ok {opened : Bean} :
    e.openInstance b.toValue = .ok opened ↔ e.access = .direct ∧ opened = b := by
  unfold openInstance
  cases e.access with
  | refused names => exact ⟨nofun, nofun⟩
  | direct =>
    refine ⟨fun h => ⟨rfl, ?_⟩, ?_⟩
    · cases h
      rfl
    · rintro ⟨-, rfl⟩
      rfl

/-- What is read is the field of a property that can be read. -/
lemma read_ok : read b p = .ok v ↔ p.IsRead ∧ v = b.get p.name := by
  unfold read EntityProperty.IsRead
  cases p.backing.isFieldBacked <;> cases p.backing.hasGetter <;> simp [eq_comm]

/-- What is written is the field of a property that can be written, and nothing else. -/
lemma write_ok {written : Bean} :
    e.write b p v = .ok written ↔ e.canWrite p = true ∧ written = b.set p.name v := by
  unfold write
  cases e.canWrite p <;> simp [eq_comm]

end Entity

namespace ContextM

/-- The entity of a value is that of the type of the bean. -/
lemma entityForValue_ok : (entityForValue target).runOn c = some (.ok e, c') ↔
    ∃ b : Bean, target = b.toValue ∧ (requiredEntity (.of b.type)).runOn c = some (.ok e, c') := by
  unfold entityForValue
  cases target with
  | object type fields =>
    refine ⟨fun h => ⟨⟨type, fields⟩, rfl, h⟩, ?_⟩
    rintro ⟨⟨_, _⟩, ⟨⟩, h⟩
    exact h
  | null | integer | float | text | boolean | list | set | map =>
    exact ⟨nofun, nofun⟩

/-- A property is read from a bean whose entity is there and gives access. -/
lemma readProperty_ok : (readProperty target p).runOn c = some (.ok v, c') ↔
    ∃ (b : Bean) (e : Entity), target = b.toValue ∧
      (requiredEntity (.of b.type)).runOn c = some (.ok e, c') ∧
      e.access = .direct ∧ p.IsRead ∧ v = b.get p.name := by
  unfold readProperty
  simp only [runOn_bind_ok, runOn_lift_ok, entityForValue_ok]
  constructor
  · rintro ⟨e, _, ⟨b, rfl, looked⟩, opened, _, ⟨h, rfl⟩, hr, rfl⟩
    obtain ⟨direct, rfl⟩ := Entity.openInstance_ok.mp h
    exact ⟨opened, e, rfl, looked, direct, Entity.read_ok.mp hr⟩
  · rintro ⟨b, e, rfl, looked, direct, hr⟩
    exact ⟨e, c', ⟨b, rfl, looked⟩, b, c', ⟨Entity.openInstance_ok.mpr ⟨direct, rfl⟩, rfl⟩,
      Entity.read_ok.mpr hr, rfl⟩

/-- A property is written to a bean whose entity is there and gives access. -/
lemma writeProperty_ok : (writeProperty target p v).runOn c = some (.ok new, c') ↔
    ∃ (b : Bean) (e : Entity), target = b.toValue ∧
      (requiredEntity (.of b.type)).runOn c = some (.ok e, c') ∧
      e.access = .direct ∧ e.canWrite p = true ∧ new = (b.set p.name v).toValue := by
  unfold writeProperty
  simp only [runOn_bind_ok, runOn_lift_ok, entityForValue_ok]
  constructor
  · rintro ⟨e, _, ⟨b, rfl, looked⟩, opened, _, ⟨h, rfl⟩, written, _, ⟨hw, rfl⟩, ⟨⟩⟩
    obtain ⟨direct, rfl⟩ := Entity.openInstance_ok.mp h
    obtain ⟨writable, rfl⟩ := Entity.write_ok.mp hw
    exact ⟨opened, e, rfl, looked, direct, writable, rfl⟩
  · rintro ⟨b, e, rfl, looked, direct, writable, rfl⟩
    exact ⟨e, c', ⟨b, rfl, looked⟩, b, c', ⟨Entity.openInstance_ok.mpr ⟨direct, rfl⟩, rfl⟩,
      b.set p.name v, c', ⟨Entity.write_ok.mpr ⟨writable, rfl⟩, rfl⟩, rfl⟩

end ContextM

namespace Context.Opens

/-- A bean is of the same entity after a write. -/
lemma set {name : String} (opens : c.Opens b e) : c.Opens (b.set name v) e :=
  ⟨opens.known, opens.direct⟩

/-- A bean whose entity was looked up can be opened if access is direct. -/
lemma of_requiredEntity (looked : (requiredEntity (.of b.type)).runOn c = some (.ok e, c'))
    (direct : e.access = .direct) : c'.Opens b e :=
  ⟨get?_of_requiredEntity looked, direct⟩

/-- A property of an opened bean that can be read is read without a change of the context. -/
lemma readProperty (opens : c.Opens b e) (isRead : p.IsRead) :
    (readProperty b.toValue p).runOn c = some (.ok (b.get p.name), c) :=
  readProperty_ok.mpr ⟨b, e, rfl, requiredEntity_of_get? opens.known, opens.direct, isRead, rfl⟩

/-- A property of an opened bean that can be written is written without a change of the context. -/
lemma writeProperty (opens : c.Opens b e) (writable : e.canWrite p = true) (v : Value) :
    (writeProperty b.toValue p v).runOn c = some (.ok (b.set p.name v).toValue, c) :=
  writeProperty_ok.mpr
    ⟨b, e, rfl, requiredEntity_of_get? opens.known, opens.direct, writable, rfl⟩

end Context.Opens

/-! ### Writes to beans -/

/-- At the end of a path the property itself is written. -/
lemma ContextM.writeOn_leaf_ok {root : Value} {path : EntityPath} {options : WriteOptions}
    {r : Option Value} : (writeOn root path options v [p] target).runOn c = some (.ok r, c') ↔
      ∃ new, (writeProperty target p v).runOn c = some (.ok new, c') ∧ r = some new := by
  rw [writeOn, runOn_map_ok]

/-- A path is written from its first property on; an empty one is not. -/
lemma ContextM.writePath_ok {path : EntityPath} {options : WriteOptions} :
    (writePath target path v options).runOn c = some (.ok new, c') ↔
      path.properties ≠ [] ∧ ∃ r,
        (writeOn target path options v path.properties target).runOn c = some (.ok r, c') ∧
          new = r.getD target := by
  unfold writePath EntityPath.isEmpty
  cases path.properties with
  | nil => exact ⟨nofun, fun h => absurd rfl h.1⟩
  | cons p ps =>
    rw [List.isEmpty_cons, if_neg Bool.false_ne_true, runOn_bind_ok]
    constructor
    · rintro ⟨r, _, run, ⟨⟩⟩
      exact ⟨List.cons_ne_nil _ _, r, run, rfl⟩
    · rintro ⟨-, r, run, rfl⟩
      exact ⟨r, c', run, rfl⟩

namespace PathAccessor

variable {a a' : PathAccessor} {path : EntityPath} {options : WriteOptions}

/-- A write that fails leaves the bean as it was. -/
lemma write_eq_error {err : Error} : a.write path v options = some (.error err, a') ↔
    (ContextM.writePath a.bean path v options).runOn a.context =
      some (.error err, a'.context) ∧ a'.bean = a.bean := by
  unfold write
  rw [Option.bind_eq_bind, Option.bind_eq_some_iff]
  constructor
  · rintro ⟨⟨written, context⟩, run, outcome⟩
    cases written with
    | ok bean => cases outcome
    | error err =>
      cases outcome
      exact ⟨run, rfl⟩
  · rintro ⟨run, same⟩
    refine ⟨_, run, ?_⟩
    rw [← same]
    rfl

/-- A write that fails leaves the bean alone. -/
lemma bean_of_error {err : Error} (h : a.write path v options = some (.error err, a')) :
    a'.bean = a.bean :=
  (write_eq_error.mp h).2

/-- A context evolves by a write, whatever comes of it. -/
lemma evolves_of_write {result : Except Error Unit}
    (h : a.write path v options = some (result, a')) : a.context.Evolves false a'.context := by
  obtain ⟨⟨written, context⟩, run, h⟩ := Option.bind_eq_some_iff.mp h
  have evolves : a.context.Evolves false context :=
    ContextM.Evolving.writePath _ _ _ _ _ _ _ run
  cases written with
  | error e | ok bean =>
    cases h
    exact evolves

/-- A write that succeeds leaves the new bean in the accessor. -/
lemma write_ok : a.write path v options = some (.ok (), a') ↔
    (ContextM.writePath a.bean path v options).runOn a.context =
      some (.ok a'.bean, a'.context) := by
  unfold write
  rw [Option.bind_eq_bind, Option.bind_eq_some_iff]
  constructor
  · rintro ⟨⟨written, context⟩, run, h⟩
    cases written with
    | error e => cases h
    | ok bean =>
      cases h
      exact run
  · intro run
    exact ⟨_, run, rfl⟩

end PathAccessor

/-! ### Folders -/

namespace Sample

def folder : TypeRef := .of "Folder"

def folderDecl : TypeDecl where
  name := "Folder"
  fields :=
    [{ name := "parent", type := folder },
     { name := "entries", type := .collection .list folder },
     { name := "title", type := .of "String" }]

/-- Folders in folders. -/
def filing : Mapping := { catalog := ⟨[folderDecl]⟩ }

def parentProperty : EntityProperty := property folderDecl ⟨"parent", folder, {}, []⟩

def entriesProperty : EntityProperty :=
  property folderDecl ⟨"entries", .collection .list folder, {}, []⟩

def titleProperty : EntityProperty := property folderDecl ⟨"title", .of "String", {}, []⟩

/-- Folders have the properties that they are declared with. -/
lemma outline_folder :
    filing.outline folder = .ok (folderDecl, folderDecl.fields.map (property folderDecl)) := by
  cbv

/-- The entity of a folder finds its two properties under their names. -/
lemma folder_built {n : Nat} {e : Entity} (h : filing.build n folder = .ok e) :
    e.access = .direct ∧ e.property? "parent" = some parentProperty ∧
      e.property? "title" = some titleProperty := by
  rw [Mapping.build_of_outline outline_folder] at h
  cases h
  exact ⟨rfl, rfl, rfl⟩

/-- A folder waits for itself only. -/
lemma folder_visited {d : Discovery} (absent : d.table.contains folder = false) :
    ∃ e d', filing.Visits folder d (.ok ()) d' ∧ d'.table.get? folder = some (some e) := by
  have waiting := Discovery.contains_start_self (d := d) (e := filing.blank d folder folderDecl)
  have pop : filing.Populates (filing.blank d folder folderDecl)
      (folderDecl.fields.map (property folderDecl))
      (d.start (filing.blank d folder folderDecl)) _ _ :=
    .leaf rfl rfl (.nested rfl rfl (.known waiting) (.leaf rfl rfl .nil))
  exact ⟨_, _, .completed absent outline_folder pop, Discovery.get?_complete_self⟩

/-- A context that knows folders resolves the path from one to the title of its parent. -/
lemma title_resolved {c : Context} {e : Entity} (known : c.table.get? folder = some (some e))
    (parent : e.property? "parent" = some parentProperty)
    (title : e.property? "title" = some titleProperty) :
    (resolve "parent.title" folder).runOn c =
      some (.ok ⟨[parentProperty, titleProperty]⟩, c) := by
  have first : propertyAt e {} "parent" = .ok parentProperty := by
    rw [propertyAt, parent]
  have last : propertyAt e ⟨[parentProperty]⟩ "title" = .ok titleProperty := by
    rw [propertyAt, title]
  have looked := requiredEntity_of_get? known
  have names : (Text.pieces '.' "parent.title".toList).map String.ofList =
      ["parent", "title"] := rfl
  unfold resolve
  rw [if_neg (by decide), names]
  -- the first name leads to the parent, which is a folder again
  refine runOn_bind_ok.mpr ⟨e, c, looked, ?_⟩
  unfold follow
  simp only [runOn_bind_ok, runOn_lift_ok]
  refine ⟨_, c, ⟨first, rfl⟩, folder, c, ⟨rfl, rfl⟩, e, c, looked, _, c, ⟨rfl, rfl⟩, ?_⟩
  unfold follow
  simp only [runOn_bind_ok, runOn_lift_ok]
  exact ⟨_, c, ⟨last, rfl⟩, rfl, rfl⟩

/-- After a folder was looked up, its context gives the path to the title of the parent. -/
lemma folder_known : ∃ c e, Context.after [.lookup (.entity folder)] (.ofMapping filing) = some c ∧
    c.table.get? folder = some (some e) ∧ e.access = .direct ∧
    EntityPath.IsGiven ⟨[parentProperty, titleProperty]⟩ := by
  have nothing : (Context.ofMapping filing).table.get? folder = none := EntityTable.get?_empty
  obtain ⟨e, d, vis, found⟩ := folder_visited (d := (Context.ofMapping filing).discovery)
    (EntityTable.contains_eq_false.mpr nothing)
  obtain ⟨c, before, table_eq, fresh⟩ := Context.exists_looked_up rfl vis found
  rw [← table_eq] at found
  obtain ⟨direct, parent, title⟩ :=
    folder_built ((Context.Sound.of_after before).built folder e found)
  have trimmed : Text.trim "parent.title" = "parent.title" := rfl
  have absent : c.path? folder (Text.trim "parent.title") = none := by
    rw [Context.path?, fresh]
    rfl
  have resolved := title_resolved found parent title
  rw [← trimmed] at resolved
  exact ⟨c, e, before, found, direct, .of_resolve before absent resolved⟩

end Sample

end EntityModel
