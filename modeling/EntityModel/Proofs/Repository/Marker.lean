import EntityModel.Proofs.Catalog.Walk
import EntityModel.Proofs.TypeRef.Substitution
import EntityModel.Repository.Interface

/-!
# Types of a repository

The types of a repository are looked for among its interfaces, the nearest ones first. The search
remembers the raw names whose interfaces it queued (`RepositoryInterface.Seeks`), so it ends also
where interfaces extend each other with ever larger arguments (`RepositoryInterface.seeks_iff`).

What is queued is an interface of a declaration that the repository extends, with the type
parameters replaced along one chain of interfaces (`Catalog.Extended`), so the types that are found
belong to that chain. A name that was met is passed over whatever its arguments are. No marker is
lost by that, since the interfaces of a declaration have the same names and as many arguments on
every chain.
-/

namespace EntityModel

/-! ### Substitution in named types -/

namespace TypeRef

variable {t : TypeRef}

/-- Substitution keeps the raw type of a named type. -/
lemma name_subst (named : t.isNamed = true) (b : Bindings) : (t.subst b).name = t.name := by
  cases t with
  | named n as => rfl
  | _ => cases named

end TypeRef

/-! ### Chains of interfaces -/

namespace Catalog

/-- A declared name leads to the names of its interfaces. -/
def Implements (c : Catalog) (a b : String) : Prop :=
  ∃ d, c.find? a = some d ∧ ∃ t ∈ d.interfaces, t.name = b

/-- A declaration at the end of a chain of interfaces, with what its type parameters stand for. -/
inductive Extended (c : Catalog) (start : String) : TypeDecl → TypeRef.Bindings → Prop where
  | self {d} :
    c.find? start = some d →
    Extended c start d []
  | up {d b t e} :
    Extended c start d b →
    t ∈ d.interfaces →
    c.find? t.name = some e →
    Extended c start e (e.bindings (t.subst b))

/-- Interfaces are named types. -/
def NamesInterfaces (c : Catalog) : Prop :=
  ∀ d ∈ c.declarations, ∀ t ∈ d.interfaces, t.isNamed = true

variable {c : Catalog} {start a b : String} {d : TypeDecl} {bindings : TypeRef.Bindings}

/-- A declared type implements exactly the interfaces that it lists. -/
lemma implements_iff (declared : c.find? a = some d) :
    c.Implements a b ↔ b ∈ d.interfaces.map TypeRef.name := by
  simp only [Implements, declared, Option.some.injEq, exists_eq_left', List.mem_map]

/-- What is not declared implements nothing. -/
lemma not_implements (absent : c.find? a = none) : ¬ c.Implements a b := by
  rintro ⟨d, declared, -⟩
  cases absent.symm.trans declared

/-- A declaration at the end of a chain is reached by its name. -/
lemma Extended.reaches (extended : c.Extended start d bindings) :
    c.find? d.name = some d ∧ Relation.ReflTransGen c.Implements start d.name := by
  induction extended with
  | self declared =>
    rw [name_of_find? declared]
    exact ⟨declared, .refl⟩
  | @up d bindings t e _ listed declared ih =>
    obtain ⟨found, route⟩ := ih
    rw [name_of_find? declared]
    exact ⟨declared, route.tail ⟨d, found, t, listed, rfl⟩⟩

end Catalog

namespace RepositoryInterface

/-- A search among queued interfaces finds the arguments of the marker or nothing. The interfaces of
a declaration come behind those that wait already. -/
inductive Seeks (c : Catalog) : List String → List TypeRef → Option (TypeRef × TypeRef) → Prop where
  | finished {met} :
    Seeks c met [] none
  | marked {met t rest types} :
    markerTypes? t = some types →
    Seeks c met (t :: rest) (some types)
  | repeated {met t rest found} :
    markerTypes? t = none →
    t.name ∈ met →
    Seeks c met rest found →
    Seeks c met (t :: rest) found
  | undeclared {met t rest found} :
    markerTypes? t = none →
    t.name ∉ met →
    c.find? t.name = none →
    Seeks c (t.name :: met) rest found →
    Seeks c met (t :: rest) found
  | declared {met t rest d found} :
    markerTypes? t = none →
    t.name ∉ met →
    c.find? t.name = some d →
    Seeks c (t.name :: met) (rest ++ d.interfaces.map (·.subst (d.bindings t))) found →
    Seeks c met (t :: rest) found

variable {c : Catalog} {name : String} {met : List String} {t : TypeRef} {queue rest : List TypeRef}
  {found : Option (TypeRef × TypeRef)} {types : TypeRef × TypeRef} {d e : TypeDecl}

/-! ### The search -/

/-- The search ends with a marker. -/
lemma typesFrom_of_marked {pool : List TypeDecl} (marked : markerTypes? t = some types) :
    typesFrom pool (t :: rest) = some types := by
  rw [typesFrom, marked]

/-- The search passes over an interface that is not declared, or was met before. -/
lemma typesFrom_of_none {pool : List TypeDecl} (unmarked : markerTypes? t = none)
    (absent : pool.find? (fun d => d.name == t.name) = none) :
    typesFrom pool (t :: rest) = typesFrom pool rest := by
  rw [typesFrom, unmarked]
  dsimp only
  split
  · rfl
  · rename_i declared
    cases absent.symm.trans declared

/-- The search goes on with the interfaces of a declaration, and meets it only once. -/
lemma typesFrom_of_some {pool : List TypeDecl} (unmarked : markerTypes? t = none)
    (declared : pool.find? (fun d => d.name == t.name) = some d) :
    typesFrom pool (t :: rest) = typesFrom (Catalog.without pool t.name)
      (rest ++ d.interfaces.map (·.subst (d.bindings t))) := by
  rw [typesFrom, unmarked]
  dsimp only
  split
  · rename_i absent
    cases absent.symm.trans declared
  · rename_i declared'
    cases declared.symm.trans declared'
    rfl

/-- The search that is made. -/
lemma seeks_typesFrom (c : Catalog) (met : List String) (queue : List TypeRef) :
    Seeks c met queue (typesFrom (c.unmet met) queue) := by
  generalize pool_eq : c.unmet met = pool
  -- the pool is what was not met, so a name that it lacks was met or is not declared
  induction pool, queue using typesFrom.induct generalizing met with
  | case1 pool =>
    rw [typesFrom]
    exact .finished
  | case2 pool t rest types marked =>
    rw [typesFrom_of_marked marked]
    exact .marked marked
  | case3 pool t rest unmarked absent ih =>
    subst pool_eq
    rw [typesFrom_of_none unmarked absent]
    by_cases fresh : t.name ∈ met
    · exact .repeated unmarked fresh (ih met rfl)
    · have undeclared : c.find? t.name = none := (Catalog.find?_unmet fresh).symm.trans absent
      exact .undeclared unmarked fresh undeclared
        (ih _ (Catalog.unmet_cons_of_undeclared undeclared))
  | case4 pool t rest unmarked d found ih =>
    subst pool_eq
    obtain ⟨fresh, declared⟩ := Catalog.of_find?_unmet found
    rw [typesFrom_of_some unmarked found]
    exact .declared unmarked fresh declared (ih _ Catalog.without_unmet.symm)

/-- There is no other search. -/
lemma Seeks.eq_typesFrom (search : Seeks c met queue found) :
    found = typesFrom (c.unmet met) queue := by
  induction search with
  | finished => rw [typesFrom]
  | marked marked => rw [typesFrom_of_marked marked]
  | repeated unmarked here _ ih =>
    rw [typesFrom_of_none unmarked (Catalog.find?_unmet_of_mem here), ih]
  | undeclared unmarked fresh absent _ ih =>
    rw [typesFrom_of_none unmarked ((Catalog.find?_unmet fresh).trans absent), ih,
      Catalog.unmet_cons_of_undeclared absent]
  | declared unmarked fresh declared _ ih =>
    rw [typesFrom_of_some unmarked ((Catalog.find?_unmet fresh).trans declared), ih,
      Catalog.without_unmet]

/-- From any interfaces there is one search, also where interfaces extend each other. -/
theorem seeks_iff : Seeks c [] queue found ↔ found = typesFrom c.declarations queue := by
  rw [← Catalog.unmet_nil]
  constructor
  · exact Seeks.eq_typesFrom
  · rintro rfl
    exact seeks_typesFrom c [] queue

/-! ### What is found -/

/-- A named type is a marker by its name, and has types if it has two arguments. -/
lemma markerTypes?_named (n : String) (arguments : List TypeRef) :
    markerTypes? (.named n arguments) =
      if n = marker then
        match arguments with
        | [x, y] => some (x, y)
        | _ => none
      else none :=
  rfl

/-- The types of a marker are its two arguments. -/
lemma markerTypes?_eq_some {x y : TypeRef} (named : t.isNamed = true) :
    markerTypes? t = some (x, y) ↔ t = .named marker [x, y] := by
  cases t with
  | named n as =>
    rcases as with _ | ⟨x', _ | ⟨y', _ | ⟨z', as⟩⟩⟩
    all_goals simp [markerTypes?_named]
  | _ => cases named

/-- Replacing type parameters keeps a marker and replaces them in its arguments. -/
lemma markerTypes?_subst (named : t.isNamed = true) (b : TypeRef.Bindings) :
    markerTypes? (t.subst b) =
      (markerTypes? t).map fun types => (types.1.subst b, types.2.subst b) := by
  cases t with
  | named n as =>
    rcases as with _ | ⟨x, _ | ⟨y, _ | ⟨z, as⟩⟩⟩
    all_goals
      simp only [TypeRef.subst, TypeRef.substAll, markerTypes?_named]
      split <;> rfl
  | _ => cases named

/-- An interface of a declaration that a name extends, with the type parameters replaced. -/
def IsExtended (c : Catalog) (name : String) (t : TypeRef) : Prop :=
  ∃ e b, c.Extended name e b ∧ ∃ s ∈ e.interfaces, t = s.subst b

/-- The interfaces of a declaration that is met are extended if the reference to it is. -/
lemma IsExtended.up (names : c.NamesInterfaces) (extended : IsExtended c name t)
    (declared : c.find? t.name = some d) :
    ∀ u ∈ d.interfaces.map (·.subst (d.bindings t)), IsExtended c name u := by
  obtain ⟨e, b, chain, s, listed, rfl⟩ := extended
  obtain ⟨found, -⟩ := chain.reaches
  rw [TypeRef.name_subst (names e (Catalog.mem_of_find? found) s listed)] at declared
  intro u hu
  obtain ⟨v, hv, rfl⟩ := List.mem_map.mp hu
  exact ⟨d, _, .up chain listed declared, v, hv, rfl⟩

/-- From extended interfaces a search finds the arguments of one that is extended. -/
lemma Seeks.isExtended (search : Seeks c met queue found) (names : c.NamesInterfaces)
    (extended : ∀ t ∈ queue, IsExtended c name t) (success : found = some types) :
    ∃ t, IsExtended c name t ∧ markerTypes? t = some types := by
  induction search with
  | finished => cases success
  | marked marked => exact ⟨_, extended _ List.mem_cons_self, success ▸ marked⟩
  | repeated _ _ _ ih | undeclared _ _ _ _ ih =>
    exact ih (List.forall_mem_cons.mp extended).2 success
  | declared _ _ declared _ ih =>
    obtain ⟨first, extended⟩ := List.forall_mem_cons.mp extended
    exact ih (List.forall_mem_append.mpr ⟨extended, first.up names declared⟩) success

/-! ### What is not found -/

/-- The names that wait after a declaration was met are those of its interfaces and the others. -/
lemma waiting_of_declared (names : c.NamesInterfaces) (declared : c.find? t.name = some d)
    (x : String) :
    x ∈ (rest ++ d.interfaces.map (·.subst (d.bindings t))).map TypeRef.name ↔
      c.Implements t.name x ∨ x ∈ rest.map TypeRef.name := by
  have named := names d (Catalog.mem_of_find? declared)
  have same : (d.interfaces.map (·.subst (d.bindings t))).map TypeRef.name =
      d.interfaces.map TypeRef.name := by
    rw [List.map_map]
    exact List.map_congr_left fun s hs => TypeRef.name_subst (named s hs) _
  rw [List.map_append, same, List.mem_append, Catalog.implements_iff declared, or_comm]

/-- A search that finds nothing comes to no marker among what is queued. -/
lemma Seeks.unmarked (search : Seeks c met queue found) (failure : found = none) :
    ∀ t ∈ queue, markerTypes? t = none := by
  induction search with
  | finished => nofun
  | marked => cases failure
  | repeated unmarked _ _ ih | undeclared unmarked _ _ _ ih =>
    exact List.forall_mem_cons.mpr ⟨unmarked, ih failure⟩
  | declared unmarked _ _ _ ih =>
    exact List.forall_mem_cons.mpr ⟨unmarked, (List.forall_mem_append.mp (ih failure)).1⟩

/-- A search that finds nothing comes to no marker among the interfaces of what is reached past the
names that were met. -/
lemma Seeks.unmarked_of_reached (search : Seeks c met queue found) (names : c.NamesInterfaces)
    (failure : found = none) (declared : c.find? name = some e) (fresh : name ∉ met)
    (route : Catalog.ReachedPast c.Implements met (queue.map TypeRef.name) name) :
    ∀ t ∈ e.interfaces, markerTypes? t = none := by
  induction search with
  | finished => exact absurd route Catalog.reachedPast_nil
  | marked => cases failure
  | repeated _ here _ ih =>
    rw [List.map_cons, Catalog.reachedPast_cons_of_met here] at route
    rcases route with rfl | route
    · exact absurd here fresh
    · exact ih failure fresh route
  | @undeclared met t rest found _ unmet absent _ ih =>
    have next : ∀ x, x ∈ rest.map TypeRef.name ↔
        c.Implements t.name x ∨ x ∈ rest.map TypeRef.name :=
      fun x => (or_iff_right (Catalog.not_implements absent)).symm
    rw [List.map_cons, Catalog.reachedPast_cons_of_fresh unmet next] at route
    have other : name ≠ t.name := by
      rintro rfl
      cases absent.symm.trans declared
    exact ih failure (List.not_mem_cons_of_ne_of_not_mem other fresh) (route.resolve_left other)
  | @declared met t rest d found _ unmet declared' search ih =>
    rw [List.map_cons,
      Catalog.reachedPast_cons_of_fresh unmet (waiting_of_declared names declared')] at route
    by_cases same : name = t.name
    · -- the interfaces were queued with other arguments, which does not make them markers
      subst same
      cases declared.symm.trans declared'
      intro s hs
      have queued := search.unmarked failure _
        (List.mem_append_right _ (List.mem_map_of_mem hs))
      rwa [markerTypes?_subst (names e (Catalog.mem_of_find? declared) s hs),
        Option.map_eq_none_iff] at queued
    · exact ih failure (List.not_mem_cons_of_ne_of_not_mem same fresh)
        (route.resolve_left same)

/-! ### The types of a declared interface -/

/-- A declared name is found where it is required. -/
lemma required_of_declared (declared : c.find? name = some d) : c.required (.of name) = .ok d := by
  have found : c.find? (TypeRef.of name).name = some d := declared
  rw [Catalog.required, found]

/-- A repository is made from the types that the search finds. -/
lemma ofName_of_found {domainType idType : TypeRef} (declared : c.find? name = some d)
    (success : typesFrom c.declarations d.interfaces = some (domainType, idType)) :
    ofName c name = .ok ⟨d, domainType, idType, c⟩ := by
  rw [ofName, required_of_declared declared]
  dsimp only [bind, Except.bind]
  rw [success]
  dsimp only
  rw [make, required_of_declared declared]
  rfl

/-- A repository is refused if the search finds no types. -/
lemma ofName_of_not_found (declared : c.find? name = some d)
    (failure : typesFrom c.declarations d.interfaces = none) :
    ofName c name = .error (.noRepositoryTypes name marker) := by
  rw [ofName, required_of_declared declared]
  dsimp only [bind, Except.bind]
  rw [failure]
  rfl

/-- The types that are found are those of a marker on a chain of interfaces. -/
lemma exists_extended {x' y' : TypeRef} (names : c.NamesInterfaces)
    (declared : c.find? name = some d)
    (success : typesFrom c.declarations d.interfaces = some (x', y')) :
    ∃ e b x y, c.Extended name e b ∧ .named marker [x, y] ∈ e.interfaces ∧
      x' = x.subst b ∧ y' = y.subst b := by
  have own : ∀ t ∈ d.interfaces, IsExtended c name t := fun t ht =>
    ⟨d, [], .self declared, t, ht, t.subst_nil.symm⟩
  obtain ⟨_, ⟨e, b, chain, s, listed, rfl⟩, marked⟩ :=
    (seeks_iff.mpr rfl).isExtended names own success
  have named := names e (Catalog.mem_of_find? chain.reaches.1) s listed
  rw [markerTypes?_subst named, Option.map_eq_some_iff] at marked
  obtain ⟨⟨x, y⟩, marked, same⟩ := marked
  obtain ⟨rfl, rfl⟩ := Prod.mk.inj same
  exact ⟨e, b, x, y, chain, (markerTypes?_eq_some named).mp marked ▸ listed, rfl, rfl⟩

/-- If no types are found, no declaration that the interface reaches extends the marker. -/
lemma unmarked_of_reaches (names : c.NamesInterfaces) (declared : c.find? name = some d)
    (failure : typesFrom c.declarations d.interfaces = none) (found : c.find? e.name = some e)
    (route : Relation.ReflTransGen c.Implements name e.name) :
    ∀ t ∈ e.interfaces, markerTypes? t = none := by
  have search : Seeks c [] d.interfaces none := seeks_iff.mpr failure.symm
  rcases route.cases_head with same | ⟨x, step, further⟩
  · cases declared.symm.trans (same ▸ found)
    exact search.unmarked rfl
  · refine search.unmarked_of_reached names rfl found List.not_mem_nil ⟨x, ?_, ?_⟩
    · exact (Catalog.implements_iff declared).mp step
    · rwa [Catalog.past_nil]

/-- The types of a repository are found if it or a declaration that it reaches through interfaces
extends the marker with two arguments. They are the arguments of such a marker, with the type
parameters replaced along a chain of interfaces from the repository to it. -/
theorem ofName_marked (names : c.NamesInterfaces) (declared : c.find? name = some d) :
    (∃ found, (∀ other, Seeks c [] d.interfaces other ↔ other = found) ∧
        (∀ x y, found = some (x, y) ↔ ofName c name = .ok ⟨d, x, y, c⟩) ∧
        (found = none ↔ ofName c name = .error (.noRepositoryTypes name marker))) ∧
      ((∃ r, ofName c name = .ok r) ↔
        ∃ e, c.find? e.name = some e ∧ Relation.ReflTransGen c.Implements name e.name ∧
          ∃ x y, .named marker [x, y] ∈ e.interfaces) ∧
      ∀ r, ofName c name = .ok r →
        ∃ e b x y, c.Extended name e b ∧ .named marker [x, y] ∈ e.interfaces ∧
          r = ⟨d, x.subst b, y.subst b, c⟩ := by
  cases found : typesFrom c.declarations d.interfaces with
  | none =>
    have answer := ofName_of_not_found declared found
    -- without types there is no repository, so no chain can have led to a marker
    have no_success : ∀ r, ofName c name ≠ .ok r := by
      intro r success
      cases answer.symm.trans success
    refine ⟨⟨none, fun _ => found ▸ seeks_iff, fun x y => ?_, iff_of_true rfl answer⟩, ?_, ?_⟩
    · exact iff_of_false nofun (no_success _)
    · refine iff_of_false (fun ⟨r, success⟩ => no_success r success) ?_
      rintro ⟨e, declared', route, x, y, listed⟩
      have unmarked := unmarked_of_reaches names declared found declared' route _ listed
      cases unmarked.symm.trans ((markerTypes?_eq_some rfl).mpr rfl)
    · exact fun r success => absurd success (no_success r)
  | some types =>
    obtain ⟨x', y'⟩ := types
    have answer := ofName_of_found declared found
    -- the types that were found belong to a marker at the end of a chain
    obtain ⟨e, b, x, y, chain, listed, rfl, rfl⟩ := exists_extended names declared found
    refine ⟨⟨_, fun _ => found ▸ seeks_iff, fun x' y' => ?_, ?_⟩, ?_, ?_⟩
    · simp [answer]
    · simp [answer]
    · exact ⟨fun _ => ⟨e, chain.reaches.1, chain.reaches.2, x, y, listed⟩, fun _ => ⟨_, answer⟩⟩
    · intro r success
      cases answer.symm.trans success
      exact ⟨e, b, x, y, chain, listed, rfl⟩

end RepositoryInterface

/-! ### Shelves in racks -/

namespace Sample

def bookShelf : TypeDecl where
  name := "BookShelf"
  kind := .interface
  interfaces := [.named "Shelf" [.of "Book", .of "Number"]]

/-- A shelf is a rack of lists and a rack is a shelf, so their arguments grow without bound. -/
def shelves : Catalog where
  declarations := [
    bookShelf,
    { name := "Shelf"
      kind := .interface
      typeParameters := ["T", "ID"]
      interfaces := [.named "Rack" [.collection .list (.variable "T"), .variable "ID"]] },
    { name := "Rack"
      kind := .interface
      typeParameters := ["T", "ID"]
      interfaces := [
        .named "Shelf" [.variable "T", .variable "ID"],
        .named "Repository" [.variable "T", .variable "ID"]] }]

end Sample

namespace RepositoryInterface

/-- A shelf of books is a repository of lists of books. -/
theorem ofName_marked_shelves :
    ∃ e b x y, Sample.shelves.Extended "BookShelf" e b ∧ .named marker [x, y] ∈ e.interfaces ∧
      x.subst b = .collection .list (.of "Book") ∧ y.subst b = .of "Number" := by
  have names : Sample.shelves.NamesInterfaces := by
    unfold Catalog.NamesInterfaces
    decide
  have search : Seeks Sample.shelves [] Sample.bookShelf.interfaces
      (some (.collection .list (.of "Book"), .of "Number")) :=
    .declared rfl (by decide) rfl (.declared rfl (by decide) rfl
      (.repeated rfl (by decide) (.marked rfl)))
  have declared : Sample.shelves.find? "BookShelf" = some Sample.bookShelf := rfl
  obtain ⟨⟨found, unique, success, -⟩, -, chains⟩ := ofName_marked names declared
  have answer := (success _ _).mp ((unique _).mp search).symm
  obtain ⟨e, b, x, y, chain, listed, same⟩ := chains _ answer
  injection same with _ domain_eq id_eq _
  exact ⟨e, b, x, y, chain, listed, domain_eq.symm, id_eq.symm⟩

end RepositoryInterface

end EntityModel
