import EntityModel.Proofs.Catalog.PropertyTypes
import EntityModel.Proofs.Search.Enumeration

/-!
# Searches and optionals

A search that has all of its lookups answered fails exactly if some route cannot be appended
property by property (`Context.Searches.ok_iff`). Lookups unwrap the type behind a property once
more, but the owner of the next property has to have the name of that type itself. The two differ
for optionals: behind a list of optional notes there are the properties of notes, none of which can
be appended (`Context.findPaths_ok_iff`).
-/

namespace EntityModel

open ContextM

namespace EntityProperty

/-- The values behind a property are optionals, of a type that does not have their name itself. -/
def EndsInOptional (p : EntityProperty) : Prop :=
  ∃ inner, p.actual = .optional inner ∧ inner.name ≠ "Optional"

/-- Behind an entity property the name stays when the type is unwrapped again, unless it is an
optional. -/
lemma name_actual_iff {p : EntityProperty} {simple : SimpleTypes} (entity : p.isEntity = true)
    (behind : p.entityType = entityTypeOf simple p.type) :
    p.actual.name = p.actual.actual.name ↔ ¬p.EndsInOptional := by
  have some_type : (entityTypeOf simple p.type).isSome = true :=
    behind ▸ (Bool.and_eq_true_iff.mp entity).2
  unfold entityTypeOf EndsInOptional at *
  unfold actual
  cases h : p.type.actual with
  | named name arguments => simp [TypeRef.actual]
  | optional inner => simp [TypeRef.actual, TypeRef.name, eq_comm]
  | collection | array | map | «variable» =>
    rw [h] at some_type
    simp [TypeRef.isCollectionLike, TypeRef.isMap, TypeRef.isVariable] at some_type

end EntityProperty

namespace Context

variable {m : Mapping} {accepts : EntityProperty → Bool} {c c' : Context} {t u : TypeRef}
  {e : Entity} {base path : EntityPath} {p q : EntityProperty} {ps qs : List EntityProperty}
  {offers : Entity → List EntityProperty}

/-! ### Routes that can be appended -/

/-- Every chain of properties on a way that gets behind no type twice can be appended to a base. -/
def Extends (base : EntityPath) (way : List EntityProperty → Prop) : Prop :=
  ∀ qs, base.Admits qs → way qs → ∃ path, qs.foldlM EntityPath.append base = .ok path

/-- Ways that agree where they get behind no type twice can be appended alike. -/
lemma extends_congr {way way' : List EntityProperty → Prop}
    (same : ∀ qs, base.Admits qs → (way qs ↔ way' qs)) : Extends base way ↔ Extends base way' :=
  forall_congr' fun qs => forall_congr' fun admits => by rw [same qs admits]

/-- The ways behind an entity property are the routes from its type. -/
lemma extends_behind_iff (entity : p.isEntity = true) :
    Extends base (c.RouteBehind offers p) ↔ Extends base (c.RouteFrom offers p.actual) :=
  extends_congr fun _ _ => and_iff_right entity

/-- Where there is no way there is nothing to append. -/
lemma extends_of_none {way : List EntityProperty → Prop} (none : ∀ qs, ¬way qs) :
    Extends base way :=
  fun qs _ hway => absurd hway (none qs)

/-- The properties behind the first one are appended to what that gives. -/
lemma fold_append_cons (appended : base.append p = .ok path) :
    (p :: qs).foldlM EntityPath.append base = qs.foldlM EntityPath.append path := by
  rw [List.foldlM_cons, appended]
  rfl

/-- A single property is appended as it would be alone. -/
lemma fold_append_singleton : [p].foldlM EntityPath.append base = .ok path ↔
    base.append p = .ok path := by
  rw [List.foldlM_cons]
  cases base.append p <;> rfl

/-- What can be appended through a property is what can be appended behind it. -/
lemma extends_cons_iff (fresh : base.passes p.actual = false)
    (appended : base.append p = .ok path) :
    Extends base (c.Route offers (p :: ps)) ↔
      Extends path (c.RouteBehind offers p) ∧ Extends base (c.Route offers ps) := by
  constructor
  · intro all
    constructor
    · intro qs admits behind
      rw [← fold_append_cons appended]
      apply all
      · exact (EntityPath.admits_cons appended).mpr ⟨fresh, admits⟩
      · exact route_of_cons_iff.mpr (.inr (.inl ⟨qs, rfl, behind⟩))
    · intro qs admits route
      exact all qs admits (route_of_cons_iff.mpr (.inr (.inr route)))
  · rintro ⟨further, others⟩ qs admits route
    rcases route_of_cons_iff.mp route with rfl | ⟨rest, rfl, behind⟩ | route
    · exact ⟨path, fold_append_cons appended⟩
    · rw [fold_append_cons appended]
      exact further rest ((EntityPath.admits_cons appended).mp admits).2 behind
    · exact others qs admits route

/-- No route can be appended if the first property cannot. -/
lemma not_extends_of_refused {err : Error} (fresh : base.passes p.actual = false)
    (refused : base.append p = .error err) : ¬Extends base (c.Route offers (p :: ps)) := by
  intro all
  have admits : base.Admits [p] := ⟨by simpa using fresh, List.nodup_singleton _⟩
  obtain ⟨path, appended⟩ := all [p] admits (.last List.mem_cons_self)
  rw [List.foldlM_cons, refused] at appended
  cases appended

/-! ### Searches that succeed -/

/-- Every lookup was answered, by an entity or by none. -/
def AllAnswered (lookups : LookupRecord) : Prop :=
  ∀ l ∈ lookups, ∃ answer, l.2 = .ok answer

/-- What is done with the paths does not decide whether there are some. -/
lemma isOk_map_iff {f : List EntityPath → List EntityPath} {r : Except Error (List EntityPath)} :
    (∃ paths, r.map f = .ok paths) ↔ ∃ paths, r = .ok paths := by
  cases r <;> simp [Except.map]

/-- A search that has its lookups answered succeeds exactly if all routes can be appended. -/
theorem Searches.ok_iff {lookups r} (h : Searches accepts c t base lookups r c') :
    ∀ c'', c'.Evolves false c'' → AllAnswered lookups →
      ((∃ paths, r = .ok paths) ↔ Extends base (c''.RouteFrom candidates t)) := by
  -- routes are those of the context in the end, where everything that was looked up is known
  induction h using Searches.rec (motive_2 := fun _ ps base lookups r c' _ =>
    ∀ c'', c'.Evolves false c'' → AllAnswered lookups →
      ((∃ paths, r = .ok paths) ↔ Extends base (c''.Route candidates ps))) with
  | failed =>
    intro c'' _ answered
    obtain ⟨answer, h⟩ := answered _ List.mem_cons_self
    cases h
  | nowhere looked =>
    intro c'' evolves _
    have absent := evolves.kept ((ensures_entity? _ _ looked).2 _ rfl)
    -- a type without an entity has no routes, now or later
    refine iff_of_true ⟨_, rfl⟩ (extends_of_none fun qs ⟨e, found, _⟩ => ?_)
    cases absent.symm.trans found
  | through looked tries ih =>
    intro c'' evolves answered
    have later : Evolves false _ c'' := tries.evolves.trans evolves
    have found := later.kept ((ensures_entity? _ _ looked).2 _ rfl)
    rw [ih c'' evolves fun l hl => answered l (List.mem_cons_of_mem _ hl)]
    exact extends_congr fun qs _ => (routeFrom_iff found).symm
  | nil =>
    exact iff_of_true ⟨_, rfl⟩ (extends_of_none fun qs => not_route_nil)
  | passed passed _ ih c'' evolves answered =>
    rw [ih c'' evolves answered]
    exact extends_congr fun qs admits => (route_of_passed passed admits).symm
  | refused fresh refused =>
    exact iff_of_false nofun (not_extends_of_refused fresh refused)
  | leaf fresh appended leaf tries ih c'' evolves answered =>
    -- a property that is no entity leads to no routes, so only its own path has to be appended
    rw [isOk_map_iff, ih c'' evolves answered, extends_cons_iff fresh appended]
    refine (and_iff_right (extends_of_none fun qs ⟨entity, _⟩ => ?_)).symm
    exact Bool.false_ne_true (leaf.symm.trans entity)
  | further fresh appended entity searches tries ihs iht c'' evolves answered =>
    have behind := ihs c'' (tries.evolves.trans evolves) fun l hl =>
      answered l (List.mem_append_left _ hl)
    rw [isOk_map_iff, iht c'' evolves fun l hl => answered l (List.mem_append_right _ hl),
      extends_cons_iff fresh appended, extends_behind_iff entity, ← behind]
    exact (and_iff_right ⟨_, rfl⟩).symm
  | broken fresh appended entity _ ih c'' evolves answered =>
    rw [extends_cons_iff fresh appended, extends_behind_iff entity, ← ih c'' evolves answered]
    exact iff_of_false nofun fun ⟨⟨_, h⟩, _⟩ => nomatch h

/-! ### Optionals on the way -/

namespace Sound

variable (sound : c.Sound m)

include sound

/-- A property that an entity offers belongs to it, and leads where the mapping says. -/
lemma candidate (found : c.table.get? u = some (some e)) (hp : p ∈ candidates e) :
    p.owner = u ∧ p.entityType = EntityProperty.entityTypeOf m.simpleTypes p.type := by
  have built := sound.built u e found
  have listed := Mapping.build_isListed built
  obtain ⟨decl, ps, outlined, hps⟩ :=
    Mapping.mem_outline_of_build built (Entity.mem_properties_of_candidates listed hp)
  exact ⟨Mapping.owner_of_outline outlined hps, (Mapping.of_mem_outline outlined hps).2⟩

/-- The properties on a route can be appended one after the other if the first one can and no other
one comes behind an optional. -/
lemma fold_append_ok_iff (route : c.Route candidates ps qs)
    (behind : ∀ p ∈ ps, p.entityType = EntityProperty.entityTypeOf m.simpleTypes p.type)
    (base : EntityPath) :
    (∃ path, qs.foldlM EntityPath.append base = .ok path) ↔
      (∀ q ∈ qs.head?, ∃ path, base.append q = .ok path) ∧
        ∀ p ∈ qs.dropLast, ¬p.EndsInOptional := by
  induction route generalizing base with
  | last =>
    simp only [List.head?_cons, Option.mem_some, forall_eq', List.dropLast_singleton,
      List.not_mem_nil, false_imp_iff, implies_true, and_true]
    exact ⟨fun ⟨path, h⟩ => ⟨path, fold_append_singleton.mp h⟩,
      fun ⟨path, h⟩ => ⟨path, fold_append_singleton.mpr h⟩⟩
  | @step ps p e qs hp entity found route ih =>
    obtain ⟨q, qs, rfl⟩ := List.exists_cons_of_ne_nil route.ne_nil
    have offered : q ∈ candidates e := (route_cons_iff.mp route).1
    have owner_eq : q.owner = p.actual.actual := (sound.candidate found offered).1
    -- whether the next property can be appended is a matter of this one only
    have linked {path : EntityPath} (appended : base.append p = .ok path) :
        (∃ path', (q :: qs).foldlM EntityPath.append path = .ok path') ↔
          ¬p.EndsInOptional ∧ ∀ p' ∈ (q :: qs).dropLast, ¬p'.EndsInOptional := by
      rw [ih fun q hq => (sound.candidate found hq).2]
      refine and_congr_left fun _ => ?_
      rw [← EntityProperty.name_actual_iff entity (behind p hp), ← owner_eq]
      simp [EntityPath.append_ok_iff, EntityPath.leaf?_append appended, EntityProperty.Precedes]
    rw [List.dropLast_cons_cons, List.forall_mem_cons]
    cases appended : base.append p with
    | error err =>
      rw [List.foldlM_cons, appended]
      refine iff_of_false (fun ⟨_, h⟩ => nomatch h) fun ⟨first, _⟩ => ?_
      obtain ⟨path, h⟩ := first p rfl
      cases appended.symm.trans h
    | ok path =>
      rw [fold_append_cons appended, linked appended]
      simp [appended]

/-- All routes from a type can be appended exactly if none of them goes on behind an optional. -/
lemma extends_routeFrom_iff : Extends {} (c.RouteFrom candidates t) ↔
    ∀ qs, c.RouteFrom candidates t qs → (qs.map (·.actual)).Nodup →
      ∀ p ∈ qs.dropLast, ¬p.EndsInOptional := by
  refine forall_congr' fun qs => ?_
  rw [EntityPath.admits_empty, forall_comm]
  refine forall_congr' fun route => forall_congr' fun _ => ?_
  obtain ⟨e, found, route⟩ := route
  rw [sound.fold_append_ok_iff route fun p hp => (sound.candidate found hp).2]
  refine and_iff_right fun q _ => ?_
  exact ⟨_, rfl⟩

end Sound

/-- The lookups that a search from a type makes. -/
def Performs (accepts : EntityProperty → Bool) (c : Context) (t : TypeRef)
    (lookups : LookupRecord) : Prop :=
  ∃ r c', Searches accepts c t {} lookups r c'

/-- A search from a type that gets to finitely many types has an outcome. If all of its lookups are
answered, it succeeds exactly if no property on its way whose values are optionals leads to further
properties. -/
theorem findPaths_ok_iff {ops : List Operation} (before : after ops (ofMapping m) = some c)
    (accepts : EntityProperty → Bool) (finite : {u | c.Reaches t u}.Finite) :
    (∃ lookups, Performs accepts c t lookups) ∧
      ∀ lookups, Performs accepts c t lookups → AllAnswered lookups →
        ∃ r c', (findPaths accepts t).runOn c = some (r, c') ∧
          ((∃ paths, r = .ok paths) ↔
            ∀ qs, c'.RouteFrom candidates t qs → (qs.map (·.actual)).Nodup →
              ∀ p ∈ qs.dropLast, ¬p.EndsInOptional) := by
  have sound := Sound.of_after before
  obtain ⟨lookups, r, c', searches⟩ := exists_searches sound finite accepts {}
  refine ⟨⟨lookups, r, c', searches⟩, ?_⟩
  rintro lookups ⟨r, c', searches⟩ answered
  have evolves : c.Evolves false c' := searches.evolves
  refine ⟨_, c', by rw [runOn_findPaths, searches.run]; rfl, ?_⟩
  rw [isOk_map_iff, searches.ok_iff c' .refl answered]
  exact (sound.evolve evolves).extends_routeFrom_iff

end Context

/-! ### Orders with optional notes -/

namespace Sample

def order : TypeRef := .of "Order"

def note : TypeRef := .of "Note"

def orderDecl : TypeDecl where
  name := "Order"
  fields := [{ name := "note", type := .collection .list (.optional note) }]

def noteDecl : TypeDecl where
  name := "Note"
  fields := [{ name := "text", type := .of "String" }]

/-- Orders have notes some of which may be missing. -/
def ordering : Mapping := { catalog := ⟨[orderDecl, noteDecl]⟩ }

def noteProperty : EntityProperty :=
  property orderDecl ⟨"note", .collection .list (.optional note), {}, []⟩

def textProperty : EntityProperty := property noteDecl ⟨"text", .of "String", {}, []⟩

/-- An order has its notes. -/
lemma outline_order : ordering.outline order = .ok (orderDecl, [noteProperty]) := by
  cbv

/-- A note has its text. -/
lemma outline_note : ordering.outline note = .ok (noteDecl, [textProperty]) := by
  cbv

/-- An order offers its notes. -/
lemma candidates_of_order {n : Nat} {e : Entity} (h : ordering.build n order = .ok e) :
    candidates e = [noteProperty] := by
  rw [Mapping.build_of_outline outline_order] at h
  cases h
  rfl

/-- A note offers its text. -/
lemma candidates_of_note {n : Nat} {e : Entity} (h : ordering.build n note = .ok e) :
    candidates e = [textProperty] := by
  rw [Mapping.build_of_outline outline_note] at h
  cases h
  rfl

/-- Orders and notes are known after they were looked up. -/
lemma ordering_known : ∃ c e₁ e₂,
    Context.after [.lookup (.entity order), .lookup (.entity note)] (.ofMapping ordering) = some c ∧
      c.table.get? order = some (some e₁) ∧ c.table.get? note = some (some e₂) := by
  have nothing (t : TypeRef) : (Context.ofMapping ordering).table.get? t = none :=
    EntityTable.get?_empty
  -- neither type is discovered with the other, so each of them is looked up
  have apart : note ≠ order := by decide
  obtain ⟨d₁, vis₁, order_known, others₁⟩ := Mapping.exists_visits_alone
    (d := (Context.ofMapping ordering).discovery)
    (EntityTable.contains_eq_false.mpr (nothing order)) outline_order rfl
    (List.forall_mem_singleton.mpr rfl)
  have first : EntityLookup.Yields (.ofMapping ordering) (.entity order) _ _ :=
    .made (nothing order) rfl vis₁ order_known
  have note_absent : ((Context.ofMapping ordering).afterDiscovery d₁).table.get? note = none :=
    (others₁ note apart).trans (nothing note)
  obtain ⟨d₂, vis₂, note_known, others₂⟩ := Mapping.exists_visits_alone
    (d := ((Context.ofMapping ordering).afterDiscovery d₁).discovery)
    (EntityTable.contains_eq_false.mpr note_absent) outline_note rfl
    (List.forall_mem_singleton.mpr rfl)
  have second : EntityLookup.Yields ((Context.ofMapping ordering).afterDiscovery d₁)
      (.entity note) _ _ := .made note_absent rfl vis₂ note_known
  refine ⟨((Context.ofMapping ordering).afterDiscovery d₁).afterDiscovery d₂, _, _, ?_,
    (others₂ order apart.symm).trans order_known, note_known⟩
  rw [Context.after_lookup first.run, Context.after_lookup second.run]
  rfl

/-- What is refused when the text of a note is to be appended. -/
def noteRefused : Error := .cannotAppend "text" "Note" "note" "Optional<Note>"

/-- The search looks up orders and notes, both of which are known, and fails. -/
lemma notes_searched {c : Context} {e₁ e₂ : Entity}
    (order_known : c.table.get? order = some (some e₁))
    (note_known : c.table.get? note = some (some e₂))
    (order_offers : candidates e₁ = [noteProperty])
    (note_offers : candidates e₂ = [textProperty]) :
    Context.Searches (fun _ => true) c order {} [(order, .ok (some e₁)), (note, .ok (some e₂))]
      (.error noteRefused) c := by
  have known₁ : EntityLookup.Yields c (.entity order) (.ok (some e₁)) c := .answered order_known
  have known₂ : EntityLookup.Yields c (.entity note) (.ok (some e₂)) c := .answered note_known
  -- behind the optional the note is looked up, but its text cannot be appended there
  have inside : Context.Tries (fun _ => true) c (candidates e₂) ⟨[noteProperty]⟩ []
      (.error noteRefused) c := by
    rw [note_offers]
    exact .refused rfl rfl
  have behind_note : Context.Searches (fun _ => true) c (.optional note) ⟨[noteProperty]⟩
      [(note, .ok (some e₂))] (.error noteRefused) c := .through known₂.run inside
  have behind_order : Context.Tries (fun _ => true) c (candidates e₁) {} [(note, .ok (some e₂))]
      (.error noteRefused) c := by
    rw [order_offers]
    exact .broken (p := noteProperty) rfl rfl rfl behind_note
  exact .through known₁.run behind_order

/-- A search goes on from orders to optional notes and no further. -/
lemma ordering_followed {c : Context} (mapping_eq : c.mapping = ordering) {u : TypeRef}
    (reach : c.Reaches order u) : u ∈ ({order, .optional note} : Set TypeRef) := by
  induction reach with
  | refl => exact .inl rfl
  | tail _ follows ih =>
    obtain ⟨-, decl, ps, outlined, p, hp, entity, rfl⟩ := follows
    rw [mapping_eq] at outlined
    rcases ih with rfl | rfl
    · cases outline_order.symm.trans outlined
      cases List.mem_singleton.mp hp
      exact .inr rfl
    · cases outline_note.symm.trans outlined
      cases List.mem_singleton.mp hp
      cases entity

/-- The notes of an order are optionals. -/
lemma noteProperty_endsInOptional : noteProperty.EndsInOptional :=
  ⟨note, rfl, by decide⟩

end Sample

namespace Context

/-- The search for all paths from orders fails after orders and notes were looked up, although each
of its lookups is answered. -/
theorem findPaths_order_refused : ∃ c lookups,
    after [.lookup (.entity Sample.order), .lookup (.entity Sample.note)]
        (ofMapping Sample.ordering) = some c ∧
      Performs (fun _ => true) c Sample.order lookups ∧ AllAnswered lookups ∧
        (findPaths (fun _ => true) Sample.order).runOn c = some (.error Sample.noteRefused, c) := by
  obtain ⟨c, e₁, e₂, before, order_known, note_known⟩ := Sample.ordering_known
  have built := (Sound.of_after before).built
  have searches := Sample.notes_searched order_known note_known
    (Sample.candidates_of_order (built _ e₁ order_known))
    (Sample.candidates_of_note (built _ e₂ note_known))
  refine ⟨c, _, before, ⟨_, _, searches⟩, ?_, ?_⟩
  · exact List.forall_mem_cons.mpr ⟨⟨_, rfl⟩, List.forall_mem_singleton.mpr ⟨_, rfl⟩⟩
  · rw [runOn_findPaths, searches.run]
    rfl

/-- From orders there is a route to the texts of their notes, behind optionals, so that the search
does not succeed. -/
theorem findPaths_order_not_ok : ∃ c r c',
    after [.lookup (.entity Sample.order), .lookup (.entity Sample.note)]
        (ofMapping Sample.ordering) = some c ∧
      (findPaths (fun _ => true) Sample.order).runOn c = some (r, c') ∧
        ¬∃ paths, r = .ok paths := by
  obtain ⟨c, e₁, e₂, before, order_known, note_known⟩ := Sample.ordering_known
  have sound := Sound.of_after before
  have order_offers := Sample.candidates_of_order (sound.built _ e₁ order_known)
  have note_offers := Sample.candidates_of_note (sound.built _ e₂ note_known)
  have searches := Sample.notes_searched order_known note_known order_offers note_offers
  have answered : AllAnswered [(Sample.order, .ok (some e₁)), (Sample.note, .ok (some e₂))] :=
    List.forall_mem_cons.mpr ⟨⟨_, rfl⟩, List.forall_mem_singleton.mpr ⟨_, rfl⟩⟩
  have finite : {u | c.Reaches Sample.order u}.Finite :=
    (Set.toFinite {Sample.order, TypeRef.optional Sample.note}).subset fun u reach =>
      Sample.ordering_followed sound.mapping_eq reach
  obtain ⟨-, succeeds⟩ := findPaths_ok_iff before (fun _ => true) finite
  obtain ⟨r, c', run, ok_iff⟩ := succeeds _ ⟨_, _, searches⟩ answered
  refine ⟨c, r, c', before, run, fun ok => ?_⟩
  have evolves : c.Evolves false c' := Evolving.findPaths _ c r c' run
  -- the route from an order goes through its note, which is an optional
  have route : c'.RouteFrom candidates Sample.order [Sample.noteProperty, Sample.textProperty] := by
    have last : c'.Route candidates (candidates e₂) [Sample.textProperty] := by
      rw [note_offers]
      exact .last List.mem_cons_self
    refine ⟨e₁, evolves.kept order_known, .step ?_ rfl (evolves.kept note_known) last⟩
    rw [order_offers]
    exact List.mem_cons_self
  exact ok_iff.mp ok _ route (by decide) _ List.mem_cons_self Sample.noteProperty_endsInOptional

end Context

end EntityModel
