import EntityModel.Proofs.Context.Answers
import EntityModel.Proofs.Discovery.Termination
import Mathlib.Order.Bounds.Defs

/-!
# What lookups manage

Lookups that are all answered manage the types that were asked for and the types that their entities
lead to, and no others. A context that was explored from some types (`Context.Explored`) stays so
with every answered lookup; all of its managed types are reached from these types, and all that is
reached is managed (`Context.managedTypes_isLeast`).
-/

namespace EntityModel

namespace Context

variable {m : Mapping} {c c' : Context} {t u : TypeRef} {e : Entity} {call : EntityLookup}
  {answer : Option Entity} {roots : Set TypeRef}

/-- The types that were asked for and have an entity. -/
def requested (calls : List EntityLookup) (answers : List (Option Entity)) : Set TypeRef :=
  {t | ∃ call e, (call, some e) ∈ calls.zip answers ∧ call.type = t}

/-- One more answered lookup requests its type as well, if that has an entity. -/
lemma requested_cons {calls : List EntityLookup} {answers : List (Option Entity)} :
    requested (call :: calls) (answer :: answers) =
      {t | t = call.type ∧ answer.isSome = true} ∪ requested calls answers := by
  ext t
  constructor
  · rintro ⟨call', e, h, rfl⟩
    rcases List.mem_cons.mp h with h | h
    · cases h
      exact .inl ⟨rfl, rfl⟩
    · exact .inr ⟨call', e, h, rfl⟩
  · rintro (⟨rfl, h⟩ | ⟨call', e, h, rfl⟩)
    · obtain ⟨e, rfl⟩ := Option.isSome_iff_exists.mp h
      exact ⟨call, e, List.mem_cons_self, rfl⟩
    · exact ⟨call', e, List.mem_cons_of_mem _ h, rfl⟩

/-- A set of types contains the eligible types behind the entity properties of its entities, except
behind those of an owner's own raw type. -/
def NestingClosed (c : Context) (S : Set TypeRef) : Prop :=
  ∀ t ∈ S, ∀ e, c.table.get? t = some (some e) → ∀ p ∈ e.properties, p.isEntity = true →
    p.rawTypeName ≠ t.name → c.mapping.isEligible p.actual = true → p.actual ∈ S

/-- In a closed set an entity leads to types of the set only. -/
lemma Sound.nestingClosed_iff (sound : c.Sound m) {S : Set TypeRef} :
    c.NestingClosed S ↔
      ∀ t ∈ S, ∀ e, c.table.get? t = some (some e) → ∀ u, m.LeadsTo t u → u ∈ S := by
  have hm := sound.mapping_eq
  subst hm
  constructor
  · intro closed t ht e he u leads
    obtain ⟨p, hp, hentity, hraw, eligible, rfl⟩ :=
      (Mapping.leadsTo_iff_of_build (sound.built t e he)).mp leads
    exact closed t ht e he p hp hentity hraw eligible
  · intro closed t ht e he p hp hentity hraw eligible
    have leads := (Mapping.leadsTo_iff_of_build (sound.built t e he)).mpr
      ⟨p, hp, hentity, hraw, eligible, rfl⟩
    exact closed t ht e he p.actual leads

/-! ### Explored contexts -/

/-- A context whose entities are those that are reached from some types. -/
structure Explored (m : Mapping) (roots : Set TypeRef) (c : Context) : Prop where
  sound : c.Sound m
  settled : ∀ t u e, c.table.get? t = some (some e) → m.LeadsTo t u → c.table.contains u = true
  rooted : ∀ t ∈ roots, ∃ e, c.table.get? t = some (some e)
  reached : ∀ t e, c.table.get? t = some (some e) → ∃ root ∈ roots, m.Reaches root t

namespace Explored

/-- A new context was explored from no types. -/
lemma initial : (ofMapping m).Explored m ∅ where
  sound := .initial
  settled t u e h := by
    rw [ofMapping, EntityTable.get?_empty] at h
    cases h
  rooted t h := by cases h
  reached t e h := by
    rw [ofMapping, EntityTable.get?_empty] at h
    cases h

/-- What an entity leads to has an entity, too. -/
lemma entity_of_leadsTo (ex : c.Explored m roots) (h : c.table.get? t = some (some e))
    (leads : m.LeadsTo t u) : ∃ e, c.table.get? u = some (some e) := by
  obtain ⟨answer, found⟩ := EntityTable.contains_eq_true.mp (ex.settled t u e h leads)
  cases answer with
  | none => cases (ex.sound.ineligible u found).symm.trans leads.eligible
  | some e => exact ⟨e, found⟩

/-- What is reached from an entity is managed, and a member of every closed set that has the
entity. -/
lemma of_reaches (ex : c.Explored m roots) {S : Set TypeRef} (closed : c.NestingClosed S)
    (ht : t ∈ S) (h : ∃ e, c.table.get? t = some (some e)) (reach : m.Reaches t u) :
    u ∈ S ∧ ∃ e, c.table.get? u = some (some e) := by
  induction reach with
  | refl => exact ⟨ht, h⟩
  | tail _ leads ih =>
    obtain ⟨hS, e, he⟩ := ih
    exact ⟨ex.sound.nestingClosed_iff.mp closed _ hS e he _ leads, ex.entity_of_leadsTo he leads⟩

/-- The managed types are the least closed set that has the types from which the context was
explored. -/
lemma isLeast (ex : c.Explored m roots) :
    IsLeast {S | roots ⊆ S ∧ c.NestingClosed S} {t | t ∈ c.managedTypes} := by
  refine ⟨⟨?_, ?_⟩, ?_⟩
  · intro t ht
    exact mem_managedTypes_iff.mpr (ex.rooted t ht)
  · refine ex.sound.nestingClosed_iff.mpr fun t _ e he u leads => ?_
    exact mem_managedTypes_iff.mpr (ex.entity_of_leadsTo he leads)
  · -- every managed type is reached from one of the types, on a way through entities
    rintro S ⟨hroots, closed⟩ t ht
    obtain ⟨e, he⟩ := mem_managedTypes_iff.mp ht
    obtain ⟨root, hroot, reach⟩ := ex.reached t e he
    exact (ex.of_reaches closed (hroots hroot) (ex.rooted root hroot) reach).1

/-- A context was explored from further types as well if they have entities. -/
lemma widen (ex : c.Explored m roots) {more : Set TypeRef}
    (h : ∀ t ∈ more, ∃ e, c.table.get? t = some (some e)) : c.Explored m (roots ∪ more) where
  sound := ex.sound
  settled := ex.settled
  rooted t ht := ht.elim (ex.rooted t) (h t)
  reached t e he := by
    obtain ⟨root, hroot, reach⟩ := ex.reached t e he
    exact ⟨root, .inl hroot, reach⟩

/-- A type without an entity changes nothing. -/
lemma refuse (ex : c.Explored m roots) (absent : c.table.get? t = none)
    (eligible : m.isEligible t = false) :
    Explored m roots { c with table := c.table.set t none } := by
  have same : ∀ u e, (c.table.set t none).get? u = some (some e) ↔
      c.table.get? u = some (some e) := fun _ _ => EntityTable.get?_set_none_iff absent
  refine ⟨ex.sound.refuse absent eligible, ?_, ?_, ?_⟩
  · intro u v e he leads
    obtain ⟨e', he'⟩ := ex.entity_of_leadsTo ((same u e).mp he) leads
    exact EntityTable.contains_eq_true.mpr ⟨_, (same v e').mpr he'⟩
  · intro root hroot
    obtain ⟨e, he⟩ := ex.rooted root hroot
    exact ⟨e, (same root e).mpr he⟩
  · exact fun u e he => ex.reached u e ((same u e).mp he)

/-- A type that is visited successfully is explored. -/
lemma visit {d} (ex : c.Explored m roots) (vis : m.Visits t c.discovery (.ok ()) d)
    (found : d.table.get? t = some (some e)) : (c.afterDiscovery d).Explored m (roots ∪ {t}) := by
  obtain ⟨new, g⟩ := vis.grows
  refine ⟨ex.sound.visit vis, ?_, ?_, ?_⟩
  · intro u v e he leads
    -- an earlier entity was settled before, a new one is settled because nothing failed
    cases hu : c.table.get? u with
    | some answer =>
      cases he.symm.trans (g.kept hu)
      exact g.contains (ex.settled u v e hu leads)
    | none =>
      have present := EntityTable.contains_eq_true.mpr ⟨_, he⟩
      rcases vis.settled u v hu present leads with hv | ⟨⟨_, hr⟩, -⟩
      · exact hv
      · cases hr
  · rintro root (hroot | rfl)
    · obtain ⟨e, he⟩ := ex.rooted root hroot
      exact ⟨e, g.kept he⟩
    · exact ⟨e, found⟩
  · intro u e he
    rcases (g.get?_iff u _).mp he with h | ⟨e', he', rfl, -⟩
    · obtain ⟨root, hroot, reach⟩ := ex.reached u e h
      exact ⟨root, .inl hroot, reach⟩
    · have present := EntityTable.contains_eq_true.mpr ⟨_, he⟩
      exact ⟨t, .inr rfl, vis.reaches_of_new _ (g.fresh e' he') present⟩

/-- A lookup that is answered explores its type if that has an entity. -/
lemma lookup (ex : c.Explored m roots) (yields : call.Yields c (.ok answer) c') :
    c'.Explored m (roots ∪ {t | t = call.type ∧ answer.isSome = true}) := by
  have hm := ex.sound.mapping_eq
  subst hm
  cases yields with
  | answered found =>
    refine ex.widen ?_
    rintro t ⟨rfl, some_answer⟩
    obtain ⟨e, rfl⟩ := Option.isSome_iff_exists.mp some_answer
    exact ⟨e, found⟩
  | refused absent eligible =>
    refine (ex.refuse absent eligible).widen ?_
    rintro t ⟨-, some_answer⟩
    cases some_answer
  | made _ _ vis found =>
    have explored := ex.visit vis found
    simpa using explored

/-- Lookups that are all answered explore what was asked for. -/
theorem lookups {calls : List EntityLookup} {answers : List (Option Entity)}
    (ex : c.Explored m roots)
    (run : (calls.mapM EntityLookup.run).runOn c = some (.ok answers, c')) :
    c'.Explored m (roots ∪ requested calls answers) := by
  induction calls generalizing c roots answers with
  | nil =>
    cases run
    refine ex.widen ?_
    rintro t ⟨call, e, h, -⟩
    cases h
  | cons call calls ih =>
    rw [List.mapM_cons, ContextM.runOn_bind] at run
    obtain ⟨⟨r, c₁⟩, first, run⟩ := Option.bind_eq_some_iff.mp run
    -- a call that fails ends the run, so all calls were answered
    cases r with
    | error err => cases run
    | ok answer =>
      dsimp only at run
      rw [ContextM.runOn_bind] at run
      obtain ⟨⟨r, c₂⟩, rest, run⟩ := Option.bind_eq_some_iff.mp run
      cases r with
      | error err => cases run
      | ok answers =>
        cases run
        -- the later calls explore what they request on top of what the first one did
        have explored := ih (ex.lookup (EntityLookup.run_iff.mp first)) rest
        rwa [requested_cons, ← Set.union_assoc]

end Explored

/-! ### Lookups end -/

/-- Lookups are answered one after the other. -/
lemma runOn_lookups_cons {calls : List EntityLookup} {answers : List (Option Entity)} {c₁ : Context}
    (first : call.run.runOn c = some (.ok answer, c₁))
    (rest : (calls.mapM EntityLookup.run).runOn c₁ = some (.ok answers, c')) :
    ((call :: calls).mapM EntityLookup.run).runOn c = some (.ok (answer :: answers), c') := by
  rw [List.mapM_cons, ContextM.runOn_bind, first]
  dsimp only [Option.bind_some]
  rw [ContextM.runOn_bind, rest]
  rfl

/-- The lookup of a type that reaches finitely many types has an outcome. -/
lemma exists_run (finite : {t | c.mapping.Reaches call.type t}.Finite) :
    ∃ r c', call.run.runOn c = some (r, c') := by
  cases found : c.table.get? call.type with
  | some answer => exact ⟨_, _, EntityLookup.run_iff.mpr (.answered found)⟩
  | none =>
    by_cases allowed : call.isAllowed c.mapping = true
    · obtain ⟨outcome, d, vis⟩ := Mapping.exists_visits (d := c.discovery) finite
      rw [EntityLookup.run_of_allowed found allowed]
      exact ⟨_, _, EntityLookup.runOn_addEntity.mpr ⟨outcome, d, vis, rfl, rfl⟩⟩
    · cases call with
      | add t => exact absurd rfl allowed
      | entity t =>
        cases eligible : c.mapping.isEligible t with
        | false => exact ⟨_, _, EntityLookup.run_iff.mpr (.refused found eligible)⟩
        | true =>
          have strict : c.mapping.rules.isStrict = true := by
            simpa [EntityLookup.isAllowed, eligible] using allowed
          exact ⟨_, _, EntityLookup.run_iff.mpr (.unknown found eligible strict)⟩

/-- Lookups of types that reach finitely many types have an outcome. -/
lemma exists_lookups {calls : List EntityLookup}
    (finite : ∀ call ∈ calls, {t | c.mapping.Reaches call.type t}.Finite) :
    ∃ r c', (calls.mapM EntityLookup.run).runOn c = some (r, c') := by
  induction calls generalizing c with
  | nil => exact ⟨_, _, rfl⟩
  | cons call calls ih =>
    obtain ⟨r, c₁, first⟩ := exists_run (finite call List.mem_cons_self)
    rw [List.mapM_cons, ContextM.runOn_bind, first]
    cases r with
    | error err => exact ⟨_, _, rfl⟩
    | ok answer =>
      have same : c₁.mapping = c.mapping :=
        (ContextM.Evolving.lookup call (.inl rfl) _ _ _ first).mapping_eq
      obtain ⟨r, c₂, rest⟩ := ih fun call' h => same ▸ finite call' (List.mem_cons_of_mem _ h)
      dsimp only [Option.bind_some]
      rw [ContextM.runOn_bind, rest]
      cases r <;> exact ⟨_, _, rfl⟩

/-- Lookups on a new context of types that reach finitely many types come to an end. If all of them
are answered, the managed types are the least set that has every type that was asked for and has an
entity, and every eligible type behind an entity property of a type in the set. -/
theorem managedTypes_isLeast {calls : List EntityLookup}
    (finite : {t | ∃ call ∈ calls, m.Reaches call.type t}.Finite) :
    ∃ r c, (calls.mapM EntityLookup.run).runOn (ofMapping m) = some (r, c) ∧
      ∀ answers, r = .ok answers →
        IsLeast {S | requested calls answers ⊆ S ∧ c.NestingClosed S}
          {t | t ∈ c.managedTypes} := by
  have each : ∀ call ∈ calls, {t | m.Reaches call.type t}.Finite := fun call h =>
    finite.subset fun t reach => ⟨call, h, reach⟩
  obtain ⟨r, c, run⟩ := exists_lookups (c := ofMapping m) each
  refine ⟨r, c, run, ?_⟩
  rintro answers rfl
  have explored := Explored.initial.lookups run
  rw [Set.empty_union] at explored
  exact explored.isLeast

end Context

/-! ### Readers and their cards -/

namespace Sample

def reader : TypeRef := .of "Reader"

def card : TypeRef := .of "Card"

def readerDecl : TypeDecl where
  name := "Reader"
  fields := [{ name := "card", type := card }]

def cardDecl : TypeDecl where
  name := "Card"
  fields := [{ name := "reader", type := reader }]

/-- Readers and cards that lead to each other. -/
def lending : Mapping := { catalog := ⟨[readerDecl, cardDecl]⟩ }

/-- Readers have the properties that they are declared with. -/
lemma outline_reader :
    lending.outline reader = .ok (readerDecl, readerDecl.fields.map (property readerDecl)) := by
  cbv

/-- Cards have the properties that they are declared with. -/
lemma outline_card :
    lending.outline card = .ok (cardDecl, cardDecl.fields.map (property cardDecl)) := by
  cbv

/-- Only readers and cards are reached from either. -/
lemma lending_closed {t u : TypeRef} (ht : t = reader ∨ t = card) (leads : lending.LeadsTo t u) :
    u = reader ∨ u = card := by
  rcases ht with rfl | rfl
  · obtain ⟨p, hp, hn⟩ := (Mapping.leadsTo_iff outline_reader).mp leads
    cases List.mem_singleton.mp hp
    have behind : lending.nestedType? reader (property readerDecl ⟨"card", card, {}, []⟩) =
        some card := rfl
    exact .inr (Option.some.inj (hn.symm.trans behind))
  · obtain ⟨p, hp, hn⟩ := (Mapping.leadsTo_iff outline_card).mp leads
    cases List.mem_singleton.mp hp
    have behind : lending.nestedType? card (property cardDecl ⟨"reader", reader, {}, []⟩) =
        some reader := rfl
    exact .inl (Option.some.inj (hn.symm.trans behind))

/-- Readers and cards reach nothing but readers and cards. -/
lemma lending_reaches {t u : TypeRef} (ht : t = reader ∨ t = card) (h : lending.Reaches t u) :
    u = reader ∨ u = card := by
  induction h with
  | refl => exact ht
  | tail _ leads ih => exact lending_closed ih leads

/-- The card of a reader is made while the reader is under way. -/
lemma reader_visited {d : Discovery} (reader_absent : d.table.contains reader = false)
    (card_absent : d.table.contains card = false) :
    ∃ e₁ e₂ d', lending.Visits reader d (.ok ()) d' ∧ d'.table.get? reader = some (some e₁) ∧
      d'.table.get? card = some (some e₂) := by
  have other : card ≠ reader := by decide
  have absent : (d.start (lending.blank d reader readerDecl)).table.contains card = false :=
    (Discovery.contains_start_of_ne other).trans card_absent
  have waiting := Discovery.contains_start
    (e := lending.blank (d.start (lending.blank d reader readerDecl)) card cardDecl)
    (Discovery.contains_start_self (d := d) (e := lending.blank d reader readerDecl))
  have inner : lending.Visits card (d.start (lending.blank d reader readerDecl)) (.ok ()) _ :=
    .completed absent outline_card (.nested rfl rfl (.known waiting) .nil)
  have outer : lending.Visits reader d (.ok ()) _ :=
    .completed reader_absent outline_reader (.nested rfl rfl inner .nil)
  exact ⟨_, _, _, outer, Discovery.get?_complete_self,
    (Discovery.get?_complete_of_ne other).trans Discovery.get?_complete_self⟩

end Sample

namespace Context

/-- The lookup of a reader manages its card, too, whose entity was never asked for, and nothing
else. -/
theorem reader_and_card_managed : ∃ c e,
    (([.entity Sample.reader] : List EntityLookup).mapM EntityLookup.run).runOn
        (ofMapping Sample.lending) = some (.ok [some e], c) ∧
      {t | t ∈ c.managedTypes} = {Sample.reader, Sample.card} ∧
      IsLeast {S | requested [.entity Sample.reader] [some e] ⊆ S ∧ c.NestingClosed S}
        {t | t ∈ c.managedTypes} := by
  have finite : {t | ∃ call ∈ ([.entity Sample.reader] : List EntityLookup),
      Sample.lending.Reaches call.type t}.Finite := by
    refine (Set.toFinite {Sample.reader, Sample.card}).subset ?_
    rintro t ⟨call, hcall, reach⟩
    cases List.mem_singleton.mp hcall
    exact Sample.lending_reaches (.inl rfl) reach
  have nothing : ∀ t, (ofMapping Sample.lending).table.get? t = none := fun _ =>
    EntityTable.get?_empty
  obtain ⟨e, e₂, d, vis, found, found₂⟩ :=
    Sample.reader_visited (d := (ofMapping Sample.lending).discovery)
      (EntityTable.contains_eq_false.mpr (nothing Sample.reader))
      (EntityTable.contains_eq_false.mpr (nothing Sample.card))
  have lookup : EntityLookup.Yields (ofMapping Sample.lending) (.entity Sample.reader) _ _ :=
    .made (nothing Sample.reader) (by cbv) vis found
  have last : (([] : List EntityLookup).mapM EntityLookup.run).runOn
      ((ofMapping Sample.lending).afterDiscovery d) = some (.ok [], _) := rfl
  have done := runOn_lookups_cons lookup.run last
  obtain ⟨r, c, run, least⟩ := managedTypes_isLeast finite
  cases done.symm.trans run
  have explored := Explored.initial.lookups done
  refine ⟨_, e, done, ?_, least _ rfl⟩
  ext t
  constructor
  · intro managed
    obtain ⟨e', he'⟩ := mem_managedTypes_iff.mp managed
    obtain ⟨root, (none | ⟨call, _, hcall, rfl⟩), reach⟩ := explored.reached t e' he'
    · cases none
    · cases List.mem_singleton.mp hcall
      exact Sample.lending_reaches (.inl rfl) reach
  · -- the card is in the table since the reader's visit, not by a request of its own
    rintro (rfl | rfl)
    · exact mem_managedTypes_iff.mpr ⟨e, found⟩
    · exact mem_managedTypes_iff.mpr ⟨e₂, found₂⟩

end Context

end EntityModel
