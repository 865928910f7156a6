import EntityModel.Proofs.Context.Step
import EntityModel.Proofs.Discovery.Failure

/-!
# Lookups

A lookup asks for the entity of a type, which is made on demand or added in any case.
`EntityLookup.Yields` has one rule for each way in which a lookup goes: what is answered already
stays as it is, otherwise the lookup answers that there is no entity, refuses under strict rules, or
visits the type. `EntityLookup.run_iff` shows that lookups yield what they compute.
-/

namespace EntityModel

open ContextM

/-- A request for the entity of a type. -/
inductive EntityLookup where
  /-- The entity is made on demand. -/
  | entity (t : TypeRef)
  /-- The entity is added, whether the type is eligible or not. -/
  | add (t : TypeRef)
  deriving DecidableEq, Repr

namespace EntityLookup

def type : EntityLookup → TypeRef
  | entity t | add t => t

def run : EntityLookup → ContextM (Option Entity)
  | entity t => entity? t
  | add t => addEntity t

/-- Whether a lookup may make an entity. -/
def isAllowed (m : Mapping) : EntityLookup → Bool
  | entity t => m.isEligible t && !m.rules.isStrict
  | add _ => true

/-- What a lookup answers, and the context that it leaves. -/
inductive Yields (c : Context) : EntityLookup → Except Error (Option Entity) → Context → Prop where
  | answered {call answer} :
    c.table.get? call.type = some answer →
    Yields c call (.ok answer) c
  | refused {t} :
    c.table.get? t = none →
    c.mapping.isEligible t = false →
    Yields c (.entity t) (.ok none) { c with table := c.table.set t none }
  | unknown {t} :
    c.table.get? t = none →
    c.mapping.isEligible t = true →
    c.mapping.rules.isStrict = true →
    Yields c (.entity t) (.error (.unknownEntity t.text)) c
  | made {call e d} :
    c.table.get? call.type = none →
    call.isAllowed c.mapping = true →
    c.mapping.Visits call.type c.discovery (.ok ()) d →
    d.table.get? call.type = some (some e) →
    Yields c call (.ok (some e)) (c.afterDiscovery d)
  | failed {call err d} :
    c.table.get? call.type = none →
    call.isAllowed c.mapping = true →
    c.mapping.Visits call.type c.discovery (.error err) d →
    Yields c call (.error err) (c.afterDiscovery d)

variable {c c' : Context} {t : TypeRef} {r : Except Error (Option Entity)}

/-! ### Added entities -/

/-- What is added was visited. -/
lemma runOn_addEntity : (addEntity t).runOn c = some (r, c') ↔
    ∃ outcome d, c.mapping.Visits t c.discovery outcome d ∧
      r = outcome.map (fun _ => (d.table.get? t).join) ∧ c' = c.afterDiscovery d := by
  show (c.mapping.visit t c.discovery).bind _ = _ ↔ _
  rw [Option.bind_eq_some_iff]
  constructor
  · rintro ⟨⟨outcome, d⟩, hv, h⟩
    cases h
    exact ⟨outcome, d, Mapping.visit_iff.mp hv, rfl, rfl⟩
  · rintro ⟨outcome, d, vis, rfl, rfl⟩
    exact ⟨(outcome, d), vis.run, rfl⟩

/-- A type that is answered already is not added again. -/
lemma addEntity_of_answered {answer} (h : c.table.get? t = some answer) :
    (addEntity t).runOn c = some (.ok answer, c) := by
  have known : c.mapping.Visits t c.discovery (.ok ()) c.discovery :=
    .known (EntityTable.contains_eq_true.mpr ⟨answer, h⟩)
  have found : answer = (c.table.get? t).join := by
    rw [h]
    rfl
  refine runOn_addEntity.mpr ⟨_, _, known, congrArg Except.ok found, ?_⟩
  simp [Context.afterDiscovery, Context.discovery]

/-- A type without an answer that is visited successfully has an entity. -/
lemma exists_entity_of_visits {m : Mapping} {d d'} (absent : d.table.get? t = none)
    (vis : m.Visits t d (.ok ()) d') : ∃ e, d'.table.get? t = some (some e) := by
  obtain ⟨answer, found⟩ := vis.answered
  obtain ⟨new, g⟩ := vis.grows
  rcases (g.get?_iff t answer).mp found with h | ⟨e, -, -, rfl⟩
  · rw [absent] at h
    cases h
  · exact ⟨e, found⟩

/-- What is added without an answer was visited. -/
lemma yields_of_addEntity {call : EntityLookup} (absent : c.table.get? call.type = none)
    (allowed : call.isAllowed c.mapping = true)
    (h : (addEntity call.type).runOn c = some (r, c')) : Yields c call r c' := by
  obtain ⟨outcome, d, vis, rfl, rfl⟩ := runOn_addEntity.mp h
  cases outcome with
  | error err => exact .failed absent allowed vis
  | ok =>
    obtain ⟨e, found⟩ := exists_entity_of_visits (d := c.discovery) absent vis
    have yields := Yields.made absent allowed vis found
    rwa [Except.map, found]

/-! ### All lookups -/

/-- The ways in which an entity is looked up. -/
lemma runOn_entity? : (entity? t).runOn c =
    match c.table.get? t with
    | some answer => some (.ok answer, c)
    | none =>
      if c.mapping.isEligible t = false then
        some (.ok none, { c with table := c.table.set t none })
      else if c.mapping.rules.isStrict = true then some (.error (.unknownEntity t.text), c)
      else (addEntity t).runOn c := by
  unfold entity?
  rw [runOn_bind, runOn_get, Option.bind_some]
  dsimp only
  cases c.table.get? t with
  | some answer => rfl
  | none => cases c.mapping.isEligible t <;> cases c.mapping.rules.isStrict <;> rfl

/-- A lookup that may make an entity adds it. -/
lemma run_of_allowed {call : EntityLookup} (absent : c.table.get? call.type = none)
    (allowed : call.isAllowed c.mapping = true) :
    call.run.runOn c = (addEntity call.type).runOn c := by
  cases call with
  | add t => rfl
  | entity t =>
    rw [isAllowed, Bool.and_eq_true, Bool.not_eq_true'] at allowed
    rw [type] at absent
    rw [run, runOn_entity?, absent]
    simp only [allowed.1, allowed.2, Bool.true_eq_false, Bool.false_eq_true, if_false]
    rfl

/-- A lookup that ends has one of its outcomes. -/
lemma Yields.of_run {call : EntityLookup} (h : call.run.runOn c = some (r, c')) :
    Yields c call r c' := by
  cases found : c.table.get? call.type with
  | some answer =>
    have known : call.run.runOn c = some (.ok answer, c) := by
      cases call with
      | entity t =>
        rw [type] at found
        rw [run, runOn_entity?, found]
      | add t => exact addEntity_of_answered found
    cases known.symm.trans h
    exact .answered found
  | none =>
    by_cases allowed : call.isAllowed c.mapping = true
    · rw [run_of_allowed found allowed] at h
      exact yields_of_addEntity found allowed h
    -- a call that adds a type is always allowed, so this one asks for an entity
    · cases call with
      | add t => exact absurd rfl allowed
      | entity t =>
        rw [type] at found
        rw [run, runOn_entity?, found] at h
        by_cases eligible : c.mapping.isEligible t = true
        -- a type that is eligible and still not allowed is refused by the strict rules
        · have strict : c.mapping.rules.isStrict = true := by
            simpa [isAllowed, eligible] using allowed
          simp only [eligible, strict, Bool.true_eq_false, if_false, if_true] at h
          cases h
          exact .unknown found eligible strict
        · rw [Bool.not_eq_true] at eligible
          simp only [eligible, if_true] at h
          cases h
          exact .refused found eligible

/-- A lookup ends with its outcome, whichever applies. -/
lemma Yields.run {call : EntityLookup} (h : Yields c call r c') :
    call.run.runOn c = some (r, c') := by
  cases h with
  | answered found =>
    -- an addition visits the type even so, but a visit to a known type ends at once
    cases call with
    | entity t =>
      rw [type] at found
      rw [EntityLookup.run, runOn_entity?, found]
    | add t => exact addEntity_of_answered found
  | refused absent eligible =>
    rw [EntityLookup.run, runOn_entity?, absent]
    simp only [eligible, if_true]
  | unknown absent eligible strict =>
    rw [EntityLookup.run, runOn_entity?, absent]
    simp only [eligible, strict, Bool.true_eq_false, if_false, if_true]
  | made absent allowed vis found =>
    rw [run_of_allowed absent allowed, runOn_addEntity]
    exact ⟨_, _, vis, by rw [found]; rfl, rfl⟩
  | failed absent allowed vis =>
    rw [run_of_allowed absent allowed, runOn_addEntity]
    exact ⟨_, _, vis, rfl, rfl⟩

/-- Lookups yield what they compute. -/
theorem run_iff {call : EntityLookup} : call.run.runOn c = some (r, c') ↔ Yields c call r c' :=
  ⟨Yields.of_run, Yields.run⟩

/-- What a lookup answers is the answer for its type. -/
lemma Yields.get?_eq {call : EntityLookup} {answer} (h : Yields c call (.ok answer) c') :
    c'.table.get? call.type = some answer := by
  cases h with
  | answered found => exact found
  | refused => exact EntityTable.get?_set_self
  | made _ _ _ found => exact found

/-- A lookup that fails leaves its type without an answer. -/
lemma Yields.absent {call : EntityLookup} {err : Error} (h : Yields c call (.error err) c') :
    c'.table.get? call.type = none := by
  cases h with
  | unknown absent => exact absent
  | failed _ _ vis => exact vis.absent

end EntityLookup

namespace ContextM

variable {c c' : Context} {t : TypeRef} {e : Entity}

/-- An entity that was required is in the table. -/
lemma get?_of_requiredEntity (h : (requiredEntity t).runOn c = some (.ok e, c')) :
    c'.table.get? t = some (some e) := by
  obtain ⟨answer, c₁, looked, h⟩ := runOn_bind_ok.mp h
  have yields : EntityLookup.Yields c (.entity t) (.ok answer) c₁ := .of_run looked
  have found := yields.get?_eq
  cases answer with
  | none => cases h
  | some e' =>
    cases h
    exact found

/-- An entity in the table is answered where it is required. -/
lemma requiredEntity_of_get? (h : c.table.get? t = some (some e)) :
    (requiredEntity t).runOn c = some (.ok e, c) := by
  have looked : EntityLookup.Yields c (.entity t) (.ok (some e)) c := .answered h
  exact runOn_bind_ok.mpr ⟨some e, c, looked.run, rfl⟩

end ContextM

end EntityModel
