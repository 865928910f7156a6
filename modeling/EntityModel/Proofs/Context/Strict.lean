import EntityModel.Proofs.Context.Answers

/-!
# Strict contexts

Under strict rules entities are made by additions only. Every other step leaves the entities of a
context as they are, and tells listeners nothing (`Context.Step.keepsEntities`). A lookup answers
the entity of a type if there is one. Otherwise it refuses eligible types, and answers that there is
none for all others (`Context.Sound.strict_answers`).
-/

namespace EntityModel.Context

open ContextM

variable {m : Mapping} {c c' c'' : Context} {t : TypeRef} {e : Entity}

/-- Two contexts have the same entities for the same types, and told their listeners the same. -/
structure KeepsEntities (c c' : Context) : Prop where
  get?_iff : ∀ t e, c'.table.get? t = some (some e) ↔ c.table.get? t = some (some e)
  deliveries_eq : c'.deliveries = c.deliveries

namespace KeepsEntities

/-- A context keeps its own entities. -/
lemma refl (c : Context) : c.KeepsEntities c :=
  ⟨fun _ _ => Iff.rfl, rfl⟩

/-- Entities that are kept twice are kept. -/
lemma trans (first : c.KeepsEntities c') (second : c'.KeepsEntities c'') : c.KeepsEntities c'' :=
  ⟨fun t e => (second.get?_iff t e).trans (first.get?_iff t e),
    second.deliveries_eq.trans first.deliveries_eq⟩

/-- Where entities are kept, the managed types are the same. -/
lemma mem_managedTypes_iff (keeps : c.KeepsEntities c') :
    t ∈ c'.managedTypes ↔ t ∈ c.managedTypes := by
  simp only [Context.mem_managedTypes_iff, keeps.get?_iff]

/-- Where entities are kept, no entity is lost or added. -/
lemma mem_entities_iff (keeps : c.KeepsEntities c') : e ∈ c'.entities ↔ e ∈ c.entities := by
  simp only [Context.mem_entities_iff, keeps.get?_iff]

end KeepsEntities

/-- Under strict rules no step makes an entity, unless additions are forced. -/
lemma Step.keepsEntities (strict : c.mapping.rules.isStrict = true) (step : Step false c c') :
    c.KeepsEntities c' := by
  cases step with
  | refused absent _ => exact ⟨fun _ _ => EntityTable.get?_set_none_iff absent, rfl⟩
  | visited allowed _ =>
    have lenient := (allowed.resolve_left Bool.false_ne_true).2
    cases strict.symm.trans lenient
  | remembered | reported | listened => exact ⟨fun _ _ => Iff.rfl, rfl⟩

/-- In a strict mapping no entities are made without force. -/
lemma Evolves.keepsEntities (strict : c.mapping.rules.isStrict = true)
    (evolves : c.Evolves false c') : c.KeepsEntities c' := by
  induction evolves with
  | refl => exact .refl c
  | tail before step ih =>
    have strict' := strict
    rw [← Evolves.mapping_eq before] at strict'
    exact ih.trans (step.keepsEntities strict')

/-- What a lookup answers under strict rules. -/
structure StrictAnswers (c : Context) : Prop where
  managed : ∀ t e, c.table.get? t = some (some e) →
    (entity? t).runOn c = some (.ok (some e), c)
  ineligible : ∀ t, t ∉ c.managedTypes → c.mapping.isEligible t = false →
    ∃ c', (entity? t).runOn c = some (.ok none, c')
  unknown : ∀ t, t ∉ c.managedTypes → c.mapping.isEligible t = true →
    (entity? t).runOn c = some (.error (.unknownEntity t.text), c)

/-- A type that is not managed has no answer, or it was found to have no entity. -/
lemma get?_of_not_managed (h : t ∉ c.managedTypes) :
    c.table.get? t = none ∨ c.table.get? t = some none := by
  cases found : c.table.get? t with
  | none => exact .inl rfl
  | some answer =>
    cases answer with
    | none => exact .inr rfl
    | some e => exact absurd (mem_managedTypes_iff.mpr ⟨e, found⟩) h

/-- A strict context answers with its entities and refuses the eligible types that have none. -/
lemma Sound.strict_answers (sound : c.Sound m) (strict : m.rules.isStrict = true) :
    c.StrictAnswers := by
  have hm := sound.mapping_eq
  subst hm
  refine ⟨fun t e found => ?_, fun t other ineligible => ?_, fun t other eligible => ?_⟩
  · have yields : EntityLookup.Yields c (.entity t) (.ok (some e)) c := .answered found
    exact yields.run
  · rcases get?_of_not_managed other with absent | found
    · have yields : EntityLookup.Yields c (.entity t) (.ok none) _ := .refused absent ineligible
      exact ⟨_, yields.run⟩
    · have yields : EntityLookup.Yields c (.entity t) (.ok none) c := .answered found
      exact ⟨c, yields.run⟩
  · rcases get?_of_not_managed other with absent | found
    · have yields : EntityLookup.Yields c (.entity t) (.error (.unknownEntity t.text)) c :=
        .unknown absent eligible strict
      exact yields.run
    · cases (sound.ineligible t found).symm.trans eligible

end EntityModel.Context
