import EntityModel.Proofs.Context.Sound

/-!
# Lookups after different histories

Under lenient rules a lookup fails exactly if its type is eligible and leads to a faulty type
through types without an answer (`Context.Sound.lookup_fails_iff`). An entity that outlived the
failure of a type on its cycle has an answer, so it hides faults: the outcome of a lookup depends on
what was looked up before (`Context.book_outcome_depends_on_history`). Two histories agree exactly
if they leave the fault open or hidden alike, and always where no cycle is on the way to a fault
(`Context.lookup_outcomes_agree_iff`).
-/

namespace EntityModel.Context

open ContextM

variable {m : Mapping} {c c' : Context} {t u : TypeRef} {r : Except Error (Option Entity)}

/-- The types without an answer. -/
def Unanswered (c : Context) (t : TypeRef) : Prop :=
  c.table.get? t = none

/-- Under lenient rules a lookup fails exactly if it meets a fault behind types without an
answer. -/
lemma Sound.lookup_fails_iff (sound : c.Sound m) (lenient : m.rules.isStrict = false)
    (looked : (entity? t).runOn c = some (r, c')) :
    (∃ err, r = .error err) ↔ m.isEligible t = true ∧ m.FaultBehind c.Unanswered t := by
  have hm := sound.mapping_eq
  subst hm
  have yields : EntityLookup.Yields c (.entity t) r c' := EntityLookup.run_iff.mp looked
  cases yields with
  | answered found =>
    -- a type that is answered has no fault behind it, since that would be among the unanswered ones
    refine iff_of_false (fun ⟨_, h⟩ => by cases h) fun ⟨_, fault⟩ => ?_
    cases found.symm.trans fault.among_self
  | refused absent ineligible =>
    refine iff_of_false (fun ⟨_, h⟩ => by cases h) fun ⟨eligible, _⟩ => ?_
    cases ineligible.symm.trans eligible
  | unknown _ _ strict => cases lenient.symm.trans strict
  -- a discovery fails exactly if there is a fault behind its type, and this one did not
  | made absent allowed vis found =>
    refine iff_of_false (fun ⟨_, h⟩ => by cases h) fun ⟨_, fault⟩ => ?_
    obtain ⟨_, failed⟩ := vis.failed_iff.mpr fault
    cases failed
  | failed absent allowed vis =>
    rw [EntityLookup.isAllowed, Bool.and_eq_true] at allowed
    exact iff_of_true ⟨_, rfl⟩ ⟨allowed.1, vis.failed_iff.mp ⟨_, rfl⟩⟩

/-- No entity of a faulty type is ever known. -/
lemma Sound.unanswered_of_faulty (sound : c.Sound m) (eligible : m.isEligible t = true)
    (faulty : m.IsFaulty t) : c.Unanswered t := by
  cases ht : c.table.get? t with
  | none => exact ht
  | some answer =>
    cases answer with
    | none => cases (sound.ineligible t ht).symm.trans eligible
    | some e => exact absurd (sound.built t e ht) (faulty _ _)

/-- A fault stays open if no cycle is on the way to it. -/
lemma Sound.open_fault (sound : c.Sound m) (fault : ∃ v, m.Reaches t v ∧ m.IsFaulty v)
    (eligible : m.isEligible t = true)
    (acyclic : ∀ u v, m.Reaches t u → m.Reaches u v → m.IsFaulty v →
      ¬ Relation.TransGen m.LeadsTo u u) : m.FaultBehind c.Unanswered t := by
  obtain ⟨v, reach, faulty⟩ := fault
  induction reach using Relation.ReflTransGen.head_induction_on with
  | refl => exact .here (sound.unanswered_of_faulty eligible faulty) faulty
  | @head t u leads reach ih =>
    have behind : m.FaultBehind c.Unanswered u :=
      ih leads.eligible fun w v' hw => acyclic w v' (.head leads hw)
    refine .behind ?_ leads behind
    cases ht : c.table.get? t with
    | none => exact ht
    | some answer =>
      cases answer with
      | none => cases (sound.ineligible t ht).symm.trans eligible
      | some e =>
        -- the entity of the type outlived the failure of a type on its cycle
        rcases sound.leadsBack t u e ht leads with answered | back
        · cases (EntityTable.contains_eq_false.mpr behind.among_self).symm.trans answered
        · have cycle : Relation.TransGen m.LeadsTo t t := .head' leads back
          exact absurd cycle (acyclic t v .refl (.head leads reach) faulty)

/-- Under lenient rules lookups of a type after two histories fail alike exactly if, for an eligible
type, a fault is behind types without an answer after both histories or after none. They always do
where no type on the way to a fault lies on a cycle. -/
theorem lookup_outcomes_agree_iff {ops₁ ops₂ : List Operation} {c₁ c₂ c₁' c₂' : Context}
    {r₁ r₂ : Except Error (Option Entity)} (lenient : m.rules.isStrict = false)
    (before₁ : after ops₁ (ofMapping m) = some c₁) (before₂ : after ops₂ (ofMapping m) = some c₂)
    (looked₁ : (entity? t).runOn c₁ = some (r₁, c₁'))
    (looked₂ : (entity? t).runOn c₂ = some (r₂, c₂')) :
    (((∃ err, r₁ = .error err) ↔ ∃ err, r₂ = .error err) ↔
      (m.isEligible t = true →
        (m.FaultBehind c₁.Unanswered t ↔ m.FaultBehind c₂.Unanswered t))) ∧
      ((∀ u v, m.Reaches t u → m.Reaches u v → m.IsFaulty v →
          ¬ Relation.TransGen m.LeadsTo u u) →
        ((∃ err, r₁ = .error err) ↔ ∃ err, r₂ = .error err)) := by
  have sound₁ : c₁.Sound m := .of_after before₁
  have sound₂ : c₂.Sound m := .of_after before₂
  rw [sound₁.lookup_fails_iff lenient looked₁, sound₂.lookup_fails_iff lenient looked₂]
  refine ⟨and_congr_right_iff, fun acyclic => and_congr_right fun eligible => ?_⟩
  -- whatever the other history hides, the fault itself is behind the type
  constructor
  · intro fault
    exact sound₂.open_fault fault.reaches eligible acyclic
  · intro fault
    exact sound₁.open_fault fault.reaches eligible acyclic

/-! ### A fault that a history hides -/

/-- Without a history the lookup of a book fails with its author. -/
lemma book_fails_at_first : ∃ c,
    (entity? Sample.book).runOn (ofMapping Sample.library) =
      some (.error Sample.twoIdentifiers, c) := by
  have nothing : ∀ t, (ofMapping Sample.library).table.get? t = none := fun _ =>
    EntityTable.get?_empty
  obtain ⟨d, vis⟩ := Sample.book_withdrawn (d := (ofMapping Sample.library).discovery)
    (EntityTable.contains_eq_false.mpr (nothing Sample.author))
    (EntityTable.contains_eq_false.mpr (nothing Sample.book))
  have failed : EntityLookup.Yields (ofMapping Sample.library) (.entity Sample.book) (.error _) _ :=
    .failed (nothing Sample.book) (by cbv) vis
  exact ⟨_, failed.run⟩

/-- After the failed lookup of its author the lookup of a book succeeds. -/
lemma book_succeeds_later : ∃ c e,
    after [.lookup (.entity Sample.author)] (ofMapping Sample.library) = some c ∧
      (entity? Sample.book).runOn c = some (.ok (some e), c) := by
  obtain ⟨c, e, -, before, found⟩ := Sample.author_looked_up
  have answered : EntityLookup.Yields c (.entity Sample.book) (.ok (some e)) c := .answered found
  exact ⟨c, e, before, answered.run⟩

/-- The two histories of a book leave its fault open and hidden. -/
theorem book_outcomes_differ : ∃ c₁ c₂ e,
    after [] (ofMapping Sample.library) = some (ofMapping Sample.library) ∧
      after [.lookup (.entity Sample.author)] (ofMapping Sample.library) = some c₂ ∧
      (entity? Sample.book).runOn (ofMapping Sample.library) =
        some (.error Sample.twoIdentifiers, c₁) ∧
      (entity? Sample.book).runOn c₂ = some (.ok (some e), c₂) ∧
      ¬(Sample.library.isEligible Sample.book = true →
        (Sample.library.FaultBehind (ofMapping Sample.library).Unanswered Sample.book ↔
          Sample.library.FaultBehind c₂.Unanswered Sample.book)) := by
  obtain ⟨c₁, fails⟩ := book_fails_at_first
  obtain ⟨c₂, e, before, succeeds⟩ := book_succeeds_later
  have nothing : after [] (ofMapping Sample.library) = some (ofMapping Sample.library) := rfl
  refine ⟨c₁, c₂, e, nothing, before, fails, succeeds, fun alike => ?_⟩
  obtain ⟨_, h⟩ := (lookup_outcomes_agree_iff rfl nothing before fails succeeds).1.mpr alike
    |>.mp ⟨_, rfl⟩
  cases h

/-- The outcome of a lookup depends on what was looked up before. -/
theorem book_outcome_depends_on_history :
    Sample.library.rules.isStrict = false ∧
      (∃ c₁ err, after [] (ofMapping Sample.library) = some c₁ ∧
        ∃ c₁', (entity? Sample.book).runOn c₁ = some (.error err, c₁')) ∧
      ∃ c₂ e, after [.lookup (.entity Sample.author)] (ofMapping Sample.library) = some c₂ ∧
        (entity? Sample.book).runOn c₂ = some (.ok (some e), c₂) := by
  obtain ⟨c₁, fails⟩ := book_fails_at_first
  exact ⟨rfl, ⟨_, _, rfl, c₁, fails⟩, book_succeeds_later⟩

end EntityModel.Context
