import EntityModel.Proofs.Context.Sound

/-!
# Answers stay

A context that answered a lookup answers all lookups of the type in the same way from then on, with
the same entity or with none, whatever else is done on it in between
(`Context.answers_stay`). All of its entities are complete at any time.
-/

namespace EntityModel

variable {m : Mapping} {c c' : Context} {t : TypeRef} {call : EntityLookup} {answer : Option Entity}

namespace Context

/-- A type that has an answer has an entity if the answer is one. -/
lemma has_iff (h : c.table.get? t = some answer) : c.has t = true ↔ answer.isSome = true := by
  rw [has, h]
  rfl

/-- The entities of a context are those that its table answers. -/
lemma mem_entities_iff {e : Entity} :
    e ∈ c.entities ↔ ∃ t, c.table.get? t = some (some e) := by
  simp only [entities, List.mem_map, Prod.exists, exists_eq_right]
  exact exists_congr fun t => EntityTable.mem_managed_iff

/-- The managed types are those that the table answers with an entity. -/
lemma mem_managedTypes_iff : t ∈ c.managedTypes ↔ ∃ e, c.table.get? t = some (some e) := by
  simp only [managedTypes, List.mem_map, Prod.exists, exists_and_right, exists_eq_right]
  exact exists_congr fun e => EntityTable.mem_managed_iff

/-- After any operations all entities of a context are verified, and a lookup that was answered once
has the same answer ever after. -/
theorem answers_stay {ops : List Operation} (before : after ops (ofMapping m) = some c) :
    (∀ e ∈ c.entities, e.isVerified = true) ∧
      ∀ (call : EntityLookup) answer c₁, call.run.runOn c = some (.ok answer, c₁) →
        ∀ more c₂, after more c₁ = some c₂ →
          (∀ again : EntityLookup, again.type = call.type →
            again.run.runOn c₂ = some (.ok answer, c₂)) ∧
          (c₂.has call.type = true ↔ answer.isSome = true) := by
  have sound : c.Sound m := .of_after before
  refine ⟨?_, ?_⟩
  · intro e he
    obtain ⟨t, ht⟩ := mem_entities_iff.mp he
    exact sound.isVerified ht
  · intro call answer c₁ answered more c₂ later
    have found := (EntityLookup.run_iff.mp answered).get?_eq
    have kept := (evolves_of_after later).kept found
    refine ⟨?_, has_iff kept⟩
    intro again same
    exact EntityLookup.run_iff.mpr (.answered (same ▸ kept))

/-- A book that outlived the failed lookup of its author stays. -/
theorem answers_stay_book : ∃ c e,
    after [.lookup (.entity Sample.author)] (ofMapping Sample.library) = some c ∧
      (EntityLookup.entity Sample.book).run.runOn c = some (.ok (some e), c) ∧
      (∀ e ∈ c.entities, e.isVerified = true) ∧
      (EntityLookup.add Sample.book).run.runOn c = some (.ok (some e), c) ∧
      c.has Sample.book = true := by
  obtain ⟨c, e, -, before, found⟩ := Sample.author_looked_up
  have answered : EntityLookup.Yields c (.entity Sample.book) (.ok (some e)) c := .answered found
  obtain ⟨verified, stays⟩ := answers_stay before
  obtain ⟨same, has⟩ := stays _ _ _ answered.run [] c rfl
  exact ⟨c, e, before, answered.run, verified, same (.add Sample.book) rfl, has.mpr rfl⟩

end Context

end EntityModel
