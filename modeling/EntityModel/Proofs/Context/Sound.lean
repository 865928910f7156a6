import EntityModel.Proofs.Context.Operation
import EntityModel.Proofs.Discovery.Fault

/-!
# Sound contexts

What holds of every context under a mapping, whatever was done on it (`Context.Sound.of_after`):
entities are as their declarations have them, types without an entity are not eligible, and the
types behind the properties of an entity are answered or lead back to it.
-/

namespace EntityModel.Context

variable {m : Mapping} {forced : Bool} {c c' : Context} {t u : TypeRef} {e : Entity}

/-- What is known in a context agrees with its mapping. -/
structure Sound (m : Mapping) (c : Context) : Prop where
  mapping_eq : c.mapping = m
  built : ∀ t e, c.table.get? t = some (some e) → m.build e.serial t = .ok e
  ineligible : ∀ t, c.table.get? t = some none → m.isEligible t = false
  /-- A type behind an entity is missing only if its own discovery was given up, on the way of which
  the entity was made. -/
  leadsBack : ∀ t u e, c.table.get? t = some (some e) → m.LeadsTo t u →
    c.table.contains u = true ∨ m.Reaches u t

/-- A new context is sound, since nothing is in its table. -/
lemma Sound.initial : (ofMapping m).Sound m where
  mapping_eq := rfl
  built t e h := by
    rw [ofMapping, EntityTable.get?_empty] at h
    cases h
  ineligible t h := by
    rw [ofMapping, EntityTable.get?_empty] at h
    cases h
  leadsBack t u e h := by
    rw [ofMapping, EntityTable.get?_empty] at h
    cases h

namespace Sound

/-- The entities in a sound table are verified. -/
lemma isVerified (sound : c.Sound m) (h : c.table.get? t = some (some e)) :
    e.isVerified = true :=
  Mapping.build_isVerified (sound.built t e h)

/-- Soundness is a matter of what is answered. -/
lemma of_table_eq (sound : c.Sound m) (hm : c'.mapping = c.mapping) (ht : c'.table = c.table) :
    c'.Sound m where
  mapping_eq := hm.trans sound.mapping_eq
  built := by
    rw [ht]
    exact sound.built
  ineligible := by
    rw [ht]
    exact sound.ineligible
  leadsBack := by
    rw [ht]
    exact sound.leadsBack

/-- To remember that a type has no entity is sound if it is not eligible. -/
lemma refuse (sound : c.Sound m) (absent : c.table.get? t = none)
    (eligible : m.isEligible t = false) :
    Sound m { c with table := c.table.set t none } where
  mapping_eq := sound.mapping_eq
  built u e h := sound.built u e ((EntityTable.get?_set_none_iff absent).mp h)
  ineligible u h := by
    by_cases hu : u = t
    · rwa [hu]
    · rw [EntityTable.get?_set_of_ne hu] at h
      exact sound.ineligible u h
  leadsBack u v e h leads := by
    have before := (EntityTable.get?_set_none_iff absent).mp h
    refine (sound.leadsBack u v e before leads).imp_left fun hv => ?_
    by_cases hvt : v = t
    · rw [hvt, EntityTable.contains, EntityTable.get?_set_self]
      rfl
    · rwa [EntityTable.contains, EntityTable.get?_set_of_ne hvt]

/-- A discovery leaves a sound context, whether it succeeds or fails. -/
lemma visit {r d} (sound : c.Sound m) (vis : m.Visits t c.discovery r d) :
    (c.afterDiscovery d).Sound m := by
  obtain ⟨new, g⟩ := vis.grows
  have origin : ∀ u answer, d.table.get? u = some answer →
      c.table.get? u = some answer ∨ ∃ e ∈ new, e.type = u ∧ answer = some e :=
    fun u answer => (g.get?_iff u answer).mp
  refine ⟨sound.mapping_eq, ?_, ?_, ?_⟩
  · intro u e h
    rcases origin u _ h with h | ⟨e', he, rfl, same⟩
    · exact sound.built u e h
    · cases same
      exact g.built e he
  · intro u h
    rcases origin u _ h with h | ⟨e, -, -, same⟩
    · exact sound.ineligible u h
    · cases same
  · intro u v e h leads
    -- an earlier entity keeps what was known about it, a new one is settled by its discovery
    cases hu : c.table.get? u with
    | some answer =>
      have kept := g.kept (d := c.discovery) hu
      cases h.symm.trans kept
      refine (sound.leadsBack u v e hu leads).imp_left fun hv => ?_
      obtain ⟨answer, hv⟩ := EntityTable.contains_eq_true.mp hv
      exact EntityTable.contains_eq_true.mpr ⟨answer, g.kept hv⟩
    | none =>
      have present := EntityTable.contains_eq_true.mpr ⟨_, h⟩
      exact (vis.settled u v hu present leads).imp_right And.right

/-- Every step keeps a context sound. -/
theorem step (sound : c.Sound m) (step : Step forced c c') : c'.Sound m := by
  have hm := sound.mapping_eq
  cases step with
  | refused absent eligible => exact sound.refuse absent (hm ▸ eligible)
  | visited _ vis => exact sound.visit (hm ▸ vis)
  | remembered | reported | listened => exact sound.of_table_eq rfl rfl

/-- However a context evolves, it stays sound. -/
theorem evolve (sound : c.Sound m) (h : c.Evolves forced c') : c'.Sound m := by
  induction h with
  | refl => exact sound
  | tail _ step ih => exact ih.step step

/-- Operations in any order leave a sound context. -/
theorem of_after {ops : List Operation} (h : after ops (ofMapping m) = some c) : c.Sound m :=
  initial.evolve (evolves_of_after h)

end Sound

/-! ### Answers -/

/-- A step keeps the answers that are there. -/
lemma Step.kept {answer} (step : Step forced c c') (h : c.table.get? t = some answer) :
    c'.table.get? t = some answer := by
  cases step with
  | @refused u absent _ =>
    have hne : t ≠ u := by
      rintro rfl
      rw [absent] at h
      cases h
    exact (EntityTable.get?_set_of_ne hne).trans h
  | visited _ vis =>
    obtain ⟨new, g⟩ := vis.grows
    exact g.kept h
  | remembered | reported | listened => exact h

/-- No answer changes while a context evolves. -/
theorem Evolves.kept {answer} (h : c.Evolves forced c') (ht : c.table.get? t = some answer) :
    c'.table.get? t = some answer := by
  induction h with
  | refl => exact ht
  | tail _ step ih => exact step.kept ih

end EntityModel.Context
