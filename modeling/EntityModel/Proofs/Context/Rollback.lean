import EntityModel.Proofs.Context.Sound

/-!
# Failed lookups are rolled back

A lookup that fails keeps all earlier answers and leaves complete entities only: nothing is left of
the types that were under way when it failed. It fails in the same way when it is tried again, and
then nothing changes (`Context.failed_lookup_rollsBack`).
-/

namespace EntityModel.Context

variable {m : Mapping} {c c' : Context} {call : EntityLookup} {err : Error}

/-- What a failed lookup leaves behind. -/
structure RollsBack (m : Mapping) (c : Context) (call : EntityLookup) (err : Error) (c' : Context) :
    Prop where
  /-- Earlier answers are kept. -/
  kept : ∀ t answer, c.table.get? t = some answer → c'.table.get? t = some answer
  absent : c'.table.get? call.type = none
  /-- The lookup was refused, or its discovery broke off. -/
  broken : c' = c ∧ m.rules.isStrict = true ∨ ∃ d, m.Breaks call.type c.discovery err d
  /-- What was under way when the discovery broke off is absent. -/
  underway : ∀ d, m.Breaks call.type c.discovery err d →
    ∀ t, d.IsUnderway t → c'.table.get? t = none
  /-- What is new is a complete entity. -/
  complete : ∀ t answer, c.table.get? t = none → c'.table.get? t = some answer →
    ∃ e, answer = some e ∧ e.isVerified = true ∧ m.build e.serial t = .ok e
  /-- The lookup fails again in the same way, makes no entity and tells no listener. -/
  again : ∃ c'', call.run.runOn c' = some (.error err, c'') ∧
    (∀ t, c''.table.get? t = c'.table.get? t) ∧ c''.deliveries = c'.deliveries

/-- What is under way in a discovery had no answer in the context before. -/
lemma Sound.absent_of_underway {t u d} (sound : c.Sound m) (br : m.Breaks t c.discovery err d)
    (underway : d.IsUnderway u) : c.table.get? u = none := by
  obtain ⟨e, found, unverified⟩ := underway
  obtain ⟨_, _, _, b⟩ := br.broken
  cases hu : c.table.get? u with
  | none => rfl
  | some answer =>
    cases found.symm.trans (b.kept u answer hu)
    rw [sound.isVerified hu] at unverified
    cases unverified

/-- A lookup that is refused under strict rules changes nothing. -/
lemma Sound.rollsBack_of_unknown {t} (sound : c.Sound m) (absent : c.table.get? t = none)
    (eligible : c.mapping.isEligible t = true) (strict : c.mapping.rules.isStrict = true) :
    RollsBack m c (.entity t) (.unknownEntity t.text) c where
  kept _ _ h := h
  absent := absent
  broken := .inl ⟨rfl, sound.mapping_eq ▸ strict⟩
  underway _ br _ underway := sound.absent_of_underway br underway
  complete u answer habsent hfound := by
    cases habsent.symm.trans hfound
  again := ⟨c, EntityLookup.run_iff.mpr (.unknown absent eligible strict), fun _ => rfl, rfl⟩

/-- A discovery that fails is rolled back. -/
lemma Sound.rollsBack_of_failed {d} (sound : c.Sound m) (allowed : call.isAllowed c.mapping = true)
    (vis : c.mapping.Visits call.type c.discovery (.error err) d) :
    RollsBack m c call err (c.afterDiscovery d) := by
  have hm := sound.mapping_eq
  subst hm
  obtain ⟨new, g⟩ := vis.grows
  obtain ⟨d₁, br⟩ := vis.breaks err rfl
  refine ⟨fun t answer h => g.kept h, vis.absent, .inr ⟨d₁, br⟩, ?_, ?_, ?_⟩
  · intro d₂ br₂ t underway
    exact br₂.absent_of_underway vis (sound.absent_of_underway br₂ underway) underway
  · intro t answer habsent hfound
    rcases (g.get?_iff t answer).mp hfound with h | ⟨e, he, rfl, rfl⟩
    · cases habsent.symm.trans h
    · exact ⟨e, rfl, Mapping.build_isVerified (g.built e he), g.built e he⟩
  · -- the second attempt starts from the types that the first one left behind
    obtain ⟨d₂, again, unchanged⟩ := vis.retry err (c.afterDiscovery d).discovery rfl fun _ => rfl
    have fails := EntityLookup.Yields.failed (c := c.afterDiscovery d) vis.absent allowed again
    refine ⟨_, EntityLookup.run_iff.mpr fails, unchanged.get?_eq, ?_⟩
    have none_completed : d₂.completed = [] := unchanged.completed_eq
    simp [afterDiscovery, none_completed]

/-- Every failing lookup on a context, whatever was done on it before, is rolled back. -/
theorem failed_lookup_rollsBack {ops : List Operation} (before : after ops (ofMapping m) = some c)
    (failed : call.run.runOn c = some (.error err, c')) : RollsBack m c call err c' := by
  have sound : c.Sound m := .of_after before
  cases EntityLookup.run_iff.mp failed with
  | unknown absent eligible strict => exact sound.rollsBack_of_unknown absent eligible strict
  | failed _ allowed vis => exact sound.rollsBack_of_failed allowed vis

/-- The lookup of an author fails and keeps the book, which is new. -/
theorem author_rollsBack : ∃ c e,
    after [] (ofMapping Sample.library) = some (ofMapping Sample.library) ∧
      (EntityLookup.entity Sample.author).run.runOn (ofMapping Sample.library) =
        some (.error Sample.twoIdentifiers, c) ∧
      c.table.get? Sample.book = some (some e) ∧
      RollsBack Sample.library (ofMapping Sample.library) (.entity Sample.author)
        Sample.twoIdentifiers c := by
  obtain ⟨c, e, failed, -, found⟩ := Sample.author_looked_up
  have nothing : after [] (ofMapping Sample.library) = some (ofMapping Sample.library) := rfl
  exact ⟨c, e, nothing, failed, found, failed_lookup_rollsBack nothing failed⟩

end EntityModel.Context
