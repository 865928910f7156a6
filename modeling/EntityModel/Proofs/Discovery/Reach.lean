import EntityModel.Proofs.Discovery.Growth
import Mathlib.Logic.Relation

/-!
# The types that a discovery follows

A type leads to the eligible types behind its properties (`Mapping.LeadsTo`). A discovery enters no
type that its own type does not reach (`Mapping.Visits.reaches_of_new`). What a type leads to is
answered after a discovery has completed the type, or was given up later; then it leads back to the
type (`Mapping.Visits.settled`).
-/

namespace EntityModel.Mapping

variable {m : Mapping} {t u v : TypeRef} {decl : TypeDecl} {ps : List EntityProperty}
  {p q : EntityProperty}

/-! ### From a type to the types behind its properties -/

/-- A type leads to the types that become entities together with it. -/
def LeadsTo (m : Mapping) (t u : TypeRef) : Prop :=
  ∃ decl ps, m.outline t = .ok (decl, ps) ∧ ∃ p ∈ ps, m.nestedType? t p = some u

/-- A type reaches what it leads to in any number of steps. -/
def Reaches (m : Mapping) : TypeRef → TypeRef → Prop :=
  Relation.ReflTransGen m.LeadsTo

/-- An outline is made of a declaration and its properties. -/
lemma outline_eq_ok (h : m.outline t = .ok (decl, ps)) :
    m.catalog.required t = .ok decl ∧ m.propertiesOf t decl = .ok ps := by
  obtain ⟨decl', hr, h⟩ := bind_eq_ok.mp h
  obtain ⟨ps', hp, h⟩ := bind_eq_ok.mp h
  cases h
  exact ⟨hr, hp⟩

/-- The properties of an outline take part in its entity, and their type decides what is behind
them. -/
lemma of_mem_outline (h : m.outline t = .ok (decl, ps)) (hp : p ∈ ps) :
    p.isTransient = false ∧
      p.entityType = EntityProperty.entityTypeOf m.simpleTypes p.type := by
  obtain ⟨-, h⟩ := outline_eq_ok h
  obtain ⟨bs, -, h⟩ := bind_eq_ok.mp h
  cases h
  obtain ⟨hmade, htakes⟩ := List.mem_filter.mp hp
  obtain ⟨b, -, rfl⟩ := List.mem_map.mp hmade
  rw [takesPart, Bool.and_eq_true, Bool.not_eq_true'] at htakes
  exact ⟨htakes.1, rfl⟩

/-- The entity type behind a property is an actual type. -/
lemma entityTypeOf_eq_some {simple : SimpleTypes}
    (h : EntityProperty.entityTypeOf simple t = some u) : u = t.actual := by
  unfold EntityProperty.entityTypeOf at h
  dsimp only at h
  split at h
  · cases h
  · exact (Option.some.inj h).symm

/-- A property leads to its actual type if that may be an entity and is eligible. -/
lemma nestedType?_eq_some (h : m.outline t = .ok (decl, ps)) (hp : p ∈ ps) :
    m.nestedType? t p = some u ↔
      p.isEntity = true ∧ p.rawTypeName ≠ t.name ∧ m.isEligible p.actual = true ∧ u = p.actual := by
  obtain ⟨-, hbehind⟩ := of_mem_outline h hp
  unfold nestedType? EntityProperty.entityTypes
  by_cases hraw : p.rawTypeName = t.name
  · simp [hraw]
  · by_cases hentity : p.isEntity = true
    · have hsome := hentity
      rw [EntityProperty.isEntity, Bool.and_eq_true] at hsome
      obtain ⟨w, hw⟩ := Option.isSome_iff_exists.mp hsome.2
      have hactual : w = p.actual := entityTypeOf_eq_some (hbehind ▸ hw)
      subst hactual
      rw [if_neg hraw, if_pos hentity, hw, Option.toList_some, List.find?_singleton]
      by_cases he : m.isEligible p.actual = true
      · simp [he, hraw, hentity, eq_comm]
      · simp [he]
    · simp [hraw, hentity]

/-- Properties of one type lead to the same type. -/
lemma nestedType?_congr (h : m.outline t = .ok (decl, ps)) (hp : p ∈ ps) (hq : q ∈ ps)
    (same : q.type = p.type) : m.nestedType? t q = m.nestedType? t p := by
  obtain ⟨hpt, hpe⟩ := of_mem_outline h hp
  obtain ⟨hqt, hqe⟩ := of_mem_outline h hq
  have hbehind : q.entityType = p.entityType := by rw [hpe, hqe, same]
  have hentity : q.entityTypes = p.entityTypes := by
    simp only [EntityProperty.entityTypes, EntityProperty.isEntity, hpt, hqt, hbehind]
  unfold nestedType?
  rw [hentity, EntityProperty.rawTypeName, EntityProperty.rawTypeName, same]

/-- A type leads to what is nested in a property of its outline. -/
lemma leadsTo_iff (h : m.outline t = .ok (decl, ps)) :
    m.LeadsTo t u ↔ ∃ p ∈ ps, m.nestedType? t p = some u := by
  constructor
  · rintro ⟨decl', ps', ho, leads⟩
    cases h.symm.trans ho
    exact leads
  · exact fun leads => ⟨decl, ps, h, leads⟩

/-- A type leads to eligible types only. -/
lemma LeadsTo.eligible (h : m.LeadsTo t u) : m.isEligible u = true := by
  obtain ⟨decl, ps, ho, p, hp, hn⟩ := h
  obtain ⟨-, -, he, rfl⟩ := (nestedType?_eq_some ho hp).mp hn
  exact he

/-- The properties of an entity lead to the same types as the properties of its outline. -/
lemma leadsTo_iff_of_build {n e} (h : m.build n t = .ok e) :
    m.LeadsTo t u ↔ ∃ p ∈ e.properties, p.isEntity = true ∧ p.rawTypeName ≠ t.name ∧
      m.isEligible p.actual = true ∧ u = p.actual := by
  obtain ⟨decl, ps, populated, ho, hf, rfl⟩ := build_eq_ok.mp h
  have from_outline : ∀ q ∈ (m.finish populated).properties, q ∈ ps := by
    intro q hq
    obtain ⟨decl', ps', ho', hq⟩ := mem_outline_of_build h hq
    cases ho.symm.trans ho'
    exact hq
  constructor
  · intro leads
    obtain ⟨p, hp, hn⟩ := (leadsTo_iff ho).mp leads
    obtain ⟨q, hq, -, same⟩ := Entity.exists_of_fold hf hp
    have hq := (mem_properties_finish (m := m)).mpr hq
    rw [← nestedType?_congr ho hp (from_outline q hq) same] at hn
    exact ⟨q, hq, (nestedType?_eq_some ho (from_outline q hq)).mp hn⟩
  · rintro ⟨p, hp, h⟩
    exact ⟨decl, ps, ho, p, from_outline p hp, (nestedType?_eq_some ho (from_outline p hp)).mpr h⟩

/-! ### What a discovery enters -/

/-- A discovery enters only what its type reaches. -/
theorem Visits.reaches_of_new {d r d'} (vis : m.Visits t d r d') :
    ∀ u, d.table.get? u = none → d'.table.contains u = true → m.Reaches t u := by
  induction vis using Visits.rec (motive_2 := fun e ps d _ d' _ =>
    ∀ u, d.table.get? u = none → d'.table.contains u = true →
      ∃ p ∈ ps, ∃ t, m.nestedType? e.type p = some t ∧ m.Reaches t u) with
  | known | undescribed =>
    intro u absent present
    cases (EntityTable.contains_eq_false.mpr absent).symm.trans present
  | @completed t d decl ps e d' hk ho pop ih =>
    intro u absent present
    by_cases hu : u = t
    · rw [hu]
      exact .refl
    · have hfinish : (m.finish e).type = t := pop.finished_type rfl
      rw [Discovery.contains_complete_of_ne (hfinish ▸ hu)] at present
      have before : (d.start (m.blank d t decl)).table.get? u = none :=
        (Discovery.get?_start_of_ne hu).trans absent
      obtain ⟨p, hp, w, hn, hw⟩ := ih u before present
      have leads : m.LeadsTo t w := ⟨decl, ps, ho, p, hp, hn⟩
      exact .head leads hw
  | @withdrawn t d decl ps err d' hk ho pop ih =>
    intro u absent present
    by_cases hu : u = t
    · rw [hu]
      exact .refl
    · rw [Discovery.contains_withdraw_of_ne hu] at present
      have before : (d.start (m.blank d t decl)).table.get? u = none :=
        (Discovery.get?_start_of_ne hu).trans absent
      obtain ⟨p, hp, w, hn, hw⟩ := ih u before present
      have leads : m.LeadsTo t w := ⟨decl, ps, ho, p, hp, hn⟩
      exact .head leads hw
  | nil | refused =>
    rename_i u absent present
    cases (EntityTable.contains_eq_false.mpr absent).symm.trans present
  | leaf he _ _ ih u absent present =>
    obtain ⟨p, hp, w, hn, hw⟩ := ih u absent present
    exact ⟨p, List.mem_cons_of_mem _ hp, w, Entity.extend_type he ▸ hn, hw⟩
  | @nested e p ps e' t d d₁ r d' he hn vis pop ihv ihp u absent present =>
    -- the type was entered behind the first property or behind a later one
    cases hu : d₁.table.get? u with
    | some answer =>
      have entered := ihv u absent (EntityTable.contains_eq_true.mpr ⟨answer, hu⟩)
      exact ⟨p, List.mem_cons_self, t, hn, entered⟩
    | none =>
      obtain ⟨q, hq, w, hn, hw⟩ := ihp u hu present
      exact ⟨q, List.mem_cons_of_mem _ hq, w, Entity.extend_type he ▸ hn, hw⟩
  | @failed e p ps e' t d err d₁ he hn vis ih u absent present =>
    exact ⟨p, List.mem_cons_self, t, hn, ih u absent present⟩

/-- After all properties were added, the types behind them are answered. -/
lemma Populates.answered {e ps d r d'} (pop : m.Populates e ps d r d') :
    ∀ e', r = .ok e' → ∀ p ∈ ps, ∀ u, m.nestedType? e.type p = some u →
      d'.table.contains u = true := by
  induction pop using Populates.rec (motive_1 := fun _ _ _ _ _ => True) with
  | known | undescribed | completed | withdrawn => trivial
  | nil =>
    intro _ _ p hp
    cases hp
  | refused | failed =>
    intro _ hr
    cases hr
  | @leaf e p ps e' d r d' he hn pop ih =>
    intro e'' hr q hq u hu
    rcases List.mem_cons.mp hq with rfl | hq
    -- this property has no nested type
    · rw [hn] at hu
      cases hu
    · exact ih e'' hr q hq u ((Entity.extend_type he).symm ▸ hu)
  | @nested e p ps e' t d d₁ r d' he hn vis pop _ ih =>
    intro e'' hr q hq u hu
    rcases List.mem_cons.mp hq with rfl | hq
    · cases hn.symm.trans hu
      -- the type was answered by its visit, and the later properties take no answer back
      obtain ⟨new, g⟩ := pop.grows
      exact g.contains (EntityTable.contains_eq_true.mpr vis.answered)
    · exact ih e'' hr q hq u ((Entity.extend_type he).symm ▸ hu)

/-- What a new entity leads to is answered, unless the discovery fails and the type leads back to
the entity. -/
theorem Visits.settled {t d r d'} (vis : m.Visits t d r d') :
    ∀ u v, d.table.get? u = none → d'.table.contains u = true → m.LeadsTo u v →
      d'.table.contains v = true ∨ (∃ err, r = .error err) ∧ m.Reaches v u := by
  induction vis using Visits.rec (motive_2 := fun e ps d r d' _ =>
    ∀ u v, d.table.get? u = none → d'.table.contains u = true → m.LeadsTo u v →
      d'.table.contains v = true ∨ (∃ err, r = .error err) ∧ m.Reaches v u) with
  | known | undescribed =>
    intro u v absent present
    cases (EntityTable.contains_eq_false.mpr absent).symm.trans present
  | @completed t d decl ps e d' hk ho pop ih =>
    intro u v absent present leads
    have hfinish : (m.finish e).type = t := pop.finished_type rfl
    have answered : d'.table.contains v = true →
        (d'.complete (m.finish e)).table.contains v = true := by
      intro hv
      by_cases hvt : v = t
      · rw [hvt, ← hfinish]
        exact Discovery.contains_complete_self
      · rwa [Discovery.contains_complete_of_ne (hfinish ▸ hvt)]
    -- the type itself leads to what its properties led to, any other one is settled before
    by_cases hu : u = t
    · subst hu
      obtain ⟨p, hp, hn⟩ := (leadsTo_iff ho).mp leads
      exact .inl (answered (pop.answered e rfl p hp v hn))
    · rw [Discovery.contains_complete_of_ne (hfinish ▸ hu)] at present
      have before : (d.start (m.blank d t decl)).table.get? u = none :=
        (Discovery.get?_start_of_ne hu).trans absent
      rcases ih u v before present leads with hv | ⟨⟨_, hr⟩, -⟩
      · exact .inl (answered hv)
      · cases hr
  | @withdrawn t d decl ps err d' hk ho pop ih =>
    intro u v absent present leads
    by_cases hu : u = t
    · subst hu
      rw [Discovery.contains_withdraw_self] at present
      cases present
    · -- the type that is given up reaches whatever its discovery entered
      have back : m.Reaches t u :=
        (Visits.withdrawn hk ho pop).reaches_of_new u absent present
      rw [Discovery.contains_withdraw_of_ne hu] at present
      have before : (d.start (m.blank d t decl)).table.get? u = none :=
        (Discovery.get?_start_of_ne hu).trans absent
      rcases ih u v before present leads with hv | ⟨-, hback⟩
      · by_cases hvt : v = t
        · subst hvt
          exact .inr ⟨⟨_, rfl⟩, back⟩
        · rw [Discovery.contains_withdraw_of_ne hvt]
          exact .inl hv
      · exact .inr ⟨⟨_, rfl⟩, hback⟩
  | nil | refused =>
    rename_i u v absent present leads
    cases (EntityTable.contains_eq_false.mpr absent).symm.trans present
  | leaf he _ _ ih u v absent present leads => exact ih u v absent present leads
  | @nested e p ps e' t d d₁ r d' he hn vis pop ihv ihp u v absent present leads =>
    cases hu : d₁.table.get? u with
    | some answer =>
      have entered := EntityTable.contains_eq_true.mpr ⟨answer, hu⟩
      rcases ihv u v absent entered leads with hv | ⟨⟨_, hr⟩, -⟩
      · obtain ⟨new, g⟩ := pop.grows
        exact .inl (g.contains hv)
      · cases hr
    | none => exact ihp u v hu present leads
  | failed he hn vis ih u v absent present leads =>
    rcases ih u v absent present leads with hv | ⟨-, back⟩
    · exact .inl hv
    · exact .inr ⟨⟨_, rfl⟩, back⟩

end EntityModel.Mapping
