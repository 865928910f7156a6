import EntityModel.Proofs.Discovery.Reach

/-!
# Where discoveries fail

A type is faulty if no entity can be built for it. A discovery fails exactly if its type leads to a
faulty type through types that have no answer yet (`Mapping.Visits.failed_iff`). Types with an
answer hide the faults behind them.
-/

namespace EntityModel.Mapping

variable {m : Mapping}

/-- No entity can be built for a type. -/
def IsFaulty (m : Mapping) (t : TypeRef) : Prop :=
  ∀ n e, m.build n t ≠ .ok e

/-- A type leads to a faulty type in any number of steps, and all types on the way, the first and
the last one included, are among the given ones. -/
inductive FaultBehind (m : Mapping) (among : TypeRef → Prop) : TypeRef → Prop where
  | here {t} :
    among t →
    m.IsFaulty t →
    FaultBehind m among t
  | behind {t u} :
    among t →
    m.LeadsTo t u →
    FaultBehind m among u →
    FaultBehind m among t

variable {t u : TypeRef}

namespace FaultBehind

variable {among among' : TypeRef → Prop}

/-- More types are on the way to a fault if more are allowed there. -/
lemma mono (h : ∀ u, among u → among' u) (fault : m.FaultBehind among t) :
    m.FaultBehind among' t := by
  induction fault with
  | here ha hf => exact .here (h _ ha) hf
  | behind ha hl _ ih => exact .behind (h _ ha) hl ih

/-- A type with a fault behind it is one of those that are allowed on the way. -/
lemma among_self (fault : m.FaultBehind among t) : among t := by
  cases fault with
  | here ha _ => exact ha
  | behind ha _ _ => exact ha

/-- From a type with a fault behind it a faulty one is reached. -/
lemma reaches (fault : m.FaultBehind among t) : ∃ u, m.Reaches t u ∧ m.IsFaulty u := by
  induction fault with
  | here _ faulty => exact ⟨_, .refl, faulty⟩
  | behind _ leads _ ih =>
    obtain ⟨u, reach, faulty⟩ := ih
    exact ⟨u, .head leads reach, faulty⟩

end FaultBehind

/-- A type without an outline is faulty. -/
lemma IsFaulty.of_outline {err} (h : m.outline t = .error err) : m.IsFaulty t := by
  intro n e he
  obtain ⟨decl, ps, populated, ho, -, -⟩ := build_eq_ok.mp he
  cases h.symm.trans ho

/-- A type is faulty if one of its properties is refused, whatever the serial of the entity. -/
lemma IsFaulty.of_fold {d decl ps err} (ho : m.outline t = .ok (decl, ps))
    (hf : ps.foldlM Entity.extend (m.blank d t decl) = .error err) : m.IsFaulty t := by
  intro n e he
  obtain ⟨decl', ps', populated, ho', hok, -⟩ := build_eq_ok.mp he
  cases ho.symm.trans ho'
  have renumbered : (m.blank d t decl).withSerial n =
      .make n t decl m.catalog m.rules.order := rfl
  rw [← renumbered, Entity.fold_withSerial, hf] at hok
  cases hok

/-- A discovery that fails has met a fault behind types without an answer. -/
lemma Visits.fault_of_error {t d r d'} (vis : m.Visits t d r d') :
    ∀ err, r = .error err → m.FaultBehind (fun u => d.table.get? u = none) t := by
  induction vis using Visits.rec (motive_2 := fun e ps d r _ _ =>
    ∀ err, r = .error err → (∃ err', ps.foldlM Entity.extend e = .error err') ∨
      ∃ p ∈ ps, ∃ u, m.nestedType? e.type p = some u ∧
        m.FaultBehind (fun u => d.table.get? u = none) u) with
  | known | completed =>
    intro err hr
    cases hr
  | undescribed hk ho =>
    intro err hr
    exact .here (EntityTable.contains_eq_false.mp hk) (.of_outline ho)
  | @withdrawn t d decl ps err d' hk ho pop ih =>
    intro err' hr
    have absent := EntityTable.contains_eq_false.mp hk
    rcases ih err rfl with ⟨_, hf⟩ | ⟨p, hp, u, hn, fault⟩
    · exact .here absent (.of_fold ho hf)
    · -- all types that are without an answer under the started entity were so before
      have leads : m.LeadsTo t u := ⟨decl, ps, ho, p, hp, hn⟩
      apply FaultBehind.behind absent leads
      apply fault.mono
      intro w hw
      by_cases hwt : w = t
      · rw [hwt]
        exact absent
      · rwa [Discovery.get?_start_of_ne hwt] at hw
  | nil err hr => cases hr
  | refused he err hr =>
    refine .inl ⟨err, ?_⟩
    cases hr
    rw [List.foldlM_cons, he]
    rfl
  | leaf he hn _ ih err hr =>
    rcases ih err hr with ⟨err', hf⟩ | ⟨p, hp, u, hu, fault⟩
    · refine .inl ⟨err', ?_⟩
      rw [List.foldlM_cons, he]
      exact hf
    · exact .inr ⟨p, List.mem_cons_of_mem _ hp, u, Entity.extend_type he ▸ hu, fault⟩
  | nested he hn vis _ _ ih err hr =>
    obtain ⟨new, g⟩ := vis.grows
    rcases ih err hr with ⟨err', hf⟩ | ⟨p, hp, u, hu, fault⟩
    · refine .inl ⟨err', ?_⟩
      rw [List.foldlM_cons, he]
      exact hf
    · exact .inr ⟨p, List.mem_cons_of_mem _ hp, u, Entity.extend_type he ▸ hu,
        fault.mono fun w hw => g.absent hw⟩
  | @failed e p ps e' t d err d₁ he hn vis ih err' hr =>
    exact .inr ⟨p, List.mem_cons_self, t, hn, ih err rfl⟩

/-- A discovery that succeeds leaves a type without an answer if a fault lies behind it. -/
lemma Visits.unanswered_of_fault {d d'} (vis : m.Visits t d (.ok ()) d')
    (fault : m.FaultBehind (fun u => d.table.get? u = none) u) : d'.table.contains u = false := by
  obtain ⟨new, g⟩ := vis.grows
  induction fault with
  | @here u absent faulty =>
    -- an entity of the type would have been built
    rw [EntityTable.contains_eq_false]
    cases hu : d'.table.get? u with
    | none => rfl
    | some answer =>
      rcases (g.get?_iff u answer).mp hu with h | ⟨e, he, rfl, -⟩
      · rw [absent] at h
        cases h
      · exact absurd (g.built e he) (faulty _ _)
  | @behind u v absent leads _ ih =>
    cases present : d'.table.contains u with
    | false => rfl
    | true =>
      rcases vis.settled u v absent present leads with hv | ⟨⟨_, hr⟩, -⟩
      · rw [ih] at hv
        cases hv
      · cases hr

/-- A discovery fails exactly if its type leads to a faulty one through types without an answer. -/
theorem Visits.failed_iff {d r d'} (vis : m.Visits t d r d') :
    (∃ err, r = .error err) ↔ m.FaultBehind (fun u => d.table.get? u = none) t := by
  constructor
  · rintro ⟨err, hr⟩
    exact vis.fault_of_error err hr
  · intro fault
    -- a success would have answered the type in spite of the fault
    cases r with
    | error err => exact ⟨err, rfl⟩
    | ok =>
      obtain ⟨answer, found⟩ := vis.answered
      have missing := EntityTable.contains_eq_false.mp (vis.unanswered_of_fault fault)
      rw [found] at missing
      cases missing

end EntityModel.Mapping
