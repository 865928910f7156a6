import EntityModel.Context.Discovery
import Mathlib.Tactic.Lemma

/-!
# Derivations of discoveries

The course of a discovery as a pair of relations, `Visits` for one type and `Populates` for the
properties of one entity, with one rule for each way in which a step can go. `visit_iff` shows that
derivations are what `visit` computes. Everything else about discoveries is proved by induction on
derivations.
-/

namespace EntityModel.Mapping

mutual

/-- Seeing to it that a type has an answer leads from one discovery to another. -/
inductive Visits (m : Mapping) : TypeRef → Discovery → Except Error Unit → Discovery → Prop where
  | known {t d} :
    d.table.contains t = true →
    Visits m t d (.ok ()) d
  | undescribed {t d err} :
    d.table.contains t = false →
    m.outline t = .error err →
    Visits m t d (.error err) d
  | completed {t d decl ps e d'} :
    d.table.contains t = false →
    m.outline t = .ok (decl, ps) →
    Populates m (m.blank d t decl) ps (d.start (m.blank d t decl)) (.ok e) d' →
    Visits m t d (.ok ()) (d'.complete (m.finish e))
  | withdrawn {t d decl ps err d'} :
    d.table.contains t = false →
    m.outline t = .ok (decl, ps) →
    Populates m (m.blank d t decl) ps (d.start (m.blank d t decl)) (.error err) d' →
    Visits m t d (.error err) (d'.withdraw t)

/-- Adding properties to an entity leads from one discovery to another. -/
inductive Populates (m : Mapping) :
    Entity → List EntityProperty → Discovery → Except Error Entity → Discovery → Prop where
  | nil {e d} :
    Populates m e [] d (.ok e) d
  | refused {e p ps d err} :
    e.extend p = .error err →
    Populates m e (p :: ps) d (.error err) d
  | leaf {e p ps e' d r d'} :
    e.extend p = .ok e' →
    m.nestedType? e.type p = none →
    Populates m e' ps d r d' →
    Populates m e (p :: ps) d r d'
  | nested {e p ps e' t d d₁ r d'} :
    e.extend p = .ok e' →
    m.nestedType? e.type p = some t →
    Visits m t d (.ok ()) d₁ →
    Populates m e' ps d₁ r d' →
    Populates m e (p :: ps) d r d'
  | failed {e p ps e' t d err d₁} :
    e.extend p = .ok e' →
    m.nestedType? e.type p = some t →
    Visits m t d (.error err) d₁ →
    Populates m e (p :: ps) d (.error err) d₁

end

variable {m : Mapping}

/-- What is computed has a derivation. -/
lemma derivation_of_run :
    (∀ t d o, m.visit t d = some o → m.Visits t d o.1 o.2) ∧
      ∀ e ps d o, m.populate e ps d = some o → m.Populates e ps d o.1 o.2 := by
  refine visit.mutual_partial_correctness m (fun t d o => m.Visits t d o.1 o.2)
    (fun e ps d o => m.Populates e ps d o.1 o.2) ?_ ?_
  · -- a type has an answer, has no outline, or its properties are added
    intro populate ih t d o h
    split at h
    case isTrue hk =>
      cases h
      exact .known hk
    case isFalse hk =>
      have hk := Bool.eq_false_iff.mpr hk
      split at h
      case h_1 err ho =>
        cases h
        exact .undescribed hk ho
      case h_2 decl ps ho =>
        obtain ⟨⟨r, d'⟩, hp, h⟩ := Option.bind_eq_some_iff.mp h
        have pop := ih _ _ _ _ hp
        cases r <;> cases h
        case error err => exact .withdrawn hk ho pop
        case ok e => exact .completed hk ho pop
  · -- the first property decides whether and where to go before the others
    intro visit populate ihv ihp e ps d o h
    split at h
    case h_1 =>
      cases h
      exact .nil
    case h_2 p ps =>
      split at h
      case h_1 err he =>
        cases h
        exact .refused he
      case h_2 e' he =>
        split at h
        case h_1 hn => exact .leaf he hn (ihp _ _ _ _ h)
        case h_2 t hn =>
          obtain ⟨⟨r, d₁⟩, hv, h⟩ := Option.bind_eq_some_iff.mp h
          have vis := ihv _ _ _ hv
          cases r
          case error err =>
            cases h
            exact .failed he hn vis
          case ok => exact .nested he hn vis (ihp _ _ _ _ h)

/-- A visit that can be derived is what the discovery does. -/
lemma Visits.run {t d r d'} (vis : m.Visits t d r d') : m.visit t d = some (r, d') := by
  induction vis using Visits.rec
    (motive_2 := fun e ps d r d' _ => m.populate e ps d = some (r, d')) with
  | known hk => rw [visit, if_pos hk]
  | undescribed hk ho => rw [visit, if_neg (by simp [hk]), ho]
  | completed hk ho _ ih => rw [visit, if_neg (by simp [hk]), ho]; simp [ih]
  | withdrawn hk ho _ ih => rw [visit, if_neg (by simp [hk]), ho]; simp [ih]
  | nil => rw [populate]
  | refused he => rw [populate, he]
  | leaf he hn _ ih => rw [populate, he]; simp [hn, ih]
  | nested he hn _ _ ihv ihp => rw [populate, he]; simp [hn, ihv, ihp]
  | failed he hn _ ih => rw [populate, he]; simp [hn, ih]

/-- The relation on types is what `visit` computes. -/
lemma visit_iff {t d r d'} : m.visit t d = some (r, d') ↔ m.Visits t d r d' :=
  ⟨derivation_of_run.1 t d (r, d'), Visits.run⟩

end EntityModel.Mapping
