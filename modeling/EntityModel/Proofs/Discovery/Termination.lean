import EntityModel.Proofs.Discovery.Reach
import Mathlib.Data.Set.Finite.Basic

/-!
# Discoveries end

A discovery of a type that reaches finitely many types has an outcome (`Mapping.exists_visits`),
whether these lead back to each other or not: a type that is entered has an answer while the types
behind its properties are followed, so fewer types are left without one.
-/

namespace EntityModel

/-- The given types that have no answer. -/
def Discovery.unanswered (S : Finset TypeRef) (d : Discovery) : Finset TypeRef :=
  S.filter fun u => d.table.contains u = false

namespace Discovery

variable {m : Mapping} {S : Finset TypeRef} {d d' : Discovery} {new : List Entity}

/-- A discovery that grows leaves no more types unanswered. -/
lemma Grows.unanswered_card_le (g : d.Grows m new d') :
    (d'.unanswered S).card ≤ (d.unanswered S).card := by
  apply Finset.card_le_card
  intro u hu
  obtain ⟨hS, absent⟩ := Finset.mem_filter.mp hu
  have before := g.absent (EntityTable.contains_eq_false.mp absent)
  exact Finset.mem_filter.mpr ⟨hS, EntityTable.contains_eq_false.mpr before⟩

/-- To start an entity leaves one type less unanswered. -/
lemma unanswered_start_card_lt {e : Entity} (hS : e.type ∈ S)
    (absent : d.table.contains e.type = false) :
    ((d.start e).unanswered S).card < (d.unanswered S).card := by
  refine Finset.card_lt_card (Finset.ssubset_iff_of_subset ?_ |>.mpr ⟨e.type, ?_, ?_⟩)
  · intro u hu
    obtain ⟨huS, hu⟩ := Finset.mem_filter.mp hu
    refine Finset.mem_filter.mpr ⟨huS, ?_⟩
    by_cases hue : u = e.type
    · rwa [hue]
    · rwa [contains_start_of_ne hue] at hu
  · exact Finset.mem_filter.mpr ⟨hS, absent⟩
  · intro he
    obtain ⟨-, he⟩ := Finset.mem_filter.mp he
    rw [contains_start_self] at he
    cases he

end Discovery

namespace Mapping

variable {m : Mapping} {S : Finset TypeRef}

/-- Properties are added to the end if the types behind them are visited to the end. -/
lemma exists_populates {n : Nat}
    (visits : ∀ t ∈ S, ∀ d, (d.unanswered S).card < n → ∃ r d', m.Visits t d r d') :
    ∀ ps e d, (∀ p ∈ ps, ∀ u, m.nestedType? e.type p = some u → u ∈ S) →
      (d.unanswered S).card < n → ∃ r d', m.Populates e ps d r d' := by
  intro ps
  induction ps with
  | nil =>
    intro e d _ _
    exact ⟨_, _, .nil⟩
  | cons p ps ih =>
    intro e d nested small
    cases he : e.extend p with
    | error err => exact ⟨_, _, .refused he⟩
    | ok e' =>
      -- the entity keeps its type, so the same types are behind the later properties
      have nested' : ∀ q ∈ ps, ∀ u, m.nestedType? e'.type q = some u → u ∈ S := by
        intro q hq u hu
        rw [Entity.extend_type he] at hu
        exact nested q (List.mem_cons_of_mem _ hq) u hu
      cases hn : m.nestedType? e.type p with
      | none =>
        obtain ⟨r, d', pop⟩ := ih e' d nested' small
        exact ⟨r, d', .leaf he hn pop⟩
      | some t =>
        obtain ⟨r, d₁, vis⟩ := visits t (nested p List.mem_cons_self t hn) d small
        cases r with
        | error err => exact ⟨_, _, .failed he hn vis⟩
        | ok =>
          -- a visit leaves no more types unanswered, so the later properties may be visited, too
          obtain ⟨new, g⟩ := vis.grows
          obtain ⟨r, d', pop⟩ := ih e' d₁ nested' (g.unanswered_card_le.trans_lt small)
          exact ⟨r, d', .nested he hn vis pop⟩

/-- Among finitely many types that lead to none but each other every discovery has an outcome. -/
lemma exists_visits_among (closed : ∀ t ∈ S, ∀ u, m.LeadsTo t u → u ∈ S) :
    ∀ n, ∀ t ∈ S, ∀ d, (d.unanswered S).card < n → ∃ r d', m.Visits t d r d' := by
  intro n
  induction n with
  | zero =>
    intro t _ d small
    cases small
  | succ n ih =>
    intro t hS d small
    cases hk : d.table.contains t with
    | true => exact ⟨_, _, .known hk⟩
    | false =>
      cases ho : m.outline t with
      | error err => exact ⟨_, _, .undescribed hk ho⟩
      | ok outline =>
        obtain ⟨decl, ps⟩ := outline
        -- the type itself is answered while its properties are added
        have fewer := Discovery.unanswered_start_card_lt (e := m.blank d t decl) hS hk
        have nested : ∀ p ∈ ps, ∀ u, m.nestedType? t p = some u → u ∈ S :=
          fun p hp u hu => closed t hS u ⟨decl, ps, ho, p, hp, hu⟩
        obtain ⟨r, d', pop⟩ := exists_populates ih ps (m.blank d t decl)
          (d.start (m.blank d t decl)) nested (by omega)
        cases r with
        | error err => exact ⟨_, _, .withdrawn hk ho pop⟩
        | ok e => exact ⟨_, _, .completed hk ho pop⟩

/-- The discovery of a type that reaches finitely many types has an outcome. -/
theorem exists_visits {t : TypeRef} {d : Discovery} (finite : {u | m.Reaches t u}.Finite) :
    ∃ r d', m.Visits t d r d' := by
  refine exists_visits_among (S := finite.toFinset) ?_ _ t ?_ d (Nat.lt_succ_self _)
  · intro u hu v leads
    rw [Set.Finite.mem_toFinset] at hu ⊢
    exact hu.tail leads
  · rw [Set.Finite.mem_toFinset]
    exact .refl

end Mapping

end EntityModel
