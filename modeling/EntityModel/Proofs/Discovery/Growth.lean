import EntityModel.Proofs.Discovery.Derivation
import EntityModel.Proofs.Entity.Extension

/-!
# What a discovery leaves behind

Whether it succeeds or fails, a discovery keeps all earlier answers and adds entities that are
complete (`Mapping.Visits.grows`): the entity of a type is what `Mapping.build` makes of its
declaration, whatever was discovered before or in between. All other entities that were started are
taken out again.
-/

namespace EntityModel

namespace Mapping

variable {m : Mapping} {t : TypeRef} {n : Nat} {e : Entity}

/-- The entity of a type as its declaration has it, apart from all discoveries. -/
def build (m : Mapping) (serial : Nat) (t : TypeRef) : Except Error Entity := do
  let (decl, ps) ← m.outline t
  let populated ← ps.foldlM Entity.extend (.make serial t decl m.catalog m.rules.order)
  return m.finish populated

/-- An entity that is finished is still that of its type. -/
@[simp]
lemma finish_type : (m.finish e).type = e.type := by
  unfold finish Entity.withAccess
  split <;> simp

/-- An entity that is finished keeps its number. -/
@[simp]
lemma finish_serial : (m.finish e).serial = e.serial := by
  unfold finish Entity.withAccess
  split <;> simp

/-- An entity that is finished is verified. -/
@[simp]
lemma finish_isVerified : (m.finish e).isVerified = true := by
  unfold finish Entity.withAccess
  split <;> simp

/-- An entity that is finished has the properties that it had, in whatever order. -/
lemma mem_properties_finish {p : EntityProperty} :
    p ∈ (m.finish e).properties ↔ p ∈ e.properties := by
  unfold finish Entity.withAccess
  split <;> exact Entity.mem_properties_verify

/-- An entity is built of an outline whose properties can all be added. -/
lemma build_eq_ok :
    m.build n t = .ok e ↔ ∃ decl ps populated, m.outline t = .ok (decl, ps) ∧
      ps.foldlM Entity.extend (.make n t decl m.catalog m.rules.order) = .ok populated ∧
      e = m.finish populated := by
  unfold build
  rw [bind_eq_ok]
  constructor
  · rintro ⟨⟨decl, ps⟩, ho, h⟩
    obtain ⟨populated, hf, h⟩ := bind_eq_ok.mp h
    cases h
    exact ⟨decl, ps, populated, ho, hf, rfl⟩
  · rintro ⟨decl, ps, populated, ho, hf, rfl⟩
    exact ⟨(decl, ps), ho, bind_eq_ok.mpr ⟨populated, hf, rfl⟩⟩

/-- An entity that was built is verified. -/
lemma build_isVerified (h : m.build n t = .ok e) : e.isVerified = true := by
  obtain ⟨decl, ps, populated, -, -, rfl⟩ := build_eq_ok.mp h
  exact finish_isVerified

/-- The properties of an entity are those of its outline. -/
lemma mem_outline_of_build {q : EntityProperty} (h : m.build n t = .ok e) (hq : q ∈ e.properties) :
    ∃ decl ps, m.outline t = .ok (decl, ps) ∧ q ∈ ps := by
  obtain ⟨decl, ps, populated, ho, hf, rfl⟩ := build_eq_ok.mp h
  rcases Entity.mem_properties_fold hf (mem_properties_finish.mp hq) with hq | hq
  · cases hq
  · exact ⟨decl, ps, ho, hq⟩

/-- An entity that was built lists what was added to it. -/
lemma build_isListed (h : m.build n t = .ok e) : e.IsListed := by
  obtain ⟨decl, ps, populated, -, hf, rfl⟩ := build_eq_ok.mp h
  have listed : populated.IsListed := .fold ⟨fun _ hq => hq, fun _ hq => hq⟩ hf
  exact listed.verify.withAccess _

/-- Numbers do not matter to how an entity is finished. -/
lemma finish_withSerial : m.finish (e.withSerial n) = (m.finish e).withSerial n := by
  unfold finish
  rw [Entity.verify_withSerial, Entity.withAccess_withSerial]

/-- Where there is an outline, an entity is built by adding its properties. -/
lemma build_of_outline {decl ps} (h : m.outline t = .ok (decl, ps)) :
    m.build n t =
      (ps.foldlM Entity.extend (.make n t decl m.catalog m.rules.order)).map m.finish := by
  have unfolded : m.build n t = (do
    let populated ← ps.foldlM Entity.extend (.make n t decl m.catalog m.rules.order)
    return m.finish populated) := by
    unfold build
    rw [h]
    rfl
  rw [unfolded]
  cases ps.foldlM Entity.extend (.make n t decl m.catalog m.rules.order) <;> rfl

/-- All of an entity is due to its type, except for the serial. -/
lemma build_withSerial {k : Nat} : m.build n t = (m.build k t).map (·.withSerial n) := by
  cases ho : m.outline t with
  | error err =>
    unfold build
    rw [ho]
    rfl
  | ok outline =>
    obtain ⟨decl, ps⟩ := outline
    have renumbered : Entity.make n t decl m.catalog m.rules.order =
      (Entity.make k t decl m.catalog m.rules.order).withSerial n := rfl
    rw [build_of_outline ho, build_of_outline ho, renumbered, Entity.fold_withSerial]
    cases ps.foldlM Entity.extend (.make k t decl m.catalog m.rules.order) with
    | error err => rfl
    | ok populated => exact congrArg Except.ok finish_withSerial

/-- What is made of an entity is the sum of its properties. -/
lemma Populates.fold {e ps d r d'} (pop : m.Populates e ps d r d') :
    ∀ {e'}, r = .ok e' → ps.foldlM Entity.extend e = .ok e' := by
  induction pop using Populates.rec (motive_1 := fun _ _ _ _ _ => True) with
  | known | undescribed | completed | withdrawn => trivial
  | nil =>
    rintro e' ⟨⟩
    rfl
  | refused => exact nofun
  | leaf he _ _ ih => exact fun hr => bind_eq_ok.mpr ⟨_, he, ih hr⟩
  | nested he _ _ _ _ ih => exact fun hr => bind_eq_ok.mpr ⟨_, he, ih hr⟩
  | failed => exact nofun

/-- Properties that lead to no other type are added one by one. -/
lemma Populates.of_fold {e e' ps d} (folded : ps.foldlM Entity.extend e = .ok e')
    (alone : ∀ p ∈ ps, m.nestedType? e.type p = none) : m.Populates e ps d (.ok e') d := by
  induction ps generalizing e with
  | nil =>
    cases folded
    exact .nil
  | cons p ps ih =>
    obtain ⟨e₁, extended, rest⟩ := bind_eq_ok.mp folded
    obtain ⟨here, others⟩ := List.forall_mem_cons.mp alone
    have type_eq : e₁.type = e.type := Entity.extend_type extended
    exact .leaf extended here (ih rest (type_eq ▸ others))

/-- The entity that is made of a new one is of the same type. -/
lemma Populates.finished_type {d₁ decl ps d r d'}
    (pop : m.Populates (m.blank d₁ t decl) ps d r d') (hr : r = .ok e) : (m.finish e).type = t := by
  rw [finish_type, Entity.fold_type (pop.fold hr)]
  rfl

end Mapping

namespace Discovery

variable {m : Mapping} {d d₁ d₂ : Discovery} {new new₁ new₂ : List Entity} {t : TypeRef}

/-- The second discovery is the first one with further entities completed, the newest first. -/
structure Grows (m : Mapping) (d : Discovery) (new : List Entity) (d' : Discovery) : Prop where
  completed : d'.completed = new ++ d.completed
  /-- The types of the new entities had no answer. -/
  fresh : ∀ e ∈ new, d.table.get? e.type = none
  distinct : (new.map (·.type)).Nodup
  built : ∀ e ∈ new, m.build e.serial e.type = .ok e
  /-- Every answer is an earlier one or a new entity. -/
  get?_iff : ∀ t answer, d'.table.get? t = some answer ↔
    d.table.get? t = some answer ∨ ∃ e ∈ new, e.type = t ∧ answer = some e

namespace Grows

/-- A discovery grows by nothing if nothing is done. -/
lemma refl : d.Grows m [] d where
  completed := rfl
  fresh := by simp
  distinct := List.nodup_nil
  built := by simp
  get?_iff := by simp

/-- A discovery that grows keeps the answers that are there. -/
lemma kept (g : d.Grows m new d₁) {answer} (h : d.table.get? t = some answer) :
    d₁.table.get? t = some answer :=
  (g.get?_iff t answer).mpr (.inl h)

/-- A discovery that grows keeps the types that are answered. -/
lemma contains (g : d.Grows m new d₁) (h : d.table.contains t = true) :
    d₁.table.contains t = true := by
  obtain ⟨answer, found⟩ := EntityTable.contains_eq_true.mp h
  exact EntityTable.contains_eq_true.mpr ⟨answer, g.kept found⟩

/-- The new entities of a discovery are in its table. -/
lemma entered (g : d.Grows m new d₁) {e} (he : e ∈ new) :
    d₁.table.get? e.type = some (some e) :=
  (g.get?_iff _ _).mpr (.inr ⟨e, he, rfl, rfl⟩)

/-- What is not answered after a discovery has grown was not answered before. -/
lemma absent (g : d.Grows m new d₁) (h : d₁.table.get? t = none) : d.table.get? t = none := by
  cases ht : d.table.get? t with
  | none => rfl
  | some answer => simpa [h] using g.kept ht

/-- New entities are none of a type that was started before. -/
lemma ne_of_started {e u} (g : (d.start e).Grows m new d₁) (hu : u ∈ new) : u.type ≠ e.type := by
  intro same
  have absent := g.fresh u hu
  rw [same, get?_start_self] at absent
  cases absent

/-- A discovery that grows twice grows by the new entities of both times. -/
lemma trans (g₁ : d.Grows m new₁ d₁) (g₂ : d₁.Grows m new₂ d₂) :
    d.Grows m (new₂ ++ new₁) d₂ where
  completed := by rw [g₂.completed, g₁.completed, List.append_assoc]
  fresh e he := by
    rcases List.mem_append.mp he with he | he
    · exact g₁.absent (g₂.fresh e he)
    · exact g₁.fresh e he
  distinct := by
    rw [List.map_append]
    refine List.nodup_append.mpr ⟨g₂.distinct, g₁.distinct, ?_⟩
    rintro _ h₂ u h₁ rfl
    -- the later entity had no answer after the earlier discovery, which entered one
    obtain ⟨e₂, he₂, rfl⟩ := List.mem_map.mp h₂
    obtain ⟨e₁, he₁, same⟩ := List.mem_map.mp h₁
    have found := g₁.entered he₁
    rw [same, g₂.fresh e₂ he₂] at found
    cases found
  built e he := (List.mem_append.mp he).elim (g₂.built e) (g₁.built e)
  get?_iff t answer := by
    rw [g₂.get?_iff, g₁.get?_iff]
    constructor
    · rintro ((h | ⟨e, he, h⟩) | ⟨e, he, h⟩)
      · exact .inl h
      · exact .inr ⟨e, List.mem_append_right _ he, h⟩
      · exact .inr ⟨e, List.mem_append_left _ he, h⟩
    · rintro (h | ⟨e, he, h⟩)
      · exact .inl (.inl h)
      · rcases List.mem_append.mp he with he | he
        · exact .inr ⟨e, he, h⟩
        · exact .inl (.inr ⟨e, he, h⟩)

/-- A started entity that is completed is a new entity. -/
lemma complete {e e'} (g : (d.start e).Grows m new d₁) (absent : d.table.get? e.type = none)
    (built : m.build e'.serial e'.type = .ok e') (same : e'.type = e.type) :
    d.Grows m (e' :: new) (d₁.complete e') where
  completed := by simp [Discovery.complete, g.completed, start]
  fresh u hu := by
    rcases List.mem_cons.mp hu with rfl | hu
    · rwa [same]
    · have hne := g.ne_of_started hu
      simpa [get?_start_of_ne hne] using g.fresh u hu
  distinct := by
    refine List.nodup_cons.mpr ⟨fun h => ?_, g.distinct⟩
    obtain ⟨u, hu, hue⟩ := List.mem_map.mp h
    exact g.ne_of_started hu (hue.trans same)
  built u hu := by
    rcases List.mem_cons.mp hu with rfl | hu
    · exact built
    · exact g.built u hu
  get?_iff t answer := by
    by_cases ht : t = e'.type
    · -- the answer for the type itself is the completed entity and no earlier one
      subst ht
      rw [get?_complete_self, same, absent]
      constructor
      · rintro ⟨⟩
        exact .inr ⟨e', List.mem_cons_self, same, rfl⟩
      · rintro (h | ⟨u, hu, hue, rfl⟩)
        · cases h
        · rcases List.mem_cons.mp hu with rfl | hu
          · rfl
          · exact absurd hue (g.ne_of_started hu)
    · rw [get?_complete_of_ne ht, g.get?_iff, get?_start_of_ne (same ▸ ht)]
      refine or_congr_right ⟨fun ⟨u, hu, h⟩ => ⟨u, List.mem_cons_of_mem _ hu, h⟩, ?_⟩
      rintro ⟨u, hu, hut, h⟩
      rcases List.mem_cons.mp hu with rfl | hu
      · exact absurd hut.symm ht
      · exact ⟨u, hu, hut, h⟩

/-- A started entity that is given up leaves nothing of its own. -/
lemma withdraw {e} (g : (d.start e).Grows m new d₁) (absent : d.table.get? e.type = none) :
    d.Grows m new (d₁.withdraw e.type) where
  completed := by simp [Discovery.withdraw, g.completed, start]
  fresh u hu := by
    simpa [get?_start_of_ne (g.ne_of_started hu)] using g.fresh u hu
  distinct := g.distinct
  built := g.built
  get?_iff t answer := by
    by_cases ht : t = e.type
    · subst ht
      rw [get?_withdraw_self, absent]
      refine ⟨nofun, ?_⟩
      rintro (h | ⟨u, hu, hut, -⟩)
      · cases h
      · exact absurd hut (g.ne_of_started hu)
    · rw [get?_withdraw_of_ne ht, g.get?_iff, get?_start_of_ne ht]

end Grows

end Discovery

namespace Mapping

variable {m : Mapping} {t : TypeRef} {e : Entity}

/-- A discovery keeps all earlier answers and adds complete entities only. -/
theorem Visits.grows {t d r d'} (vis : m.Visits t d r d') : ∃ new, d.Grows m new d' := by
  induction vis using Visits.rec (motive_2 := fun _ _ d _ d' _ => ∃ new, d.Grows m new d') with
  -- what is known already, or has no outline, leaves the discovery as it was
  | known | undescribed => exact ⟨[], .refl⟩
  | @completed t d decl ps e d' hk ho pop ih =>
    obtain ⟨new, g⟩ := ih
    have hf := pop.fold rfl
    have hs : e.serial = d.table.next := Entity.fold_serial hf
    have ht : (m.finish e).type = t := pop.finished_type rfl
    -- the entity is built alike outside the discovery, which is what growing by it means
    have built : m.build (m.finish e).serial (m.finish e).type = .ok (m.finish e) := by
      rw [finish_serial, hs, ht]
      exact build_eq_ok.mpr ⟨decl, ps, e, ho, hf, rfl⟩
    exact ⟨_, g.complete (EntityTable.contains_eq_false.mp hk) built ht⟩
  -- the type itself is taken back, but what was completed behind it stays
  | @withdrawn t d decl ps err d' hk ho pop ih =>
    obtain ⟨new, g⟩ := ih
    exact ⟨new, g.withdraw (EntityTable.contains_eq_false.mp hk)⟩
  | nil | refused => exact ⟨[], .refl⟩
  | leaf _ _ _ ih => exact ih
  | nested _ _ _ _ ihv ihp =>
    obtain ⟨_, gv⟩ := ihv
    obtain ⟨_, gp⟩ := ihp
    exact ⟨_, gv.trans gp⟩
  | failed _ _ _ ih => exact ih

/-- To populate an entity makes a discovery grow. -/
lemma Populates.grows {e ps d r d'} (pop : m.Populates e ps d r d') : ∃ new, d.Grows m new d' := by
  induction pop using Populates.rec (motive_1 := fun _ _ _ _ _ => True) with
  | known | undescribed | completed | withdrawn => trivial
  | nil | refused => exact ⟨[], .refl⟩
  | leaf _ _ _ ih => exact ih
  | nested _ _ vis _ _ ih =>
    obtain ⟨_, gv⟩ := vis.grows
    obtain ⟨_, gp⟩ := ih
    exact ⟨_, gv.trans gp⟩
  | failed _ _ vis _ => exact vis.grows

/-- A discovery that succeeds has an answer for its type. -/
lemma Visits.answered {t d d'} (vis : m.Visits t d (.ok ()) d') :
    ∃ answer, d'.table.get? t = some answer := by
  cases vis with
  | known hk => exact EntityTable.contains_eq_true.mp hk
  | completed hk ho pop => exact ⟨_, pop.finished_type rfl ▸ Discovery.get?_complete_self⟩

/-- A type whose properties lead to no other type is made by itself. -/
lemma exists_visits_alone {d : Discovery} {decl ps} (absent : d.table.contains t = false)
    (outlined : m.outline t = .ok (decl, ps))
    (folded : ps.foldlM Entity.extend (m.blank d t decl) = .ok e)
    (alone : ∀ p ∈ ps, m.nestedType? t p = none) :
    ∃ d', m.Visits t d (.ok ()) d' ∧ d'.table.get? t = some (some (m.finish e)) ∧
      ∀ u ≠ t, d'.table.get? u = d.table.get? u := by
  have populated : m.Populates (m.blank d t decl) ps (d.start (m.blank d t decl)) (.ok e) _ :=
    .of_fold folded alone
  have type_eq : (m.finish e).type = t := populated.finished_type rfl
  refine ⟨_, .completed absent outlined populated, type_eq ▸ Discovery.get?_complete_self, ?_⟩
  intro u hu
  rw [Discovery.get?_complete_of_ne (type_eq ▸ hu)]
  exact Discovery.get?_start_of_ne hu

/-- A discovery that fails has no answer for its type. -/
lemma Visits.absent {t d err d'} (vis : m.Visits t d (.error err) d') :
    d'.table.get? t = none := by
  cases vis with
  | undescribed hk _ => exact EntityTable.contains_eq_false.mp hk
  | withdrawn => exact Discovery.get?_withdraw_self

/-- A visit has one outcome at most. -/
lemma Visits.unique {t d r₁ d₁ r₂ d₂} (v₁ : m.Visits t d r₁ d₁) (v₂ : m.Visits t d r₂ d₂) :
    r₁ = r₂ ∧ d₁ = d₂ := by
  have same := v₁.run.symm.trans v₂.run
  cases same
  exact ⟨rfl, rfl⟩

end Mapping

end EntityModel
