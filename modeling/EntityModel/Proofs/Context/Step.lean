import EntityModel.Context.Paths
import EntityModel.Proofs.Discovery.Derivation
import Mathlib.Data.List.Forall2
import Mathlib.Logic.Relation

/-!
# Steps of a context

Everything that changes in a context changes by one of a few steps (`Context.Step`). An operation
evolves a context if it makes nothing but steps, whether it succeeds or fails
(`ContextM.Evolving`); this is kept by the ways in which operations are put together. So is what an
operation ensures of its answer and of the context that it leaves (`ContextM.Ensures`).
-/

namespace EntityModel

namespace Context

/-- One change of a context. Unless additions are forced, entities are made for eligible types only,
and under lenient rules only. A path is remembered as soon as it is resolved. -/
inductive Step (forced : Bool) : Context → Context → Prop where
  | refused {c t} :
    c.table.get? t = none →
    c.mapping.isEligible t = false →
    Step forced c { c with table := c.table.set t none }
  | visited {c t r d} :
    forced = true ∨ c.mapping.isEligible t = true ∧ c.mapping.rules.isStrict = false →
    c.mapping.Visits t c.discovery r d →
    Step forced c (c.afterDiscovery d)
  | remembered {c c₀ source t path} :
    (ContextM.resolve source t).runOn c₀ = some (.ok path, c) →
    Step forced c { c with paths := ((t, source), path) :: c.paths }
  | reported {c write} :
    Step forced c { c with skippedWrites := c.skippedWrites ++ [write] }
  | listened {c} :
    Step forced c c.addListener

/-- A context becomes another one in any number of steps. -/
def Evolves (forced : Bool) : Context → Context → Prop :=
  Relation.ReflTransGen (Step forced)

variable {forced : Bool} {c c' : Context}

/-- What may happen without force may happen with it. -/
lemma Step.force (step : Step forced c c') : Step true c c' := by
  cases step with
  | refused absent eligible => exact .refused absent eligible
  | visited _ vis => exact .visited (.inl rfl) vis
  | remembered resolved => exact .remembered resolved
  | reported => exact .reported
  | listened => exact .listened

/-- What evolves without force evolves with it. -/
lemma Evolves.force (h : Evolves forced c c') : Evolves true c c' :=
  Relation.ReflTransGen.mono (fun _ _ => Step.force) _ _ h

/-- However a context evolves, its mapping stays as it is. -/
lemma Evolves.mapping_eq (h : c.Evolves forced c') : c'.mapping = c.mapping := by
  induction h with
  | refl => rfl
  | tail _ step ih => cases step <;> exact ih

end Context

namespace ContextM

variable {α β : Type} {forced : Bool} {c c' : Context}

/-! ### Runs of composed operations -/

/-- To get the context changes nothing. -/
@[simp]
lemma runOn_get : (get : ContextM Context).runOn c = some (.ok c, c) := rfl

/-- What does not use the context leaves it as it is. -/
@[simp]
lemma runOn_lift (x : Except Error α) : (liftM x : ContextM α).runOn c = some (x, c) := by
  cases x <;> rfl

/-- What is bound runs in the context that was left, and not at all after a failure. -/
lemma runOn_bind (x : ContextM α) (f : α → ContextM β) :
    (x >>= f).runOn c = (x.runOn c).bind fun
      | (.ok a, c') => (f a).runOn c'
      | (.error err, c') => some (.error err, c') := by
  show (x.run.run c).bind _ = (x.run.run c).bind _
  congr 1
  funext ⟨r, c'⟩
  cases r <;> rfl

/-- What is bound to a success goes on with its value. -/
lemma runOn_bind_of_ok {x : ContextM α} {f : α → ContextM β} {a : α} {c₁ : Context}
    (first : x.runOn c = some (.ok a, c₁)) : (x >>= f).runOn c = (f a).runOn c₁ := by
  rw [runOn_bind, first]
  rfl

/-- What is bound to a failure fails in the same way. -/
lemma runOn_bind_of_error {x : ContextM α} {f : α → ContextM β} {err : Error} {c₁ : Context}
    (first : x.runOn c = some (.error err, c₁)) :
    (x >>= f).runOn c = some (.error err, c₁) := by
  rw [runOn_bind, first]
  rfl

/-- A composed operation succeeds if its parts do, one after the other. -/
lemma runOn_bind_ok {x : ContextM α} {f : α → ContextM β} {b : β} :
    (x >>= f).runOn c = some (.ok b, c') ↔
      ∃ a c₁, x.runOn c = some (.ok a, c₁) ∧ (f a).runOn c₁ = some (.ok b, c') := by
  rw [runOn_bind, Option.bind_eq_some_iff]
  constructor
  · rintro ⟨⟨r, c₁⟩, first, h⟩
    cases r with
    | error err => cases h
    | ok a => exact ⟨a, c₁, first, h⟩
  · rintro ⟨a, c₁, first, h⟩
    exact ⟨(.ok a, c₁), first, h⟩

/-- A composed operation fails where its first part does, or the second one after it. -/
lemma runOn_bind_error {x : ContextM α} {f : α → ContextM β} {err : Error} :
    (x >>= f).runOn c = some (.error err, c') ↔
      x.runOn c = some (.error err, c') ∨
        ∃ a c₁, x.runOn c = some (.ok a, c₁) ∧ (f a).runOn c₁ = some (.error err, c') := by
  rw [runOn_bind, Option.bind_eq_some_iff]
  constructor
  · rintro ⟨⟨r, c₁⟩, first, h⟩
    cases r with
    | error err =>
      cases h
      exact .inl first
    | ok a => exact .inr ⟨a, c₁, first, h⟩
  · rintro (first | ⟨a, c₁, first, h⟩)
    · exact ⟨(.error err, c'), first, rfl⟩
    · exact ⟨(.ok a, c₁), first, h⟩

/-- A mapped run succeeds with the mapped value. -/
lemma runOn_map_ok {x : ContextM α} {f : α → β} {b : β} :
    (f <$> x).runOn c = some (.ok b, c') ↔ ∃ a, x.runOn c = some (.ok a, c') ∧ b = f a := by
  rw [map_eq_pure_bind, runOn_bind_ok]
  constructor
  · rintro ⟨a, c₁, h, ⟨⟩⟩
    exact ⟨a, h, rfl⟩
  · rintro ⟨a, h, rfl⟩
    exact ⟨a, c', h, rfl⟩

/-- A mapped run fails as the run does. -/
lemma runOn_map_error {x : ContextM α} {f : α → β} {err : Error} :
    (f <$> x).runOn c = some (.error err, c') ↔ x.runOn c = some (.error err, c') := by
  rw [map_eq_pure_bind, runOn_bind_error]
  refine ⟨?_, .inl⟩
  rintro (h | ⟨a, c₁, -, ⟨⟩⟩)
  exact h

/-- A lifted result that succeeds leaves the context as it is. -/
lemma runOn_lift_ok {x : Except Error α} {a : α} :
    (liftM x : ContextM α).runOn c = some (.ok a, c') ↔ x = .ok a ∧ c = c' := by
  rw [runOn_lift, Option.some.injEq, Prod.mk.injEq]

/-- A lifted result that fails leaves the context as it is. -/
lemma runOn_lift_error {x : Except Error α} {err : Error} :
    (liftM x : ContextM α).runOn c = some (.error err, c') ↔ x = .error err ∧ c = c' := by
  rw [runOn_lift, Option.some.injEq, Prod.mk.injEq]

/-- A list is gone through if every element is, one after the other. -/
lemma forall₂_of_mapM {f : α → ContextM β} {xs : List α} {ys : List β}
    (h : (xs.mapM f).runOn c = some (.ok ys, c')) :
    List.Forall₂ (fun x y => ∃ c₁ c₂, (f x).runOn c₁ = some (.ok y, c₂)) xs ys := by
  induction xs generalizing c ys with
  | nil =>
    cases h
    exact .nil
  | cons x xs ih =>
    rw [List.mapM_cons] at h
    obtain ⟨y, c₁, first, h⟩ := runOn_bind_ok.mp h
    obtain ⟨rest, c₂, further, h⟩ := runOn_bind_ok.mp h
    cases h
    exact .cons ⟨c, c₁, first⟩ (ih further)

/-- Without its value a run succeeds or fails as before. -/
lemma runOn_discard {x : ContextM α} {r} (h : x.runOn c = some (r, c')) :
    (discard x).runOn c = some (r.map fun _ => (), c') := by
  show ((fun _ => ()) <$> x).runOn c = _
  rw [map_eq_pure_bind, runOn_bind, h]
  cases r <;> rfl

/-! ### Operations that evolve contexts -/

/-- An operation that changes a context by steps only, also where it fails. -/
def Evolving (forced : Bool) (x : ContextM α) : Prop :=
  ∀ c r c', x.runOn c = some (r, c') → c.Evolves forced c'

namespace Evolving

/-- Whatever an operation ends in, its context evolved. -/
lemma outcome {x : ContextM α} {o : Except Error α × Context} (hx : Evolving forced x)
    (h : x.run c = some o) : c.Evolves forced o.2 :=
  hx c o.1 o.2 h

/-- To answer at once makes no step. -/
lemma pure (a : α) : Evolving forced (pure a) := by
  intro c r c' h
  cases h
  exact .refl

/-- To fail at once makes no step. -/
lemma throw (err : Error) : Evolving forced (throw err : ContextM α) := by
  intro c r c' h
  cases h
  exact .refl

/-- To get the context makes no step. -/
lemma get : Evolving forced (get : ContextM Context) := by
  intro c r c' h
  cases h
  exact .refl

/-- What does not use the context makes no step. -/
lemma lift (x : Except Error α) : Evolving forced (liftM x : ContextM α) := by
  intro c r c' h
  rw [runOn_lift] at h
  cases h
  exact .refl

/-- A modification is a step if it is one in every context. -/
lemma modify {f : Context → Context} (h : ∀ c, Context.Step forced c (f c)) :
    Evolving forced (modify f : ContextM PUnit) := by
  intro c r c' hr
  cases hr
  exact .single (h c)

/-- Two operations, one after the other, make the steps of both. -/
lemma bind {x : ContextM α} {f : α → ContextM β} (hx : Evolving forced x)
    (hf : ∀ a, Evolving forced (f a)) : Evolving forced (x >>= f) := by
  intro c r c' h
  rw [runOn_bind] at h
  obtain ⟨⟨r₁, c₁⟩, h₁, h⟩ := Option.bind_eq_some_iff.mp h
  have first := hx c r₁ c₁ h₁
  cases r₁ with
  | error err =>
    cases h
    exact first
  | ok a => exact first.trans (hf a c₁ r c' h)

/-- To map the value makes no further step. -/
lemma map {x : ContextM α} (f : α → β) (hx : Evolving forced x) : Evolving forced (f <$> x) := by
  rw [map_eq_pure_bind]
  exact hx.bind fun a => pure (f a)

/-- A list of operations makes the steps of its members. -/
lemma mapM {xs : List α} {f : α → ContextM β} (hf : ∀ a ∈ xs, Evolving forced (f a)) :
    Evolving forced (xs.mapM f) := by
  induction xs with
  | nil => exact pure []
  | cons a xs ih =>
    rw [List.mapM_cons]
    refine (hf a List.mem_cons_self).bind fun b => ?_
    exact (ih fun a ha => hf a (List.mem_cons_of_mem _ ha)).bind fun bs => pure _

/-- A list of operations whose values are dropped makes the steps of its members. -/
lemma forM {xs : List α} {f : α → ContextM PUnit} (hf : ∀ a ∈ xs, Evolving forced (f a)) :
    Evolving forced (xs.forM f) := by
  induction xs with
  | nil => exact pure PUnit.unit
  | cons a xs ih =>
    exact (hf a List.mem_cons_self).bind fun _ =>
      ih fun a ha => hf a (List.mem_cons_of_mem _ ha)

end Evolving

/-! ### What operations ensure -/

variable {x : ContextM α} {P : α → Context → Prop} {Q : β → Context → Prop}

/-- An operation makes steps on a context, and if it succeeds, its answer and the context that it
leaves meet a condition. -/
def Ensures (c : Context) (x : ContextM α) (P : α → Context → Prop) : Prop :=
  ∀ r c', x.runOn c = some (r, c') → c.Evolves false c' ∧ ∀ a, r = .ok a → P a c'

namespace Ensures

/-- An operation ensures what holds of its successful runs. -/
lemma of_ok (hx : Evolving false x) (h : ∀ a c', x.runOn c = some (.ok a, c') → P a c') :
    Ensures c x P := by
  intro r c' hr
  refine ⟨hx c r c' hr, ?_⟩
  rintro a rfl
  exact h a c' hr

/-- A run evolves its context, and where it succeeds it has what is ensured. -/
lemma run {o : Except Error α × Context} (hx : Ensures c x P) (h : x.run c = some o) :
    c.Evolves false o.2 ∧ ∀ a, o.1 = .ok a → P a o.2 :=
  hx o.1 o.2 h

/-- What holds of a value is ensured if it is answered at once. -/
lemma pure {a : α} (h : P a c) : Ensures c (pure a) P := by
  refine of_ok (Evolving.pure a) fun a' c' hr => ?_
  cases hr
  exact h

/-- What holds of a successful result is ensured if it is lifted. -/
lemma lift {r : Except Error α} (h : ∀ a, r = .ok a → P a c) : Ensures c (liftM r) P := by
  refine of_ok (Evolving.lift r) fun a c' hr => ?_
  obtain ⟨ha, rfl⟩ := runOn_lift_ok.mp hr
  exact h a ha

/-- What follows from something that is ensured is ensured, too. -/
lemma mono {P' : α → Context → Prop} (hx : Ensures c x P)
    (h : ∀ a c', c.Evolves false c' → P a c' → P' a c') : Ensures c x P' := by
  intro r c' hr
  obtain ⟨evolves, post⟩ := hx r c' hr
  exact ⟨evolves, fun a ha => h a c' evolves (post a ha)⟩

/-- What the second operation ensures after the first one is ensured by both. -/
lemma bind {f : α → ContextM β} (hx : Ensures c x P)
    (hf : ∀ a c', c.Evolves false c' → P a c' → Ensures c' (f a) Q) : Ensures c (x >>= f) Q := by
  intro r c' h
  rw [runOn_bind] at h
  obtain ⟨⟨r₁, c₁⟩, first, h⟩ := Option.bind_eq_some_iff.mp h
  obtain ⟨evolves, post⟩ := hx r₁ c₁ first
  cases r₁ with
  | error err =>
    cases h
    exact ⟨evolves, nofun⟩
  | ok a =>
    obtain ⟨further, result⟩ := hf a c₁ evolves (post a rfl) r c' h
    exact ⟨evolves.trans further, result⟩

/-- A condition that a context does not lose is met by all answers in the end. -/
lemma mapM {xs : List α} {f : α → ContextM β}
    (kept : ∀ b c c', Context.Evolves false c c' → Q b c → Q b c')
    (hf : ∀ a ∈ xs, ∀ c', c.Evolves false c' → Ensures c' (f a) Q) :
    Ensures c (xs.mapM f) fun bs c' => ∀ b ∈ bs, Q b c' := by
  induction xs generalizing c with
  | nil => exact pure nofun
  | cons a xs ih =>
    rw [List.mapM_cons]
    refine (hf a List.mem_cons_self c .refl).bind fun b c₁ first hb => ?_
    refine (ih fun a' ha' c' later => ?_).bind fun bs c₂ second hbs => pure ?_
    · exact hf a' (List.mem_cons_of_mem a ha') c' (first.trans later)
    · exact List.forall_mem_cons.mpr ⟨kept b c₁ c₂ second hb, hbs⟩

end Ensures

end ContextM

end EntityModel
