import EntityModel.Proofs.Context.Answers
import Mathlib.Data.List.Nodup

/-!
# What listeners are told

A listener is told about every entity that is made after it was added, whether the operation that
made the entity succeeds or fails, and about each of them once (`Context.Informed`). A listener that
was there before any lookup knows exactly the managed types (`Context.told_managedTypes`).
-/

namespace EntityModel.Context

variable {m : Mapping} {forced : Bool} {c₀ c c' : Context} {l : Nat} {e : Entity}

/-- The entities that a listener was told about, in order. -/
def toldTo (c : Context) (l : Nat) : List Entity :=
  (c.deliveries.filter fun d => d.listener == l).map (·.entity)

/-! ### One discovery -/

/-- Of the messages about one entity every listener gets one. -/
lemma filter_messages {n : Nat} (h : l < n) :
    (((List.range n).map fun k => Delivery.mk k e).filter fun d => d.listener == l) =
      [⟨l, e⟩] := by
  have once : (List.range n).filter (· == l) = [l] := by
    rw [List.filter_beq, List.count_eq_one_of_mem List.nodup_range (List.mem_range.mpr h)]
    rfl
  have listeners : ((fun d => d.listener == l) ∘ fun k => Delivery.mk k e) = (· == l) := rfl
  rw [List.filter_map, listeners, once]
  rfl

/-- After a discovery every listener was told about the entities that it completed. -/
lemma toldTo_afterDiscovery {d : Discovery} (h : l < c.listeners) :
    (c.afterDiscovery d).toldTo l = c.toldTo l ++ d.completed.reverse := by
  unfold toldTo afterDiscovery
  dsimp only
  rw [List.filter_append, List.map_append, List.filter_flatMap]
  simp only [filter_messages h, List.map_flatMap, List.map_cons, List.map_nil,
    List.flatMap_singleton']

/-! ### Listeners -/

/-- Messages go to listeners that were added. -/
def IsNumbered (c : Context) : Prop :=
  ∀ d ∈ c.deliveries, d.listener < c.listeners

/-- In a new context there are no messages yet. -/
lemma IsNumbered.initial : (ofMapping m).IsNumbered := by
  intro d h
  cases h

/-- A step sends messages to listeners that were added before. -/
lemma IsNumbered.step (numbered : c.IsNumbered) (step : Step forced c c') : c'.IsNumbered := by
  cases step with
  | refused | remembered | reported => exact numbered
  | listened =>
    intro d h
    exact Nat.lt_succ_of_lt (numbered d h)
  | visited =>
    intro d h
    rcases List.mem_append.mp h with h | h
    · exact numbered d h
    · obtain ⟨e, -, h⟩ := List.mem_flatMap.mp h
      obtain ⟨k, hk, rfl⟩ := List.mem_map.mp h
      exact List.mem_range.mp hk

/-- However a context evolves, its messages go to listeners that were added. -/
lemma IsNumbered.evolve (numbered : c.IsNumbered) (h : c.Evolves forced c') : c'.IsNumbered := by
  induction h with
  | refl => exact numbered
  | tail _ step ih => exact ih.step step

/-- A listener that is yet to be added was told nothing. -/
lemma IsNumbered.toldTo_next (numbered : c.IsNumbered) : c.toldTo c.listeners = [] := by
  have none : (c.deliveries.filter fun d => d.listener == c.listeners) = [] := by
    rw [List.filter_eq_nil_iff]
    intro d h
    simpa using Nat.ne_of_lt (numbered d h)
  rw [toldTo, none]
  rfl

/-- Since a context `c₀` a listener was told about each entity that is new, once. -/
structure Informed (c₀ : Context) (l : Nat) (c : Context) : Prop where
  added : l < c.listeners
  distinct : ((c.toldTo l).map (·.type)).Nodup
  fresh : ∀ e ∈ c.toldTo l, e.type ∉ c₀.managedTypes
  entities_iff : ∀ t e, c.table.get? t = some (some e) ↔
    c₀.table.get? t = some (some e) ∨ e ∈ c.toldTo l ∧ e.type = t

namespace Informed

/-- A listener that is added was told nothing, and there is nothing new. -/
lemma initial (numbered : c.IsNumbered) : Informed c c.listeners c.addListener := by
  have told : c.addListener.toldTo c.listeners = [] := numbered.toldTo_next
  refine ⟨Nat.lt_succ_self _, ?_, ?_, ?_⟩
  · rw [told]
    exact List.nodup_nil
  · rw [told]
    exact fun e h => absurd h List.not_mem_nil
  · intro t e
    rw [told]
    simp [addListener]

/-- What a listener knows is a matter of the messages and the entities. -/
lemma congr (informed : Informed c₀ l c) (added : c.listeners ≤ c'.listeners)
    (told : c'.deliveries = c.deliveries)
    (same : ∀ t e, c'.table.get? t = some (some e) ↔ c.table.get? t = some (some e)) :
    Informed c₀ l c' := by
  have told : c'.toldTo l = c.toldTo l := by
    unfold toldTo
    rw [told]
  refine ⟨Nat.lt_of_lt_of_le informed.added added, ?_, ?_, ?_⟩
  · rw [told]
    exact informed.distinct
  · rw [told]
    exact informed.fresh
  · intro t e
    rw [same, told]
    exact informed.entities_iff t e

/-- A listener was told the entities that are in the table. -/
lemma entity (informed : Informed c₀ l c) (h : e ∈ c.toldTo l) :
    c.table.get? e.type = some (some e) :=
  (informed.entities_iff e.type e).mpr (.inr ⟨h, rfl⟩)

/-- A type without an answer had no entity before. -/
lemma not_managed (informed : Informed c₀ l c) {t} (absent : c.table.get? t = none) :
    t ∉ c₀.managedTypes := by
  intro h
  obtain ⟨e, found⟩ := mem_managedTypes_iff.mp h
  have kept := (informed.entities_iff t e).mpr (.inl found)
  rw [absent] at kept
  cases kept

/-- A discovery tells about the entities that it leaves behind, also if it fails. -/
lemma visit (informed : Informed c₀ l c) {t r d} (vis : c.mapping.Visits t c.discovery r d) :
    Informed c₀ l (c.afterDiscovery d) := by
  obtain ⟨new, g⟩ := vis.grows
  have completed : d.completed = new := g.completed.trans (List.append_nil new)
  have told := toldTo_afterDiscovery (d := d) informed.added
  rw [completed] at told
  refine ⟨informed.added, ?_, ?_, ?_⟩
  · rw [told, List.map_append, List.map_reverse]
    refine List.nodup_append.mpr ⟨informed.distinct, List.nodup_reverse.mpr g.distinct, ?_⟩
    rintro _ h₁ u h₂ rfl
    -- the entity of a type that was told about is known, a new one is of a type without an answer
    obtain ⟨e₁, he₁, rfl⟩ := List.mem_map.mp h₁
    obtain ⟨e₂, he₂, same⟩ := List.mem_map.mp (List.mem_reverse.mp h₂)
    have known := informed.entity he₁
    have absent : c.table.get? e₂.type = none := g.fresh e₂ he₂
    rw [← same, absent] at known
    cases known
  · rw [told]
    intro e he
    rcases List.mem_append.mp he with he | he
    · exact informed.fresh e he
    · exact informed.not_managed (g.fresh e (List.mem_reverse.mp he))
  · intro t e
    have grown : (c.afterDiscovery d).table.get? t = some (some e) ↔
        c.table.get? t = some (some e) ∨ ∃ u ∈ new, u.type = t ∧ some e = some u :=
      g.get?_iff t (some e)
    rw [grown, informed.entities_iff, told, List.mem_append, List.mem_reverse]
    constructor
    · rintro ((h | ⟨h, ht⟩) | ⟨u, hu, ht, same⟩)
      · exact .inl h
      · exact .inr ⟨.inl h, ht⟩
      · cases same
        exact .inr ⟨.inr hu, ht⟩
    · rintro (h | ⟨h | h, ht⟩)
      · exact .inl (.inl h)
      · exact .inl (.inr ⟨h, ht⟩)
      · exact .inr ⟨e, h, ht, rfl⟩

/-- Every step keeps a listener informed. -/
lemma step (informed : Informed c₀ l c) (step : Step forced c c') : Informed c₀ l c' := by
  cases step with
  | visited _ vis => exact informed.visit vis
  | remembered | reported => exact informed.congr (Nat.le_refl _) rfl fun _ _ => Iff.rfl
  | listened => exact informed.congr (Nat.le_succ _) rfl fun _ _ => Iff.rfl
  | refused absent _ =>
    exact informed.congr (Nat.le_refl _) rfl fun _ _ => EntityTable.get?_set_none_iff absent

/-- However a context evolves, its listeners stay informed. -/
lemma evolve (informed : Informed c₀ l c) (h : c.Evolves forced c') : Informed c₀ l c' := by
  induction h with
  | refl => exact informed
  | tail _ step ih => exact ih.step step

/-- A listener was told the types that are managed now and were not when it came. -/
lemma mem_types_iff (informed : Informed c₀ l c) {t} :
    t ∈ (c.toldTo l).map (·.type) ↔ t ∈ c.managedTypes ∧ t ∉ c₀.managedTypes := by
  constructor
  · intro h
    obtain ⟨e, he, rfl⟩ := List.mem_map.mp h
    exact ⟨mem_managedTypes_iff.mpr ⟨e, informed.entity he⟩, informed.fresh e he⟩
  · rintro ⟨h, before⟩
    obtain ⟨e, found⟩ := mem_managedTypes_iff.mp h
    rcases (informed.entities_iff t e).mp found with h | ⟨he, rfl⟩
    · exact absurd (mem_managedTypes_iff.mpr ⟨e, h⟩) before
    · exact List.mem_map_of_mem he

end Informed

/-- Adding listeners makes no entity. -/
lemma table_of_listens {ops : List Operation} (listens : ∀ op ∈ ops, op = .listen)
    (h : after ops c = some c') : c'.table = c.table := by
  induction ops generalizing c with
  | nil =>
    cases h
    rfl
  | cons op ops ih =>
    obtain rfl := listens op List.mem_cons_self
    exact ih (c := c.addListener) (fun op h => listens op (List.mem_cons_of_mem _ h)) h

/-- A listener that was added after earlier operations is told about each type once, as it becomes
managed, and about the entity that the context has for the type, which is verified by then. If
there were no earlier operations but additions of listeners, it knows exactly the managed types. -/
theorem told_managedTypes {earlier later : List Operation}
    (before : after earlier (ofMapping m) = some c₀)
    (since : after (.listen :: later) c₀ = some c) :
    ((c.toldTo c₀.listeners).map (·.type)).Nodup ∧
      (∀ e ∈ c.toldTo c₀.listeners, e.isVerified = true ∧
        c.table.get? e.type = some (some e)) ∧
      (∀ t, t ∈ (c.toldTo c₀.listeners).map (·.type) ↔
        t ∈ c.managedTypes ∧ t ∉ c₀.managedTypes) ∧
      ((∀ op ∈ earlier, op = .listen) →
        ∀ t, t ∈ (c.toldTo c₀.listeners).map (·.type) ↔ t ∈ c.managedTypes) := by
  -- the listener is the next one, so nothing was told to it before it was added
  have numbered : c₀.IsNumbered := IsNumbered.initial.evolve (evolves_of_after before)
  have later : after later c₀.addListener = some c := since
  have informed := (Informed.initial numbered).evolve (evolves_of_after later)
  have sound : c.Sound m :=
    (Sound.of_after before).evolve (evolves_of_after since)
  refine ⟨informed.distinct, ?_, fun t => informed.mem_types_iff, ?_⟩
  · intro e he
    have found := informed.entity he
    exact ⟨sound.isVerified found, found⟩
  · intro listens t
    rw [informed.mem_types_iff]
    refine and_iff_left fun h => ?_
    obtain ⟨e, found⟩ := mem_managedTypes_iff.mp h
    -- only listeners were added before, so nothing was managed then
    rw [table_of_listens listens before, ofMapping, EntityTable.get?_empty] at found
    cases found

/-- The failed lookup of an author tells the listener about the book, and about no author. -/
theorem told_book : ∃ c e,
    after [] (ofMapping Sample.library) = some (ofMapping Sample.library) ∧
      after [.listen, .lookup (.entity Sample.author)] (ofMapping Sample.library) = some c ∧
      c.table.get? Sample.book = some (some e) ∧
      ((c.toldTo 0).map (·.type)).Nodup ∧ Sample.book ∈ (c.toldTo 0).map (·.type) ∧
      Sample.author ∉ (c.toldTo 0).map (·.type) := by
  obtain ⟨e, d, failed, found⟩ := Sample.author_fails (c := (ofMapping Sample.library).addListener)
    rfl EntityTable.get?_empty EntityTable.get?_empty
  have nothing : after [] (ofMapping Sample.library) = some (ofMapping Sample.library) := rfl
  have since : after [.listen, .lookup (.entity Sample.author)] (ofMapping Sample.library) =
      some ((ofMapping Sample.library).addListener.afterDiscovery d) := after_lookup failed
  have first : (ofMapping Sample.library).listeners = 0 := rfl
  obtain ⟨distinct, -, -, managed⟩ := told_managedTypes nothing since
  rw [first] at distinct managed
  have known := managed fun op h => absurd h List.not_mem_nil
  refine ⟨_, e, nothing, since, found, distinct, ?_, ?_⟩
  · exact (known Sample.book).mpr (mem_managedTypes_iff.mpr ⟨e, found⟩)
  -- the author was not answered, since its lookup failed
  · intro h
    obtain ⟨e', found'⟩ := mem_managedTypes_iff.mp ((known Sample.author).mp h)
    have absent := (EntityLookup.run_iff.mp failed).absent
    rw [EntityLookup.type, found'] at absent
    cases absent

end EntityModel.Context
