import EntityModel.Proofs.Value.Parts
import EntityModel.Value.Equality
import Mathlib.Data.Fintype.EquivFin
import Mathlib.Data.List.Forall2

/-!
# Equality is an equivalence

Equality of values is reflexive and transitive. It is symmetric on values whose sets hold no two
equal elements (`Value.equals_comm`), as all sets do that `Value.setOf` builds
(`Value.IsWellFormed.setOf`): the elements of the one set then have different partners in the other,
so that none of the other is left without one.
-/

namespace EntityModel.Value

variable {a b c v x y : Value} {xs ys : List Value} {es fs : List (String × Value)}

/-! ### One level -/

/-- Two values have the same form, and what is directly inside them is related. -/
inductive Corresponds (R : Value → Value → Prop) : Value → Value → Prop where
  | null :
    Corresponds R null null
  | integer (i : Int64) :
    Corresponds R (integer i) (integer i)
  | float {x y : Binary64} :
    x.key = y.key →
    Corresponds R (float x) (float y)
  | text (s : String) :
    Corresponds R (text s) (text s)
  | boolean (b : Bool) :
    Corresponds R (boolean b) (boolean b)
  | list {xs ys : List Value} :
    List.Forall₂ R xs ys →
    Corresponds R (list xs) (list ys)
  | set {xs ys : List Value} :
    xs.length = ys.length →
    (∀ x ∈ xs, ∃ y ∈ ys, R y x) →
    Corresponds R (set xs) (set ys)
  | map {es fs : List (String × Value)} :
    List.Forall₂ (fun e f => e.1 = f.1 ∧ R e.2 f.2) es fs →
    Corresponds R (map es) (map fs)
  | object (t : String) {es fs : List (String × Value)} :
    List.Forall₂ (fun e f => e.1 = f.1 ∧ R e.2 f.2) es fs →
    Corresponds R (object t es) (object t fs)

/-- Lists are equal if they are equal element by element. -/
lemma equalsEach_iff :
    equalsEach xs ys = true ↔ List.Forall₂ (fun x y => equals x y = true) xs ys := by
  induction xs generalizing ys with
  | nil => cases ys <;> simp [equalsEach]
  | cons x xs ih => cases ys <;> simp [equalsEach, ih]

/-- Entries are equal if they have the same keys and equal values, one by one. -/
lemma equalsEntries_iff : equalsEntries es fs = true ↔
    List.Forall₂ (fun e f => e.1 = f.1 ∧ equals e.2 f.2 = true) es fs := by
  induction es generalizing fs with
  | nil => cases fs <;> simp [equalsEntries]
  | cons e es ih =>
    cases fs with
    | nil => simp [equalsEntries]
    | cons f fs =>
      obtain ⟨k, x⟩ := e
      obtain ⟨l, y⟩ := f
      simp [equalsEntries, ih, and_assoc]

/-- Sets are equal if they are of one size and every element of the first has an equal in the other.
-/
lemma equals_set_iff : equals (set xs) (set ys) = true ↔
    xs.length = ys.length ∧ ∀ x ∈ xs, ∃ y ∈ ys, equals y x = true := by
  simp [equals, eachFoundIn_eq_all]

/-- Equality of values goes level by level. -/
theorem equals_iff : equals a b = true ↔ Corresponds (fun x y => equals x y = true) a b := by
  constructor
  · intro h
    -- the cases are the pairs of forms, and the last one is all pairs that differ
    rw [equals.eq_def] at h
    split at h
    case h_1 => exact .null
    case h_2 => exact beq_iff_eq.mp h ▸ .integer _
    case h_3 => exact .float (beq_iff_eq.mp h)
    case h_4 => exact beq_iff_eq.mp h ▸ .text _
    case h_5 => exact beq_iff_eq.mp h ▸ .boolean _
    case h_6 => exact .list (equalsEach_iff.mp h)
    case h_7 xs ys =>
      have equal : equals (set xs) (set ys) = true := by rwa [equals]
      obtain ⟨length_eq, each⟩ := equals_set_iff.mp equal
      exact .set length_eq each
    case h_8 => exact .map (equalsEntries_iff.mp h)
    case h_9 =>
      obtain ⟨type_eq, each⟩ := Bool.and_eq_true_iff.mp h
      exact beq_iff_eq.mp type_eq ▸ .object _ (equalsEntries_iff.mp each)
    case h_10 => cases h
  · intro h
    cases h with
    | null | integer | text | boolean => simp [equals]
    | float key_eq => simpa [equals] using key_eq
    | list each => simpa [equals] using equalsEach_iff.mpr each
    | set length_eq each => exact equals_set_iff.mpr ⟨length_eq, each⟩
    | map each => simpa [equals] using equalsEntries_iff.mpr each
    | object t each => simpa [equals] using equalsEntries_iff.mpr each

/-- Related lists have the same images if related members have the same image. -/
lemma map_eq_of_forall₂ {α β : Type} {R : α → α → Prop} {f : α → β} {xs ys : List α}
    (h : List.Forall₂ R xs ys) (same : ∀ x ∈ xs, ∀ y, R x y → f x = f y) :
    xs.map f = ys.map f := by
  induction h with
  | nil => rfl
  | cons hxy _ ih =>
    obtain ⟨here, same⟩ := List.forall_mem_cons.mp same
    rw [List.map_cons, List.map_cons, here _ hxy, ih same]

/-! ### Reflexivity and transitivity -/

/-- Every value equals itself. -/
@[simp]
theorem equals_refl (v : Value) : equals v v = true := by
  induction v using descend with
  | step v ih =>
    rw [equals_iff]
    cases v with
    | null => exact .null
    | integer i => exact .integer i
    | float x => exact .float rfl
    | text s => exact .text s
    | boolean b => exact .boolean b
    | list xs => exact .list (List.forall₂_same.mpr ih)
    | set xs => exact .set rfl fun x hx => ⟨x, hx, ih x hx⟩
    | map es =>
      exact .map (List.forall₂_same.mpr fun e he => ⟨rfl, ih e.2 (List.mem_map_of_mem he)⟩)
    | object t es =>
      exact .object t (List.forall₂_same.mpr fun e he => ⟨rfl, ih e.2 (List.mem_map_of_mem he)⟩)

/-- Lists are related through a list between them if its members relate what they stand between. -/
lemma forall₂_trans {α : Type} {R : α → α → Prop} {xs ys zs : List α}
    (first : List.Forall₂ R xs ys) (second : List.Forall₂ R ys zs)
    (through : ∀ y ∈ ys, ∀ x z, R x y → R y z → R x z) : List.Forall₂ R xs zs := by
  induction first generalizing zs with
  | nil => exact second
  | cons hxy _ ih =>
    cases second with
    | cons hyz second =>
      obtain ⟨here, through⟩ := List.forall_mem_cons.mp through
      exact .cons (here _ _ hxy hyz) (ih second through)

/-- What equals an equal is equal. -/
theorem equals_trans (first : equals a b = true) (second : equals b c = true) :
    equals a c = true := by
  -- the induction is on the value in the middle, which both equalities look into
  induction b using descend generalizing a c with
  | step b ih =>
    have throughEntries {es : List (String × Value)} (inside : b.children = es.map (·.2)) :
        ∀ f ∈ es, ∀ e g : String × Value, (e.1 = f.1 ∧ equals e.2 f.2 = true) →
          (f.1 = g.1 ∧ equals f.2 g.2 = true) → e.1 = g.1 ∧ equals e.2 g.2 = true := by
      rintro f hf e g ⟨ef, hef⟩ ⟨fg, hfg⟩
      exact ⟨ef.trans fg, ih f.2 (inside ▸ List.mem_map_of_mem hf) hef hfg⟩
    rw [equals_iff] at first second ⊢
    cases first with
    | null | integer | text | boolean => exact second
    | float key_eq =>
      cases second with
      | float key_eq' => exact .float (key_eq.trans key_eq')
    | list each =>
      cases second with
      | list each' => exact .list (forall₂_trans each each' fun y hy x z => ih y hy)
    | set length_eq each =>
      cases second with
      | set length_eq' each' =>
        -- each element goes to its equal in the middle and from there to its equal in the last set
        refine .set (length_eq.trans length_eq') fun x hx => ?_
        obtain ⟨y, hy, hyx⟩ := each x hx
        obtain ⟨z, hz, hzy⟩ := each' y hy
        exact ⟨z, hz, ih y hy hzy hyx⟩
    | map each =>
      cases second with
      | map each' => exact .map (forall₂_trans each each' (throughEntries rfl))
    | object t each =>
      cases second with
      | object _ each' => exact .object t (forall₂_trans each each' (throughEntries rfl))

/-! ### Symmetry -/

/-- No element of a set equals a later one. -/
def HoldsDistinct : Value → Prop
  | set xs => xs.Pairwise fun x y => equals x y = false
  | _ => True

/-- Every set at any depth holds distinct elements. -/
def IsWellFormed (v : Value) : Prop :=
  ∀ u ∈ v.parts, u.HoldsDistinct

/-- A value is well-formed if it holds distinct elements and everything in it is well-formed. -/
lemma isWellFormed_iff :
    v.IsWellFormed ↔ v.HoldsDistinct ∧ ∀ u ∈ v.children, u.IsWellFormed :=
  forall_parts_iff

/-- If every element of a set of distinct ones has an equal in a list, different elements have
different ones. -/
lemma exists_partners (distinct : (set xs).HoldsDistinct)
    (comm : ∀ x ∈ xs, ∀ y ∈ ys, equals y x = true → equals x y = true)
    (each : ∀ x ∈ xs, ∃ y ∈ ys, equals y x = true) :
    ∃ partner : Fin xs.length → Fin ys.length, Function.Injective partner ∧
      ∀ i, equals (ys.get (partner i)) (xs.get i) = true := by
  have pick : ∀ i, ∃ j, equals (ys.get j) (xs.get i) = true := by
    intro i
    obtain ⟨y, hy, equal⟩ := each (xs.get i) (xs.get_mem i)
    obtain ⟨j, rfl⟩ := List.mem_iff_get.mp hy
    exact ⟨j, equal⟩
  choose partner equal using pick
  -- two elements with one partner would equal each other through it
  have apart {i j : Fin xs.length} (lt : i < j) : partner i ≠ partner j := by
    intro same
    have first := comm _ (xs.get_mem i) _ (ys.get_mem _) (equal i)
    have second := equal j
    have differ : equals (xs.get i) (xs.get j) = false := List.pairwise_iff_get.mp distinct i j lt
    rw [← same] at second
    rw [equals_trans first second] at differ
    cases differ
  refine ⟨partner, fun i j same => ?_, equal⟩
  rcases lt_trichotomy i j with lt | eq | lt
  · exact absurd same (apart lt)
  · exact eq
  · exact absurd same.symm (apart lt)

/-- A set with distinct elements is no longer than a list where each of them has an equal. -/
lemma length_le_of_each (distinct : (set xs).HoldsDistinct)
    (comm : ∀ x ∈ xs, ∀ y ∈ ys, equals y x = true → equals x y = true)
    (each : ∀ x ∈ xs, ∃ y ∈ ys, equals y x = true) : xs.length ≤ ys.length := by
  obtain ⟨partner, injective, -⟩ := exists_partners distinct comm each
  simpa using Fintype.card_le_of_injective partner injective

/-- Among sets of one size, partners leave no element out. -/
lemma each_of_each (distinct : (set xs).HoldsDistinct) (length_eq : xs.length = ys.length)
    (comm : ∀ x ∈ xs, ∀ y ∈ ys, equals y x = true → equals x y = true)
    (each : ∀ x ∈ xs, ∃ y ∈ ys, equals y x = true) :
    ∀ y ∈ ys, ∃ x ∈ xs, equals x y = true := by
  obtain ⟨partner, injective, equal⟩ := exists_partners distinct comm each
  have surjective := injective.surjective_of_finite (finCongr length_eq)
  intro y hy
  obtain ⟨j, rfl⟩ := List.mem_iff_get.mp hy
  obtain ⟨i, rfl⟩ := surjective j
  exact ⟨xs.get i, xs.get_mem i, comm _ (xs.get_mem i) _ hy (equal i)⟩

/-- Related lists are related the other way by the converse. -/
lemma forall₂_swap {α : Type} {R S : α → α → Prop} {xs ys : List α} (h : List.Forall₂ R xs ys)
    (swap : ∀ x ∈ xs, ∀ y ∈ ys, R x y → S y x) : List.Forall₂ S ys xs := by
  induction h with
  | nil => exact .nil
  | cons hxy _ ih =>
    refine .cons (swap _ List.mem_cons_self _ List.mem_cons_self hxy) (ih fun x hx y hy => ?_)
    exact swap x (List.mem_cons_of_mem _ hx) y (List.mem_cons_of_mem _ hy)

/-- Values that correspond do so the other way, if what is in them is compared alike both ways. -/
lemma Corresponds.symm (h : Corresponds (fun x y => equals x y = true) a b)
    (distinct : a.HoldsDistinct)
    (comm : ∀ x ∈ a.children, ∀ y ∈ b.children, equals x y = equals y x) :
    Corresponds (fun x y => equals x y = true) b a := by
  cases h with
  | null => exact .null
  | integer i => exact .integer i
  | float key_eq => exact .float key_eq.symm
  | text s => exact .text s
  | boolean b => exact .boolean b
  | list each => exact .list (forall₂_swap each fun x hx y hy h => comm x hx y hy ▸ h)
  | set length_eq each =>
    refine .set length_eq.symm (each_of_each distinct length_eq ?_ each)
    exact fun x hx y hy h => (comm x hx y hy).trans h
  | map each | object t each =>
    constructor
    refine forall₂_swap each fun e he f hf h => ⟨h.1.symm, ?_⟩
    exact comm e.2 (List.mem_map_of_mem he) f.2 (List.mem_map_of_mem hf) ▸ h.2

/-- Equality of well-formed values is symmetric. -/
theorem equals_comm (ha : a.IsWellFormed) (hb : b.IsWellFormed) : equals a b = equals b a := by
  induction a using descend generalizing b with
  | step a ih =>
    obtain ⟨distinct_a, inside_a⟩ := isWellFormed_iff.mp ha
    obtain ⟨distinct_b, inside_b⟩ := isWellFormed_iff.mp hb
    have comm : ∀ x ∈ a.children, ∀ y ∈ b.children, equals x y = equals y x :=
      fun x hx y hy => ih x hx (inside_a x hx) (inside_b y hy)
    rw [Bool.eq_iff_iff, equals_iff, equals_iff]
    constructor
    · exact fun h => h.symm distinct_a comm
    · exact fun h => h.symm distinct_b fun y hy x hx => (comm x hx y hy).symm

/-! ### Sets without duplicates -/

/-- A further value is kept unless it is found among those that are kept. -/
lemma distinct_concat (values : List Value) (v : Value) :
    distinct (values ++ [v]) =
      if foundIn v (distinct values) then distinct values else distinct values ++ [v] := by
  unfold distinct
  rw [List.foldl_concat]

/-- Only given values are kept. -/
lemma mem_of_mem_distinct {items : List Value} (h : x ∈ distinct items) : x ∈ items := by
  induction items using List.reverseRecOn with
  | nil => exact h
  | append_singleton items item ih =>
    rw [distinct_concat] at h
    split at h
    · exact List.mem_append_left _ (ih h)
    · rcases List.mem_append.mp h with old | new
      · exact List.mem_append_left _ (ih old)
      · exact List.mem_append_right _ new

/-- No value that is kept equals a later one. -/
lemma holdsDistinct_setOf (values : List Value) : (setOf values).HoldsDistinct := by
  induction values using List.reverseRecOn with
  | nil => exact List.Pairwise.nil
  | append_singleton values v ih =>
    unfold setOf at ih ⊢
    rw [distinct_concat]
    split
    · exact ih
    · rename_i new
      rw [foundIn_eq_any, Bool.not_eq_true, List.any_eq_false] at new
      refine List.pairwise_append.mpr ⟨ih, List.pairwise_singleton _ _, fun u hu w hw => ?_⟩
      rw [List.mem_singleton.mp hw]
      exact Bool.eq_false_iff.mpr (new u hu)

/-- Sets are well-formed that are built of well-formed values without duplicates. -/
theorem IsWellFormed.setOf {values : List Value} (h : ∀ v ∈ values, v.IsWellFormed) :
    (setOf values).IsWellFormed :=
  isWellFormed_iff.mpr
    ⟨holdsDistinct_setOf values, fun _ hv => h _ (mem_of_mem_distinct hv)⟩

/-! ### The equivalence -/

/-- Well-formed sets are equal if each of them has an equal of every element of the other. -/
theorem equals_set_iff_each (hxs : (set xs).IsWellFormed) (hys : (set ys).IsWellFormed) :
    equals (set xs) (set ys) = true ↔
      (∀ x ∈ xs, ∃ y ∈ ys, equals y x = true) ∧ ∀ y ∈ ys, ∃ x ∈ xs, equals x y = true := by
  obtain ⟨distinct_xs, inside_xs⟩ := isWellFormed_iff.mp hxs
  obtain ⟨distinct_ys, inside_ys⟩ := isWellFormed_iff.mp hys
  have comm : ∀ x ∈ xs, ∀ y ∈ ys, equals x y = equals y x :=
    fun x hx y hy => equals_comm (inside_xs x hx) (inside_ys y hy)
  rw [equals_set_iff]
  constructor
  · rintro ⟨length_eq, each⟩
    refine ⟨each, each_of_each distinct_xs length_eq ?_ each⟩
    exact fun x hx y hy h => (comm x hx y hy).trans h
  · rintro ⟨each, each'⟩
    have fewer : xs.length ≤ ys.length :=
      length_le_of_each distinct_xs (fun x hx y hy h => (comm x hx y hy).trans h) each
    have more : ys.length ≤ xs.length :=
      length_le_of_each distinct_ys (fun y hy x hx h => (comm x hx y hy).symm.trans h) each'
    exact ⟨fewer.antisymm more, each⟩

/-- Equality relates every value to itself and is transitive. On well-formed values it is symmetric,
and two sets are equal if each of them has an equal of every element of the other. -/
theorem equals_isEquivalence :
    (∀ v, equals v v = true) ∧
    (∀ a b c, equals a b = true → equals b c = true → equals a c = true) ∧
    (∀ a b : Value, a.IsWellFormed → b.IsWellFormed → equals a b = true → equals b a = true) ∧
    ∀ xs ys, (set xs).IsWellFormed → (set ys).IsWellFormed →
      (equals (set xs) (set ys) = true ↔
        (∀ x ∈ xs, ∃ y ∈ ys, equals y x = true) ∧ ∀ y ∈ ys, ∃ x ∈ xs, equals x y = true) := by
  refine ⟨equals_refl, fun _ _ _ => equals_trans, ?_, fun _ _ => equals_set_iff_each⟩
  exact fun a b ha hb equal => (equals_comm hb ha).trans equal

namespace Sample

/-- The bits of a NaN with a sign. -/
def otherNaN : Binary64 := .ofMagnitude true (Binary64.infinityMagnitude + 1)

def readings : Value :=
  set [set [integer 1, float .nan], list [float (.zero false)]]

/-- The same readings in another order, with another NaN and another zero. -/
def otherReadings : Value :=
  set [list [float (.zero true)], set [float otherNaN, integer 1]]

/-- The readings are well-formed. -/
lemma readings_wellFormed : readings.IsWellFormed := by
  unfold IsWellFormed
  simp [readings, parts, partsEach, HoldsDistinct, equals]

/-- The other readings are well-formed. -/
lemma otherReadings_wellFormed : otherReadings.IsWellFormed := by
  unfold IsWellFormed
  simp [otherReadings, parts, partsEach, HoldsDistinct, equals]

/-- Both readings are equal. -/
lemma readings_equal : equals readings otherReadings = true := by
  have nan_key : otherNaN.key = Binary64.nan.key := by decide
  have zero_key : (Binary64.zero true).key = (Binary64.zero false).key := by decide
  simp [readings, otherReadings, equals, equalsEach, eachFoundIn, foundIn, nan_key, zero_key]

end Sample

/-- Two sets of readings are equal both ways, though the order, a NaN and a zero differ. -/
theorem equals_isEquivalence_readings :
    Sample.readings.IsWellFormed ∧ Sample.otherReadings.IsWellFormed ∧
      equals Sample.readings Sample.otherReadings = true ∧
      equals Sample.otherReadings Sample.readings = true ∧
      equals Sample.otherReadings Sample.otherReadings = true ∧
      ∃ x, equals x (list [float (.zero true)]) = true := by
  obtain ⟨-, trans, symm, sets⟩ := equals_isEquivalence
  have well := Sample.readings_wellFormed
  have well' := Sample.otherReadings_wellFormed
  have equal := Sample.readings_equal
  have back := symm _ _ well well' equal
  obtain ⟨-, each⟩ := (sets _ _ well well').mp equal
  obtain ⟨x, -, same⟩ := each (list [float (.zero true)]) List.mem_cons_self
  exact ⟨well, well', equal, back, trans _ _ _ back equal, x, same⟩

/-- A set that holds equal elements may equal another one that does not equal it. -/
example : equals (set [integer 1, integer 1]) (set [integer 1, integer 2]) = true ∧
    equals (set [integer 1, integer 2]) (set [integer 1, integer 1]) = false := by
  cbv

end EntityModel.Value
