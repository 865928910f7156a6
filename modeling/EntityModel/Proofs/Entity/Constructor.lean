import EntityModel.Entity.Constructor
import Mathlib.Data.List.Find
import Mathlib.Data.List.Induction
import Mathlib.Tactic.Lemma

/-!
# The order of constructors

The persistence constructor is looked for among the declared ones by what they are, not by where
they stand: one that is marked, the largest one of a record, one without parameters, or the only
one. Where several are marked the first one of them counts, and where several are the largest the
last one. So where at most one constructor is marked, and for a record no two are the largest, the
order of the declarations does not matter (`PersistenceConstructor.discover_perm`).
-/

namespace EntityModel

variable {cs cs' : List ConstructorDecl} {c : ConstructorDecl}

/-! ### Largest constructors -/

namespace ConstructorDecl

/-- No constructor of a list has more parameters than this one of them. -/
def IsLargest (cs : List ConstructorDecl) (c : ConstructorDecl) : Prop :=
  c ∈ cs ∧ ∀ other ∈ cs, other.parameters.length ≤ c.parameters.length

instance (cs : List ConstructorDecl) : DecidablePred (IsLargest cs) := fun c =>
  inferInstanceAs (Decidable (c ∈ cs ∧ ∀ other ∈ cs, other.parameters.length ≤ c.parameters.length))

/-- Which constructors are the largest does not depend on their order. -/
lemma isLargest_perm (perm : cs.Perm cs') : IsLargest cs c ↔ IsLargest cs' c := by
  unfold IsLargest
  simp only [perm.mem_iff]

/-- A constructor is the largest one of all if it is that of those with parameters. -/
lemma isLargest_of_filter (h : IsLargest (cs.filter fun c => !c.isNoArg) c) : IsLargest cs c := by
  obtain ⟨listed, largest⟩ := h
  refine ⟨(List.mem_filter.mp listed).1, fun other hother => ?_⟩
  cases noArg : other.isNoArg with
  | true =>
    rw [List.isEmpty_iff.mp noArg]
    exact Nat.zero_le _
  | false => exact largest other (List.mem_filter.mpr ⟨hother, by rw [noArg]; rfl⟩)

/-- One more constructor at the end is taken unless an earlier one has more parameters. -/
lemma largest?_concat (cs : List ConstructorDecl) (last : ConstructorDecl) :
    largest? (cs ++ [last]) = some ((largest? cs).elim last fun best =>
      if best.parameters.length ≤ last.parameters.length then last else best) := by
  unfold largest?
  rw [List.foldl_append, List.foldl_cons, List.foldl_nil]
  split
  · rename_i none
    rw [none, Option.elim_none]
  · rename_i best some
    rw [some, Option.elim_some]
    split <;> rfl

/-- There is no largest constructor only where there is none at all. -/
lemma largest?_eq_none_iff : largest? cs = none ↔ cs = [] := by
  constructor
  · intro none
    induction cs using List.reverseRecOn with
    | nil => rfl
    | append_singleton cs last =>
      rw [largest?_concat] at none
      cases none
  · rintro rfl
    rfl

/-- The constructor that is found by going through the list is a largest one. -/
lemma isLargest_of_largest? (h : largest? cs = some c) : IsLargest cs c := by
  -- the last constructor is compared with the largest one of those before it
  induction cs using List.reverseRecOn generalizing c with
  | nil => cases h
  | append_singleton cs last ih =>
    rw [largest?_concat, Option.some.injEq] at h
    subst h
    cases best : largest? cs with
    | none =>
      obtain rfl := largest?_eq_none_iff.mp best
      exact ⟨List.mem_singleton_self last, by simp⟩
    | some best' =>
      obtain ⟨listed, largest⟩ := ih best
      rw [Option.elim_some]
      split
      · rename_i atMost
        refine ⟨List.mem_append_right _ (List.mem_singleton_self last), fun other hother => ?_⟩
        rcases List.mem_append.mp hother with before | new
        · exact (largest other before).trans atMost
        · rw [List.mem_singleton.mp new]
      · rename_i more
        refine ⟨List.mem_append_left _ listed, fun other hother => ?_⟩
        rcases List.mem_append.mp hother with before | new
        · exact largest other before
        · rw [List.mem_singleton.mp new]
          exact Nat.le_of_not_le more

/-- Where no two constructors are the largest, the largest one does not depend on the order. -/
lemma largest?_eq_of_perm (perm : cs.Perm cs') (unique : {c | IsLargest cs c}.Subsingleton) :
    largest? cs = largest? cs' := by
  cases first : largest? cs with
  | none =>
    rw [largest?_eq_none_iff] at first
    subst first
    exact (largest?_eq_none_iff.mpr perm.nil_eq.symm).symm
  | some c =>
    cases second : largest? cs' with
    | none =>
      rw [largest?_eq_none_iff] at second
      subst second
      rw [perm.eq_nil] at first
      cases first
    | some c' =>
      have largest' := (isLargest_perm perm).mpr (isLargest_of_largest? second)
      exact congrArg some (unique (isLargest_of_largest? first) largest')

end ConstructorDecl

/-! ### The choice -/

namespace PersistenceConstructor

variable {kind : DeclKind} {b : TypeRef.Bindings}

/-- Unmarked constructors without parameters are alike. -/
lemma ofDecl_of_isNoArg (noArg : c.isNoArg = true) (unmarked : c.isMarked = false) :
    ofDecl b c = ⟨[], false⟩ := by
  unfold ofDecl
  rw [List.isEmpty_iff.mp noArg, unmarked, List.map_nil]

/-- The constructors that have parameters. -/
def candidates (cs : List ConstructorDecl) : List ConstructorDecl :=
  cs.filter fun c => !c.isNoArg

/-- The constructors with parameters are the same in any order. -/
lemma candidates_perm (perm : cs.Perm cs') : (candidates cs).Perm (candidates cs') :=
  perm.filter _

/-- Unmarked constructors leave the choice for a record open: several have parameters, or some of
them have and some have not. -/
def IsOpen (kind : DeclKind) (cs : List ConstructorDecl) : Prop :=
  kind = .record ∧ (1 < (candidates cs).length ∨
    ((cs.find? (·.isNoArg)).isSome ∧ candidates cs ≠ []))

/-- Whether the choice is open does not depend on the order. -/
lemma isOpen_perm (perm : cs.Perm cs') : IsOpen kind cs ↔ IsOpen kind cs' := by
  unfold IsOpen
  rw [List.find?_isSome, List.find?_isSome, ne_eq, ne_eq, ← List.length_eq_zero_iff,
    ← List.length_eq_zero_iff, (candidates_perm perm).length_eq]
  simp only [perm.mem_iff]

/-- A marked constructor is chosen first of all. -/
lemma choose?_of_marked (marked : cs.find? (·.isMarked) = some c) : choose? kind cs = some c := by
  unfold choose?
  rw [marked]

section Unmarked

variable (unmarked : cs.find? (·.isMarked) = none)
include unmarked

/-- In an open choice the largest constructor is chosen. -/
lemma choose?_of_open (isOpen : IsOpen kind cs) :
    choose? kind cs = ConstructorDecl.largest? (candidates cs) := by
  unfold choose?
  rw [unmarked]
  exact if_pos isOpen

variable (closed : ¬ IsOpen kind cs)
include closed

/-- In a choice that is not open, the constructor without parameters is chosen, or else the only
one. -/
lemma choose?_of_closed : choose? kind cs =
    match cs.find? (·.isNoArg), candidates cs with
    | some c, _ => some c
    | none, [only] => some only
    | none, _ => none := by
  unfold choose?
  rw [unmarked]
  exact if_neg closed

/-- What is chosen is a constructor without parameters, if there is one. -/
lemma choose?_of_noArg (noArg : ∃ c ∈ cs, c.isNoArg = true) :
    (choose? kind cs).map (ofDecl b) = some ⟨[], false⟩ := by
  obtain ⟨c, found⟩ := Option.isSome_iff_exists.mp (List.find?_isSome.mpr noArg)
  have unmarked_c : c.isMarked = false :=
    Bool.eq_false_iff.mpr (List.find?_eq_none.mp unmarked c (List.mem_of_find?_eq_some found))
  rw [choose?_of_closed unmarked closed, found]
  exact congrArg some (ofDecl_of_isNoArg (List.find?_some found) unmarked_c)

/-- Of several constructors that all have parameters none is chosen. -/
lemma choose?_of_several (noArg : ¬ ∃ c ∈ cs, c.isNoArg = true) (several : cs.length ≠ 1) :
    choose? kind cs = none := by
  have missing : cs.find? (·.isNoArg) = none :=
    List.find?_eq_none.mpr fun c hc is => noArg ⟨c, hc, is⟩
  have all : candidates cs = cs := by
    apply List.filter_eq_self.mpr
    intro c hc
    rw [Bool.eq_false_iff.mpr (List.find?_eq_none.mp missing c hc)]
    rfl
  rw [choose?_of_closed unmarked closed, missing, all]
  split
  · rename_i none
    cases none
  · exact absurd rfl several
  · rfl

end Unmarked

/-- What is chosen depends on the order of the constructors only where several are marked, or
several of a record are the largest. -/
lemma map_choose?_perm (perm : cs.Perm cs') (marked : {c ∈ cs | c.isMarked}.Subsingleton)
    (largest : kind = .record → {c | ConstructorDecl.IsLargest cs c}.Subsingleton) :
    (choose? kind cs).map (ofDecl b) = (choose? kind cs').map (ofDecl b) := by
  -- at most one constructor is marked, so the order does not decide which is found
  have same := List.find?_eq_find?_of_perm perm marked
  cases found : cs.find? (·.isMarked) with
  | some c => rw [choose?_of_marked found, choose?_of_marked (same.symm.trans found)]
  | none =>
    have found' := same.symm.trans found
    by_cases isOpen : IsOpen kind cs
    -- ties for the most parameters are excluded among all constructors, so also among the
    -- candidates
    · have unique : {c | ConstructorDecl.IsLargest (candidates cs) c}.Subsingleton :=
        (largest isOpen.1).anti fun c => ConstructorDecl.isLargest_of_filter
      rw [choose?_of_open found isOpen, choose?_of_open found' ((isOpen_perm perm).mp isOpen),
        ConstructorDecl.largest?_eq_of_perm (candidates_perm perm) unique]
    have closed' := isOpen ∘ (isOpen_perm perm).mpr
    by_cases noArg : ∃ c ∈ cs, c.isNoArg = true
    · have noArg' : ∃ c ∈ cs', c.isNoArg = true := by simpa only [perm.mem_iff] using noArg
      rw [choose?_of_noArg found isOpen noArg, choose?_of_noArg found' closed' noArg']
    by_cases single : cs.length = 1
    -- a single constructor has only one order
    · obtain ⟨c, rfl⟩ := List.length_eq_one_iff.mp single
      rw [List.singleton_perm.mp perm]
    · have noArg' : ¬ ∃ c ∈ cs', c.isNoArg = true := by simpa only [perm.mem_iff] using noArg
      rw [choose?_of_several found isOpen noArg single,
        choose?_of_several found' closed' noArg' (perm.length_eq ▸ single)]

end PersistenceConstructor

/-! ### Declarations -/

/-- At most one constructor is marked, and for a record at most one is the largest. -/
structure TypeDecl.IsDecided (d : TypeDecl) : Prop where
  marked : {c ∈ d.constructors | c.isMarked}.Subsingleton
  largest : d.kind = .record → {c | ConstructorDecl.IsLargest d.constructors c}.Subsingleton

namespace PersistenceConstructor

/-- The constructors of a declaration may be declared in any order if at most one of them is marked
and, for a record, no two are the largest. Of those without parameters there may be several, since
they are alike. -/
theorem discover_perm {d : TypeDecl} (decided : d.IsDecided) (perm : d.constructors.Perm cs)
    (t : TypeRef) : discover { d with constructors := cs } t = discover d t := by
  have bindings_eq : TypeDecl.bindings { d with constructors := cs } t = d.bindings t := by
    cases t <;> rfl
  have empty_eq : cs.isEmpty = d.constructors.isEmpty :=
    Bool.eq_iff_iff.mpr (by rw [List.isEmpty_iff_length_eq_zero, List.isEmpty_iff_length_eq_zero,
      perm.length_eq])
  have chosen : (choose? d.kind d.constructors).map (ofDecl (d.bindings t)) =
      (choose? d.kind cs).map (ofDecl (d.bindings t)) :=
    map_choose?_perm perm decided.marked decided.largest
  unfold discover
  rw [bindings_eq, empty_eq]
  dsimp only
  generalize d.kind = kind at chosen ⊢
  cases kind with
  | plain | record => simp only [chosen]
  | interface | enum | unsupported => rfl

namespace Sample

def closedSpan : ConstructorDecl where
  parameters := [⟨"first", .variable "T"⟩, ⟨"last", .variable "T"⟩]

/-- A span of dates or numbers that may be empty, or open at its end. -/
def span : TypeDecl where
  name := "Span"
  kind := .record
  typeParameters := ["T"]
  constructors := [{}, { parameters := [⟨"first", .variable "T"⟩] }, closedSpan]

/-- A span has no marked constructor, and only one has two parameters. -/
lemma span_decided : span.IsDecided where
  marked := by
    have none : ∀ c ∈ span.constructors, c.isMarked = false := by decide
    exact fun c hc => absurd hc.2 (Bool.eq_false_iff.mp (none c hc.1))
  largest _ := by
    have only : ∀ c ∈ span.constructors,
        ConstructorDecl.IsLargest span.constructors c → c = closedSpan := by decide
    exact fun c hc c' hc' => (only c hc.1 hc).trans (only c' hc'.1 hc').symm

end Sample

open Sample in
/-- The larger constructor of a span is taken where it is declared first, too. -/
theorem discover_perm_span :
    span.IsDecided ∧ span.constructors.Perm span.constructors.reverse ∧
      discover { span with constructors := span.constructors.reverse }
          (.named "Span" [.of "Date"]) =
        some ⟨[⟨"first", .of "Date"⟩, ⟨"last", .of "Date"⟩], false⟩ := by
  have perm := span.constructors.reverse_perm.symm
  refine ⟨span_decided, perm, ?_⟩
  rw [discover_perm span_decided perm]
  rfl

end PersistenceConstructor

end EntityModel
