import EntityModel.Proofs.Catalog.Methods
import EntityModel.Proofs.Catalog.Order
import EntityModel.Proofs.Catalog.PropertyTypes
import Mathlib.Tactic.ByContra

/-!
# Which declaration of a method counts

Where no type is a supertype of itself, the method that a type has for a signature is that of the
declaration that comes before all others with the signature in the order of the ways to them
(`Catalog.exists_first_declarer`). A declaration below another one need not come first: a common
supertype of two interfaces comes right after the first of them, and hides what the second one
redeclares (`Catalog.methodsOf_byOrder`, `Catalog.redeclaration_can_be_hidden`).
-/

namespace EntityModel

namespace Catalog

/-- Methods carry the name of the type that lists them. -/
def OwnsMethods (c : Catalog) : Prop :=
  ∀ d ∈ c.declarations, ∀ m ∈ d.methods, m.declaringType = d.name

/-- Among the methods of a type there is one of the declaration with the signature. -/
def HasMethodOf (c : Catalog) (name : String) (d : TypeDecl) (m : Method) : Prop :=
  ∃ kept ∈ c.methodsOf name, kept.declaringType = d.name ∧ kept.matchesSignature m = true

/-- Above a type, the declaration comes before all others that declare the signature. -/
def DeclaresFirst (c : Catalog) (name : String) (d : TypeDecl) (m : Method) : Prop :=
  ∀ e, c.IsVisible name e → e ≠ d → (∃ other ∈ e.methods, other.matchesSignature m = true) →
    c.Precedes name d.name e.name

variable {c : Catalog} {start : String} {d lower upper : TypeDecl} {m s u : Method}

/-! ### The first declaration of a signature -/

/-- Of the visible declarations no two have one name. -/
lemma eq_of_isVisible {other : TypeDecl} (hd : c.IsVisible start d)
    (hother : c.IsVisible start other) (same : d.name = other.name) : d = other :=
  Option.some.inj (hd.1.symm.trans (same ▸ hother.1))

/-- Of two declarations that a type sees one comes before the other one. -/
lemma precedes_or_precedes (acyclic : c.IsAcyclic) (hlower : c.IsVisible start lower)
    (hupper : c.IsVisible start upper) (differ : lower ≠ upper) :
    c.Precedes start lower.name upper.name ∨ c.Precedes start upper.name lower.name := by
  obtain ⟨i, hi, rfl⟩ := List.getElem_of_mem (mem_visit_iff.mpr hlower)
  obtain ⟨j, hj, rfl⟩ := List.getElem_of_mem (mem_visit_iff.mpr hupper)
  have order := List.pairwise_iff_getElem.mp (pairwise_precedes acyclic start)
  rcases Nat.lt_trichotomy i j with lt | rfl | lt
  · exact .inl (order i j hi hj lt)
  · exact absurd rfl differ
  · exact .inr (order j i hj hi lt)

/-- A method of a type is declared by the first declaration with its signature that the type
sees. -/
lemma exists_first_declarer (acyclic : c.IsAcyclic) (hm : m ∈ c.methodsOf start) :
    ∃ d, c.IsVisible start d ∧ m ∈ d.methods ∧ c.DeclaresFirst start d m := by
  have first : (c.methodsMet start).find? (fun k => k.signature == m.signature) = some m :=
    find?_of_mem_distinctOn hm
  rw [methodsMet, List.find?_flatMap, List.findSome?_eq_some_iff] at first
  obtain ⟨before, d, after, walk_eq, found, none_before⟩ := first
  have mem_walk : ∀ e, e ∈ before ++ d :: after ↔ c.IsVisible start e := by
    intro e
    rw [← walk_eq, mem_visit_iff]
  have order := pairwise_precedes acyclic start
  rw [walk_eq, List.pairwise_append, List.pairwise_cons] at order
  obtain ⟨-, ⟨later, -⟩, -⟩ := order
  refine ⟨d, (mem_walk d).mp (by simp), List.mem_of_find?_eq_some found, ?_⟩
  rintro e visible other ⟨k, hk, same⟩
  rcases List.mem_append.mp ((mem_walk e).mpr visible) with he | he
  · have differs := List.find?_eq_none.mp (none_before e he) k hk
    exact absurd (beq_iff_eq.mpr (Method.matchesSignature_eq_true.mp same)) differs
  · exact later e ((List.mem_cons.mp he).resolve_left other)

/-- A type has the method of a declaration if that declares the signature first. -/
lemma hasMethodOf_iff (acyclic : c.IsAcyclic) (owned : c.OwnsMethods)
    (visible : c.IsVisible start d) (hm : m ∈ d.methods) :
    c.HasMethodOf start d m ↔ c.DeclaresFirst start d m := by
  constructor
  -- the kept method is listed by the first declarer, which is the given one, since it owns its
  -- methods
  · rintro ⟨kept, hkept, own, same⟩ e he other ⟨k, hk, same'⟩
    obtain ⟨first, hfirst, lists, earliest⟩ := exists_first_declarer acyclic hkept
    have named : first.name = d.name :=
      (owned first (mem_of_find? hfirst.1) kept lists).symm.trans own
    obtain rfl := eq_of_isVisible hfirst visible named
    refine earliest e he other ⟨k, hk, ?_⟩
    rw [Method.matchesSignature_eq_true] at same same' ⊢
    exact same'.trans same.symm
  · intro earliest
    obtain ⟨kept, hkept, same⟩ := exists_mem_methodsOf (mem_methodsMet.mpr ⟨d, visible, hm⟩)
    obtain ⟨first, hfirst, lists, first_earliest⟩ := exists_first_declarer acyclic hkept
    refine ⟨kept, hkept, ?_, Method.matchesSignature_eq_true.mpr same⟩
    rw [owned first (mem_of_find? hfirst.1) kept lists]
    -- another declarer would come before the given one and behind it
    by_contra differ
    have other : first ≠ d := fun eq => differ (eq ▸ rfl)
    have ahead : c.Precedes start first.name d.name :=
      first_earliest d visible other.symm ⟨m, hm, Method.matchesSignature_eq_true.mpr same.symm⟩
    have behind : c.Precedes start d.name first.name :=
      earliest first hfirst other ⟨kept, lists, Method.matchesSignature_eq_true.mpr same⟩
    exact ahead.asymm behind

/-- A name through which all ways to another one lead comes before it. -/
lemma precedes_of_through {a b : String} (order : c.Precedes start a b ∨ c.Precedes start b a)
    (through : ∀ way, c.climb start way = some b →
      ∃ front, front <+: way ∧ c.climb start front = some a) :
    c.Precedes start a b := by
  refine order.resolve_right ?_
  rintro ⟨way, leads, before⟩
  obtain ⟨front, ⟨further, rfl⟩, halfway⟩ := through way leads
  have beyond : front ++ further < front := before front halfway
  cases further with
  | nil =>
    rw [List.append_nil] at beyond
    exact List.lt_irrefl _ beyond
  | cons i further => exact List.lt_asymm beyond (lt_append_cons front i further)

/-! ### Redeclarations -/

/-- Of a method and its redeclaration further down, a type has at most the one that comes first in
the order of the ways to them. That is the redeclaration if all ways to the upper declaration lead
through the lower one. The type has the upper one if that comes before all others with the
signature. -/
theorem methodsOf_byOrder (acyclic : c.IsAcyclic) (owned : c.OwnsMethods)
    (hlower : c.IsVisible start lower) (hupper : c.IsVisible start upper)
    (above : Relation.TransGen c.Extends lower.name upper.name) (hs : s ∈ lower.methods)
    (hu : u ∈ upper.methods) (same : s.matchesSignature u = true) :
    (c.Precedes start lower.name upper.name → ¬ c.HasMethodOf start upper u) ∧
      (c.Precedes start upper.name lower.name → ¬ c.HasMethodOf start lower s) ∧
      (c.Precedes start lower.name upper.name ∨ c.Precedes start upper.name lower.name) ∧
      ((∀ way, c.climb start way = some upper.name →
          ∃ front, front <+: way ∧ c.climb start front = some lower.name) →
        c.Precedes start lower.name upper.name) ∧
      (c.HasMethodOf start upper u ↔ c.DeclaresFirst start upper u) := by
  have differ : lower ≠ upper := by
    rintro rfl
    exact acyclic _ above
  have order := precedes_or_precedes acyclic hlower hupper differ
  have same' := Method.matchesSignature_eq_true.mpr (Method.matchesSignature_eq_true.mp same).symm
  -- one half rules out the upper declaration, the other one the lower
  refine ⟨fun first has => ?_, fun first has => ?_, order, precedes_of_through order,
    hasMethodOf_iff acyclic owned hupper hu⟩
  · have earliest := (hasMethodOf_iff acyclic owned hupper hu).mp has
    exact first.asymm (earliest lower hlower differ ⟨s, hs, same⟩)
  · have earliest := (hasMethodOf_iff acyclic owned hlower hs).mp has
    exact first.asymm (earliest upper hupper differ.symm ⟨u, hu, same'⟩)

end Catalog

/-! ### Finders with caches -/

namespace Sample

def findByKey (declaringType : String) (isDefault : Bool) : Method where
  declaringType := declaringType
  name := "findByKey"
  parameterTypes := [.of "Key"]
  modifiers := { isDefault := isDefault }

def interfaceDecl (name : String) (interfaces : List TypeRef) (methods : List Method) :
    TypeDecl where
  name := name
  kind := .interface
  interfaces := interfaces
  methods := methods

def finderDecl : TypeDecl :=
  interfaceDecl "Finder" [] [findByKey "Finder" false]

/-- A cached finder redeclares how to find. -/
def cachedDecl : TypeDecl :=
  interfaceDecl "Cached" [.of "Finder"] [findByKey "Cached" true]

def pagedDecl : TypeDecl :=
  interfaceDecl "Paged" [.of "Finder"] []

def stocksDecl : TypeDecl :=
  interfaceDecl "Stocks" [.of "Cached", .of "Paged"] []

def ordersDecl : TypeDecl :=
  interfaceDecl "Orders" [.of "Paged", .of "Cached"] []

/-- Stocks are cached first and orders are paged first. -/
def finders : Catalog where
  declarations := [finderDecl, cachedDecl, pagedDecl, stocksDecl, ordersDecl]

/-- Ranks fall from stocks and orders to cached and paged finders and on to finders. -/
def finderRank (name : String) : Nat :=
  if name = "Finder" then 0 else if name = "Cached" ∨ name = "Paged" then 1 else 2

end Sample

namespace Catalog

open Sample

/-- No interface of the finders extends itself, not even in between others. -/
lemma isAcyclic_finders : finders.IsAcyclic :=
  .of_rank finderRank (by decide)

/-- The finders declare their methods on themselves. -/
lemma ownsMethods_finders : finders.OwnsMethods := by
  unfold OwnsMethods
  decide

/-- The walk from the stocks comes to the finder by the cached one. -/
lemma walks_stocks :
    finders.Walks [] ["Stocks"] [stocksDecl, cachedDecl, finderDecl, pagedDecl] :=
  .declared (by decide) rfl (.declared (by decide) rfl (.declared (by decide) rfl
    (.declared (by decide) rfl (.repeated (by decide) .finished))))

/-- The walk from the orders comes to the finder by the paged one. -/
lemma walks_orders :
    finders.Walks [] ["Orders"] [ordersDecl, pagedDecl, finderDecl, cachedDecl] :=
  .declared (by decide) rfl (.declared (by decide) rfl (.declared (by decide) rfl
    (.declared (by decide) rfl (.repeated (by decide) .finished))))

/-- Cached interfaces are finders. -/
lemma cached_extends : finders.Extends "Cached" "Finder" :=
  ⟨cachedDecl, rfl, .of "Finder", .inr (.head _), rfl⟩

/-- Stocks find by the cache, since they come to it first. -/
theorem methodsOf_byOrder_stocks :
    finders.Precedes "Stocks" "Cached" "Finder" ∧
      ¬ finders.HasMethodOf "Stocks" finderDecl (findByKey "Finder" false) := by
  have order := pairwise_precedes isAcyclic_finders "Stocks"
  rw [← walks_iff.mp walks_stocks, List.pairwise_cons, List.pairwise_cons] at order
  have first := order.2.1 finderDecl (.head _)
  have lower : finders.IsVisible "Stocks" cachedDecl := walks_stocks.isVisible (by simp)
  have upper : finders.IsVisible "Stocks" finderDecl := walks_stocks.isVisible (by simp)
  obtain ⟨hidden, -⟩ := methodsOf_byOrder isAcyclic_finders ownsMethods_finders lower upper
    (.single cached_extends) (List.mem_singleton_self (findByKey "Cached" true))
    (List.mem_singleton_self (findByKey "Finder" false)) rfl
  exact ⟨first, hidden first⟩

/-- A redeclaration need not hide what it redeclares: orders come to the finder before the cache. -/
theorem redeclaration_can_be_hidden :
    ¬ ∀ (c : Catalog) (start : String) (lower upper : TypeDecl) (s u : Method),
      c.IsAcyclic → c.OwnsMethods → c.IsVisible start lower → c.IsVisible start upper →
      Relation.TransGen c.Extends lower.name upper.name → s ∈ lower.methods → u ∈ upper.methods →
      s.matchesSignature u = true → ¬ c.HasMethodOf start upper u := by
  intro always
  have methods : finders.methodsOf "Orders" = [findByKey "Finder" false] := by
    rw [methodsOf, ← walks_iff.mp walks_orders]
    rfl
  have inherited : finders.HasMethodOf "Orders" finderDecl (findByKey "Finder" false) :=
    ⟨findByKey "Finder" false, methods ▸ List.mem_singleton_self _, rfl, rfl⟩
  exact always finders "Orders" cachedDecl finderDecl (findByKey "Cached" true)
    (findByKey "Finder" false) isAcyclic_finders ownsMethods_finders
    (walks_orders.isVisible (by simp)) (walks_orders.isVisible (by simp))
    (.single cached_extends) (List.mem_singleton_self _) (List.mem_singleton_self _) rfl inherited

end Catalog

end EntityModel
