import EntityModel.Proofs.Catalog.Methods
import EntityModel.Proofs.Repository.Classification

/-!
# Methods of the base class

The methods of a repository interface are its own and those that it inherits. Of the base class only
the own methods take part (`Repository.isBase_visible_iff`). A method that it inherits serves
nothing, and the method of the interface that it could serve is taken for a query.
-/

namespace EntityModel

/-- A method is found exactly if one of the criteria accepts a method of a fragment for it. -/
lemma Assembly.isSome_search_iff {a : Assembly} {m : Method} : (a.search m).isSome = true ↔
    ∃ accepts ∈ a.lookup, ∃ d ∈ a.fragments.methods, accepts m d = true := by
  simp only [Assembly.search, List.findSome?_isSome_iff, List.find?_isSome]

/-- A visible method that has the signature of an own one is an own one, as those come first. -/
lemma Catalog.mem_methods_of_mem_methodsOf {c : Catalog} {name : String} {d : TypeDecl}
    {m own : Method} (declared : c.find? name = some d) (visible : m ∈ c.methodsOf name)
    (hown : own ∈ d.methods) (same : m.signature = own.signature) : m ∈ d.methods := by
  obtain ⟨inherited, met_eq⟩ := exists_methodsMet_append declared
  obtain ⟨seen, append_eq, -, ahead⟩ := distinctOn_append Method.signature [] d.methods inherited
  rw [methodsOf_eq_distinctOn, met_eq, append_eq] at visible
  rcases List.mem_append.mp visible with here | behind
  · exact mem_of_mem_distinctOn here
  · exact absurd (same ▸ ahead own hown) (key_notMem_of_mem_distinctOn behind)

namespace Repository

variable {i j : Repository} {r : RepositoryInterface} {base : String} {c : Composition}
  {m b : Method}

/-- The base class matches a method if the lookup accepts one of its own methods for it. -/
lemma isSome_search_base_iff (made : make r base c = .ok i) :
    (i.baseComposition.search m).isSome = true ↔
      ∃ accepts ∈ c.lookup, ∃ own ∈ i.base.methods, accepts m own = true := by
  obtain ⟨-, i_eq⟩ := make_eq_ok made
  have methods_eq : i.baseComposition.fragments.methods = i.base.methods := by
    rw [i_eq]
    exact List.flatMap_singleton ..
  have lookup_eq : i.baseComposition.lookup = c.lookup := by
    rw [i_eq]
    rfl
  rw [Assembly.isSome_search_iff, methods_eq, lookup_eq]

/-- What a base class method matches is no query, unless it is marked as one. -/
lemma isCandidate_of_base (matched : (i.baseComposition.search m).isSome = true)
    (unmarked : m.annotation? .query = none) : i.isCandidate m = false := by
  obtain ⟨callee, found⟩ := Option.isSome_iff_exists.mp matched
  unfold isCandidate server?
  rw [unmarked, found]
  cases i.composition.search m <;> simp

/-- Whatever a repository was asked before, a method that matches an own one of its base class is a
base class method. A method that matches an inherited one is so only if the lookup accepts an own
one in its place, which the direct lookup never does. Base class methods are queries only if they
are marked as such. -/
theorem isBase_visible_iff {a : Assembly} {before : CallLog} {requests : List Compositions.Request}
    {answers : List Compositions.Answer} {cs : Compositions} {n : Nat} {s : SharedComposition}
    (ran : Compositions.run requests (.single a before) = some (answers, cs))
    (got : cs.get? n = some (s, c))
    (lookup : c.lookup = .direct ∨ ∃ r', c.lookup = .forRepository r')
    (made : make r base c = .ok i) (questions : List Question)
    (visible : b ∈ r.catalog.methodsOf base) (same : m.matchesSignature b = true) :
    ((i.after questions).answer (RepositoryM.isBase m) = true ↔
      ∃ accepts ∈ c.lookup, ∃ own ∈ i.base.methods, accepts m own = true) ∧
    (b ∈ i.base.methods → (i.after questions).answer (RepositoryM.isBase m) = true) ∧
    (c.lookup = .direct →
      ((i.after questions).answer (RepositoryM.isBase m) = true ↔ b ∈ i.base.methods)) ∧
    ((i.after questions).answer (RepositoryM.isBase m) = true → m.annotation? .query = none →
      (i.after questions).answer (RepositoryM.isQuery m) = false) := by
  have asked := Asked.of_run ran got lookup made questions
  have isBase_eq := (Answers.isBase i m).answer asked
  have isBase_iff : (i.after questions).answer (RepositoryM.isBase m) = true ↔
      ∃ accepts ∈ c.lookup, ∃ own ∈ i.base.methods, accepts m own = true := by
    rw [isBase_eq, isSome_search_base_iff made]
  have own_isBase (own : b ∈ i.base.methods) :
      (i.after questions).answer (RepositoryM.isBase m) = true := by
    -- either lookup asks for a direct match first, which the own method is
    refine isBase_iff.mpr ⟨Method.matchesSignature, ?_, b, own, same⟩
    rcases lookup with direct | ⟨r', forRepository⟩
    · rw [direct]
      exact List.mem_singleton_self _
    · rw [forRepository]
      exact List.mem_cons_self
  refine ⟨isBase_iff, own_isBase, fun direct => ⟨fun answered => ?_, own_isBase⟩, ?_⟩
  · obtain ⟨accepts, listed, own, hown, accepted⟩ := isBase_iff.mp answered
    rw [direct] at listed
    rw [List.mem_singleton.mp listed, Method.matchesSignature_eq_true] at accepted
    obtain ⟨declared, -⟩ := make_eq_ok made
    rw [Method.matchesSignature_eq_true] at same
    -- the match is an own method, and no other visible one has its signature
    exact Catalog.mem_methods_of_mem_methodsOf declared visible hown (same.symm.trans accepted)
  · intro answered unmarked
    rw [isBase_eq] at answered
    rw [(Answers.isQuery i m).answer asked]
    exact isCandidate_of_base answered unmarked

namespace Sample

/-- A store that inherits everything. -/
def arrayStoreDecl : TypeDecl where
  name := "ArrayStore"
  superclass := some (.of "Store")

def arrayStoreTypes : RepositoryInterface :=
  { readerTypes with catalog := ⟨[interfaceDecl, storeDecl, arrayStoreDecl]⟩ }

/-- The count of a store. -/
def storeCount : Method :=
  { count with declaringType := "Store" }

end Sample

open Repository.Sample in
/-- Readers are counted by the store. -/
theorem isBase_visible_iff_readers : ∃ i, make arrayStoreTypes "Store" {} = .ok i ∧
    storeCount ∈ arrayStoreTypes.catalog.methodsOf "Store" ∧
    (i.after [.isQuery count]).answer (RepositoryM.isBase count) = true ∧
    (i.after [.isQuery count]).answer (RepositoryM.isQuery count) = false := by
  obtain ⟨i, made, base_eq⟩ : ∃ i, make arrayStoreTypes "Store" {} = .ok i ∧ i.base = storeDecl :=
    ⟨_, rfl, rfl⟩
  have visible : storeCount ∈ arrayStoreTypes.catalog.methodsOf "Store" := by
    have methods_eq : arrayStoreTypes.catalog.methodsOf "Store" = [storeCount] := by cbv
    rw [methods_eq]
    exact List.mem_singleton_self _
  have ran : Compositions.run [] (.single {} []) = some ([], .single {} []) := rfl
  have got : (Compositions.single {} []).get? 0 = some ({ cache := 0 }, {}) := rfl
  have same : count.matchesSignature storeCount = true := by decide
  obtain ⟨-, own, -, unmarked⟩ :=
    isBase_visible_iff ran got (.inl rfl) made [.isQuery count] visible same
  have isBase := own (base_eq ▸ List.mem_singleton_self _)
  exact ⟨i, made, visible, isBase, unmarked isBase rfl⟩

open Repository.Sample in
/-- The count that a store inherits does not count readers, so counting them is a query. -/
theorem inherited_count_isQuery : ∃ i, make arrayStoreTypes "ArrayStore" {} = .ok i ∧
    storeCount ∈ arrayStoreTypes.catalog.methodsOf "ArrayStore" ∧
    count ∈ arrayStoreTypes.methods ∧ count.matchesSignature storeCount = true ∧
    count.annotation? .query = none ∧ i.answer (RepositoryM.isBase count) = false ∧
    i.answer (RepositoryM.isQuery count) = true := by
  have inherited : arrayStoreTypes.catalog.methodsOf "ArrayStore" = [storeCount] := by cbv
  have methods_eq : arrayStoreTypes.methods = interfaceDecl.methods := by cbv
  refine ⟨_, rfl, ?_, ?_, by decide, rfl, rfl, rfl⟩
  · rw [inherited]
    exact List.mem_singleton_self _
  · rw [methods_eq]
    exact .tail _ (.head _)

end Repository

end EntityModel
