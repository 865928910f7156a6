import EntityModel.Repository.Composition
import Mathlib.Tactic.Lemma

/-!
# Calls without memory

Which implementation answers a call is decided by the fragments alone (`Fragments.send`), and what
becomes of an invocation by the lookup before it (`Assembly.call`). A composition that remembers
only what it has found (`Composition.Sound`) keeps to that: its fragments send every call where they
would send it for the first time, and if the lookup asks for nothing but the signature of invoked
methods, it finds what it would find for the first time.
-/

namespace EntityModel

/-! ### Fragments -/

namespace Fragment

variable {f : Fragment} {m : Method}

/-- A method of the same name and parameter types is declared. -/
def Declares (f : Fragment) (m : Method) : Prop :=
  ∃ d ∈ f.methods, d.name = m.name ∧ d.parameterTypes = m.parameterTypes

/-- A fragment has a method exactly if it declares one of the same signature. -/
lemma hasMethod_iff : f.hasMethod m = true ↔ f.Declares m := by
  unfold hasMethod Declares
  simp only [List.any_eq_true, Method.matchesSignature_iff]

instance : Decidable (f.Declares m) :=
  decidable_of_iff _ hasMethod_iff

end Fragment

namespace Fragments

variable {fs : Fragments} {m : Method} {c : Call} {log : CallLog}

/-- What a call comes to: the first fragment that declares and implements its method answers it. -/
def send (items : List Fragment) (c : Call) (log : CallLog) : Except Error Value × CallLog :=
  match (items.find? (·.serves c.method)).bind (·.implementation) with
  | some i => i.call c log
  | none => (.error (refusal items c.method), log)

/-- A place that was remembered is the one that would be found now. -/
lemma dispatch_eq (fs : Fragments) (m : Method) : ∃ fs', fs'.items = fs.items ∧ fs.dispatch m =
    (((fs.items.findIdx? (·.serves m)).elim (.error (refusal fs.items m)) .ok), fs') := by
  unfold dispatch
  split
  · rename_i id place found
    have known := List.find?_some found
    rw [decide_eq_true_eq] at known
    rw [fs.settled _ (List.mem_of_find?_eq_some found) m known.symm]
    exact ⟨fs, rfl, rfl⟩
  · split
    · rename_i place found
      have placed : (fs.items.findIdx? (·.serves m)).elim (Except.error (refusal fs.items m)) .ok =
          .ok place := by
        rw [found]
        rfl
      exact ⟨fs.remember found, rfl, by rw [placed]⟩
    · rename_i missing
      rw [missing]
      exact ⟨fs, rfl, rfl⟩

/-- The fragment at the place of a method serves it. -/
lemma implementation_of_findIdx? {items : List Fragment} {place : Nat}
    (h : items.findIdx? (·.serves m) = some place) :
    ∃ f i, items.find? (·.serves m) = some f ∧ items[place]? = some f ∧
      f.implementation = some i := by
  obtain ⟨bound, serves, -⟩ := List.findIdx?_eq_some_iff_getElem.mp h
  have served := Bool.and_eq_true_iff.mp serves
  obtain ⟨i, implemented⟩ := Option.isSome_iff_exists.mp served.2
  refine ⟨items[place], i, ?_, List.getElem?_eq_getElem bound, implemented⟩
  rw [List.find?_eq_bind_findIdx?_getElem?, h]
  exact List.getElem?_eq_getElem bound

/-- Whatever was sent before, a call comes to what it would come to at first. -/
lemma invoke_eq (fs : Fragments) (c : Call) (log : CallLog) : ∃ fs', fs'.items = fs.items ∧
    fs.invoke c log = ((send fs.items c log).1, fs', (send fs.items c log).2) := by
  obtain ⟨fs', same, sent⟩ := fs.dispatch_eq c.method
  unfold invoke send
  rw [sent]
  cases place : fs.items.findIdx? (·.serves c.method) with
  | none =>
    rw [List.find?_eq_none.mpr (by simpa using List.findIdx?_eq_none_iff.mp place)]
    exact ⟨fs', same, rfl⟩
  | some place =>
    obtain ⟨f, i, first, found, implemented⟩ := implementation_of_findIdx? ‹_›
    refine ⟨fs', same, ?_⟩
    dsimp only [Option.elim]
    rw [same, found, first, Option.bind_some, implemented]

end Fragments

/-! ### Assemblies -/

namespace Assembly

variable {a a' : Assembly} {m : Method}

/-- What an assembly is made of, without the places to which methods were sent. -/
def forget (a : Assembly) : Assembly :=
  { a with fragments := .of a.fragments.items }

/-- What becomes of an invocation once a method was found for it, or none. -/
def proceed (a : Assembly) (m : Method) (found : Option Method) (arguments : List Value)
    (log : CallLog) : Except Error Value × CallLog :=
  match found with
  | none => (.error (.noFragment m.text), log)
  | some callee => Fragments.send a.fragments.items ⟨callee, a.convert callee arguments⟩ log

/-- What becomes of an invocation where nothing is remembered. -/
def call (a : Assembly) (m : Method) (arguments : List Value) (log : CallLog) :
    Except Error Value × CallLog :=
  a.proceed m (a.search m) arguments log

/-- The places that are remembered do not matter for a search. -/
@[simp]
lemma search_forget (a : Assembly) : a.forget.search = a.search := rfl

/-- The places that are remembered do not matter for what follows a search. -/
@[simp]
lemma proceed_forget (a : Assembly) : a.forget.proceed = a.proceed := rfl

/-- The places that are remembered do not matter for an invocation. -/
@[simp]
lemma call_forget (a : Assembly) : a.forget.call = a.call := rfl

/-- With other places for the same fragments an assembly is made of the same. -/
lemma forget_with {fs : Fragments} (h : fs.items = a.fragments.items) :
    { a with fragments := fs }.forget = a.forget := by
  unfold forget
  dsimp only
  rw [h]

/-- Assemblies that are made of the same find the same methods. -/
lemma search_congr (h : a'.forget = a.forget) : a'.search = a.search := by
  rw [← search_forget, h, search_forget]

/-- Assemblies that are made of the same go on alike after a search. -/
lemma proceed_congr (h : a'.forget = a.forget) : a'.proceed = a.proceed := by
  rw [← proceed_forget, h, proceed_forget]

/-- Assemblies that are made of the same answer invocations alike. -/
lemma call_congr (h : a'.forget = a.forget) : a'.call = a.call := by
  rw [← call_forget, h, call_forget]

/-- Assemblies that are made of the same have the same fragments. -/
lemma items_congr (h : a'.forget = a.forget) : a'.fragments.items = a.fragments.items :=
  congrArg (·.fragments.items) h

/-- Assemblies that are made of the same have the same lookup. -/
lemma lookup_congr (h : a'.forget = a.forget) : a'.lookup = a.lookup :=
  congrArg (·.lookup) h

/-- Whatever was found for the identity of a method was found for one of that identity. -/
def Recalls (a : Assembly) (found : List (MethodIdentity × Option Method)) : Prop :=
  ∀ f ∈ found, ∃ m : Method, m.identity = f.1 ∧ a.search m = f.2

/-- Nothing is remembered at first. -/
lemma Recalls.nil : a.Recalls [] := nofun

/-- What one assembly remembers is right for others that are made of the same. -/
lemma Recalls.congr {found : List (MethodIdentity × Option Method)} (recalls : a.Recalls found)
    (h : a'.forget = a.forget) : a'.Recalls found := by
  unfold Recalls
  rw [search_congr h]
  exact recalls

/-- What is found is a method of a fragment. -/
lemma mem_methods_of_search {callee : Method} (h : a.search m = some callee) :
    callee ∈ a.fragments.methods := by
  obtain ⟨accepts, -, found⟩ := List.exists_of_findSome?_eq_some h
  exact List.mem_of_find?_eq_some found

end Assembly

/-! ### Lookups -/

namespace Lookup

/-- The criteria ask for nothing but the name and the parameter types of an invoked method. -/
def BySignature (l : Lookup) : Prop :=
  ∀ accepts ∈ l, ∀ m m' : Method, m.matchesSignature m' = true → accepts m = accepts m'

/-- The direct lookup asks for nothing but the signature. -/
lemma BySignature.direct : direct.BySignature := by
  intro accepts h m m' same
  obtain ⟨name_eq, types_eq⟩ := Method.matchesSignature_iff.mp same
  rw [List.mem_singleton.mp h]
  funext candidate
  unfold Method.matchesSignature
  rw [name_eq, types_eq]

/-- The lookup for the types of a repository asks for nothing but the signature. -/
lemma BySignature.forRepository (r : RepositoryInterface) : (forRepository r).BySignature := by
  intro accepts h m m' same
  rcases List.mem_append.mp h with first | second
  · exact BySignature.direct accepts first m m' same
  · obtain ⟨name_eq, types_eq⟩ := Method.matchesSignature_iff.mp same
    rw [List.mem_singleton.mp second]
    funext candidate
    unfold fitsSignature
    rw [name_eq, types_eq]

end Lookup

/-- A lookup by signature finds the same for methods of the same signature. -/
lemma Assembly.search_of_matches {a : Assembly} {m m' : Method} (lookup : a.lookup.BySignature)
    (h : m.matchesSignature m' = true) : a.search m = a.search m' := by
  have alike : ∀ accepts ∈ a.lookup, accepts m = accepts m' :=
    fun accepts listed => lookup accepts listed m m' h
  unfold search
  clear lookup
  generalize a.lookup = l at alike ⊢
  induction l with
  | nil => rfl
  | cons accepts rest ih =>
    rw [List.findSome?_cons, List.findSome?_cons, alike accepts List.mem_cons_self,
      ih fun other listed => alike other (List.mem_cons_of_mem _ listed)]

/-! ### Compositions -/

namespace Composition

variable {c c' : Composition} {m : Method}

/-- A composition remembers nothing but what it found. -/
def Sound (c : Composition) : Prop :=
  c.Recalls c.found

/-- A composition after it was used: it is made of the same, and remembers what it found. -/
structure Follows (c c' : Composition) : Prop where
  forget_eq : c'.forget = c.forget
  found : ∀ f ∈ c'.found, f ∈ c.found ∨ ∃ m : Method, m.identity = f.1 ∧ c.search m = f.2

/-- A composition that was not used follows itself. -/
lemma Follows.refl (c : Composition) : c.Follows c :=
  ⟨rfl, fun _ => .inl⟩

/-- What follows a sound composition is sound. -/
lemma Sound.follow (sound : c.Sound) (h : c.Follows c') : c'.Sound := by
  refine Assembly.Recalls.congr (fun f hf => ?_) h.forget_eq
  rcases h.found f hf with old | new
  · exact sound f old
  · exact new

/-- A lookup adds what it found to what is remembered. -/
lemma find_follows (c : Composition) (m : Method) : c.Follows (c.find m).2 := by
  unfold find
  split
  · exact .refl c
  · refine ⟨rfl, fun f hf => ?_⟩
    rcases List.mem_cons.mp hf with rfl | old
    · exact .inr ⟨m, rfl, rfl⟩
    · exact .inl old

/-- What is found for a method was found for one of its identity at some time. -/
lemma Sound.find_searched (sound : c.Sound) (m : Method) :
    ∃ m' : Method, m'.identity = m.identity ∧ c.search m' = (c.find m).1 := by
  unfold find
  split
  · rename_i id answer found
    have known := List.find?_some found
    rw [decide_eq_true_eq] at known
    obtain ⟨m', same, searched⟩ := sound _ (List.mem_of_find?_eq_some found)
    exact ⟨m', same.trans known, searched⟩
  · exact ⟨m, rfl, rfl⟩

/-- What is found for a method is remembered for its identity. -/
lemma find_remembers (c : Composition) (m : Method) :
    ∃ id, ((c.find m).2.found.find? fun f => f.1 = m.identity) = some (id, (c.find m).1) := by
  unfold find
  split
  · rename_i id answer found
    exact ⟨id, found⟩
  · exact ⟨m.identity, List.find?_cons_of_pos (decide_eq_true rfl)⟩

/-- A lookup that is repeated has the same answer. -/
lemma find_again (c : Composition) (m : Method) : ((c.find m).2.find m).1 = (c.find m).1 := by
  obtain ⟨id, remembered⟩ := c.find_remembers m
  generalize c.find m = found at remembered ⊢
  unfold find
  rw [remembered]

/-- A lookup by signature finds what it would find for the first time. -/
lemma Sound.find_eq (sound : c.Sound) (lookup : c.lookup.BySignature) (m : Method) :
    (c.find m).1 = c.search m := by
  obtain ⟨m', same, searched⟩ := sound.find_searched m
  rw [← searched]
  exact Assembly.search_of_matches lookup (Method.matchesSignature_of_identity same)

/-- A use of a composition has an outcome: an answer and the calls that were made then. -/
def ComesTo {α : Type} (c : Composition) (run : α × Composition × CallLog)
    (outcome : α × CallLog) : Prop :=
  ∃ c', c.Follows c' ∧ run = (outcome.1, c', outcome.2)

/-- A lookup calls no implementation. -/
lemma find_comesTo (c : Composition) (m : Method) (log : CallLog) :
    c.ComesTo ((c.find m).1, (c.find m).2, log) ((c.find m).1, log) :=
  ⟨_, c.find_follows m, rfl⟩

/-- What becomes of an invocation depends on what is found for the method. -/
lemma invoke_comesTo (c : Composition) (m : Method) (arguments : List Value) (log : CallLog) :
    c.ComesTo (c.invoke m arguments log) (c.proceed m (c.find m).1 arguments log) := by
  have follows := c.find_follows m
  unfold invoke
  generalize c.find m = found at follows ⊢
  obtain ⟨found, c₁⟩ := found
  cases found with
  | none => exact ⟨c₁, follows, rfl⟩
  | some callee =>
    have items_eq : c₁.fragments.items = c.fragments.items := Assembly.items_congr follows.forget_eq
    have convert_eq : c₁.convert = c.convert := congrArg (·.convert) follows.forget_eq
    obtain ⟨fs, same, sent⟩ := c₁.fragments.invoke_eq ⟨callee, c.convert callee arguments⟩ log
    refine ⟨{ c₁ with fragments := fs },
      ⟨(Assembly.forget_with same).trans follows.forget_eq, follows.found⟩, ?_⟩
    dsimp only
    rw [convert_eq, sent, items_eq]
    rfl

/-- A call of fragments needs no lookup and comes to what it would come to at first. -/
lemma invokeFragments_comesTo (c : Composition) (callee : Method) (arguments : List Value)
    (log : CallLog) : c.ComesTo (c.invokeFragments callee arguments log)
      (Fragments.send c.fragments.items ⟨callee, arguments⟩ log) := by
  obtain ⟨fs, same, sent⟩ := c.fragments.invoke_eq ⟨callee, arguments⟩ log
  refine ⟨{ c with fragments := fs }, ⟨Assembly.forget_with same, fun _ => .inl⟩, ?_⟩
  unfold invokeFragments
  rw [sent]

end Composition

end EntityModel
