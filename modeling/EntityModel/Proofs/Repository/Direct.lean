import EntityModel.Proofs.Repository.Requests

/-!
# Direct calls

Under the direct lookup an invocation goes to the first implementation among the fragments that
declare the invoked method (`Compositions.invoke_direct`). Fragments that are appended come after
those, so they do not change where a method goes that goes to an implementation.
-/

namespace EntityModel

namespace Fragments

variable {items more : List Fragment} {m m' : Method}

/-- The fragments that declare a method. -/
def declaring (items : List Fragment) (m : Method) : List Fragment :=
  items.filter (·.Declares m)

/-- The fragments that declare a method come in the order of all fragments. -/
lemma declaring_append (items more : List Fragment) (m : Method) :
    declaring (items ++ more) m = declaring items m ++ declaring more m :=
  List.filter_append ..

/-- Fragments declare methods of one signature alike. -/
lemma declaring_congr (items : List Fragment) (h : m.matchesSignature m' = true) :
    declaring items m = declaring items m' := by
  refine List.filter_congr fun f _ => decide_eq_decide.mpr ?_
  rw [← Fragment.hasMethod_iff, ← Fragment.hasMethod_iff, Fragment.hasMethod_congr h]

/-- The first fragment that serves a method is the first of those that declare it which has an
implementation. -/
lemma implementation_find? (items : List Fragment) (m : Method) :
    (items.find? (·.serves m)).bind (·.implementation) =
      (declaring items m).findSome? (·.implementation) := by
  induction items with
  | nil => rfl
  | cons f items ih =>
    unfold declaring at ih ⊢
    by_cases declares : f.Declares m
    · have has := Fragment.hasMethod_iff.mpr declares
      rw [List.filter_cons, if_pos (decide_eq_true declares), List.findSome?_cons]
      -- a fragment without an implementation is passed over by both searches
      cases implemented : f.implementation with
      | none =>
        have unserved : ¬ f.serves m = true := by
          rw [Fragment.serves, implemented, Bool.and_eq_true_iff]
          nofun
        rw [List.find?_cons_of_neg (p := fun f : Fragment => f.serves m) unserved]
        exact ih
      | some i =>
        rw [List.find?_cons_of_pos (by rw [Fragment.serves, has, implemented]; rfl)]
        exact implemented
    · have lacks := Bool.eq_false_iff.mpr fun has => declares (Fragment.hasMethod_iff.mp has)
      rw [List.filter_cons, if_neg (by simpa using declares),
        List.find?_cons_of_neg (by rw [Fragment.serves, lacks]; nofun)]
      exact ih

/-- A call is answered by the first implementation among the fragments that declare its method. -/
lemma send_eq_call {c : Call} {i : Implementation} {log : CallLog}
    (h : (declaring items c.method).findSome? (·.implementation) = some i) :
    send items c log = i.call c log := by
  unfold send
  rw [implementation_find?, h]

/-- A call is refused if no fragment that declares its method has an implementation. -/
lemma send_eq_refusal {c : Call} {log : CallLog}
    (h : ∀ f ∈ declaring items c.method, f.implementation = none) :
    send items c log = (.error (refusal items c.method), log) := by
  unfold send
  rw [implementation_find?, List.findSome?_eq_none_iff.mpr h]

/-- Where the method is declared, what is missing is an implementation. -/
lemma refusal_of_declares {f : Fragment} (hf : f ∈ declaring items m) :
    refusal items m = .noImplementation m.text := by
  obtain ⟨listed, declares⟩ := List.mem_filter.mp hf
  have has := Fragment.hasMethod_iff.mpr (of_decide_eq_true declares)
  unfold refusal
  rw [if_pos (List.any_eq_true.mpr ⟨f, listed, has⟩)]

end Fragments

namespace Assembly

variable {a : Assembly} {m callee : Method} {arguments : List Value} {log : CallLog}

/-- The outcome of an invocation under the direct lookup: it is decided by the fragments that
declare the invoked method. What is called is the method as the first of them declares it. -/
structure DirectOutcome (a : Assembly) (m : Method) (arguments : List Value) (log : CallLog)
    (outcome : Except Error Value × CallLog) : Prop where
  undeclared : Fragments.declaring a.fragments.items m = [] →
    outcome = (.error (.noFragment m.text), log)
  unimplemented : Fragments.declaring a.fragments.items m ≠ [] →
    (∀ f ∈ Fragments.declaring a.fragments.items m, f.implementation = none) →
    ∃ callee, a.fragments.methods.find? m.matchesSignature = some callee ∧
      outcome = (.error (.noImplementation callee.text), log)
  implemented : ∀ i,
    (Fragments.declaring a.fragments.items m).findSome? (·.implementation) = some i →
    ∃ callee, a.fragments.methods.find? m.matchesSignature = some callee ∧
      outcome = i.call ⟨callee, a.convert callee arguments⟩ log

/-- The direct lookup finds the first method of the signature that is invoked. -/
lemma search_direct (direct : a.lookup = .direct) (m : Method) :
    a.search m = a.fragments.methods.find? m.matchesSignature := by
  unfold search
  rw [direct]
  exact List.findSome?_singleton

/-- A method is found if a fragment declares it. -/
lemma exists_callee {f : Fragment} (hf : f ∈ Fragments.declaring a.fragments.items m) :
    ∃ callee, a.fragments.methods.find? m.matchesSignature = some callee := by
  obtain ⟨listed, declares⟩ := List.mem_filter.mp hf
  obtain ⟨d, hd, name_eq, types_eq⟩ := of_decide_eq_true declares
  refine Option.isSome_iff_exists.mp (List.find?_isSome.mpr ⟨d, ?_, ?_⟩)
  · exact List.mem_flatMap.mpr ⟨f, listed, hd⟩
  · exact Method.matchesSignature_iff.mpr ⟨name_eq.symm, types_eq.symm⟩

/-- Under the direct lookup, an invocation that finds a method is a call of this method. -/
lemma call_of_callee (direct : a.lookup = .direct)
    (found : a.fragments.methods.find? m.matchesSignature = some callee) :
    a.call m arguments log =
      Fragments.send a.fragments.items ⟨callee, a.convert callee arguments⟩ log := by
  unfold call
  rw [search_direct direct, found]
  rfl

/-- An invocation under the direct lookup has its outcome. -/
lemma directOutcome_call (direct : a.lookup = .direct) (m : Method) (arguments : List Value)
    (log : CallLog) : a.DirectOutcome m arguments log (a.call m arguments log) where
  undeclared none_declares := by
    have missing : a.fragments.methods.find? m.matchesSignature = none := by
      refine List.find?_eq_none.mpr fun d hd same => ?_
      obtain ⟨f, listed, hd⟩ := List.mem_flatMap.mp hd
      obtain ⟨name_eq, types_eq⟩ := Method.matchesSignature_iff.mp same
      have declares : f.Declares m := ⟨d, hd, name_eq.symm, types_eq.symm⟩
      exact List.ne_nil_of_mem (List.mem_filter.mpr ⟨listed, decide_eq_true declares⟩) none_declares
    unfold call
    rw [search_direct direct, missing]
    rfl
  unimplemented some_declares unimplemented := by
    obtain ⟨f, hf⟩ := List.exists_mem_of_ne_nil _ some_declares
    obtain ⟨callee, found⟩ := exists_callee hf
    -- the called method has the signature of the invoked one, so the same fragments declare it
    have same := Fragments.declaring_congr a.fragments.items (List.find?_some found)
    rw [same] at hf unimplemented
    refine ⟨callee, found, ?_⟩
    rw [call_of_callee direct found, Fragments.send_eq_refusal unimplemented,
      Fragments.refusal_of_declares hf]
  implemented i serves := by
    obtain ⟨f, hf, -⟩ := List.exists_of_findSome?_eq_some serves
    obtain ⟨callee, found⟩ := exists_callee hf
    have same := Fragments.declaring_congr a.fragments.items (List.find?_some found)
    rw [same] at serves
    refine ⟨callee, found, ?_⟩
    rw [call_of_callee direct found, Fragments.send_eq_call serves]

/-- Fragments that come last do not change where a method goes that goes to an implementation. -/
lemma call_append (direct : a.lookup = .direct) {i : Implementation}
    (serves : (Fragments.declaring a.fragments.items m).findSome? (·.implementation) = some i)
    (more : List Fragment) :
    Assembly.call { a with fragments := .of (a.fragments.items ++ more) } m arguments log =
      a.call m arguments log := by
  obtain ⟨callee, found, outcome⟩ :=
    (directOutcome_call direct m arguments log).implemented i serves
  have direct' :
      Assembly.lookup { a with fragments := .of (a.fragments.items ++ more) } = .direct := direct
  -- an implementation was found before the further fragments, so it comes first
  have serves' : (Fragments.declaring (a.fragments.items ++ more) m).findSome?
      (·.implementation) = some i := by
    rw [Fragments.declaring_append, List.findSome?_append, serves, Option.some_or]
  obtain ⟨callee', found', outcome'⟩ :=
    (directOutcome_call direct' m arguments log).implemented i serves'
  have first : (a.fragments.items ++ more).flatMap (·.methods) =
      a.fragments.methods ++ more.flatMap (·.methods) := List.flatMap_append
  have same : (Fragments.of (a.fragments.items ++ more)).methods.find? m.matchesSignature =
      some callee := by
    unfold Fragments.methods Fragments.of
    rw [first, List.find?_append, found, Option.some_or]
  cases found'.symm.trans same
  rw [outcome, outcome']

end Assembly

namespace Compositions

variable {a : Assembly} {requests : List Request} {answers : List Answer} {cs : Compositions}
  {s : SharedComposition} {i : Nat}

/-- The derivations that append fragments. -/
inductive Derivation.Appends : Derivation → List Fragment → Prop where
  | one (f : Fragment) : Appends (.append f) [f]
  | all (items : List Fragment) : Appends (.appendAll items) items

/-- After any requests, an invocation of a composition with the direct lookup fails if no fragment
declares the method, or none that declares it has an implementation. Otherwise the first
implementation among the fragments that declare it answers the converted arguments, as it does where
further fragments are appended. -/
theorem invoke_direct {before : CallLog}
    (ran : run requests (single a before) = some (answers, cs)) (hs : cs.inUse[i]? = some s)
    (direct : s.lookup = .direct) (m : Method) (arguments : List Value) :
    ∃ answer cs', cs.invoke i m arguments = some (answer, cs') ∧
      s.DirectOutcome m arguments cs.log (answer, cs'.log) ∧
      ∀ implementer,
        (Fragments.declaring s.fragments.items m).findSome? (·.implementation) = some implementer →
        ∀ d more, Derivation.Appends d more → ∃ cs₁ cs₂, cs.derive i d.make = some cs₁ ∧
          cs₁.invoke cs.inUse.length m arguments = some (answer, cs₂) ∧ cs₂.log = cs'.log := by
  have sound : cs.Sound := (Sound.single a before).run ran
  -- the direct lookup is one by signature, so nothing that was remembered gets in the way
  have bySignature : s.lookup.BySignature := by
    rw [direct]
    exact .direct
  obtain ⟨cs', invoked, -, log_eq⟩ := sound.invoke hs bySignature m arguments
  refine ⟨_, cs', invoked, ?_, ?_⟩
  · rw [log_eq]
    exact Assembly.directOutcome_call direct m arguments cs.log
  · intro implementer serves d more appends
    obtain ⟨cs₁, s₁, derived, sound₁, log_eq₁, hs₁, made⟩ := sound.derive hs d
    -- the derived composition has the further fragments and is otherwise the same
    have made' : s₁.forget = Assembly.forget
        { s.toAssembly with fragments := .of (s.fragments.items ++ more) } := by
      rw [made]
      cases appends <;> rfl
    have bySignature₁ : s₁.lookup.BySignature := by
      rw [Assembly.lookup_congr made']
      exact bySignature
    obtain ⟨cs₂, invoked₂, -, log_eq₂⟩ := sound₁.invoke hs₁ bySignature₁ m arguments
    have same : s₁.call m arguments cs₁.log = s.call m arguments cs.log := by
      rw [Assembly.call_congr made', Assembly.call_append direct serves, log_eq₁]
    rw [same] at invoked₂ log_eq₂
    exact ⟨cs₁, cs₂, derived, invoked₂, log_eq₂.trans log_eq.symm⟩

namespace Sample

/-- Readers are found in two places, of which one comes first. -/
def served : Assembly where
  fragments := .of [readers, finder 0 "Ada", finder 1 "Bob"]

/-- The first of the fragments that find readers by name serves the search. -/
lemma served_implementation :
    (Fragments.declaring served.fragments.items findByName).findSome? (·.implementation) =
      (finder 0 "Ada").implementation := rfl

end Sample

open Sample in
/-- Of two fragments that find readers the first one is asked, also where a third one is
appended. -/
theorem invoke_direct_readers : ∃ cs cs' cs₁ cs₂,
    run [.find 0 findByName] (single served []) = some ([.found (some findByName)], cs) ∧
      cs.invoke 0 findByName [] = some (.ok (.text "Ada"), cs') ∧
      cs.derive 0 (·.append (finder 2 "Eve")) = some cs₁ ∧
      cs₁.invoke 1 findByName [] = some (.ok (.text "Ada"), cs₂) := by
  obtain ⟨cs, s, ran, hs, direct, items_eq, length_eq⟩ : ∃ cs s,
      run [.find 0 findByName] (single served []) = some ([.found (some findByName)], cs) ∧
        cs.inUse[0]? = some s ∧ s.lookup = .direct ∧ s.fragments.items = served.fragments.items ∧
        cs.inUse.length = 1 := ⟨_, _, rfl, rfl, rfl, rfl, rfl⟩
  obtain ⟨answer, cs', invoked, outcome, appended⟩ := invoke_direct ran hs direct findByName []
  have serves := served_implementation
  rw [← items_eq] at serves
  obtain ⟨callee, found, called⟩ := outcome.implemented _ serves
  have methods_eq : s.fragments.methods = served.fragments.methods := by
    unfold Fragments.methods
    rw [items_eq]
  rw [methods_eq] at found
  obtain rfl : findByName = callee := Option.some.inj found
  obtain rfl : answer = .ok (.text "Ada") := congrArg Prod.fst called
  obtain ⟨cs₁, cs₂, derived, again, -⟩ := appended _ serves _ _ (.one (finder 2 "Eve"))
  rw [length_eq] at again
  exact ⟨cs, cs', cs₁, cs₂, ran, invoked, derived, again⟩

end Compositions

end EntityModel
