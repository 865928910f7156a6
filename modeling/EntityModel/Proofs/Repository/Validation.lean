import EntityModel.Proofs.Repository.Requests

/-!
# Validated compositions

In a validated composition every fragment that declares methods has an implementation, so an
invocation for which a method is found comes to an implementation, whatever the lookup
(`Compositions.invoke_validated`). An implementation that is made of handlers has one for every
method that its fragment declares.
-/

namespace EntityModel

/-! ### Handlers -/

namespace Implementation

variable {handlers : List (Method × Handler)} {d callee : Method}

/-- The declaring type is not part of a signature. -/
lemma matchesSignature_declaredOn (m callee : Method) (type : String) :
    (m.declaredOn type).matchesSignature callee = m.matchesSignature callee := by
  unfold Method.declaredOn
  split <;> rfl

/-- There is a handler for the methods of every signature that is handled. -/
lemma exists_handler (handled : d ∈ handlers.map (·.1))
    (same : d.matchesSignature callee = true) :
    ∃ e ∈ handlers, ∃ place, handler? handlers callee = some (e.2, place) ∧
      e.1.matchesSignature callee = true := by
  obtain ⟨⟨d, h⟩, mem, rfl⟩ := List.mem_map.mp handled
  obtain ⟨place, at_place⟩ := List.mem_iff_getElem?.mp mem
  have suits : ∃ x ∈ handlers.zipIdx, x.1.1.matchesSignature callee = true :=
    ⟨_, List.mk_mem_zipIdx_iff_getElem?.mpr at_place, same⟩
  obtain ⟨⟨⟨e, h'⟩, place'⟩, found⟩ := Option.isSome_iff_exists.mp (List.find?_isSome.mpr suits)
  have listed := List.mk_mem_zipIdx_iff_getElem?.mp (List.mem_of_find?_eq_some found)
  have suited := List.find?_some found
  refine ⟨(e, h'), List.mem_of_getElem? listed, place', ?_, suited⟩
  unfold handler?
  rw [found]
  rfl

/-- Calls of a method are answered by a handler that an object has for a method of the same name and
parameter types. -/
def Handles (i : Implementation) (callee : Method) : Prop :=
  ∃ serial typeName handlers, i = .ofHandlers serial typeName handlers ∧
    ∃ declared h, (declared, h) ∈ handlers ∧
      declared.name = callee.name ∧ declared.parameterTypes = callee.parameterTypes ∧
      ∀ arguments log, ∃ earlier, (i.call ⟨callee, arguments⟩ log).1 = h earlier arguments

/-- An object of handlers handles the methods of every signature that it has. -/
lemma handles_ofHandlers {serial : Nat} {typeName : String}
    (handled : d ∈ (ofHandlers serial typeName handlers).methods)
    (same : d.matchesSignature callee = true) :
    (ofHandlers serial typeName handlers).Handles callee := by
  obtain ⟨⟨e, h⟩, mem, place, found, suits⟩ := exists_handler handled same
  obtain ⟨⟨declared, h⟩, listed, pair_eq⟩ := List.mem_map.mp mem
  cases pair_eq
  rw [matchesSignature_declaredOn] at suits
  obtain ⟨name_eq, types_eq⟩ := Method.matchesSignature_iff.mp suits
  refine ⟨serial, typeName, handlers, rfl, declared, h, listed, name_eq, types_eq, ?_⟩
  intro arguments log
  unfold call ofHandlers Implementation.handled
  dsimp only at found ⊢
  rw [found]
  exact ⟨_, rfl⟩

end Implementation

/-! ### Validation -/

namespace Fragment

variable {f : Fragment}

/-- The fragment is an implementation made of handlers. -/
def OfHandlers (f : Fragment) : Prop :=
  ∃ serial typeName handlers, f = .implemented (.ofHandlers serial typeName handlers)

/-- A fragment lacks an implementation only if it declares methods. -/
lemma lacksImplementation_eq_false_iff :
    f.lacksImplementation = false ↔ f.methods = [] ∨ f.implementation.isSome = true := by
  unfold lacksImplementation
  cases f.methods <;> cases f.implementation <;> simp

/-- An object of handlers handles what its fragment declares. -/
lemma OfHandlers.handles {i : Implementation} {callee : Method} (made : f.OfHandlers)
    (implemented : f.implementation = some i) (declares : f.Declares callee) :
    i.Handles callee := by
  obtain ⟨serial, typeName, handlers, rfl⟩ := made
  cases implemented
  obtain ⟨d, hd, name_eq, types_eq⟩ := declares
  exact Implementation.handles_ofHandlers hd (Method.matchesSignature_iff.mpr ⟨name_eq, types_eq⟩)

end Fragment

namespace Assembly

variable {a : Assembly} {m callee : Method}

/-- Validation asks every fragment that declares methods for an implementation. -/
lemma validate_eq_ok_iff : a.validate = .ok () ↔
    ∀ f ∈ a.fragments.items, f.methods = [] ∨ f.implementation.isSome = true := by
  simp only [← Fragment.lacksImplementation_eq_false_iff]
  unfold validate
  split
  · rename_i complete
    exact ⟨fun _ f hf => by simpa using List.find?_eq_none.mp complete f hf, fun _ => rfl⟩
  · rename_i f found
    refine ⟨nofun, fun complete => ?_⟩
    have lacks := List.find?_some found
    cases lacks.symm.trans (complete f (List.mem_of_find?_eq_some found))

/-- In a validated assembly every declared method comes to an implementation. -/
lemma exists_implementer (valid : a.validate = .ok ()) (h : callee ∈ a.fragments.methods) :
    ∃ f ∈ a.fragments.items, ∃ i, f.implementation = some i ∧ f.Declares callee ∧
      ∀ arguments log, Fragments.send a.fragments.items ⟨callee, arguments⟩ log =
        i.call ⟨callee, arguments⟩ log := by
  obtain ⟨f, hf, declared⟩ := List.mem_flatMap.mp h
  have implemented : f.implementation.isSome = true :=
    (validate_eq_ok_iff.mp valid f hf).resolve_left (List.ne_nil_of_mem declared)
  have has : f.hasMethod callee = true := Fragment.hasMethod_iff.mpr ⟨callee, declared, rfl, rfl⟩
  have serves : f.serves callee = true := Bool.and_eq_true_iff.mpr ⟨has, implemented⟩
  have some_serves : (a.fragments.items.find? (·.serves callee)).isSome = true :=
    List.find?_isSome.mpr ⟨f, hf, serves⟩
  obtain ⟨g, first⟩ := Option.isSome_iff_exists.mp some_serves
  have serves' := List.find?_some first
  have served := Bool.and_eq_true_iff.mp serves'
  obtain ⟨i, implemented⟩ := Option.isSome_iff_exists.mp served.2
  refine ⟨g, List.mem_of_find?_eq_some first, i, implemented,
    Fragment.hasMethod_iff.mp served.1, ?_⟩
  intro arguments log
  unfold Fragments.send
  rw [first, Option.bind_some, implemented]

end Assembly

namespace Compositions

variable {a : Assembly} {requests : List Request} {answers : List Answer} {cs cs₁ : Compositions}
  {s : SharedComposition} {i : Nat} {m callee : Method}

/-- A method that was found comes to an implementation of a validated composition: it receives every
invocation that is made next, with the arguments converted, and its answer is the answer. If the
fragments are made of handlers, that is the answer of a handler for the method. -/
theorem invoke_validated {before : CallLog}
    (ran : run requests (single a before) = some (answers, cs)) (hs : cs.inUse[i]? = some s)
    (valid : s.validate = .ok ()) (found : cs.find i m = some (some callee, cs₁)) :
    ∃ f ∈ s.fragments.items, ∃ implementer, f.implementation = some implementer ∧
      f.Declares callee ∧
      (∀ now, now = cs ∨ now = cs₁ → ∀ arguments, ∃ answer cs',
        now.invoke i m arguments = some (answer, cs') ∧
          (answer, cs'.log) = implementer.call ⟨callee, s.convert callee arguments⟩ now.log) ∧
      ((∀ g ∈ s.fragments.items, g.OfHandlers) → implementer.Handles callee) := by
  have sound : cs.Sound := (Sound.single a before).run ran
  obtain ⟨c, got, made, soundc⟩ := sound.get? hs
  obtain ⟨finds, rfl⟩ :
      (c.find m).1 = some callee ∧ cs.keep i s.cache (c.find m).2 cs.log = cs₁ := by
    unfold Compositions.find act at found
    rw [got] at found
    simpa using found
  have declared : callee ∈ c.fragments.methods := by
    obtain ⟨m', -, searched⟩ := soundc.find_searched m
    exact Assembly.mem_methods_of_search (searched.trans finds)
  rw [made] at declared
  obtain ⟨f, hf, implementer, implemented, declares, sends⟩ :=
    Assembly.exists_implementer valid declared
  refine ⟨f, hf, implementer, implemented, declares, ?_, fun handlers => ?_⟩
  · have proceeds (arguments : List Value) (log : CallLog) :
        s.proceed m (some callee) arguments log =
          implementer.call ⟨callee, s.convert callee arguments⟩ log := sends _ log
    -- the method is found alike before its lookup and afterwards, when it is remembered
    rintro now (rfl | rfl) arguments
    · obtain ⟨cs', invoked, -, logged⟩ := sound.invoke_found got m arguments
      rw [finds, made, proceeds] at invoked logged
      exact ⟨_, cs', invoked, by rw [logged]⟩
    · have follows := c.find_follows m
      obtain ⟨s', got'⟩ := get?_keep got (c.find m).2 cs.log
      obtain ⟨cs', invoked, -, logged⟩ :=
        (sound.keep got follows cs.log).invoke_found got' m arguments
      rw [c.find_again m, finds, Assembly.proceed_congr follows.forget_eq, made, proceeds]
        at invoked logged
      exact ⟨_, cs', invoked, by rw [logged]⟩
  · exact (handlers f hf).handles implemented declares

namespace Sample

/-- Readers are found by their name, and so is the method that finds them. -/
def validated : Assembly where
  fragments := .of [finder 0 "Ada"]
  lookup := .byName

/-- A method of the name of the one that finds readers, without parameters. -/
def findAnyone : Method where
  declaringType := "Readers"
  name := "findByName"
  parameterTypes := []

end Sample

open Sample in
/-- The method that was found for another one of its name is handled where it was declared. -/
theorem invoke_validated_readers : ∃ cs cs₁ cs₂ implementer,
    run [.invoke 0 findAnyone []] (single validated []) =
        some ([.called (.ok (.text "Ada"))], cs) ∧
      cs.find 0 findAnyone = some (some findByName, cs₁) ∧
      cs₁.invoke 0 findAnyone [] = some (.ok (.text "Ada"), cs₂) ∧
      (finder 0 "Ada").implementation = some implementer ∧ implementer.Handles findByName := by
  obtain ⟨cs, s, cs₁, ran, hs, items_eq, valid, found⟩ : ∃ cs s cs₁,
      run [.invoke 0 findAnyone []] (single validated []) =
          some ([.called (.ok (.text "Ada"))], cs) ∧
        cs.inUse[0]? = some s ∧ s.fragments.items = [finder 0 "Ada"] ∧ s.validate = .ok () ∧
        cs.find 0 findAnyone = some (some findByName, cs₁) := ⟨_, _, _, rfl, rfl, rfl, rfl, rfl⟩
  obtain ⟨f, hf, implementer, implemented, -, invokes, handles⟩ :=
    invoke_validated ran hs valid found
  rw [items_eq] at hf handles
  obtain rfl := List.mem_singleton.mp hf
  have handlers : ∀ g ∈ [finder 0 "Ada"], g.OfHandlers := by
    intro g hg
    rw [List.mem_singleton.mp hg]
    exact ⟨_, _, _, rfl⟩
  obtain ⟨answer, cs₂, invoked, called⟩ := invokes cs₁ (.inr rfl) []
  have handled := handles handlers
  cases implemented
  obtain rfl : answer = .ok (.text "Ada") := congrArg Prod.fst called
  exact ⟨cs, cs₁, cs₂, _, ran, found, invoked, rfl, handled⟩

end Compositions

end EntityModel
