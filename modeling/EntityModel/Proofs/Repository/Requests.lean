import EntityModel.Proofs.Repository.Dispatch
import EntityModel.Repository.Shared

/-!
# Requests to compositions

Whatever compositions were asked, copied and derived before, in whichever order, each of them is
made of what it was made of at first, and remembers nothing but what it and its copies have found
(`Compositions.Sound`).
-/

namespace EntityModel

namespace Compositions

variable {cs cs' : Compositions} {s : SharedComposition} {c c' : Composition} {i : Nat}
  {log : CallLog}

/-! ### Requests -/

/-- How a composition is derived from another one. -/
inductive Derivation where
  | append (f : Fragment)
  | appendAll (items : List Fragment)
  | adopt (fs : Fragments)
  | lookup (l : Lookup)
  | converter (convert : Conversion)
  | interface (r : RepositoryInterface)

def Derivation.make : Derivation → Composition → Composition
  | append f, c => c.append f
  | appendAll items, c => c.appendAll items
  | adopt fs, c => c.adopt fs
  | lookup l, c => c.withLookup l
  | converter convert, c => c.withConverter convert
  | interface r, c => c.withInterface r

/-- What a composition is made of after a derivation. -/
def Derivation.change : Derivation → Assembly → Assembly
  | append f, a => { a with fragments := .of (a.fragments.items ++ [f]) }
  | appendAll items, a => { a with fragments := .of (a.fragments.items ++ items) }
  | adopt fs, a => { a with fragments := .of fs.items }
  | lookup l, a => { a with lookup := l }
  | converter convert, a => { a with convert }
  | interface r, a => { a with interface := some r }

/-- What compositions are asked for: methods that serve others, answers to calls, copies and further
compositions. -/
inductive Request where
  | find (i : Nat) (m : Method)
  | invoke (i : Nat) (m : Method) (arguments : List Value)
  | send (i : Nat) (callee : Method) (arguments : List Value)
  | copy (i : Nat)
  | derive (i : Nat) (d : Derivation)

inductive Answer where
  | found (callee : Option Method)
  | called (answer : Except Error Value)
  | made

/-- The answer to a request and the compositions after it, if there is one of that number. -/
def Request.run : Request → Compositions → Option (Answer × Compositions)
  | find i m, cs => (cs.find i m).map (Prod.map .found id)
  | invoke i m arguments, cs => (cs.invoke i m arguments).map (Prod.map .called id)
  | send i callee arguments, cs =>
    (cs.invokeFragments i callee arguments).map (Prod.map .called id)
  | copy i, cs => (cs.copy i).map (.made, ·)
  | derive i d, cs => (cs.derive i d.make).map (.made, ·)

/-- The answers to requests, one after the other. -/
def run : List Request → Compositions → Option (List Answer × Compositions)
  | [], cs => some ([], cs)
  | request :: requests, cs => do
    let (answer, cs) ← request.run cs
    let (answers, cs) ← run requests cs
    return (answer :: answers, cs)

/-! ### Sound compositions -/

/-- What the compositions are made of. -/
def assemblies (cs : Compositions) : List Assembly :=
  cs.inUse.map (·.forget)

/-- What is remembered was found by the compositions that remember it. -/
structure Sound (cs : Compositions) : Prop where
  cached : ∀ s ∈ cs.inUse, s.cache < cs.caches.length
  /-- Compositions that share a cache are copies. -/
  copies : ∀ s ∈ cs.inUse, ∀ s' ∈ cs.inUse, s'.cache = s.cache → s'.forget = s.forget
  recalled : ∀ s ∈ cs.inUse, ∀ found, cs.caches[s.cache]? = some found → s.Recalls found

/-- A composition is found by its number, and remembers what is in its cache. -/
lemma get?_eq_some_iff : cs.get? i = some (s, c) ↔
    cs.inUse[i]? = some s ∧ ∃ found, cs.caches[s.cache]? = some found ∧
      c = { s.toAssembly with found } := by
  unfold get?
  simp only [Option.bind_eq_bind, Option.bind_eq_some_iff, Option.pure_def, Option.some.injEq,
    Prod.mk.injEq]
  constructor
  · rintro ⟨s', hs, found, hfound, rfl, rfl⟩
    exact ⟨hs, found, hfound, rfl⟩
  · rintro ⟨hs, found, hfound, rfl⟩
    exact ⟨s, hs, found, hfound, rfl, rfl⟩

/-- A composition is found again as it was left. -/
lemma get?_keep (got : cs.get? i = some (s, c)) (c' : Composition) (log : CallLog) :
    ∃ s', (cs.keep i s.cache c' log).get? i = some (s', c') := by
  obtain ⟨hs, found, hfound, -⟩ := get?_eq_some_iff.mp got
  obtain ⟨bound, -⟩ := List.getElem?_eq_some_iff.mp hs
  obtain ⟨cached, -⟩ := List.getElem?_eq_some_iff.mp hfound
  exact ⟨_, get?_eq_some_iff.mpr
    ⟨List.getElem?_set_self bound, _, List.getElem?_set_self cached, rfl⟩⟩

/-- A composition is made of the same after it was used. -/
lemma assemblies_keep (hs : cs.inUse[i]? = some s) (h : c.forget = s.forget) (cache : Nat)
    (log : CallLog) : (cs.keep i cache c log).assemblies = cs.assemblies := by
  obtain ⟨bound, rfl⟩ := List.getElem?_eq_some_iff.mp hs
  unfold assemblies keep
  rw [List.map_set, h]
  rw [← List.getElem_map (fun s : SharedComposition => s.forget)]
  exact List.set_getElem_self (by rwa [List.length_map])

/-- A composition that enters comes last. -/
lemma assemblies_enter (cs : Compositions) (c : Composition) :
    (cs.enter c).assemblies = cs.assemblies ++ [c.forget] :=
  List.map_append

namespace Sound

/-- A single composition has found nothing yet. -/
lemma single (a : Assembly) (log : CallLog) : (single a log).Sound where
  cached s hs := by
    rw [List.mem_singleton.mp hs]
    exact Nat.one_pos
  copies s hs s' hs' _ := by rw [List.mem_singleton.mp hs, List.mem_singleton.mp hs']
  recalled s _ found h := by
    rw [List.mem_singleton.mp (List.mem_of_getElem? h)]
    exact .nil

/-- A composition that is in use has a cache. -/
lemma get? (sound : cs.Sound) (hs : cs.inUse[i]? = some s) :
    ∃ c, cs.get? i = some (s, c) ∧ c.toAssembly = s.toAssembly ∧ c.Sound := by
  have hs' := List.mem_of_getElem? hs
  have hfound := List.getElem?_eq_getElem (sound.cached s hs')
  exact ⟨_, get?_eq_some_iff.mpr ⟨hs, _, hfound, rfl⟩, rfl, sound.recalled s hs' _ hfound⟩

/-- Each of the compositions is sound. -/
lemma of_get? (sound : cs.Sound) (got : cs.get? i = some (s, c)) : c.Sound := by
  obtain ⟨hs, found, hfound, rfl⟩ := get?_eq_some_iff.mp got
  exact sound.recalled s (List.mem_of_getElem? hs) found hfound

/-- Compositions stay sound if each of them was there before, with the same cache, and what is in
the caches suits those that were there. -/
lemma of_before (sound : cs.Sound)
    (before : ∀ t ∈ cs'.inUse, ∃ s ∈ cs.inUse, t.cache = s.cache ∧ t.forget = s.forget)
    (length_eq : cs'.caches.length = cs.caches.length)
    (recalled : ∀ s ∈ cs.inUse, ∀ found, cs'.caches[s.cache]? = some found → s.Recalls found) :
    cs'.Sound where
  cached t ht := by
    obtain ⟨s, hs, cache_eq, -⟩ := before t ht
    rw [cache_eq, length_eq]
    exact sound.cached s hs
  copies t ht t' ht' shared := by
    obtain ⟨s, hs, cache_eq, made⟩ := before t ht
    obtain ⟨s', hs', cache_eq', made'⟩ := before t' ht'
    rw [made, made']
    exact sound.copies s hs s' hs' (by rw [← cache_eq, ← cache_eq', shared])
  recalled t ht found hfound := by
    obtain ⟨s, hs, cache_eq, made⟩ := before t ht
    rw [cache_eq] at hfound
    exact (recalled s hs found hfound).congr made

/-- What one composition finds is right for all of its copies. -/
lemma keep (sound : cs.Sound) (got : cs.get? i = some (s, c)) (follows : c.Follows c')
    (log : CallLog) : (cs.keep i s.cache c' log).Sound := by
  have recalls := ((sound.of_get? got).follow follows).congr follows.forget_eq.symm
  obtain ⟨hs, found, -, rfl⟩ := get?_eq_some_iff.mp got
  have hs := List.mem_of_getElem? hs
  refine sound.of_before (fun t ht => ?_) List.length_set fun t ht found' hfound' => ?_
  · rcases List.mem_or_eq_of_mem_set ht with old | rfl
    · exact ⟨t, old, rfl, rfl⟩
    · exact ⟨s, hs, rfl, follows.forget_eq⟩
  · unfold Compositions.keep at hfound'
    by_cases shared : s.cache = t.cache
    · rw [← shared, List.getElem?_set_self (sound.cached s hs)] at hfound'
      cases hfound'
      exact recalls.congr (sound.copies s hs t ht shared.symm)
    · rw [List.getElem?_set_ne shared] at hfound'
      exact sound.recalled t ht found' hfound'

/-- A copy uses a cache that suits it. -/
lemma copy (sound : cs.Sound) (h : cs.copy i = some cs') : cs'.Sound := by
  obtain ⟨s, hs, h⟩ := Option.bind_eq_some_iff.mp h
  cases h
  refine sound.of_before (fun t ht => ?_) rfl sound.recalled
  rcases List.mem_append.mp ht with old | new
  · exact ⟨t, old, rfl, rfl⟩
  · rw [List.mem_singleton.mp new]
    exact ⟨s, List.mem_of_getElem? hs, rfl, rfl⟩

/-- A composition with a cache of its own shares nothing with the others. -/
lemma enter (sound : cs.Sound) (nothing : c.found = []) : (cs.enter c).Sound := by
  -- the new cache comes behind all others, so none of the compositions uses it
  have fresh (s : SharedComposition) (hs : s ∈ cs.inUse) : s.cache ≠ cs.caches.length :=
    Nat.ne_of_lt (sound.cached s hs)
  refine ⟨?_, ?_, ?_⟩
  · intro s hs
    rw [Compositions.enter, List.length_append, List.length_singleton]
    rcases List.mem_append.mp hs with old | new
    · exact Nat.lt_succ_of_lt (sound.cached s old)
    · rw [List.mem_singleton.mp new]
      exact Nat.lt_succ_self _
  · intro s hs s' hs' shared
    rcases List.mem_append.mp hs with old | new <;> rcases List.mem_append.mp hs' with old' | new'
    · exact sound.copies s old s' old' shared
    · rw [List.mem_singleton.mp new'] at shared
      exact absurd shared.symm (fresh s old)
    · rw [List.mem_singleton.mp new] at shared
      exact absurd shared (fresh s' old')
    · rw [List.mem_singleton.mp new, List.mem_singleton.mp new']
  · intro s hs found hfound
    rcases List.mem_append.mp hs with old | new
    · rw [Compositions.enter, List.getElem?_append_left (sound.cached s old)] at hfound
      exact sound.recalled s old found hfound
    · rw [List.mem_singleton.mp new, Compositions.enter, List.getElem?_concat_length, nothing]
        at hfound
      cases hfound
      exact .nil

end Sound

/-! ### Uses -/

/-- Compositions after one of them was used: they are made of the same, and remain sound. -/
structure Used (cs cs' : Compositions) : Prop where
  sound : cs'.Sound
  assemblies_eq : cs'.assemblies = cs.assemblies

/-- A use of a composition that is in use has its outcome. -/
lemma Sound.act {α : Type} {run : Composition → CallLog → α × Composition × CallLog}
    {outcome : α × CallLog} (sound : cs.Sound) (got : cs.get? i = some (s, c))
    (comes : c.ComesTo (run c cs.log) outcome) :
    ∃ cs', cs.act i run = some (outcome.1, cs') ∧ cs.Used cs' ∧ cs'.log = outcome.2 := by
  obtain ⟨c', follows, came⟩ := comes
  refine ⟨_, ?_, ⟨sound.keep got follows outcome.2, ?_⟩, rfl⟩
  · unfold Compositions.act
    rw [got]
    dsimp only [Option.bind_eq_bind, Option.bind_some]
    rw [came]
    rfl
  · obtain ⟨hs, found, -, rfl⟩ := get?_eq_some_iff.mp got
    exact assemblies_keep hs follows.forget_eq s.cache outcome.2

/-- Under a number under which nothing is in use there is nothing to be used. -/
lemma act_eq_none {α : Type} {run : Composition → CallLog → α × Composition × CallLog}
    (h : cs.inUse[i]? = none) : cs.act i run = none := by
  unfold act get?
  rw [h]
  rfl

/-- What is asked of one composition leaves all of them sound, whatever the answer is made into. -/
lemma Sound.of_act {α : Type} {run : Composition → CallLog → α × Composition × CallLog}
    {wrap : α → Answer} {answer : Answer} (sound : cs.Sound)
    (h : (cs.act i run).map (Prod.map wrap id) = some (answer, cs'))
    (comes : ∀ c : Composition, ∃ outcome, c.ComesTo (run c cs.log) outcome) : cs'.Sound := by
  obtain ⟨⟨result, cs₁⟩, acted, h⟩ := Option.map_eq_some_iff.mp h
  obtain ⟨-, rfl⟩ := Prod.mk.inj h
  cases hs : cs.inUse[i]? with
  | none => cases (act_eq_none hs).symm.trans acted
  | some s =>
    obtain ⟨c, got, -, -⟩ := sound.get? hs
    obtain ⟨outcome, comes⟩ := comes c
    obtain ⟨cs₂, acted₂, used, -⟩ := sound.act got comes
    cases acted₂.symm.trans acted
    exact used.sound

/-- A method is found as if nothing were remembered, under a lookup by signature. -/
lemma Sound.find (sound : cs.Sound) (hs : cs.inUse[i]? = some s)
    (bySignature : s.lookup.BySignature) (m : Method) :
    ∃ cs', cs.find i m = some (s.search m, cs') ∧ cs.Used cs' ∧ cs'.log = cs.log := by
  obtain ⟨c, got, made, soundc⟩ := sound.get? hs
  rw [← made] at bySignature ⊢
  rw [← soundc.find_eq bySignature m]
  exact @Sound.act cs s c i _ _ (_, cs.log) sound got (c.find_comesTo m cs.log)

/-- What is answered to an invocation depends on what is found for the method. -/
lemma Sound.invoke_found (sound : cs.Sound) (got : cs.get? i = some (s, c)) (m : Method)
    (arguments : List Value) :
    ∃ cs', cs.invoke i m arguments = some ((c.proceed m (c.find m).1 arguments cs.log).1, cs') ∧
      cs.Used cs' ∧ cs'.log = (c.proceed m (c.find m).1 arguments cs.log).2 :=
  sound.act got (c.invoke_comesTo m arguments cs.log)

/-- An invocation is answered as if nothing were remembered, under a lookup by signature. -/
lemma Sound.invoke (sound : cs.Sound) (hs : cs.inUse[i]? = some s)
    (bySignature : s.lookup.BySignature) (m : Method) (arguments : List Value) :
    ∃ cs', cs.invoke i m arguments = some ((s.call m arguments cs.log).1, cs') ∧ cs.Used cs' ∧
      cs'.log = (s.call m arguments cs.log).2 := by
  obtain ⟨c, got, made, soundc⟩ := sound.get? hs
  rw [← made] at bySignature ⊢
  rw [Assembly.call, ← soundc.find_eq bySignature m]
  exact sound.invoke_found got m arguments

/-- A derived composition has found nothing yet. -/
lemma Derivation.found_make (d : Derivation) (c : Composition) : (d.make c).found = [] := by
  cases d <;> rfl

/-- A derivation makes the same of a composition whatever that remembers. -/
lemma Derivation.forget_make (d : Derivation) (c : Composition) :
    (d.make c).forget = d.change c.forget := by
  cases d <;> rfl

/-- A derived composition is found under the next number. -/
lemma Sound.derive (sound : cs.Sound) (hs : cs.inUse[i]? = some s) (d : Derivation) :
    ∃ cs' s', cs.derive i d.make = some cs' ∧ cs'.Sound ∧ cs'.log = cs.log ∧
      cs'.inUse[cs.inUse.length]? = some s' ∧ s'.forget = d.change s.forget := by
  obtain ⟨c, got, made, -⟩ := sound.get? hs
  refine ⟨cs.enter (d.make c), _, ?_, sound.enter (d.found_make c), rfl,
    List.getElem?_concat_length, ?_⟩
  · unfold Compositions.derive
    rw [got]
    rfl
  · rw [← made]
    exact d.forget_make c

/-! ### Runs -/

namespace Sound

/-- Every request leaves the compositions sound. -/
lemma answer (sound : cs.Sound) {request : Request} {answer : Answer}
    (h : request.run cs = some (answer, cs')) : cs'.Sound := by
  cases request with
  | find i m => exact sound.of_act h fun c => ⟨_, c.find_comesTo m cs.log⟩
  | invoke i m arguments => exact sound.of_act h fun c => ⟨_, c.invoke_comesTo m arguments cs.log⟩
  | send i callee arguments =>
    exact sound.of_act h fun c => ⟨_, c.invokeFragments_comesTo callee arguments cs.log⟩
  | copy i =>
    obtain ⟨cs₁, copied, h⟩ := Option.map_eq_some_iff.mp h
    cases h
    exact sound.copy copied
  | derive i d =>
    obtain ⟨cs₁, derived, h⟩ := Option.map_eq_some_iff.mp h
    cases h
    obtain ⟨⟨s, c⟩, -, derived⟩ := Option.bind_eq_some_iff.mp derived
    cases derived
    exact sound.enter (d.found_make c)

/-- Requests leave the compositions sound, however many. -/
lemma run (sound : cs.Sound) {requests : List Request} {answers : List Answer}
    (h : Compositions.run requests cs = some (answers, cs')) : cs'.Sound := by
  induction requests generalizing cs answers with
  | nil =>
    cases h
    exact sound
  | cons request requests ih =>
    obtain ⟨⟨first, cs₁⟩, answered, h⟩ := Option.bind_eq_some_iff.mp h
    obtain ⟨⟨rest, cs₂⟩, ran, h⟩ := Option.bind_eq_some_iff.mp h
    cases h
    exact ih (sound.answer answered) ran

end Sound

/-! ### Readers -/

namespace Sample

/-- Readers are found by their name. -/
def findByName : Method where
  declaringType := "Readers"
  name := "findByName"
  parameterTypes := [.of "String"]

/-- Where readers can be found, but nothing finds them. -/
def readers : Fragment := ⟨"Readers", [findByName], none⟩

/-- Where a reader of one name is found. -/
def finder (serial : Nat) (name : String) : Fragment :=
  .implemented (.ofHandlers serial "Finder" [(findByName, fun _ _ => .ok (.text name))])

end Sample

end Compositions

end EntityModel
