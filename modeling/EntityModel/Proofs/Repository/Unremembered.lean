import EntityModel.Proofs.Repository.Requests

/-!
# Compositions answer as if they remembered nothing

Requests to compositions are compared with the same requests to compositions that remember nothing
(`Unremembered`): those search for the method of every invocation and for the fragment of every call
anew. As long as lookups ask for nothing but the signature of invoked methods, the answers are the
same, and so are the calls that implementations receive (`Compositions.run_unremembered`).
-/

namespace EntityModel

/-- Compositions that remember nothing, by their numbers, and the calls that were made. -/
structure Unremembered where
  assemblies : List Assembly
  log : CallLog

namespace Unremembered

/-- Does something with one composition, of which there is an answer and the calls after it. -/
def act {α : Type} (us : Unremembered) (i : Nat) (outcome : Assembly → CallLog → α × CallLog) :
    Option (α × Unremembered) :=
  us.assemblies[i]?.map fun a =>
    let (answer, log) := outcome a us.log
    (answer, { us with log })

def find (us : Unremembered) (i : Nat) (m : Method) : Option (Option Method × Unremembered) :=
  us.act i fun a log => (a.search m, log)

def invoke (us : Unremembered) (i : Nat) (m : Method) (arguments : List Value) :
    Option (Except Error Value × Unremembered) :=
  us.act i (·.call m arguments)

def send (us : Unremembered) (i : Nat) (c : Call) : Option (Except Error Value × Unremembered) :=
  us.act i (Fragments.send ·.fragments.items c)

/-- A further composition, made from one that is in use. -/
def derive (us : Unremembered) (i : Nat) (make : Assembly → Assembly) : Option Unremembered :=
  us.assemblies[i]?.map fun a => { us with assemblies := us.assemblies ++ [make a] }

/-- All lookups ask for nothing but the signature of invoked methods. -/
def BySignature (us : Unremembered) : Prop :=
  ∀ a ∈ us.assemblies, a.lookup.BySignature

namespace BySignature

variable {us us' : Unremembered} {i : Nat}

/-- A use changes no lookup. -/
lemma act {α : Type} {outcome : Assembly → CallLog → α × CallLog} {answer : α}
    (bySignature : us.BySignature) (h : us.act i outcome = some (answer, us')) :
    us'.BySignature := by
  obtain ⟨a, -, h⟩ := Option.map_eq_some_iff.mp h
  cases h
  exact bySignature

/-- A derivation keeps to lookups by signature if what it makes does. -/
lemma derive {make : Assembly → Assembly} (bySignature : us.BySignature)
    (h : us.derive i make = some us')
    (keeps : ∀ a : Assembly, a.lookup.BySignature → (make a).lookup.BySignature) :
    us'.BySignature := by
  obtain ⟨a, ha, h⟩ := Option.map_eq_some_iff.mp h
  cases h
  intro b hb
  rcases List.mem_append.mp hb with old | new
  · exact bySignature b old
  · rw [List.mem_singleton.mp new]
    exact keeps a (bySignature a (List.mem_of_getElem? ha))

end BySignature

end Unremembered

namespace Compositions

variable {cs : Compositions} {us us' : Unremembered} {i : Nat}

/-- The answer to a request where nothing is remembered. -/
def Request.runUnremembered : Request → Unremembered → Option (Answer × Unremembered)
  | find i m, us => (us.find i m).map (Prod.map .found id)
  | invoke i m arguments, us => (us.invoke i m arguments).map (Prod.map .called id)
  | send i callee arguments, us => (us.send i ⟨callee, arguments⟩).map (Prod.map .called id)
  | copy i, us => (us.derive i id).map (.made, ·)
  | derive i d, us => (us.derive i d.change).map (.made, ·)

/-- The answers to requests, one after the other, where nothing is remembered. -/
def runUnremembered : List Request → Unremembered → Option (List Answer × Unremembered)
  | [], us => some ([], us)
  | request :: requests, us => do
    let (answer, us) ← request.runUnremembered us
    let (answers, us) ← runUnremembered requests us
    return (answer :: answers, us)

/-- The compositions without what they remember. -/
def forget (cs : Compositions) : Unremembered where
  assemblies := cs.assemblies
  log := cs.log

/-- If a request gives a composition a lookup, then one by signature. -/
def Request.BySignature : Request → Prop
  | derive _ (.lookup l) => l.BySignature
  | _ => True

/-! ### One request -/

/-- The compositions that remember nothing have the same numbers. -/
lemma getElem?_assemblies (cs : Compositions) (i : Nat) :
    cs.assemblies[i]? = cs.inUse[i]?.map (·.forget) :=
  List.getElem?_map

/-- A request keeps to lookups by signature, unless it gives a composition another one. -/
lemma Request.bySignature_after {request : Request} {answer : Answer}
    (given : request.BySignature) (bySignature : us.BySignature)
    (h : request.runUnremembered us = some (answer, us')) : us'.BySignature := by
  cases request with
  | find | invoke | send =>
    obtain ⟨⟨_, us₁⟩, acted, h⟩ := Option.map_eq_some_iff.mp h
    cases h
    exact bySignature.act acted
  | copy =>
    obtain ⟨us₁, made, h⟩ := Option.map_eq_some_iff.mp h
    cases h
    exact bySignature.derive made fun a => id
  | derive i d =>
    obtain ⟨us₁, made, h⟩ := Option.map_eq_some_iff.mp h
    cases h
    refine bySignature.derive made fun a lookup => ?_
    cases d with
    | lookup l => exact given
    | append | appendAll | adopt | converter | interface => exact lookup

/-- A use of a composition answers as if nothing were remembered, if its outcome is that of what the
composition is made of. -/
lemma Sound.act_forget {α : Type} {run : Composition → CallLog → α × Composition × CallLog}
    {outcome : Assembly → CallLog → α × CallLog} (sound : cs.Sound)
    (comes : ∀ c : Composition, c.Sound → c.forget ∈ cs.assemblies →
      c.ComesTo (run c cs.log) (outcome c.forget cs.log)) :
    (cs.act i run).map (Prod.map id forget) = cs.forget.act i outcome := by
  unfold Unremembered.act forget
  rw [getElem?_assemblies]
  cases hs : cs.inUse[i]? with
  | none =>
    rw [act_eq_none hs]
    rfl
  | some s =>
    obtain ⟨c, got, made, soundc⟩ := sound.get? hs
    have mem : s.forget ∈ cs.assemblies := List.mem_map_of_mem (List.mem_of_getElem? hs)
    rw [← made] at mem
    obtain ⟨cs', acted, used, log_eq⟩ := sound.act got (comes c soundc mem)
    rw [acted, Option.map_some, Prod.map_apply, used.assemblies_eq, log_eq, made]
    rfl

/-- What an answer is made into does not matter. -/
lemma map_forget {α : Type} {asked : Option (α × Compositions)}
    {expected : Option (α × Unremembered)} (wrap : α → Answer)
    (h : asked.map (Prod.map id forget) = expected) :
    (asked.map (Prod.map wrap id)).map (Prod.map id forget) = expected.map (Prod.map wrap id) := by
  rw [← h, Option.map_map, Option.map_map]
  rfl

/-- A composition that is made is reported alike on both sides. -/
lemma made_forget {made : Option Compositions} {expected : Option Unremembered}
    (h : made.map forget = expected) :
    (made.map (Answer.made, ·)).map (Prod.map id forget) = expected.map (Answer.made, ·) := by
  rw [← h, Option.map_map, Option.map_map]
  rfl

/-- A copy is made of the same. -/
lemma copy_forget : (cs.copy i).map forget = cs.forget.derive i id := by
  unfold Unremembered.derive forget Compositions.copy
  rw [getElem?_assemblies]
  cases cs.inUse[i]? with
  | none => rfl
  | some s =>
    refine congrArg (fun made => some { assemblies := made, log := cs.log : Unremembered }) ?_
    exact List.map_append

namespace Sound

/-- A lookup answers as if nothing were remembered. -/
lemma find_forget (sound : cs.Sound) (bySignature : cs.forget.BySignature)
    (m : Method) : (cs.find i m).map (Prod.map id forget) = cs.forget.find i m := by
  refine sound.act_forget fun c soundc mem => ?_
  rw [Assembly.search_forget, ← soundc.find_eq (bySignature c.forget mem) m]
  exact c.find_comesTo m cs.log

/-- An invocation answers as if nothing were remembered. -/
lemma invoke_forget (sound : cs.Sound) (bySignature : cs.forget.BySignature)
    (m : Method) (arguments : List Value) :
    (cs.invoke i m arguments).map (Prod.map id forget) = cs.forget.invoke i m arguments := by
  refine sound.act_forget fun c soundc mem => ?_
  rw [Assembly.call_forget, Assembly.call, ← soundc.find_eq (bySignature c.forget mem) m]
  exact c.invoke_comesTo m arguments cs.log

/-- Fragments are called without a lookup. -/
lemma send_forget (sound : cs.Sound) (callee : Method) (arguments : List Value) :
    (cs.invokeFragments i callee arguments).map (Prod.map id forget) =
      cs.forget.send i ⟨callee, arguments⟩ :=
  sound.act_forget fun c _ _ => c.invokeFragments_comesTo callee arguments cs.log

/-- A derivation makes the same as if nothing were remembered. -/
lemma derive_forget (sound : cs.Sound) (d : Derivation) :
    (cs.derive i d.make).map forget = cs.forget.derive i d.change := by
  unfold Unremembered.derive forget
  rw [getElem?_assemblies]
  cases hs : cs.inUse[i]? with
  | none =>
    unfold Compositions.derive Compositions.get?
    rw [hs]
    rfl
  | some s =>
    obtain ⟨c, got, made, -⟩ := sound.get? hs
    unfold Compositions.derive
    rw [got]
    dsimp only [Option.bind_eq_bind, Option.bind_some, Option.pure_def, Option.map_some]
    rw [assemblies_enter, d.forget_make, made]
    rfl

/-- Every request answers as if nothing were remembered. -/
lemma answer_forget (sound : cs.Sound) (bySignature : cs.forget.BySignature)
    (request : Request) :
    (request.run cs).map (Prod.map id forget) = request.runUnremembered cs.forget := by
  cases request with
  | find i m => exact map_forget .found (sound.find_forget bySignature m)
  | invoke i m arguments => exact map_forget .called (sound.invoke_forget bySignature m arguments)
  | send i callee arguments => exact map_forget .called (sound.send_forget callee arguments)
  | copy i => exact made_forget copy_forget
  | derive i d => exact made_forget (sound.derive_forget d)

/-- Sound compositions with lookups by signature answer requests as if they remembered nothing. -/
lemma run_forget (sound : cs.Sound) (bySignature : cs.forget.BySignature)
    {requests : List Request} (given : ∀ request ∈ requests, request.BySignature) :
    (Compositions.run requests cs).map (Prod.map id forget) =
      runUnremembered requests cs.forget := by
  induction requests generalizing cs with
  | nil => rfl
  | cons request requests ih =>
    have first := sound.answer_forget bySignature request
    unfold Compositions.run runUnremembered
    rw [← first]
    cases answered : request.run cs with
    | none => rfl
    | some result =>
      obtain ⟨answer, cs₁⟩ := result
      rw [answered] at first
      -- a request may give a composition a new lookup, which is one by signature as given
      have bySignature₁ : cs₁.forget.BySignature :=
        Request.bySignature_after (given request List.mem_cons_self) bySignature first.symm
      have rest := ih (sound.answer answered) bySignature₁ fun other listed =>
        given other (List.mem_cons_of_mem _ listed)
      dsimp only [Option.bind_eq_bind, Option.map_some, Option.bind_some, Prod.map_apply]
      rw [← rest]
      cases Compositions.run requests cs₁ <;> rfl

end Sound

/-- Whatever requests are made to a composition and to those that are copied and derived from it,
they are answered as if nothing were remembered, and implementations receive the same calls, if
lookups ask for nothing but the signature of invoked methods. Direct lookups do so, and so do those
for the types of a repository. -/
theorem run_unremembered {a : Assembly} {requests : List Request}
    (bySignature : a.lookup.BySignature) (given : ∀ request ∈ requests, request.BySignature)
    (log : CallLog) :
    (run requests (single a log)).map (Prod.map id forget) =
        runUnremembered requests ⟨[a.forget], log⟩ ∧
      Lookup.direct.BySignature ∧ ∀ r, (Lookup.forRepository r).BySignature := by
  have single_bySignature : (single a log).forget.BySignature := by
    intro b hb
    rw [List.mem_singleton.mp hb]
    exact bySignature
  exact ⟨(Sound.single a log).run_forget single_bySignature given, .direct, .forRepository⟩

namespace Sample

/-- Readers are looked for where nothing finds them, and then in compositions derived from that. -/
def requests : List Request := [
  .find 0 findByName, .invoke 0 findByName [],
  .derive 0 (.append (finder 0 "Ada")), .copy 1, .invoke 2 findByName [],
  .derive 2 (.appendAll [finder 1 "Bob"]), .invoke 3 findByName []]

def answers : List Answer := [
  .found (some findByName), .called (.error (.noImplementation "Readers.findByName(String)")),
  .made, .made, .called (.ok (.text "Ada")),
  .made, .called (.ok (.text "Ada"))]

end Sample

open Sample in
/-- Nothing finds readers at first, which is remembered. Where something that finds them was
appended they are found, and what is appended later is not asked. -/
theorem run_unremembered_readers : ∃ cs,
    run requests (single { fragments := .of [readers] } []) = some (answers, cs) ∧
      cs.log = [(0, ⟨findByName, []⟩), (0, ⟨findByName, []⟩)] := by
  have given : ∀ request ∈ requests, request.BySignature := by
    simp [requests, Request.BySignature]
  obtain ⟨same, -⟩ := run_unremembered (a := { fragments := .of [readers] }) .direct given []
  obtain ⟨us, answered, log_eq⟩ : ∃ us,
      runUnremembered requests ⟨[Assembly.forget { fragments := .of [readers] }], []⟩ =
        some (answers, us) ∧ us.log = [(0, ⟨findByName, []⟩), (0, ⟨findByName, []⟩)] :=
    ⟨_, rfl, rfl⟩
  rw [answered] at same
  obtain ⟨⟨given, cs⟩, ran, pair_eq⟩ := Option.map_eq_some_iff.mp same
  cases pair_eq
  exact ⟨cs, ran, log_eq⟩

end Compositions

end EntityModel
