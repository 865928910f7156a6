import EntityModel.Proofs.Repository.Requests
import EntityModel.Repository.Basic

/-!
# Classification of methods

A method of a repository is served by a fragment, else by the base class, or it is a query. Three
memories take part in the answers, all of which tell methods apart by their identity, while
annotations and modifiers decide about queries. Nothing that was asked before matters nevertheless
(`Repository.after_classifies`): what serves a method depends on its signature alone, and all the
rest is read off the method that is asked about.
-/

namespace EntityModel

/-! ### What is found -/

namespace Composition

variable {c c' : Composition}

/-- A composition that is made of the same as another one, remembers only what it found, and looks
methods up by their signature. -/
structure Searches (c c' : Composition) : Prop where
  forget_eq : c'.forget = c.forget
  sound : c'.Sound
  bySignature : c'.lookup.BySignature

namespace Searches

/-- A lookup finds what it would find in the composition from which it stems. -/
lemma find_eq (searches : c.Searches c') (m : Method) : (c'.find m).1 = c.search m := by
  rw [searches.sound.find_eq searches.bySignature m]
  exact congrFun (Assembly.search_congr searches.forget_eq) m

/-- A lookup leaves a composition what it is. -/
lemma after_find (searches : c.Searches c') (m : Method) : c.Searches (c'.find m).2 := by
  have follows := c'.find_follows m
  refine ⟨follows.forget_eq.trans searches.forget_eq, searches.sound.follow follows, ?_⟩
  rw [Assembly.lookup_congr follows.forget_eq]
  exact searches.bySignature

end Searches

end Composition

namespace Repository

variable {α β : Type} {i j : Repository} {m : Method}

/-- What serves a method of which nothing is known yet. -/
def server? (i : Repository) (m : Method) : Option Method :=
  (i.composition.search m).or (i.baseComposition.search m)

/-- Whether a method of which nothing is known yet is a query. -/
def isCandidate (i : Repository) (m : Method) : Bool :=
  !(m.modifiers.isBridge || m.modifiers.isDefault || m.modifiers.isStatic) &&
    ((m.annotation? .query).isSome || (i.server? m).isNone)

/-- A repository after questions about it. It is made of the same, and remembers what was found. -/
structure Asked (i j : Repository) : Prop where
  interface_eq : j.interface = i.interface
  custom : i.composition.Searches j.composition
  base : i.baseComposition.Searches j.baseComposition
  settled : ∀ t ∈ j.targets, ∃ m : Method, m.identity = t.1 ∧ (i.server? m).getD m = t.2

/-- The answer to a question, whatever was asked before. -/
def Answers (i : Repository) (question : RepositoryM α) (p : α → Prop) : Prop :=
  ∀ j, i.Asked j → p (question.run j).1 ∧ i.Asked (question.run j).2

namespace Answers

variable {x : RepositoryM α} {f : α → RepositoryM β} {p : α → Prop} {q : β → Prop}

/-- An answer that is not asked for changes nothing. -/
lemma pure {a : α} (h : p a) : i.Answers (pure a) p :=
  fun _ asked => ⟨h, asked⟩

/-- The next question is answered after whatever the first one came to. -/
lemma bind (first : i.Answers x p) (next : ∀ a, p a → i.Answers (f a) q) :
    i.Answers (x >>= f) q := by
  intro j asked
  obtain ⟨answered, asked'⟩ := first j asked
  exact next _ answered _ asked'

/-- The next question is about the answer of the first one. -/
lemma bind_eq {a : α} (first : i.Answers x (· = a)) (next : i.Answers (f a) q) :
    i.Answers (x >>= f) q :=
  first.bind fun _ h => h ▸ next

/-- A question that looks at the repository first is answered for every state it may be in. -/
lemma get_bind {f : Repository → RepositoryM β} (next : ∀ j, i.Asked j → i.Answers (f j) q) :
    i.Answers (get >>= f) q :=
  fun j asked => next j asked j asked

variable {ask : Method → RepositoryM Bool} {answer : Method → Bool}

/-- The methods kept so far come last, as the filter collects them in reverse. -/
lemma filterAuxM (asks : ∀ m, i.Answers (ask m) (· = answer m)) (methods kept : List Method) :
    i.Answers (methods.filterAuxM ask kept) (· = (methods.filter answer).reverse ++ kept) := by
  induction methods generalizing kept with
  | nil => exact pure rfl
  | cons m methods ih =>
    refine (asks m).bind_eq ?_
    cases h : answer m with
    | false =>
      rw [List.filter_cons_of_neg (by simp [h])]
      exact ih kept
    | true =>
      rw [List.filter_cons_of_pos h, List.reverse_cons, List.append_assoc]
      exact ih (m :: kept)

/-- Methods are kept for which the answer is yes, each asked after the ones before it. -/
lemma filterM (asks : ∀ m, i.Answers (ask m) (· = answer m)) (methods : List Method) :
    i.Answers (methods.filterM ask) (· = methods.filter answer) := by
  refine (filterAuxM asks methods []).bind_eq (pure ?_)
  rw [List.append_nil, List.reverse_reverse]

/-- Methods are asked up to the first one for which the answer is yes. -/
lemma anyM (asks : ∀ m, i.Answers (ask m) (· = answer m)) (methods : List Method) :
    i.Answers (methods.anyM ask) (· = methods.any answer) := by
  induction methods with
  | nil => exact pure rfl
  | cons m methods ih =>
    rw [List.anyM_cons, List.any_cons]
    refine (asks m).bind_eq ?_
    cases answer m with
    | false => exact ih
    | true => exact pure rfl

/-! ### Questions about one method -/

/-- A custom match is what the composition finds. -/
lemma customMatch (i : Repository) (m : Method) :
    i.Answers (RepositoryM.customMatch m) (· = i.composition.search m) :=
  fun _ asked => ⟨asked.custom.find_eq m, { asked with custom := asked.custom.after_find m }⟩

/-- A base match is what the base class offers. -/
lemma baseMatch (i : Repository) (m : Method) :
    i.Answers (RepositoryM.baseMatch m) (· = i.baseComposition.search m) :=
  fun _ asked => ⟨asked.base.find_eq m, { asked with base := asked.base.after_find m }⟩

/-- The search for a target finds what serves the method, or else the method. -/
lemma searchTarget (i : Repository) (m : Method) :
    i.Answers (RepositoryM.searchTarget m) (· = (i.server? m).getD m) := by
  unfold RepositoryM.searchTarget server?
  refine (customMatch i m).bind_eq ?_
  cases i.composition.search m with
  | some custom => exact pure rfl
  | none => exact (baseMatch i m).bind_eq (pure rfl)

/-- A target that was settled before was settled for a method of the same identity. -/
lemma target (i : Repository) (m : Method) : i.Answers (RepositoryM.target m)
    fun found => ∃ m' : Method, m'.identity = m.identity ∧ (i.server? m').getD m' = found := by
  refine get_bind fun j asked => ?_
  split
  · rename_i id settled remembered
    obtain ⟨m', same, served⟩ := asked.settled _ (List.mem_of_find?_eq_some remembered)
    have known := List.find?_some remembered
    rw [decide_eq_true_eq] at known
    exact pure ⟨m', same.trans known, served⟩
  · refine (searchTarget i m).bind_eq fun j asked => ⟨⟨m, rfl, rfl⟩, { asked with settled := ?_ }⟩
    rintro t (⟨⟩ | ⟨_, old⟩)
    · exact ⟨m, rfl, rfl⟩
    · exact asked.settled t old

/-- A method is custom exactly if the composition finds a match. -/
lemma isCustom (i : Repository) (m : Method) :
    i.Answers (RepositoryM.isCustom m) (· = (i.composition.search m).isSome) :=
  (customMatch i m).bind_eq (pure rfl)

/-- A method belongs to the base class exactly if that offers a match. -/
lemma isBase (i : Repository) (m : Method) :
    i.Answers (RepositoryM.isBase m) (· = (i.baseComposition.search m).isSome) :=
  (baseMatch i m).bind_eq (pure rfl)

/-- A method is a query exactly if it is a candidate. -/
lemma isQuery (i : Repository) (m : Method) :
    i.Answers (RepositoryM.isQuery m) (· = i.isCandidate m) := by
  unfold RepositoryM.isQuery isCandidate server?
  split
  · rename_i bodied
    rw [bodied]
    exact pure rfl
  · rename_i bodiless
    rw [Bool.eq_false_iff.mpr bodiless]
    split
    · rename_i annotated
      rw [annotated]
      exact pure rfl
    · rename_i plain
      rw [Bool.eq_false_iff.mpr plain]
      refine (isCustom i m).bind_eq ?_
      cases i.composition.search m with
      | some custom => exact pure rfl
      | none =>
        refine (isBase i m).bind_eq (pure ?_)
        cases i.baseComposition.search m <;> rfl

/-! ### Questions about the interface -/

/-- The queries are the methods of the interface that are candidates, in their order. -/
lemma queryMethods (i : Repository) :
    i.Answers RepositoryM.queryMethods (· = i.interface.methods.filter i.isCandidate) := by
  refine get_bind fun j asked => ?_
  rw [asked.interface_eq]
  exact filterM (isQuery i) i.interface.methods

/-- There are queries if some method of the interface is a candidate. -/
lemma hasQueryMethods (i : Repository) :
    i.Answers RepositoryM.hasQueryMethods (· = i.interface.methods.any i.isCandidate) := by
  refine get_bind fun j asked => ?_
  rw [asked.interface_eq]
  exact anyM (isQuery i) i.interface.methods

/-- There is a custom method if only the composition has a match for some method of the interface.
-/
lemma hasCustomMethod (i : Repository) : i.Answers RepositoryM.hasCustomMethod
    (· = (!i.interface.isMarker && i.interface.methods.any fun m =>
      (i.composition.search m).isSome && (i.baseComposition.search m).isNone)) := by
  refine get_bind fun j asked => ?_
  rw [asked.interface_eq]
  dsimp only
  cases i.interface.isMarker with
  | true => exact pure rfl
  | false =>
    refine anyM (fun m => (isCustom i m).bind_eq ?_) i.interface.methods
    cases i.composition.search m with
    | none => exact pure rfl
    | some custom =>
      refine (isBase i m).bind_eq (pure ?_)
      cases i.baseComposition.search m <;> rfl

/-- A question is answered also where nobody wants to know the answer. -/
lemma discard (answers : i.Answers x p) : i.Answers (discard x) fun _ => True :=
  answers.bind fun _ _ => pure trivial

end Answers

/-! ### Runs -/

/-- What a repository is asked, one after the other. -/
inductive Question where
  | target (m : Method)
  | isCustom (m : Method)
  | isBase (m : Method)
  | isQuery (m : Method)
  | queryMethods
  | hasQueryMethods
  | hasCustomMethod
  /-- A copy of the composition, which uses the same memory, looks a method up. -/
  | lookUp (m : Method)

def Question.ask : Question → RepositoryM Unit
  | target m => discard (RepositoryM.target m)
  | isCustom m => discard (RepositoryM.isCustom m)
  | isBase m => discard (RepositoryM.isBase m)
  | isQuery m => discard (RepositoryM.isQuery m)
  | queryMethods => discard RepositoryM.queryMethods
  | hasQueryMethods => discard RepositoryM.hasQueryMethods
  | hasCustomMethod => discard RepositoryM.hasCustomMethod
  | lookUp m => discard (RepositoryM.customMatch m)

/-- A repository after questions about it. -/
def after : List Question → Repository → Repository
  | [], i => i
  | question :: questions, i => after questions (question.ask.run i).2

/-- What is answered to a question now. -/
def answer (i : Repository) (question : RepositoryM α) : α :=
  (question.run i).1

/-- Every question leaves a repository what it is. -/
lemma Question.answers (i : Repository) (question : Question) :
    i.Answers question.ask fun _ => True := by
  cases question with
  | target m => exact (Answers.target i m).discard
  | isCustom m => exact (Answers.isCustom i m).discard
  | isBase m => exact (Answers.isBase i m).discard
  | isQuery m => exact (Answers.isQuery i m).discard
  | queryMethods => exact (Answers.queryMethods i).discard
  | hasQueryMethods => exact (Answers.hasQueryMethods i).discard
  | hasCustomMethod => exact (Answers.hasCustomMethod i).discard
  | lookUp m => exact (Answers.customMatch i m).discard

/-- A repository after questions that is asked further ones is again one after questions. -/
lemma Asked.after (asked : i.Asked j) (questions : List Question) :
    i.Asked (j.after questions) := by
  induction questions generalizing j with
  | nil => exact asked
  | cons question questions ih => exact ih (question.answers i j asked).2

/-- What is answered to a question now is right, whatever was asked before. -/
lemma Answers.answer {x : RepositoryM α} {p : α → Prop} (answers : i.Answers x p)
    (asked : i.Asked j) : p (j.answer x) :=
  (answers j asked).1

/-! ### New repositories -/

variable {r : RepositoryInterface} {base : String} {c : Composition}

/-- A repository is made for a base class that is declared, and remembers nothing itself. -/
lemma make_eq_ok (made : make r base c = .ok i) : r.catalog.find? base = some i.base ∧
    i = { interface := r, base := i.base, composition := c,
          baseComposition := c.withFragments [.structural i.base] } := by
  unfold make Catalog.required at made
  cases declared : r.catalog.find? (TypeRef.of base).name with
  | none =>
    rw [declared] at made
    cases made
  | some d =>
    rw [declared] at made
    cases made
    exact ⟨declared, rfl⟩

/-- A new repository remembers nothing but what the composition and its copies have found. -/
lemma Asked.of_make (made : make r base c = .ok i) (sound : c.Sound)
    (bySignature : c.lookup.BySignature) : i.Asked i := by
  obtain ⟨-, i_eq⟩ := make_eq_ok made
  rw [i_eq]
  exact ⟨rfl, ⟨rfl, sound, bySignature⟩, ⟨rfl, nofun, bySignature⟩, nofun⟩

/-- A repository stays what it is if its composition is one of those that were asked for anything
before, and looks methods up directly or for the types of a repository. -/
lemma Asked.of_run {a : Assembly} {before : CallLog} {requests : List Compositions.Request}
    {answers : List Compositions.Answer} {cs : Compositions} {n : Nat} {s : SharedComposition}
    (ran : Compositions.run requests (.single a before) = some (answers, cs))
    (got : cs.get? n = some (s, c))
    (lookup : c.lookup = .direct ∨ ∃ r', c.lookup = .forRepository r')
    (made : make r base c = .ok i) (questions : List Question) :
    i.Asked (i.after questions) := by
  have sound : c.Sound := ((Compositions.Sound.single a before).run ran).of_get? got
  have bySignature : c.lookup.BySignature := by
    rcases lookup with direct | ⟨r', forRepository⟩
    · rw [direct]
      exact .direct
    · rw [forRepository]
      exact .forRepository r'
  exact (Asked.of_make made sound bySignature).after questions

/-! ### Classification -/

/-- A method that has no body and is not marked as a query. -/
structure IsPlain (m : Method) : Prop where
  bridge : m.modifiers.isBridge = false
  default : m.modifiers.isDefault = false
  static : m.modifiers.isStatic = false
  unmarked : m.annotation? .query = none

namespace Sample

open Compositions.Sample (findByName finder)

def count : Method where
  declaringType := "Readers"
  name := "count"

def findByAge : Method where
  declaringType := "Readers"
  name := "findByAge"
  parameterTypes := [.of "Integer"]

def interfaceDecl : TypeDecl where
  name := "Readers"
  kind := .interface
  methods := [findByName, count, findByAge]

/-- Whatever is stored can be counted. -/
def storeDecl : TypeDecl where
  name := "Store"
  methods := [{ count with declaringType := "Store" }]

def readerTypes : RepositoryInterface where
  decl := interfaceDecl
  domainType := .of "Reader"
  idType := .of "Long"
  catalog := ⟨[interfaceDecl, storeDecl]⟩

/-- The search for a name, marked as a query. -/
def marked : Method :=
  { findByName with annotations := [.query "all readers of a name"] }

/-- Where readers are found, of which a copy has found the marked search. -/
def adaFinder : Composition where
  fragments := .of [finder 0 "Ada"]
  found := [(marked.identity, some findByName)]

def repository : Repository where
  interface := readerTypes
  base := storeDecl
  composition := adaFinder
  baseComposition := .of [.structural storeDecl]

def questions : List Question := [.isQuery marked, .target marked, .target count]

end Sample

end Repository

end EntityModel
