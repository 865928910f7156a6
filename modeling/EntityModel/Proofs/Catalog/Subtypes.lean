import EntityModel.Proofs.Catalog.Walk

/-!
# Subtypes

Whether a type is a subtype of another one is found out by a search over raw names that stops at the
name that it looks for (`Catalog.Searches`). The order in which names that wait are worked off does
not matter (`Agenda`): every search comes to an end, since a name that is left has its declaration
taken out of those that are unmet, and it tells whether the name is reached
(`Catalog.Searches.iff_reached`). So being a subtype is a preorder (`Catalog.isSubtype_reaches`).
-/

namespace EntityModel

/-- An order in which names that wait are worked off: where new ones are put among them. -/
structure Agenda where
  add : List String → List String → List String
  perm : ∀ new waiting, (add new waiting).Perm (new ++ waiting)

namespace Agenda

/-- New names come first. -/
def firstFirst : Agenda where
  add new waiting := new ++ waiting
  perm _ _ := .refl _

/-- New names come first, the last one of them before the others. -/
def lastFirst : Agenda where
  add new waiting := new.reverse ++ waiting
  perm new _ := new.reverse_perm.append_right _

end Agenda

namespace Catalog

/-- A search for a name among names that wait and what they lead to finds it or does not. -/
inductive Searches (c : Catalog) (agenda : Agenda) (target : String) :
    List String → List String → Bool → Prop where
  | finished {met} :
    Searches c agenda target met [] false
  | found {met rest} :
    Searches c agenda target met (target :: rest) true
  | repeated {met name rest found} :
    name ≠ target →
    name ∈ met →
    Searches c agenda target met rest found →
    Searches c agenda target met (name :: rest) found
  | undeclared {met name rest found} :
    name ≠ target →
    name ∉ met →
    c.find? name = none →
    Searches c agenda target (name :: met) rest found →
    Searches c agenda target met (name :: rest) found
  | declared {met name rest d found} :
    name ≠ target →
    name ∉ met →
    c.find? name = some d →
    Searches c agenda target (name :: met) (agenda.add (d.supertypes.map TypeRef.name) rest) found →
    Searches c agenda target met (name :: rest) found

variable {c : Catalog} {agenda : Agenda} {target name : String} {met waiting rest : List String}
  {found : Bool} {d : TypeDecl}

/-! ### The end of a search -/

/-- Leaving a declared name for the first time leaves fewer declarations unmet. -/
lemma length_unmet_cons_lt (fresh : name ∉ met) (declared : c.find? name = some d) :
    (c.unmet (name :: met)).length < (c.unmet met).length := by
  rw [← without_unmet]
  exact length_without_lt ((find?_unmet fresh).trans declared)

/-- Every search comes to an end. -/
theorem exists_searches (c : Catalog) (agenda : Agenda) (target : String)
    -- a declared name goes over to those that were met, an unknown or repeated one only leaves the
    -- queue
    (met waiting : List String) : ∃ found, c.Searches agenda target met waiting found := by
  match waiting with
  | [] => exact ⟨_, .finished⟩
  | name :: rest =>
    by_cases sought : name = target
    · subst sought
      exact ⟨_, .found⟩
    by_cases fresh : name ∈ met
    · obtain ⟨found, search⟩ := exists_searches c agenda target met rest
      exact ⟨found, .repeated sought fresh search⟩
    cases declared : c.find? name with
    | none =>
      obtain ⟨found, search⟩ := exists_searches c agenda target (name :: met) rest
      exact ⟨found, .undeclared sought fresh declared search⟩
    | some d =>
      obtain ⟨found, search⟩ := exists_searches c agenda target (name :: met)
        (agenda.add (d.supertypes.map TypeRef.name) rest)
      exact ⟨found, .declared sought fresh declared search⟩
termination_by ((c.unmet met).length, waiting.length)
decreasing_by
  · exact Prod.Lex.right _ (Nat.lt_succ_self _)
  · rw [unmet_cons_of_undeclared declared]
    exact Prod.Lex.right _ (Nat.lt_succ_self _)
  · exact Prod.Lex.left _ _ (length_unmet_cons_lt fresh declared)

/-- A search finds the name if it is reached past the names that were met before. -/
theorem Searches.iff_reached (search : c.Searches agenda target met waiting found) :
    found = true ↔ ReachedPast c.Extends met waiting target := by
  induction search with
  | finished => simp [reachedPast_nil]
  | found => exact iff_of_true rfl ⟨target, List.mem_cons_self, .refl⟩
  | repeated other here _ ih =>
    rw [ih, reachedPast_cons_of_met here, or_iff_right other.symm]
  | undeclared other fresh absent _ ih =>
    rw [ih, reachedPast_cons_of_fresh fresh (waiting_of_undeclared absent), or_iff_right other.symm]
  | @declared met name rest d found other fresh declared _ ih =>
    have next : ∀ x, x ∈ agenda.add (d.supertypes.map TypeRef.name) rest ↔
        c.Extends name x ∨ x ∈ rest := by
      intro x
      rw [(agenda.perm _ _).mem_iff, waiting_of_declared declared]
    rw [ih, reachedPast_cons_of_fresh fresh next, or_iff_right other.symm]

/-! ### The search for a supertype -/

/-- A name that is not declared is passed over. -/
lemma reaches_of_none {pool : List TypeDecl} (other : name ≠ target)
    (absent : pool.find? (fun d => d.name == name) = none) :
    reaches pool (name :: rest) target = reaches pool rest target := by
  rw [reaches, if_neg other]
  split
  · rfl
  · rename_i found
    cases absent.symm.trans found

/-- From a declared name the search goes on to its supertypes, without the name. -/
lemma reaches_of_some {pool : List TypeDecl} (other : name ≠ target)
    (found : pool.find? (fun d => d.name == name) = some d) :
    reaches pool (name :: rest) target =
      reaches (without pool name) (d.supertypes.map TypeRef.name ++ rest) target := by
  rw [reaches, if_neg other]
  split
  · rename_i absent
    cases absent.symm.trans found
  · rename_i found'
    cases found.symm.trans found'
    rfl

/-- The search that takes the first supertype first. -/
lemma searches_reaches (c : Catalog) (met waiting : List String) (target : String) :
    c.Searches .firstFirst target met waiting (reaches (c.unmet met) waiting target) := by
  generalize pool_eq : c.unmet met = pool
  -- the pool holds the declarations that were not met, so a name without one is met or unknown
  induction pool, waiting using reaches.induct target generalizing met with
  | case1 pool =>
    rw [reaches]
    exact .finished
  | case2 pool rest =>
    rw [reaches, if_pos rfl]
    exact .found
  | case3 pool name rest other absent ih =>
    subst pool_eq
    rw [reaches_of_none other absent]
    by_cases fresh : name ∈ met
    · exact .repeated other fresh (ih met rfl)
    · have undeclared : c.find? name = none := (find?_unmet fresh).symm.trans absent
      exact .undeclared other fresh undeclared (ih _ (unmet_cons_of_undeclared undeclared))
  | case4 pool name rest other d found ih =>
    subst pool_eq
    obtain ⟨fresh, declared⟩ := of_find?_unmet found
    rw [reaches_of_some other found]
    exact .declared other fresh declared (ih _ without_unmet.symm)

/-- A type is a subtype of another one if its raw name reaches that of the other one. -/
lemma isSubtype_iff {source target : TypeRef} :
    c.isSubtype source target = true ↔ c.Reaches source.name target.name := by
  rw [isSubtype, ← unmet_nil, (searches_reaches c [] [source.name] target.name).iff_reached,
    reachedPast_start]
  rfl

/-- A type is a subtype of another one if its raw name reaches that of the other one. Every search
comes to that answer, in whatever order it takes the names. So every type is a subtype of itself,
and a subtype of a subtype is one. -/
theorem isSubtype_reaches (c : Catalog) :
    (∀ source target, c.isSubtype source target = true ↔ c.Reaches source.name target.name) ∧
      (∀ agenda source target found,
        c.Searches agenda target.name [] [source.name] found ↔ found = c.isSubtype source target) ∧
      (∀ t, c.isSubtype t t = true) ∧
      ∀ t u v, c.isSubtype t u = true → c.isSubtype u v = true → c.isSubtype t v = true := by
  refine ⟨fun _ _ => isSubtype_iff, fun agenda source target found => ?_,
    fun t => isSubtype_iff.mpr .refl, fun t u v lower upper => ?_⟩
  · have answer : ∀ {found}, c.Searches agenda target.name [] [source.name] found →
        found = c.isSubtype source target := by
      intro found search
      rw [Bool.eq_iff_iff, isSubtype_iff, search.iff_reached, reachedPast_start]
      rfl
    refine ⟨answer, ?_⟩
    rintro rfl
    obtain ⟨found, search⟩ := exists_searches c agenda target.name [] [source.name]
    exact answer search ▸ search
  · exact isSubtype_iff.mpr ((isSubtype_iff.mp lower).trans (isSubtype_iff.mp upper))

/-- Papers are reports and serializable, but a printable need not be a paper. -/
theorem isSubtype_reaches_papers :
    Sample.papers.isSubtype (.of "Paper") (.of "Report") = true ∧
      Sample.papers.Searches .lastFirst "Report" [] ["Paper"] true ∧
      Sample.papers.isSubtype (.of "Report") (.of "Serializable") = true ∧
      Sample.papers.isSubtype (.of "Paper") (.of "Serializable") = true ∧
      Sample.papers.Reaches "Paper" "Serializable" ∧
      ¬ Sample.papers.Reaches "Printable" "Paper" := by
  obtain ⟨reached, searched, -, trans⟩ := isSubtype_reaches Sample.papers
  have upper : Sample.papers.isSubtype (.of "Paper") (.of "Report") = true := by cbv
  have further : Sample.papers.isSubtype (.of "Report") (.of "Serializable") = true := by cbv
  have both := trans _ _ _ upper further
  have none_back : Sample.papers.isSubtype (.of "Printable") (.of "Paper") = false := by cbv
  refine ⟨upper, (searched .lastFirst (.of "Paper") (.of "Report") true).mpr upper.symm, further,
    both, (reached _ _).mp both, fun back => ?_⟩
  have found := (reached (.of "Printable") (.of "Paper")).mpr back
  cases none_back.symm.trans found

end Catalog

end EntityModel
