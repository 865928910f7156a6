import EntityModel.Proofs.Catalog.Ascent
import Mathlib.Logic.Relation
import Mathlib.Tactic.Tauto

/-!
# Walks over supertypes

A declared name leads to the raw names of its superclass and of its interfaces (`Catalog.Extends`),
and a type sees the declarations that it reaches in any number of such steps (`Catalog.IsVisible`).
A walk goes depth first over the names that wait and remembers those that it met (`Catalog.Walks`).
From any names there is one walk, also where names lead back to each other or are not declared, and
it is the visit of these names (`Catalog.walks_iff`).

A name that was met is never left a second time. Nothing is lost by that: what is reached from the
names that wait is one of them, or it is reached past them (`Catalog.reachedPast_cons_of_fresh`). So
a walk meets what is visible, each declaration once (`Catalog.mem_visit_iff`,
`Catalog.Walks.names_nodup`).
-/

namespace EntityModel

namespace Catalog

/-! ### Supertypes by name -/

/-- A declared name leads to the raw name of its superclass and of each of its interfaces. -/
def Extends (c : Catalog) (a b : String) : Prop :=
  ∃ d, c.find? a = some d ∧ ∃ t, (d.superclass = some t ∨ t ∈ d.interfaces) ∧ t.name = b

/-- A name reaches itself and what the names that it leads to reach. -/
def Reaches (c : Catalog) : String → String → Prop :=
  Relation.ReflTransGen c.Extends

/-- The declaration of the name itself or of one that it reaches. -/
def IsVisible (c : Catalog) (name : String) (d : TypeDecl) : Prop :=
  c.find? d.name = some d ∧ c.Reaches name d.name

/-! ### Walks -/

/-- A walk from names that wait meets declarations on its way. It takes the first name, and the
supertypes of a declaration that it meets come before the names that waited already. -/
inductive Walks (c : Catalog) : List String → List String → List TypeDecl → Prop where
  | finished {met} :
    Walks c met [] []
  | repeated {met name rest ds} :
    name ∈ met →
    Walks c met rest ds →
    Walks c met (name :: rest) ds
  | undeclared {met name rest ds} :
    name ∉ met →
    c.find? name = none →
    Walks c (name :: met) rest ds →
    Walks c met (name :: rest) ds
  | declared {met name rest d ds} :
    name ∉ met →
    c.find? name = some d →
    Walks c (name :: met) (d.supertypes.map TypeRef.name ++ rest) ds →
    Walks c met (name :: rest) (d :: ds)

/-! ### Routes past names -/

/-- A step that does not start at one of the names that were met. -/
def Past (R : String → String → Prop) (met : List String) (a b : String) : Prop :=
  a ∉ met ∧ R a b

/-- The name is reached from one of those that wait, and no name that was met is left on the way. -/
def ReachedPast (R : String → String → Prop) (met waiting : List String) (b : String) : Prop :=
  ∃ a ∈ waiting, Relation.ReflTransGen (Past R met) a b

variable {R : String → String → Prop} {met waiting rest : List String} {a b name : String}

/-- Past no names every step is possible. -/
lemma past_nil : Past R [] = R := by
  funext a b
  simp [Past]

/-- A step past more names is a step past fewer. -/
lemma Past.of_cons (step : Past R (name :: met) a b) : Past R met a b :=
  ⟨fun here => step.1 (List.mem_cons_of_mem _ here), step.2⟩

/-- From a name that was met no route leads on. -/
lemma eq_of_past (here : a ∈ met) (route : Relation.ReflTransGen (Past R met) a b) : b = a := by
  rcases route.cases_head with same | ⟨_, step, _⟩
  · exact same.symm
  · exact absurd here step.1

/-- A route can be cut behind the last place where it leaves a name. -/
lemma cut_at (name : String) (route : Relation.ReflTransGen (Past R met) a b) :
    Relation.ReflTransGen (Past R (name :: met)) a b ∨
      ∃ x, R name x ∧ Relation.ReflTransGen (Past R (name :: met)) x b := by
  induction route using Relation.ReflTransGen.head_induction_on with
  | refl => exact .inl .refl
  | @head a x step _ ih =>
    rcases ih with further | behind
    · by_cases left : a = name
      · exact .inr ⟨x, left ▸ step.2, further⟩
      · exact .inl (.head ⟨List.not_mem_cons_of_ne_of_not_mem left step.1, step.2⟩ further)
    · exact .inr behind

/-- From an empty agenda nothing is reached. -/
lemma reachedPast_nil : ¬ ReachedPast R met [] b := by
  rintro ⟨_, ⟨⟩, _⟩

/-- From the start nothing was met. -/
lemma reachedPast_start : ReachedPast R [] [a] b ↔ Relation.ReflTransGen R a b := by
  simp [ReachedPast, past_nil]

/-- A name that was met before is not left again. -/
lemma reachedPast_cons_of_met (here : name ∈ met) :
    ReachedPast R met (name :: rest) b ↔ b = name ∨ ReachedPast R met rest b := by
  constructor
  · rintro ⟨a, ha, route⟩
    rcases List.mem_cons.mp ha with rfl | ha
    · exact .inl (eq_of_past here route)
    · exact .inr ⟨a, ha, route⟩
  · rintro (rfl | ⟨a, ha, route⟩)
    · exact ⟨b, List.mem_cons_self, .refl⟩
    · exact ⟨a, List.mem_cons_of_mem _ ha, route⟩

/-- A name that is met for the first time makes room for those that it leads to, and it need not be
left again. -/
lemma reachedPast_cons_of_fresh (fresh : name ∉ met)
    (next : ∀ x, x ∈ waiting ↔ R name x ∨ x ∈ rest) :
    ReachedPast R met (name :: rest) b ↔ b = name ∨ ReachedPast R (name :: met) waiting b := by
  constructor
  · rintro ⟨a, ha, route⟩
    rcases cut_at name route with past | ⟨x, step, past⟩
    · rcases List.mem_cons.mp ha with rfl | ha
      · exact .inl (eq_of_past List.mem_cons_self past)
      · exact .inr ⟨a, (next a).mpr (.inr ha), past⟩
    · exact .inr ⟨x, (next x).mpr (.inl step), past⟩
  · rintro (rfl | ⟨x, hx, past⟩)
    · exact ⟨b, List.mem_cons_self, .refl⟩
    · have route := Relation.ReflTransGen.mono (fun _ _ => Past.of_cons) _ _ past
      rcases (next x).mp hx with step | hx
      · exact ⟨name, List.mem_cons_self, .head ⟨fresh, step⟩ route⟩
      · exact ⟨x, List.mem_cons_of_mem _ hx, route⟩

/-! ### Steps to supertypes -/

variable {c : Catalog} {d : TypeDecl} {ds : List TypeDecl}

/-- A declared name extends what it lists as supertypes. -/
lemma extends_iff (declared : c.find? a = some d) :
    c.Extends a b ↔ b ∈ d.supertypes.map TypeRef.name := by
  have supertypes : ∀ t, t ∈ d.supertypes ↔ d.superclass = some t ∨ t ∈ d.interfaces := by
    intro t
    rw [TypeDecl.supertypes, List.mem_append, Option.mem_toList]
  simp only [Extends, declared, Option.some.injEq, exists_eq_left', List.mem_map, supertypes]

/-- A name that is not declared extends nothing. -/
lemma not_extends (absent : c.find? a = none) : ¬ c.Extends a b := by
  rintro ⟨d, declared, -⟩
  cases absent.symm.trans declared

/-- A name that is not declared reaches itself only. -/
lemma Reaches.eq_of_undeclared (absent : c.find? a = none) (route : c.Reaches a b) : b = a := by
  rcases route.cases_head with same | ⟨_, step, _⟩
  · exact same.symm
  · exact absurd step (not_extends absent)

/-- Once a declared name is visited, its supertypes wait with the others. -/
lemma waiting_of_declared (declared : c.find? name = some d) (x : String) :
    x ∈ d.supertypes.map TypeRef.name ++ rest ↔ c.Extends name x ∨ x ∈ rest := by
  rw [List.mem_append, extends_iff declared]

/-- Once a name that is not declared is visited, no more names wait than before. -/
lemma waiting_of_undeclared (absent : c.find? name = none) (x : String) :
    x ∈ rest ↔ c.Extends name x ∨ x ∈ rest :=
  (or_iff_right (not_extends absent)).symm

/-! ### The walk of a visit -/

/-- A name that is not declared is passed over. -/
lemma visit_of_none {pool : List TypeDecl}
    (absent : pool.find? (fun d => d.name == name) = none) :
    visit pool (name :: rest) = visit pool rest := by
  rw [visit]
  split
  · rfl
  · rename_i found
    cases absent.symm.trans found

/-- A declared name is visited, and then its supertypes are, before the names that waited. -/
lemma visit_of_some {pool : List TypeDecl}
    (found : pool.find? (fun d => d.name == name) = some d) :
    visit pool (name :: rest) =
      d :: visit (without pool name) (d.supertypes.map TypeRef.name ++ rest) := by
  rw [visit]
  split
  · rename_i absent
    cases absent.symm.trans found
  · rename_i found'
    cases found.symm.trans found'
    rfl

/-- A name that is not declared takes no declaration away. -/
lemma unmet_cons_of_undeclared (absent : c.find? name = none) :
    c.unmet (name :: met) = c.unmet met := by
  rw [← without_unmet, without, List.filter_eq_self]
  intro d hd
  have hd : d ∈ c.declarations := (List.mem_filter.mp hd).1
  simpa using List.find?_eq_none.mp absent d hd

/-- The walk that a visit takes. -/
lemma walks_visit (c : Catalog) (met waiting : List String) :
    c.Walks met waiting (visit (c.unmet met) waiting) := by
  generalize pool_eq : c.unmet met = pool
  induction pool, waiting using visit.induct generalizing met with
  | case1 pool =>
    rw [visit]
    exact .finished
  | case2 pool name rest absent ih =>
    subst pool_eq
    rw [visit_of_none absent]
    by_cases fresh : name ∈ met
    · exact .repeated fresh (ih met rfl)
    · have undeclared : c.find? name = none := (find?_unmet fresh).symm.trans absent
      exact .undeclared fresh undeclared (ih _ (unmet_cons_of_undeclared undeclared))
  | case3 pool name rest d found ih =>
    subst pool_eq
    obtain ⟨fresh, declared⟩ := of_find?_unmet found
    rw [visit_of_some found]
    exact .declared fresh declared (ih _ without_unmet.symm)

/-- There is no other walk. -/
lemma Walks.eq_visit (walk : c.Walks met waiting ds) : ds = visit (c.unmet met) waiting := by
  induction walk with
  | finished => rw [visit]
  | repeated here _ ih => rw [visit_of_none (find?_unmet_of_mem here), ih]
  | undeclared fresh absent _ ih =>
    rw [visit_of_none ((find?_unmet fresh).trans absent), ih, unmet_cons_of_undeclared absent]
  | declared fresh declared _ ih =>
    rw [visit_of_some ((find?_unmet fresh).trans declared), ih, without_unmet]

/-- From any names there is one walk, and it meets the declarations of the visit. -/
theorem walks_iff : c.Walks [] waiting ds ↔ ds = visit c.declarations waiting := by
  rw [← unmet_nil]
  constructor
  · exact Walks.eq_visit
  · rintro rfl
    exact walks_visit c [] waiting

/-! ### What a walk meets -/

/-- A walk meets the declared names that are reached past the names that were met before. -/
lemma Walks.mem_iff (walk : c.Walks met waiting ds) :
    d ∈ ds ↔ c.find? d.name = some d ∧ d.name ∉ met ∧ ReachedPast c.Extends met waiting d.name := by
  induction walk with
  | finished => simp [reachedPast_nil]
  -- a name that was met adds nothing, whatever is behind it
  | @repeated met name rest ds here _ ih =>
    rw [ih, reachedPast_cons_of_met here]
    have other : d.name ∉ met → d.name ≠ name := fun unmet same => unmet (same ▸ here)
    tauto
  | @undeclared met name rest ds fresh absent _ ih =>
    rw [ih, reachedPast_cons_of_fresh fresh (waiting_of_undeclared absent), List.mem_cons, not_or]
    have other : c.find? d.name = some d → d.name ≠ name := by
      rintro declared rfl
      cases absent.symm.trans declared
    tauto
  | @declared met name rest e ds fresh declared _ ih =>
    rw [List.mem_cons, ih, reachedPast_cons_of_fresh fresh (waiting_of_declared declared),
      List.mem_cons, not_or]
    -- the declaration is the one that is met now exactly if it has the name
    have first : d = e ↔ c.find? d.name = some d ∧ d.name = name := by
      constructor
      · rintro rfl
        have named := name_of_find? declared
        exact ⟨named ▸ declared, named⟩
      · rintro ⟨found, rfl⟩
        exact Option.some.inj (found.symm.trans declared)
    have unmet : d.name = name → d.name ∉ met := fun same => same ▸ fresh
    tauto

/-- A visit meets what is visible from the name. -/
theorem mem_visit_iff : d ∈ visit c.declarations [name] ↔ c.IsVisible name d := by
  rw [(walks_iff.mpr rfl).mem_iff, reachedPast_start]
  simp [IsVisible, Reaches]

/-- What a walk visits is visible. -/
lemma Walks.isVisible (walk : c.Walks [] [name] ds) (hd : d ∈ ds) : c.IsVisible name d :=
  mem_visit_iff.mp (walks_iff.mp walk ▸ hd)

/-- No name is met twice. -/
lemma Walks.names_nodup (walk : c.Walks met waiting ds) : (ds.map (·.name)).Nodup := by
  induction walk with
  | finished => exact .nil
  | repeated _ _ ih | undeclared _ _ _ ih => exact ih
  | @declared met name rest d ds fresh declared walk ih =>
    refine List.nodup_cons.mpr ⟨fun here => ?_, ih⟩
    obtain ⟨e, he, same⟩ := List.mem_map.mp here
    obtain ⟨-, unmet, -⟩ := walk.mem_iff.mp he
    have named : e.name = name := same.trans (name_of_find? declared)
    exact unmet (named ▸ List.mem_cons_self)

end Catalog

/-! ### Reports on paper -/

namespace Sample

/-- Reports and papers are superclasses of each other. Both are printable, which is an interface
that extends another one that is not declared. -/
def papers : Catalog where
  declarations := [
    { name := "Printable"
      kind := .interface
      interfaces := [.of "Serializable"]
      methods := [
        { declaringType := "Printable", name := "print", parameterTypes := [.of "Printer"] },
        { declaringType := "Printable", name := "preview" }] },
    { name := "Paper"
      superclass := some (.of "Report")
      interfaces := [.of "Printable"]
      methods := [
        { declaringType := "Paper", name := "print", parameterTypes := [.of "Printer"] },
        { declaringType := "Paper", name := "print" }] },
    { name := "Report"
      superclass := some (.of "Paper")
      interfaces := [.of "Printable"]
      methods := [
        { declaringType := "Report", name := "title", returnType := some (.of "String") },
        { declaringType := "Report", name := "preview" },
        { declaringType := "Report", name := "title", returnType := some (.of "Text") }] }]

end Sample

example : (Catalog.visit Sample.papers.declarations ["Report"]).map (·.name) =
    ["Report", "Paper", "Printable"] := by cbv

end EntityModel
