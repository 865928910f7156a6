import EntityModel.TypeRef
import Mathlib.Tactic.Lemma

/-!
# Variables of types

Substitution changes a type at its variables only. So variables are left in the result exactly if
there are some in what stands for a variable of the type (`TypeRef.hasVariables_subst`). Nothing is
left of a parameter that is bound to a type without variables (`TypeRef.hasVariables_image_bind`).
-/

namespace EntityModel.TypeRef

mutual

/-- The names of the variables of a type, each as often as it occurs. -/
def variableNames : TypeRef → List String
  | .variable n => [n]
  | .named _ as => variableNamesAll as
  | .collection _ t | .array t | .optional t => variableNames t
  | .map k v => variableNames k ++ variableNames v

def variableNamesAll : List TypeRef → List String
  | [] => []
  | t :: ts => variableNames t ++ variableNamesAll ts

end

/-- What stands for a variable: the type that is bound to it, else the variable itself. -/
def Bindings.image (b : Bindings) (name : String) : TypeRef :=
  (b.get? name).getD (.variable name)

variable {b : Bindings} {parameters : List String} {arguments : List TypeRef} {name : String}
  {t : TypeRef}

/-! ### Variables that are left -/

mutual

/-- Variables are left in a type if they are left in what stands for one of its variables. -/
theorem hasVariables_subst (b : Bindings) : ∀ t : TypeRef,
    (t.subst b).hasVariables = t.variableNames.any fun n => (b.image n).hasVariables
  | .variable n => by rw [subst, variableNames, List.any_cons, List.any_nil, Bool.or_false]; rfl
  | .named _ as => by rw [subst, hasVariables, variableNames, hasVariables_substAll b as]
  | .collection _ t | .array t | .optional t => by
    rw [subst, hasVariables, variableNames, hasVariables_subst b t]
  | .map k v => by
    rw [subst, hasVariables, variableNames, List.any_append, hasVariables_subst b k,
      hasVariables_subst b v]

/-- Variables are left in a list of types if they are left in what stands for one of its
variables. -/
theorem hasVariables_substAll (b : Bindings) : ∀ ts : List TypeRef,
    anyHasVariables (substAll b ts) = (variableNamesAll ts).any fun n => (b.image n).hasVariables
  | [] => rfl
  | t :: ts => by
    rw [substAll, anyHasVariables, variableNamesAll, List.any_append, hasVariables_subst b t,
      hasVariables_substAll b ts]

end

/-- No variable is left if nothing that stands for a variable has one. -/
lemma hasVariables_subst_eq_false
    (closed : ∀ n ∈ t.variableNames, (b.image n).hasVariables = false) :
    (t.subst b).hasVariables = false := by
  rw [hasVariables_subst, List.any_eq_false]
  intro n hn
  rw [closed n hn]
  exact Bool.false_ne_true

/-! ### Bound parameters -/

/-- A parameter stands for an argument if there are as many arguments as parameters. Of several
parameters with one name the last one counts, but that has an argument, too. -/
lemma get?_bind (enough : arguments.length = parameters.length) (hname : name ∈ parameters) :
    ∃ a ∈ arguments, (bind parameters arguments).get? name = some a := by
  have names : (parameters.zip arguments).map Prod.fst = parameters :=
    List.map_fst_zip (Nat.le_of_eq enough.symm)
  rw [← names] at hname
  obtain ⟨entry, hentry, named⟩ := List.mem_map.mp hname
  have some_found : ((bind parameters arguments).find? fun e => e.1 == name).isSome = true := by
    apply List.find?_isSome.mpr
    exact ⟨entry, List.mem_reverse.mpr hentry, beq_iff_eq.mpr named⟩
  obtain ⟨found, found_eq⟩ := Option.isSome_iff_exists.mp some_found
  refine ⟨found.2, ?_, congrArg (Option.map Prod.snd) found_eq⟩
  have hfound := List.mem_reverse.mp (List.mem_of_find?_eq_some found_eq)
  exact (List.of_mem_zip hfound).2

/-- No variable is left of a parameter that an argument without variables stands for. -/
lemma hasVariables_image_bind (enough : arguments.length = parameters.length)
    (closed : ∀ a ∈ arguments, a.hasVariables = false) (hname : name ∈ parameters) :
    ((bind parameters arguments).image name).hasVariables = false := by
  obtain ⟨a, ha, bound⟩ := get?_bind enough hname
  rw [Bindings.image, bound]
  exact closed a ha

end EntityModel.TypeRef
