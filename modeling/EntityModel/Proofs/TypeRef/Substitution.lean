import EntityModel.Proofs.TypeRef.Variables
import Mathlib.Logic.Basic

/-!
# Simultaneous substitution

Substitution replaces all variables of a type at once: the images are not substituted again. So two
substitutions, one after the other, are a single one, with bindings that are composed of both
(`TypeRef.subst_subst`), and what is left open is told by the images alone
(`TypeRef.subst_simultaneous`). Bindings to types without variables change nothing more where they
are used again (`TypeRef.subst_again`).
-/

namespace EntityModel.TypeRef

variable {s u : Bindings} {name : String} {image : TypeRef} {t : TypeRef}

/-! ### Composed bindings -/

namespace Bindings

/-- Bindings that are followed by further ones: the images are substituted by these, and variables
that are bound by these alone keep their images. -/
def andThen (s u : Bindings) : Bindings :=
  s.map (fun e => (e.1, e.2.subst u)) ++ u

/-- A name that both bind has the image of the first bindings, substituted by the second ones. -/
lemma get?_andThen (s u : Bindings) (name : String) :
    (s.andThen u).get? name = ((s.get? name).map (subst u)).or (u.get? name) := by
  unfold andThen get?
  rw [List.find?_append, List.find?_map, Option.map_or]
  congr 1
  rw [Option.map_map, Option.map_map]
  rfl

/-- The image of a name that is bound first is substituted. -/
lemma get?_andThen_of_some (h : s.get? name = some image) :
    (s.andThen u).get? name = some (image.subst u) := by
  rw [get?_andThen, h]
  rfl

/-- A name that is not bound first keeps its later image. -/
lemma get?_andThen_of_none (h : s.get? name = none) :
    (s.andThen u).get? name = u.get? name := by
  rw [get?_andThen, h]
  rfl

/-- A bound variable stands for its image. -/
lemma image_of_some (h : s.get? name = some image) : s.image name = image := by
  rw [Bindings.image, h, Option.getD_some]

/-- An unbound variable stands for itself. -/
lemma image_of_none (h : s.get? name = none) : s.image name = .variable name := by
  rw [Bindings.image, h, Option.getD_none]

/-- What stands for a variable in the end is what stands for it first, substituted. -/
lemma image_andThen (s u : Bindings) (name : String) :
    (s.andThen u).image name = (s.image name).subst u := by
  cases bound : s.get? name with
  | none =>
    rw [image_of_none bound, Bindings.image, get?_andThen_of_none bound]
    rfl
  | some image => rw [image_of_some bound, image_of_some (get?_andThen_of_some bound)]

end Bindings

/-! ### No substitution -/

mutual

/-- Without bindings nothing is replaced. -/
theorem subst_nil : ∀ t : TypeRef, t.subst [] = t
  | .variable _ => rfl
  | .named n as => congrArg (TypeRef.named n) (substAll_nil as)
  | .collection k t => congrArg (TypeRef.collection k) (subst_nil t)
  | .array t => congrArg TypeRef.array (subst_nil t)
  | .map k v => congrArg₂ TypeRef.map (subst_nil k) (subst_nil v)
  | .optional t => congrArg TypeRef.optional (subst_nil t)

/-- Nothing is replaced in a list of types, either. -/
theorem substAll_nil : ∀ ts : List TypeRef, substAll [] ts = ts
  | [] => rfl
  | t :: ts => congrArg₂ List.cons (subst_nil t) (substAll_nil ts)

end

/-- A type has no variables exactly if it has no names of variables. -/
lemma hasVariables_eq_false_iff : t.hasVariables = false ↔ t.variableNames = [] := by
  have left := hasVariables_subst [] t
  rw [subst_nil] at left
  rw [left, List.any_eq_false]
  constructor
  · intro closed
    exact List.eq_nil_iff_forall_not_mem.mpr fun n hn => closed n hn rfl
  · intro none
    rw [none]
    exact nofun

/-! ### Two substitutions -/

mutual

/-- Two substitutions are one, with the composed bindings. -/
theorem subst_subst (s u : Bindings) : ∀ t : TypeRef, (t.subst s).subst u = t.subst (s.andThen u)
  | .variable n => (s.image_andThen u n).symm
  | .named n as => congrArg (TypeRef.named n) (substAll_substAll s u as)
  | .collection k t => congrArg (TypeRef.collection k) (subst_subst s u t)
  | .array t => congrArg TypeRef.array (subst_subst s u t)
  | .map k v => congrArg₂ TypeRef.map (subst_subst s u k) (subst_subst s u v)
  | .optional t => congrArg TypeRef.optional (subst_subst s u t)

/-- Two substitutions in a list are one, with the composed bindings. -/
theorem substAll_substAll (s u : Bindings) :
    ∀ ts : List TypeRef, substAll u (substAll s ts) = substAll (s.andThen u) ts
  | [] => rfl
  | t :: ts => congrArg₂ List.cons (subst_subst s u t) (substAll_substAll s u ts)

end

mutual

/-- Only what stands for its variables matters to what becomes of a type. -/
theorem subst_congr {s u : Bindings} : ∀ t : TypeRef,
    (∀ n ∈ t.variableNames, s.image n = u.image n) → t.subst s = t.subst u
  | .variable n, same => same n (List.mem_singleton.mpr rfl)
  | .named n as, same => congrArg (TypeRef.named n) (substAll_congr as same)
  | .collection k t, same => congrArg (TypeRef.collection k) (subst_congr t same)
  | .array t, same => congrArg TypeRef.array (subst_congr t same)
  | .map k v, same => congrArg₂ TypeRef.map
      (subst_congr k fun n hn => same n (List.mem_append_left _ hn))
      (subst_congr v fun n hn => same n (List.mem_append_right _ hn))
  | .optional t, same => congrArg TypeRef.optional (subst_congr t same)

/-- Only what stands for their variables matters to what becomes of types of a list. -/
theorem substAll_congr {s u : Bindings} : ∀ ts : List TypeRef,
    (∀ n ∈ variableNamesAll ts, s.image n = u.image n) → substAll s ts = substAll u ts
  | [], _ => rfl
  | t :: ts, same => congrArg₂ List.cons
      (subst_congr t fun n hn => same n (List.mem_append_left _ hn))
      (substAll_congr ts fun n hn => same n (List.mem_append_right _ hn))

end

/-- A type without variables stays as it is. -/
lemma subst_of_closed (closed : t.hasVariables = false) (b : Bindings) : t.subst b = t := by
  have none := hasVariables_eq_false_iff.mp closed
  calc t.subst b = t.subst [] := subst_congr t fun n hn => absurd (none ▸ hn) List.not_mem_nil
    _ = t := subst_nil t

/-- Bindings to types without variables change nothing more where they are used again. -/
lemma subst_again {b : Bindings}
    (closed : ∀ name image, b.get? name = some image → image.hasVariables = false) (t : TypeRef) :
    (t.subst b).subst b = t.subst b := by
  rw [subst_subst]
  apply subst_congr
  intro name _
  rw [Bindings.image_andThen]
  cases bound : b.get? name with
  | none =>
    rw [Bindings.image_of_none bound]
    exact Bindings.image_of_none bound
  | some image =>
    rw [Bindings.image_of_some bound]
    exact subst_of_closed (closed name image bound) b

/-! ### Variables that are left -/

/-- A variable is left of those that are unbound and of those whose images have variables. -/
lemma hasVariables_image_iff : (s.image name).hasVariables = true ↔
    s.get? name = none ∨ ∃ image, s.get? name = some image ∧ image.hasVariables = true := by
  cases bound : s.get? name with
  | none =>
    rw [Bindings.image_of_none bound]
    exact iff_of_true rfl (.inl rfl)
  | some image =>
    rw [Bindings.image_of_some bound]
    simp

/-- Two substitutions, one after the other, are one with the composed bindings: a variable that the
first one binds has its image substituted by the second one, and any other variable has the image
that the second one gives it. Variables are left exactly if there is one in the type that is unbound
or whose image has variables. Without bindings nothing is replaced. -/
theorem subst_simultaneous (t : TypeRef) (s u : Bindings) :
    ((t.subst s).subst u = t.subst (s.andThen u) ∧
      ∀ name, (s.andThen u).get? name = ((s.get? name).map (subst u)).or (u.get? name)) ∧
    ((t.subst s).hasVariables = true ↔ ∃ name ∈ t.variableNames,
      s.get? name = none ∨ ∃ image, s.get? name = some image ∧ image.hasVariables = true) ∧
    t.subst [] = t := by
  refine ⟨⟨subst_subst s u t, s.get?_andThen u⟩, ?_, subst_nil t⟩
  rw [hasVariables_subst, List.any_eq_true]
  exact exists_congr fun name => and_congr_right fun _ => hasVariables_image_iff

/-- An image that mentions bound variables is not substituted again. -/
example : (TypeRef.map (.variable "K") (.variable "V")).subst
    [("K", .variable "V"), ("V", .optional (.variable "K"))] =
      .map (.variable "V") (.optional (.variable "K")) := rfl

end EntityModel.TypeRef
