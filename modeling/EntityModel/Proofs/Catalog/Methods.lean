import EntityModel.Proofs.Catalog.Walk

/-!
# Methods that are visible on a type

The methods of a type are those of the declarations on its walk, of which the first one of each
signature stays. As the walk meets what is visible and nothing else, there is one method for each
signature that a visible declaration has. The walk starts at the type itself, so its own methods
come before those that it inherits, and they hide them (`Catalog.methodsOf_onePerSignature`).
-/

namespace EntityModel

/-! ### First occurrences -/

section Distinct

variable {α κ : Type} [BEq κ] [LawfulBEq κ] {key : α → κ} {a b : α}

/-- What is kept is what is left when repetitions of unseen keys are erased. -/
lemma distinctOn_eq_eraseDupsBy (seen : List κ) (as : List α) :
    distinctOn key seen as =
      (as.filter fun a => !seen.contains (key a)).eraseDupsBy fun a b => key a == key b := by
  induction as generalizing seen with
  | nil => rfl
  | cons a as ih =>
    rw [distinctOn]
    split
    · rename_i here
      rw [ih, List.filter_cons_of_neg (by simpa using here)]
    · rename_i fresh
      rw [ih, List.filter_cons_of_pos (by simpa using fresh), List.eraseDupsBy_cons,
        List.filter_filter]
      congr 2
      apply List.filter_congr
      intro b _
      rw [List.contains_cons, Bool.not_or]
      cases key b == key a <;> simp

/-- The keys of the items in front are seen by the items behind them. -/
lemma distinctOn_append (key : α → κ) (seen : List κ) (as bs : List α) :
    ∃ seen', distinctOn key seen (as ++ bs) = distinctOn key seen as ++ distinctOn key seen' bs ∧
      seen ⊆ seen' ∧ ∀ a ∈ as, key a ∈ seen' := by
  induction as generalizing seen with
  | nil => exact ⟨seen, rfl, List.Subset.refl _, nofun⟩
  | cons a as ih =>
    rw [List.cons_append, distinctOn, distinctOn]
    split
    · rename_i here
      obtain ⟨seen', append_eq, before, ahead⟩ := ih seen
      refine ⟨seen', append_eq, before, List.forall_mem_cons.mpr ⟨before ?_, ahead⟩⟩
      simpa using here
    · obtain ⟨seen', append_eq, before, ahead⟩ := ih (key a :: seen)
      obtain ⟨now, before⟩ := List.cons_subset.mp before
      exact ⟨seen', congrArg (a :: ·) append_eq, before, List.forall_mem_cons.mpr ⟨now, ahead⟩⟩

/-- Among items whose keys differ there is one with the key of a member. -/
lemma countP_eq_one {as : List α} (distinct : as.Pairwise fun a b => key a ≠ key b) (ha : a ∈ as) :
    (as.countP fun b => key a == key b) = 1 := by
  induction distinct with
  | nil => cases ha
  | @cons b bs differs _ ih =>
    rcases List.mem_cons.mp ha with rfl | ha
    · have others : (bs.countP fun b => key a == key b) = 0 :=
        List.countP_eq_zero.mpr fun c hc same => differs c hc (eq_of_beq same)
      rw [List.countP_cons, others, if_pos (beq_self_eq_true _)]
    · have other : ¬ (key a == key b) = true := fun same => differs a ha (eq_of_beq same).symm
      rw [List.countP_cons, if_neg other, ih ha]

end Distinct

/-! ### Signatures -/

/-- What methods have in common that hide each other. -/
def Method.signature (m : Method) : String × List TypeRef :=
  (m.name, m.parameterTypes)

/-- Whether signatures match is a comparison of two values. -/
lemma Method.matchesSignature_eq (m other : Method) :
    m.matchesSignature other = (m.signature == other.signature) := by
  rw [Bool.eq_iff_iff, matchesSignature_iff, beq_iff_eq, signature, signature, Prod.mk.injEq]

/-- Signatures match if they are equal. -/
lemma Method.matchesSignature_eq_true {m other : Method} :
    m.matchesSignature other = true ↔ m.signature = other.signature := by
  rw [matchesSignature_eq, beq_iff_eq]

/-- Signatures do not match if they differ. -/
lemma Method.matchesSignature_eq_false {m other : Method} :
    m.matchesSignature other = false ↔ m.signature ≠ other.signature := by
  rw [matchesSignature_eq, beq_eq_false_iff_ne]

namespace Catalog

variable {c : Catalog} {name : String} {d : TypeDecl} {m : Method}

/-- The methods on the walk from a type. -/
def methodsMet (c : Catalog) (name : String) : List Method :=
  (visit c.declarations [name]).flatMap (·.methods)

/-- The methods of a type are those that are met, the first one of each signature. -/
lemma methodsOf_eq_distinctOn (c : Catalog) (name : String) :
    c.methodsOf name = distinctOn Method.signature [] (c.methodsMet name) :=
  rfl

/-- A method is met if a visible declaration has it. -/
lemma mem_methodsMet : m ∈ c.methodsMet name ↔ ∃ d, c.IsVisible name d ∧ m ∈ d.methods := by
  simp only [methodsMet, List.mem_flatMap, mem_visit_iff]

/-- To drop the methods that match an earlier one is to keep the first one of each signature. -/
lemma eraseDupsBy_eq_distinctOn (ms : List Method) :
    ms.eraseDupsBy Method.matchesSignature = distinctOn Method.signature [] ms := by
  rw [distinctOn_eq_eraseDupsBy]
  congr 1
  · funext m other
    exact m.matchesSignature_eq other
  · exact (List.filter_eq_self.mpr fun _ _ => rfl).symm

/-- Every signature that is met is kept. -/
lemma exists_mem_methodsOf (met : m ∈ c.methodsMet name) :
    ∃ kept ∈ c.methodsOf name, kept.signature = m.signature :=
  exists_mem_distinctOn met List.not_mem_nil

/-- There is one method for the signature of each method on the walk. -/
lemma countP_methodsOf (met : m ∈ c.methodsMet name) :
    (c.methodsOf name).countP m.matchesSignature = 1 := by
  obtain ⟨kept, hkept, same⟩ := exists_mem_methodsOf met
  have distinct : (c.methodsOf name).Pairwise fun a b => a.signature ≠ b.signature :=
    pairwise_distinctOn Method.signature [] _
  have matches_eq : m.matchesSignature = fun other => kept.signature == other.signature := by
    funext other
    rw [m.matchesSignature_eq, same]
  rw [matches_eq, countP_eq_one distinct hkept]

/-- The walk from a declared type starts with its own methods. -/
lemma exists_methodsMet_append (declared : c.find? name = some d) :
    ∃ inherited, c.methodsMet name = d.methods ++ inherited := by
  have found : c.declarations.find? (fun d => d.name == name) = some d := declared
  rw [methodsMet, visit_of_some found, List.flatMap_cons]
  exact ⟨_, rfl⟩

/-- A type has one method for each signature that it declares or that a declaration visible from it
has, and each of its methods is declared by one of these. Of several methods with one signature the
first one on the walk stays, so the own ones come first, and they hide the inherited ones. -/
theorem methodsOf_onePerSignature (c : Catalog) (name : String) :
    (∃ ds, (∀ met, c.Walks [] [name] met ↔ met = ds) ∧ (ds.map (·.name)).Nodup ∧
        c.methodsOf name = (ds.flatMap (·.methods)).eraseDupsBy Method.matchesSignature) ∧
      (∀ m ∈ c.methodsOf name, ∃ d, c.IsVisible name d ∧ m ∈ d.methods) ∧
      (∀ d, c.IsVisible name d → ∀ m ∈ d.methods,
        (c.methodsOf name).countP m.matchesSignature = 1) ∧
      ∀ d, c.find? name = some d → ∃ inherited,
        c.methodsOf name = d.methods.eraseDupsBy Method.matchesSignature ++ inherited ∧
          ∀ m ∈ inherited, ∀ own ∈ d.methods, own.matchesSignature m = false := by
  refine ⟨⟨_, fun _ => walks_iff, (walks_iff.mpr rfl).names_nodup, ?_⟩, fun m hm => ?_,
    fun d visible m hm => ?_, fun d declared => ?_⟩
  · rw [eraseDupsBy_eq_distinctOn]
    rfl
  · exact mem_methodsMet.mp (mem_of_mem_distinctOn hm)
  · exact countP_methodsOf (mem_methodsMet.mpr ⟨d, visible, hm⟩)
  -- the walk meets the declaration first, so its methods come before the inherited ones
  · obtain ⟨rest, met_eq⟩ := exists_methodsMet_append declared
    obtain ⟨seen, append_eq, -, ahead⟩ := distinctOn_append Method.signature [] d.methods rest
    refine ⟨distinctOn Method.signature seen rest, ?_, fun m hm own hown => ?_⟩
    · rw [methodsOf_eq_distinctOn, met_eq, append_eq, eraseDupsBy_eq_distinctOn]
    · rw [Method.matchesSignature_eq_false]
      intro same
      exact key_notMem_of_mem_distinctOn hm (same ▸ ahead own hown)

/-- A report has both ways to print of a paper and its own preview, not that of a printable. -/
theorem methodsOf_onePerSignature_report :
    ((Sample.papers.methodsOf "Report").map fun m => (m.declaringType, m.name)) =
        [("Report", "title"), ("Report", "preview"), ("Paper", "print"), ("Paper", "print")] ∧
      ∃ d, Sample.papers.IsVisible "Report" d ∧ d.name = "Printable" ∧
        ∀ m ∈ d.methods, (Sample.papers.methodsOf "Report").countP m.matchesSignature = 1 := by
  obtain ⟨-, -, once, -⟩ := methodsOf_onePerSignature Sample.papers "Report"
  have names : (visit Sample.papers.declarations ["Report"]).map (·.name) =
      ["Report", "Paper", "Printable"] := by cbv
  have met : "Printable" ∈ (visit Sample.papers.declarations ["Report"]).map (·.name) := by
    rw [names]
    decide
  obtain ⟨d, hd, named⟩ := List.mem_map.mp met
  have visible := mem_visit_iff.mp hd
  exact ⟨by cbv, d, visible, named, once d visible⟩

end Catalog

end EntityModel
