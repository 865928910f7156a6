import EntityModel.Proofs.Catalog.Subtypes
import EntityModel.Proofs.Repository.Direct
import EntityModel.Proofs.TypeRef.Height

/-!
# Fitting parameters

Whether a parameter type fits another one is found out by a comparison that substitutes the bindings
of a repository again at every level of nesting (`Lookup.Compares`). Where the types of the
repository have no variables, nothing is left to substitute after the first level, so the comparison
comes to an end (`Lookup.compares_fitsTo`), and it tells whether the types, substituted once, fit
each other (`Catalog.Fits`). Equal types fit, so a method that matches directly is found first and
is one of those that fit (`Lookup.fits_related`).
-/

namespace EntityModel

/-- Two types that are not both named are of the same raw type and have equally many arguments. -/
structure TypeRef.Alike (t u : TypeRef) : Prop where
  unnamed : ¬ (t.isNamed = true ∧ u.isNamed = true)
  name_eq : t.name = u.name
  length_eq : t.arguments.length = u.arguments.length

/-- A type fits another one: they are equal, or both are named and the first one is, or
transitively extends, the raw type of the second one, or they are alike, with arguments that fit one
another. -/
inductive Catalog.Fits (c : Catalog) : TypeRef → TypeRef → Prop where
  | same {t} :
    Fits c t t
  | named {t u} :
    t.isNamed = true ∧ u.isNamed = true →
    c.Reaches t.name u.name →
    Fits c t u
  | parts {t u} :
    t.Alike u →
    (∀ p ∈ t.arguments.zip u.arguments, Fits c p.1 p.2) →
    Fits c t u

namespace Catalog.Fits

variable {c : Catalog} {t u : TypeRef}

/-- Of two different named types, the one that fits reaches the other. -/
lemma of_named (h : c.Fits t u) (different : t ≠ u)
    (named : t.isNamed = true ∧ u.isNamed = true) : c.Reaches t.name u.name := by
  cases h with
  | same => exact absurd rfl different
  | named _ reaches => exact reaches
  | parts alike => exact absurd named alike.unnamed

/-- Other types that differ fit only if they are alike and their arguments fit. -/
lemma of_unnamed (h : c.Fits t u) (different : t ≠ u)
    (unnamed : ¬ (t.isNamed = true ∧ u.isNamed = true)) :
    t.Alike u ∧ ∀ p ∈ t.arguments.zip u.arguments, c.Fits p.1 p.2 := by
  cases h with
  | same => exact absurd rfl different
  | named named => exact absurd named unnamed
  | parts alike fit => exact ⟨alike, fit⟩

end Catalog.Fits

namespace Lookup

/-- The comparison of two types under bindings with its result. Pairs of arguments are compared in
order, up to the first one that does not fit. -/
inductive Compares (c : Catalog) (b : TypeRef.Bindings) : TypeRef → TypeRef → Bool → Prop where
  | same {t u} :
    t.subst b = u.subst b →
    Compares c b t u true
  | named {t u} :
    t.subst b ≠ u.subst b →
    (t.subst b).isNamed = true ∧ (u.subst b).isNamed = true →
    Compares c b t u (c.isSubtype (t.subst b) (u.subst b))
  | unlike {t u} :
    t.subst b ≠ u.subst b →
    ¬ ((t.subst b).isNamed = true ∧ (u.subst b).isNamed = true) →
    ¬ (t.subst b).Alike (u.subst b) →
    Compares c b t u false
  | parts {t u} :
    t.subst b ≠ u.subst b →
    (t.subst b).Alike (u.subst b) →
    (∀ p ∈ (t.subst b).arguments.zip (u.subst b).arguments, Compares c b p.1 p.2 true) →
    Compares c b t u true
  | apart {t u before p after} :
    t.subst b ≠ u.subst b →
    (t.subst b).Alike (u.subst b) →
    (t.subst b).arguments.zip (u.subst b).arguments = before ++ p :: after →
    (∀ q ∈ before, Compares c b q.1 q.2 true) →
    Compares c b p.1 p.2 false →
    Compares c b t u false

variable {c : Catalog} {b : TypeRef.Bindings} {t u : TypeRef} {result : Bool} {depth : Nat}
  {r : RepositoryInterface}

/-! ### One level of nesting -/

/-- Types that are equal after substitution fit. -/
lemma fitsTo_of_eq (equal : t.subst b = u.subst b) : fitsTo c b (depth + 1) t u = true :=
  if_pos equal

/-- Named types are compared by the subtype relation of the catalog. -/
lemma fitsTo_of_named (different : t.subst b ≠ u.subst b)
    (named : (t.subst b).isNamed = true ∧ (u.subst b).isNamed = true) :
    fitsTo c b (depth + 1) t u = c.isSubtype (t.subst b) (u.subst b) :=
  (if_neg different).trans (if_pos (Bool.and_eq_true_iff.mpr named))

/-- Other types are compared by their raw types and then argument by argument. -/
lemma fitsTo_of_unnamed (different : t.subst b ≠ u.subst b)
    (unnamed : ¬ ((t.subst b).isNamed = true ∧ (u.subst b).isNamed = true)) :
    fitsTo c b (depth + 1) t u =
      (decide ((t.subst b).name = (u.subst b).name ∧
        (t.subst b).arguments.length = (u.subst b).arguments.length) &&
      ((t.subst b).arguments.zip (u.subst b).arguments).all
        fun p => fitsTo c b depth p.1 p.2) := by
  rw [Bool.decide_and]
  exact (if_neg different).trans (if_neg (mt Bool.and_eq_true_iff.mp unnamed))

/-- A comparison of types that are alike comes to an end where those of their arguments do. -/
lemma Compares.arguments {fit : TypeRef × TypeRef → Bool} (different : t.subst b ≠ u.subst b)
    (alike : (t.subst b).Alike (u.subst b))
    (compares : ∀ p ∈ (t.subst b).arguments.zip (u.subst b).arguments,
      Compares c b p.1 p.2 (fit p)) :
    Compares c b t u (((t.subst b).arguments.zip (u.subst b).arguments).all fit) := by
  cases first : ((t.subst b).arguments.zip (u.subst b).arguments).find? (!fit ·) with
  | none =>
    have fits : ∀ p ∈ (t.subst b).arguments.zip (u.subst b).arguments, fit p = true := by
      simpa using List.find?_eq_none.mp first
    rw [List.all_eq_true.mpr fits]
    exact .parts different alike fun p hp => fits p hp ▸ compares p hp
  | some p =>
    obtain ⟨unfit, before, after, split, fits⟩ := List.find?_eq_some_iff_append.mp first
    simp only [Bool.not_eq_true', Bool.not_not] at unfit fits
    have hp : p ∈ (t.subst b).arguments.zip (u.subst b).arguments := List.mem_of_find?_eq_some first
    rw [List.all_eq_false.mpr ⟨p, hp, Bool.eq_false_iff.mp unfit⟩]
    refine .apart different alike split (fun q hq => ?_) (unfit ▸ compares p hp)
    rw [← fits q hq]
    exact compares q (split ▸ List.mem_append_left _ hq)

/-! ### The result of a comparison -/

section Closed

variable (closed : ∀ name image, b.get? name = some image → image.hasVariables = false)
include closed

/-- The arguments of a substituted type are not changed by another substitution. -/
lemma subst_argument {x : TypeRef} (h : x ∈ (t.subst b).arguments) : x.subst b = x :=
  TypeRef.subst_of_mem_arguments (TypeRef.subst_again closed t) h

/-- A comparison tells whether the types fit after one substitution. -/
theorem Compares.iff_fits (h : Compares c b t u result) :
    result = true ↔ c.Fits (t.subst b) (u.subst b) := by
  induction h with
  | same equal => exact iff_of_true rfl (equal ▸ .same)
  | named different named =>
    rw [Catalog.isSubtype_iff]
    exact ⟨.named named, fun fits => fits.of_named different named⟩
  | unlike different unnamed unlike =>
    exact iff_of_false Bool.false_ne_true fun fits => unlike (fits.of_unnamed different unnamed).1
  | parts _ alike _ ih =>
    refine iff_of_true rfl (.parts alike fun p hp => ?_)
    -- the arguments are substituted already, so comparing them substitutes nothing more
    have fits := (ih p hp).mp rfl
    obtain ⟨left, right⟩ := List.of_mem_zip hp
    rwa [subst_argument closed left, subst_argument closed right] at fits
  | @apart t u before p after different alike split _ _ _ ih =>
    -- one pair that does not fit is enough, though the pairs behind it were not compared
    refine iff_of_false Bool.false_ne_true fun fits => ?_
    obtain ⟨-, fit⟩ := fits.of_unnamed different alike.unnamed
    have hp : p ∈ (t.subst b).arguments.zip (u.subst b).arguments := by
      rw [split]
      exact List.mem_append_right _ List.mem_cons_self
    obtain ⟨left, right⟩ := List.of_mem_zip hp
    rw [subst_argument closed left, subst_argument closed right] at ih
    exact Bool.false_ne_true (ih.mpr (fit p hp))

/-- A comparison has one result at most. -/
lemma Compares.unique {result' : Bool} (h : Compares c b t u result)
    (h' : Compares c b t u result') : result = result' :=
  Bool.eq_iff_iff.mpr ((h.iff_fits closed).trans (h'.iff_fits closed).symm)

/-! ### The end of a comparison -/

/-- A comparison comes to an end within the height of the type that is compared. -/
theorem compares_fitsTo (low : (t.subst b).height < depth) (u : TypeRef) :
    Compares c b t u (fitsTo c b depth t u) := by
  -- arguments are lower than the type that they belong to, and substitution leaves them so
  induction depth generalizing t u with
  | zero => exact absurd low (Nat.not_lt_zero _)
  | succ depth ih =>
    have lower : ∀ p ∈ (t.subst b).arguments.zip (u.subst b).arguments,
        Compares c b p.1 p.2 (fitsTo c b depth p.1 p.2) := by
      intro p hp
      have argument := (List.of_mem_zip hp).1
      apply ih
      rw [subst_argument closed argument]
      exact Nat.lt_of_lt_of_le (TypeRef.height_lt_of_mem_arguments argument) (Nat.le_of_lt_succ low)
    by_cases equal : t.subst b = u.subst b
    · rw [fitsTo_of_eq equal]
      exact .same equal
    by_cases named : (t.subst b).isNamed = true ∧ (u.subst b).isNamed = true
    · rw [fitsTo_of_named equal named]
      exact .named equal named
    rw [fitsTo_of_unnamed equal named]
    by_cases alike : (t.subst b).name = (u.subst b).name ∧
        (t.subst b).arguments.length = (u.subst b).arguments.length
    · rw [decide_eq_true alike, Bool.true_and]
      exact .arguments equal ⟨named, alike.1, alike.2⟩ lower
    · rw [decide_eq_false alike, Bool.false_and]
      exact .unlike equal named fun same => alike ⟨same.name_eq, same.length_eq⟩

end Closed

/-! ### Repositories -/

/-- What is bound are the types of the repository. -/
lemma image_bindings {name : String} {image : TypeRef}
    (h : (bindings r).get? name = some image) : image = r.domainType ∨ image = r.idType := by
  have bound : ∀ x ∈ (bindings r).map (·.2), x = r.domainType ∨ x = r.idType := by
    unfold bindings
    split <;> simp
  exact bound image (TypeRef.Bindings.mem_of_get? h)

/-- The images are no higher than they are large altogether, and no type is higher than large. -/
lemma height_lt_fittingDepth (b : TypeRef.Bindings) (t u : TypeRef) :
    (t.subst b).height < fittingDepth b t u := by
  have low (name image) (bound : b.get? name = some image) :
      image.height ≤ TypeRef.sizeAll (b.map (·.2)) :=
    Nat.le_trans image.height_le_size
      (TypeRef.size_le_sizeAll (TypeRef.Bindings.mem_of_get? bound))
  have factor : 0 < u.size + TypeRef.sizeAll (b.map (·.2)) :=
    Nat.add_pos_left u.size_pos _
  refine Nat.lt_succ_of_le ?_
  calc (t.subst b).height ≤ t.height + TypeRef.sizeAll (b.map (·.2)) :=
        TypeRef.height_subst_le low t
    _ ≤ t.size + TypeRef.sizeAll (b.map (·.2)) := Nat.add_le_add_right t.height_le_size _
    _ ≤ (t.size + TypeRef.sizeAll (b.map (·.2))) * (u.size + TypeRef.sizeAll (b.map (·.2))) :=
        Nat.le_mul_of_pos_right _ factor

/-- Every type fits itself. -/
lemma fits_self (r : RepositoryInterface) (t : TypeRef) : fits r t t = true :=
  fitsTo_of_eq rfl

/-- Methods that match directly fit. -/
lemma fitsSignature_of_matches {m candidate : Method} (h : m.matchesSignature candidate = true) :
    fitsSignature r m candidate = true := by
  obtain ⟨name_eq, types_eq⟩ := Method.matchesSignature_iff.mp h
  unfold fitsSignature
  rw [name_eq, types_eq, beq_self_eq_true, beq_self_eq_true, Bool.and_self, Bool.true_and]
  have pairs : candidate.parameterTypes.zip candidate.parameterTypes =
      candidate.parameterTypes.map fun t => (t, t) := List.zipWith_self
  rw [pairs]
  refine List.all_eq_true.mpr fun p hp => ?_
  obtain ⟨t, -, rfl⟩ := List.mem_map.mp hp
  exact fits_self r t

/-- A direct match is found before all methods that merely fit. -/
lemma search_of_direct {a : Assembly} {m callee : Method} (lookup : a.lookup = .forRepository r)
    (direct : Assembly.search { a with lookup := .direct } m = some callee) :
    a.search m = some callee := by
  rw [Assembly.search_direct rfl] at direct
  unfold Assembly.search
  rw [lookup, forRepository, Lookup.direct, List.singleton_append, List.findSome?_cons, direct]

/-- Where the types of a repository have no variables, the comparison of any two types comes to an
end, and it tells whether the types, substituted once, fit. So equal types fit, and whatever was
asked before, a method that a direct match serves is found there, and calls to it are sent there,
also if other methods fit. -/
theorem fits_related (r : RepositoryInterface) (domain : r.domainType.hasVariables = false)
    (id : r.idType.hasVariables = false) :
    (∀ t u,
      (∀ result, Compares r.catalog (bindings r) t u result ↔ result = fits r t u) ∧
      (fits r t u = true ↔ r.catalog.Fits (t.subst (bindings r)) (u.subst (bindings r))) ∧
      (t = u → fits r t u = true)) ∧
    (∀ m candidate, m.matchesSignature candidate = true → fitsSignature r m candidate = true) ∧
    ∀ {requests a before answers cs i} {s : SharedComposition},
      Compositions.run requests (.single a before) = some (answers, cs) →
      cs.inUse[i]? = some s →
      s.lookup = .forRepository r →
      ∀ m callee, Assembly.search { s.toAssembly with lookup := .direct } m = some callee →
        (∃ cs', cs.find i m = some (some callee, cs')) ∧
        ∀ arguments, ∃ cs', cs.invoke i m arguments =
          some ((s.proceed m (some callee) arguments cs.log).1, cs') := by
  -- what is bound has no variables, so one substitution is all there is
  have closed (name image) (bound : (bindings r).get? name = some image) :
      image.hasVariables = false := by
    rcases image_bindings bound with rfl | rfl
    · exact domain
    · exact id
  refine ⟨fun t u => ?_, fun m candidate => fitsSignature_of_matches, ?_⟩
  · have compares : Compares r.catalog (bindings r) t u (fits r t u) :=
      compares_fitsTo closed (height_lt_fittingDepth _ t u) u
    refine ⟨fun result => ⟨fun other => other.unique closed compares, ?_⟩,
      compares.iff_fits closed, ?_⟩
    · rintro rfl
      exact compares
    · rintro rfl
      exact fits_self r t
  · intro requests a before answers cs i s ran hs lookup m callee direct
    have sound := (Compositions.Sound.single a before).run ran
    have bySignature : s.lookup.BySignature := lookup ▸ .forRepository r
    have found := search_of_direct lookup direct
    constructor
    · obtain ⟨cs', answered, -⟩ := sound.find hs bySignature m
      exact ⟨cs', found ▸ answered⟩
    · intro arguments
      obtain ⟨cs', answered, -⟩ := sound.invoke hs bySignature m arguments
      rw [Assembly.call, found] at answered
      exact ⟨cs', answered⟩

namespace Sample

/-- Papers are stored under numbers. -/
def archive : RepositoryInterface where
  decl := { name := "Archive", kind := .interface, typeParameters := ["Document", "Key"] }
  domainType := .of "Paper"
  idType := .of "Long"
  catalog := EntityModel.Sample.papers

/-- Some documents are stored, of whatever type they are, or papers only. -/
def store (parameter : TypeRef) : Method where
  declaringType := "Archive"
  name := "store"
  parameterTypes := [.collection .list parameter]

/-- Whatever is stored, it is said who stored it. -/
def storing (serial : Nat) (parameter : TypeRef) (who : String) : Fragment :=
  .implemented (.ofHandlers serial who [(store parameter, fun _ _ => .ok (.text who))])

/-- Papers are stored by the second one, though the first one stores documents. -/
def archivists : Assembly where
  fragments := .of [storing 0 (.variable "Document") "Ada", storing 1 (.of "Paper") "Bob"]
  lookup := .forRepository archive

/-- Numbered papers fit numbered reports, since papers are reports. -/
lemma fits_numbered :
    archive.catalog.Fits (.map (.of "Long") (.of "Paper")) (.map (.of "Long") (.of "Report")) := by
  have reaches : archive.catalog.Reaches "Paper" "Report" :=
    Catalog.isSubtype_iff.mp
      (show archive.catalog.isSubtype (.of "Paper") (.of "Report") = true by cbv)
  refine .parts ⟨by decide, rfl, rfl⟩ fun p hp => ?_
  rcases List.mem_pair.mp hp with rfl | rfl
  · exact .same
  · exact .named ⟨rfl, rfl⟩ reaches

/-- A printable need not be a paper. -/
lemma not_fits_printable :
    ¬ archive.catalog.Fits (.optional (.of "Printable")) (.optional (.of "Paper")) := by
  intro fits
  obtain ⟨-, fit⟩ := fits.of_unnamed (by decide) (by decide)
  have reaches : archive.catalog.Reaches "Printable" "Paper" :=
    (fit _ List.mem_cons_self).of_named (by decide) ⟨rfl, rfl⟩
  have apart : archive.catalog.isSubtype (.of "Printable") (.of "Paper") = false := by cbv
  cases apart.symm.trans (Catalog.isSubtype_iff.mpr reaches)

end Sample

open Lookup.Sample in
/-- Numbered papers fit numbered reports, but printables need not be papers. Papers are stored where
it says so, not by the fragment before, where they fit, too. -/
theorem fits_related_archive :
    (archive.domainType.hasVariables = false ∧ archive.idType.hasVariables = false) ∧
    (fits archive (.map (.variable "Key") (.variable "T")) (.map (.of "Long") (.of "Report")) =
        true ∧
      ¬ fits archive (.optional (.of "Printable")) (.optional (.variable "Document")) = true ∧
      fits archive (.collection .list (.of "Paper")) (.collection .list (.variable "Document")) =
        true) ∧
    fitsSignature archive (store (.of "Paper")) (store (.of "Paper")) = true ∧
    ∃ cs cs' cs'',
      Compositions.run [.copy 0] (.single archivists []) = some ([.made], cs) ∧
        cs.find 1 (store (.of "Paper")) = some (some (store (.of "Paper")), cs') ∧
        cs.invoke 1 (store (.of "Paper")) [] = some (.ok (.text "Bob"), cs'') := by
  obtain ⟨related, direct_fits, served⟩ := fits_related archive rfl rfl
  obtain ⟨cs, s, ran, hs, lookup, direct, called⟩ : ∃ cs s,
      Compositions.run [.copy 0] (.single archivists []) = some ([.made], cs) ∧
        cs.inUse[1]? = some s ∧ s.lookup = .forRepository archive ∧
        Assembly.search { s.toAssembly with lookup := .direct } (store (.of "Paper")) =
          some (store (.of "Paper")) ∧
        (s.proceed (store (.of "Paper")) (some (store (.of "Paper"))) [] cs.log).1 =
          .ok (.text "Bob") := ⟨_, _, rfl, rfl, rfl, rfl, rfl⟩
  obtain ⟨⟨cs', found⟩, answered⟩ := served ran hs lookup _ _ direct
  obtain ⟨cs'', invoked⟩ := answered []
  refine ⟨⟨rfl, rfl⟩, ⟨?_, ?_, ?_⟩, direct_fits _ _ rfl, cs, cs', cs'', ran, found,
    called ▸ invoked⟩
  · exact (related _ _).2.1.mpr fits_numbered
  · exact fun fits => not_fits_printable ((related _ _).2.1.mp fits)
  · exact (related _ _).2.1.mpr .same

end Lookup

end EntityModel
