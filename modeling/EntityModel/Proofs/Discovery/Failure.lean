import EntityModel.Proofs.Discovery.Growth
import Mathlib.Data.List.Basic

/-!
# Failing discoveries

`Mapping.Breaks` is the way of a failing discovery up to the moment of the failure, when the
entities under way are still in the table. None of them is there in the end
(`Breaks.absent_of_underway`). A discovery that is tried again goes the same way, past the entities
that were completed in between, to the same failure, and changes no answer (`Visits.retry`).
-/

namespace EntityModel

namespace Discovery

/-- A type is under way if its entity is in the table, but not complete. -/
def IsUnderway (d : Discovery) (t : TypeRef) : Prop :=
  ∃ e, d.table.get? t = some (some e) ∧ e.isVerified = false

end Discovery

namespace Mapping

variable {m : Mapping}

/-! ### The moment of a failure -/

mutual

/-- Seeing to it that a type has an answer breaks off at a discovery. -/
inductive Breaks (m : Mapping) : TypeRef → Discovery → Error → Discovery → Prop where
  | undescribed {t d err} :
    d.table.contains t = false →
    m.outline t = .error err →
    Breaks m t d err d
  | inside {t d decl ps err d'} :
    d.table.contains t = false →
    m.outline t = .ok (decl, ps) →
    BreaksOff m (m.blank d t decl) ps (d.start (m.blank d t decl)) err d' →
    Breaks m t d err d'

/-- Adding properties to an entity breaks off at a discovery. -/
inductive BreaksOff (m : Mapping) :
    Entity → List EntityProperty → Discovery → Error → Discovery → Prop where
  | refused {e p ps d err} :
    e.extend p = .error err →
    BreaksOff m e (p :: ps) d err d
  | leaf {e p ps e' d err d'} :
    e.extend p = .ok e' →
    m.nestedType? e.type p = none →
    BreaksOff m e' ps d err d' →
    BreaksOff m e (p :: ps) d err d'
  | nested {e p ps e' t d d₁ err d'} :
    e.extend p = .ok e' →
    m.nestedType? e.type p = some t →
    Visits m t d (.ok ()) d₁ →
    BreaksOff m e' ps d₁ err d' →
    BreaksOff m e (p :: ps) d err d'
  | failed {e p ps e' t d err d'} :
    e.extend p = .ok e' →
    m.nestedType? e.type p = some t →
    Breaks m t d err d' →
    BreaksOff m e (p :: ps) d err d'

end

/-- Every failing discovery has its moment of failure. -/
lemma Visits.breaks {t d r d'} (vis : m.Visits t d r d') :
    ∀ err, r = .error err → ∃ d₁, m.Breaks t d err d₁ := by
  -- the failure is followed down to the type or property from which it comes
  induction vis using Visits.rec (motive_2 := fun e ps d r _ _ =>
    ∀ err, r = .error err → ∃ d₁, m.BreaksOff e ps d err d₁) with
  | known | completed =>
    intro err hr
    cases hr
  | undescribed hk ho =>
    rintro _ ⟨⟩
    exact ⟨_, .undescribed hk ho⟩
  | withdrawn hk ho _ ih =>
    rintro _ ⟨⟩
    obtain ⟨d₁, br⟩ := ih _ rfl
    exact ⟨d₁, .inside hk ho br⟩
  | nil err hr => cases hr
  | refused he err hr =>
    cases hr
    exact ⟨_, .refused he⟩
  -- a property without a nested type breaks nothing, so the failure comes from a later one
  | leaf he hn _ ih err hr =>
    obtain ⟨d₁, br⟩ := ih err hr
    exact ⟨d₁, .leaf he hn br⟩
  | nested he hn vis _ _ ih err hr =>
    obtain ⟨d₁, br⟩ := ih err hr
    exact ⟨d₁, .nested he hn vis br⟩
  -- the nested visit itself failed, and where it broke is where this one did
  | failed he hn _ ih err hr =>
    cases hr
    obtain ⟨d₁, br⟩ := ih _ rfl
    exact ⟨d₁, .failed he hn br⟩

/-- What is known at a moment of failure that a discovery leads to: all that was known before, and
the entities that the discovery leaves behind. -/
structure Broken (m : Mapping) (d d₁ d' : Discovery) (new : List Entity) : Prop where
  grows : d.Grows m new d'
  kept : ∀ t answer, d.table.get? t = some answer → d₁.table.get? t = some answer
  entered : ∀ e ∈ new, d₁.table.get? e.type = some (some e)

/-- What becomes of a discovery after its moment of failure. -/
lemma Breaks.broken {t d err d₁} (br : m.Breaks t d err d₁) :
    ∃ d' new, m.Visits t d (.error err) d' ∧ m.Broken d d₁ d' new := by
  induction br using Breaks.rec (motive_2 := fun e ps d err d₁ _ =>
    ∃ d' new, m.Populates e ps d (.error err) d' ∧ m.Broken d d₁ d' new) with
  | undescribed hk ho =>
    exact ⟨_, [], .undescribed hk ho, .refl, fun _ _ h => h, by simp⟩
  | @inside t d decl ps err d₁ hk ho _ ih =>
    obtain ⟨d', new, pop, b⟩ := ih
    have absent := EntityTable.contains_eq_false.mp hk
    refine ⟨_, new, .withdrawn hk ho pop, b.grows.withdraw absent, ?_, b.entered⟩
    intro u answer hu
    -- starting the type hides no earlier answer, since it had none
    have hne : u ≠ t := by
      rintro rfl
      rw [absent] at hu
      cases hu
    exact b.kept u answer ((Discovery.get?_start_of_ne hne).trans hu)
  | refused he =>
    exact ⟨_, [], .refused he, .refl, fun _ _ h => h, by simp⟩
  | leaf he hn _ ih =>
    obtain ⟨d', new, pop, b⟩ := ih
    exact ⟨d', new, .leaf he hn pop, b⟩
  | nested he hn vis _ ih =>
    obtain ⟨d', new, pop, b⟩ := ih
    obtain ⟨earlier, g⟩ := vis.grows
    refine ⟨d', _, .nested he hn vis pop, g.trans b.grows, ?_, ?_⟩
    · exact fun u answer hu => b.kept u answer (g.kept hu)
    · intro e hmem
      rcases List.mem_append.mp hmem with hmem | hmem
      · exact b.entered e hmem
      · exact b.kept _ _ (g.entered hmem)
  | failed he hn _ ih =>
    obtain ⟨d', new, vis, b⟩ := ih
    exact ⟨d', new, .failed he hn vis, b⟩

/-- A type that was under way when a discovery failed is absent in the end, unless it was under way
before. -/
lemma Breaks.absent_of_underway {t u d err d₁ d'} (br : m.Breaks t d err d₁)
    (vis : m.Visits t d (.error err) d') (before : d.table.get? u = none)
    (underway : d₁.IsUnderway u) : d'.table.get? u = none := by
  obtain ⟨d'', new, vis', b⟩ := br.broken
  obtain ⟨-, rfl⟩ := vis.unique vis'
  cases hu : d'.table.get? u with
  | none => rfl
  | some answer =>
    rcases (b.grows.get?_iff u answer).mp hu with h | ⟨e, he, rfl, rfl⟩
    · rw [before] at h
      cases h
    · -- a complete entity of the type would be in the table at the moment of the failure
      obtain ⟨e', found, unverified⟩ := underway
      rw [b.entered e he] at found
      cases found
      rw [build_isVerified (b.grows.built e he)] at unverified
      cases unverified

/-! ### Trying again -/

/-- Two discoveries with the same answers and the same completed entities. -/
structure SameAnswers (d d' : Discovery) : Prop where
  get?_eq : ∀ t, d'.table.get? t = d.table.get? t
  completed_eq : d'.completed = d.completed

/-- A failing discovery fails in the same way again from any discovery that knows the types that it
left behind, and changes no answer there. -/
theorem Visits.retry {t d r d'} (vis : m.Visits t d r d') :
    ∀ err d₂, r = .error err → (∀ u, d₂.table.contains u = d'.table.contains u) →
      ∃ d₂', m.Visits t d₂ (.error err) d₂' ∧ SameAnswers d₂ d₂' := by
  induction vis using Visits.rec (motive_2 := fun e ps _ r d' _ =>
    ∀ err d₂ n, r = .error err → (∀ u, d₂.table.contains u = d'.table.contains u) →
      ∃ d₂', m.Populates (e.withSerial n) ps d₂ (.error err) d₂' ∧ SameAnswers d₂ d₂') with
  | known | completed =>
    intro err d₂ hr
    cases hr
  | undescribed hk ho =>
    rintro err d₂ ⟨⟩ same
    exact ⟨d₂, .undescribed ((same _).trans hk) ho, fun _ => rfl, rfl⟩
  | @withdrawn t d decl ps err d' hk ho pop ih =>
    rintro _ d₂ ⟨⟩ same
    have absent : d₂.table.contains t = false := by
      rw [same]
      exact Discovery.contains_withdraw_self
    -- while the entity is under way again, the same types are known as at the end of its properties
    have started : ∀ u, (d₂.start (m.blank d₂ t decl)).table.contains u = d'.table.contains u := by
      intro u
      by_cases hu : u = t
      · obtain ⟨new, g⟩ := pop.grows
        subst hu
        have left := g.contains (Discovery.contains_start_self (d := d) (e := m.blank d u decl))
        have right := Discovery.contains_start_self (d := d₂) (e := m.blank d₂ u decl)
        exact right.trans left.symm
      · have h := same u
        rw [Discovery.contains_withdraw_of_ne hu] at h
        rwa [Discovery.contains_start_of_ne hu]
    obtain ⟨d₂', again, unchanged⟩ := ih err _ d₂.table.next rfl started
    refine ⟨_, .withdrawn absent ho again, ?_, unchanged.completed_eq⟩
    intro u
    by_cases hu : u = t
    · subst hu
      rw [Discovery.get?_withdraw_self, EntityTable.contains_eq_false.mp absent]
    · rw [Discovery.get?_withdraw_of_ne hu, unchanged.get?_eq, Discovery.get?_start_of_ne hu]
  | nil err d₂ n hr => cases hr
  | refused he err d₂ n hr same =>
    cases hr
    exact ⟨d₂, .refused (Entity.extend_withSerial_error n he), fun _ => rfl, rfl⟩
  | leaf he hn _ ih err d₂ n hr same =>
    obtain ⟨d₂', again, unchanged⟩ := ih err d₂ n hr same
    exact ⟨d₂', .leaf (Entity.extend_withSerial_ok n he) hn again, unchanged⟩
  | nested he hn vis pop _ ih err d₂ n hr same =>
    -- the type that was completed in between is known now
    obtain ⟨new, g⟩ := pop.grows
    have known := (same _).trans (g.contains (EntityTable.contains_eq_true.mpr vis.answered))
    obtain ⟨d₂', again, unchanged⟩ := ih err d₂ n hr same
    exact ⟨d₂', .nested (Entity.extend_withSerial_ok n he) hn (.known known) again, unchanged⟩
  | failed he hn _ ih err d₂ n hr same =>
    cases hr
    obtain ⟨d₂', again, unchanged⟩ := ih _ d₂ rfl same
    exact ⟨d₂', .failed (Entity.extend_withSerial_ok n he) hn again, unchanged⟩

end Mapping

/-! ### A failure inside a cycle -/

namespace Sample

def author : TypeRef := .of "Author"

def book : TypeRef := .of "Book"

/-- An author has two identifiers, the second of which is refused. -/
def authorDecl : TypeDecl where
  name := "Author"
  fields :=
    [{ name := "book", type := book },
     { name := "id", type := .of "String", annotations := [.id] },
     { name := "key", type := .of "String", annotations := [.id] }]

def bookDecl : TypeDecl where
  name := "Book"
  fields := [{ name := "author", type := author }]

/-- Authors and books that lead to each other. -/
def library : Mapping := { catalog := ⟨[authorDecl, bookDecl]⟩ }

def property (decl : TypeDecl) (f : FieldDecl) : EntityProperty :=
  .make (.field f none) (.of decl.name) decl .default .annotated

def twoIdentifiers : Error := .duplicateId "Author" "id" "key"

/-- Authors have the properties that they are declared with. -/
lemma outline_author :
    library.outline author = .ok (authorDecl, authorDecl.fields.map (property authorDecl)) := by
  cbv

/-- Books have the properties that they are declared with. -/
lemma outline_book :
    library.outline book = .ok (bookDecl, bookDecl.fields.map (property bookDecl)) := by
  cbv

variable {d : Discovery}

/-- While an author is under way, the entity of its book is completed. -/
lemma book_completed (absent : d.table.contains book = false)
    (known : d.table.contains author = true) :
    ∃ e d', library.Visits book d (.ok ()) d' ∧ d'.table.get? book = some (some e) := by
  have pop : library.Populates (library.blank d book bookDecl)
      (bookDecl.fields.map (property bookDecl)) (d.start (library.blank d book bookDecl)) _ _ :=
    .nested rfl rfl (.known (Discovery.contains_start known)) .nil
  exact ⟨_, _, .completed absent outline_book pop, Discovery.get?_complete_self⟩

/-- Beside its book, an author is refused for its second identifier. -/
lemma author_refused (absent : d.table.contains author = false) {d₁}
    (vis : library.Visits book (d.start (library.blank d author authorDecl)) (.ok ()) d₁) :
    library.Visits author d (.error twoIdentifiers) (d₁.withdraw author) := by
  refine .withdrawn absent outline_author ?_
  refine .nested rfl rfl vis ?_
  refine .leaf rfl rfl ?_
  exact .refused rfl

/-- An author that is refused leaves its book behind. -/
lemma author_withdrawn (author_absent : d.table.contains author = false)
    (book_absent : d.table.contains book = false) :
    ∃ e d', library.Visits author d (.error twoIdentifiers) d' ∧
      d'.table.get? book = some (some e) := by
  have other : book ≠ author := by decide
  have absent : (d.start (library.blank d author authorDecl)).table.contains book = false :=
    (Discovery.contains_start_of_ne other).trans book_absent
  obtain ⟨e, d₁, vis, found⟩ := book_completed absent Discovery.contains_start_self
  exact ⟨e, _, author_refused author_absent vis, (Discovery.get?_withdraw_of_ne other).trans found⟩

/-- A book that is visited first fails with its author. -/
lemma book_withdrawn (author_absent : d.table.contains author = false)
    (book_absent : d.table.contains book = false) :
    ∃ d', library.Visits book d (.error twoIdentifiers) d' := by
  have other : author ≠ book := by decide
  have absent : (d.start (library.blank d book bookDecl)).table.contains author = false :=
    (Discovery.contains_start_of_ne other).trans author_absent
  -- the author finds its book under way
  have waiting := Discovery.contains_start
    (e := library.blank (d.start (library.blank d book bookDecl)) author authorDecl)
    (Discovery.contains_start_self (d := d) (e := library.blank d book bookDecl))
  exact ⟨_, .withdrawn book_absent outline_book
    (.failed rfl rfl (author_refused absent (.known waiting)))⟩

end Sample

end EntityModel
