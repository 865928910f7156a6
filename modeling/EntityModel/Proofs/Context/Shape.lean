import EntityModel.Proofs.Context.History

/-!
# The shape of an entity

What the entity of a type looks like is a matter of the mapping alone. Whatever was done on two
contexts, in whichever order their types were discovered and whichever discoveries failed in
between, the entities that they have for a type are the same except for their serials
(`Context.shapes_agree`).
-/

namespace EntityModel

/-- Two entities have the same properties in the same order, each with its name, its type, its
annotations and the field and accessor behind it; the same of them are persistent, identifier and
version; and they have the same associations in the same order. -/
structure Entity.SameShape (e e' : Entity) : Prop where
  properties : e'.properties = e.properties
  persistent : e'.persistent = e.persistent
  id : e'.id = e.id
  version : e'.version = e.version
  associations : e'.associations = e.associations

/-- Entities that differ in their numbers only are of one shape. -/
lemma Entity.SameShape.of_withSerial {e : Entity} (n : Nat) : e.SameShape (e.withSerial n) where
  properties := rfl
  persistent := rfl
  id := rfl
  version := rfl
  associations := rfl

namespace Context

variable {m : Mapping} {t : TypeRef}

/-- Two sound contexts have the same entity for a type, up to its serial. -/
lemma Sound.entity_eq {c₁ c₂ : Context} {e₁ e₂ : Entity} (sound₁ : c₁.Sound m)
    (sound₂ : c₂.Sound m) (found₁ : c₁.table.get? t = some (some e₁))
    (found₂ : c₂.table.get? t = some (some e₂)) : e₂ = e₁.withSerial e₂.serial := by
  have built₁ := sound₁.built t e₁ found₁
  have built₂ := sound₂.built t e₂ found₂
  rw [Mapping.build_withSerial, built₁] at built₂
  exact (Except.ok.inj built₂).symm

/-- The entities of a type that is managed in two contexts over one mapping have the same shape,
whatever was done on either context. They differ in their serials at most. -/
theorem shapes_agree {ops₁ ops₂ : List Operation} {c₁ c₂ : Context} {e₁ e₂ : Entity}
    (before₁ : after ops₁ (ofMapping m) = some c₁) (before₂ : after ops₂ (ofMapping m) = some c₂)
    (managed₁ : (t, e₁) ∈ c₁.table.managed) (managed₂ : (t, e₂) ∈ c₂.table.managed) :
    e₁.SameShape e₂ ∧ e₂ = e₁.withSerial e₂.serial := by
  have sound₁ : c₁.Sound m := .of_after before₁
  have sound₂ : c₂.Sound m := .of_after before₂
  have same := sound₁.entity_eq sound₂ (EntityTable.mem_managed_iff.mp managed₁)
    (EntityTable.mem_managed_iff.mp managed₂)
  refine ⟨?_, same⟩
  rw [same]
  exact .of_withSerial _

end Context

/-! ### A book that is made at two different times -/

namespace Sample

/-- The second identifier of an author is refused in every discovery. -/
lemma author_faulty : library.IsFaulty author := by
  have refused : (authorDecl.fields.map (property authorDecl)).foldlM Entity.extend
      (library.blank ⟨{}, []⟩ author authorDecl) = .error twoIdentifiers := by cbv
  exact .of_fold outline_author refused

/-- A book that failed at first is known after its author failed as well. -/
lemma author_looked_up_second : ∃ c e,
    Context.after [.lookup (.entity book), .lookup (.entity author)] (.ofMapping library) =
      some c ∧ c.table.get? book = some (some e) := by
  obtain ⟨c₁, fails⟩ := Context.book_fails_at_first
  have first : (EntityLookup.entity book).run.runOn (.ofMapping library) = some (.error _, c₁) :=
    fails
  have after_first : Context.after [.lookup (.entity book)] (.ofMapping library) = some c₁ :=
    Context.after_lookup first
  have sound : c₁.Sound library := .of_after after_first
  have author_absent : c₁.table.get? author = none :=
    sound.unanswered_of_faulty (by cbv) author_faulty
  have book_absent : c₁.table.get? book = none := (EntityLookup.run_iff.mp first).absent
  obtain ⟨e, d, second, found⟩ := author_fails sound.mapping_eq author_absent book_absent
  refine ⟨c₁.afterDiscovery d, e, ?_, found⟩
  rw [Context.after_lookup first, Context.after_lookup second]
  rfl

end Sample

namespace Context

/-- The book of an author that failed at once, and the book of an author that failed after its book
had failed. -/
theorem shapes_agree_book : ∃ c₁ c₂ e₁ e₂,
    after [.lookup (.entity Sample.author)] (ofMapping Sample.library) = some c₁ ∧
      after [.lookup (.entity Sample.book), .lookup (.entity Sample.author)]
        (ofMapping Sample.library) = some c₂ ∧
      (Sample.book, e₁) ∈ c₁.table.managed ∧ (Sample.book, e₂) ∈ c₂.table.managed ∧
      e₁.SameShape e₂ ∧ e₂ = e₁.withSerial e₂.serial := by
  obtain ⟨c₁, e₁, -, before₁, found₁⟩ := Sample.author_looked_up
  obtain ⟨c₂, e₂, before₂, found₂⟩ := Sample.author_looked_up_second
  have managed₁ := EntityTable.mem_managed_iff.mpr found₁
  have managed₂ := EntityTable.mem_managed_iff.mpr found₂
  exact ⟨c₁, c₂, e₁, e₂, before₁, before₂, managed₁, managed₂,
    shapes_agree before₁ before₂ managed₁ managed₂⟩

end Context

end EntityModel
