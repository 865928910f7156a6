import EntityModel.Proofs.Catalog.PropertyTypes
import EntityModel.Proofs.Context.Following
import EntityModel.Proofs.Text.Pieces

/-!
# Paths of types and paths of entities

A path that a context answers follows the names of its source from entity to entity, also when it is
remembered (`Context.Traces`). In a catalog without ambiguous properties the entities have the
properties under the types that the declarations give them, so a path of properties and the path of
entities that is resolved for it agree at every place (`Context.pathOf_agrees`).
-/

namespace EntityModel

open ContextM

/-- Words that are joined by dots are the names in the joined text. -/
lemma EntityPath.namesIn_dotted {names : List String} (words : ∀ n ∈ names, Text.IsWord n)
    (names_ne : names ≠ []) : namesIn (Text.trim (Path.dotted names)) = names := by
  rw [Text.trim_dotted words, namesIn, if_neg (Text.dotted_ne_empty words names_ne),
    Text.pieces_dotted words names_ne]

/-! ### Agreement -/

/-- No chain of superclasses is ambiguous, and the names of all properties are words. -/
structure Catalog.IsClear (c : Catalog) : Prop where
  unambiguous : ∀ t, Catalog.IsUnambiguous (Catalog.chain c.declarations t)
  words : ∀ d ∈ c.declarations, ∀ n ∈ d.propertyNames, Text.IsWord n

/-- A property of an entity stands for a segment of a path: it has the name and type of the segment
and belongs to the same type. -/
structure EntityProperty.Represents (p : EntityProperty) (s : Segment) : Prop where
  name_eq : p.name = s.name
  type_eq : p.type = s.type
  owner_eq : p.owner = s.owner

namespace Context

variable {m : Mapping} {c c' : Context} {t owner last : TypeRef} {e : Entity} {p : EntityProperty}
  {ps : List EntityProperty} {s : Segment} {segments : List Segment} {name : String}

/-- A property of an entity that a context knows is one of the properties of its type. -/
lemma Sound.mem_outline (sound : c.Sound m) (known : c.table.get? t = some (some e))
    (found : e.property? name = some p) :
    p.name = name ∧ ∃ decl ps, m.outline t = .ok (decl, ps) ∧ p ∈ ps := by
  have built := sound.built t e known
  have mem := (Mapping.build_isListed built).added p (List.mem_of_find?_eq_some found)
  exact ⟨by simpa using List.find?_some found, Mapping.mem_outline_of_build built mem⟩

/-- The property of an entity under the name of a segment of its type stands for that segment. -/
lemma Sound.represents (sound : c.Sound m) (clear : m.catalog.IsClear)
    (known : c.table.get? t = some (some e)) (found : e.property? s.name = some p)
    (owner_eq : s.owner = t) (declared : m.catalog.propertyType? t s.name = some s.type) :
    p.Represents s := by
  obtain ⟨name_eq, decl, ps, outlined, hp⟩ := sound.mem_outline known found
  have typed := Mapping.propertyType?_of_outline (clear.unambiguous t)
    (Catalog.isNamed_of_propertyType? declared) outlined hp
  rw [name_eq, declared] at typed
  exact ⟨name_eq, (Option.some.inj typed).symm,
    (Mapping.owner_of_outline outlined hp).trans owner_eq.symm⟩

/-- Entities and declarations lead the same way from a type if the names are the same. -/
lemma Traces.represents (sound : c.Sound m) (clear : m.catalog.IsClear)
    (leads : Leads m.catalog owner segments last)
    (traces : c.Traces owner (segments.map (·.name)) ps) :
    List.Forall₂ EntityProperty.Represents ps segments := by
  induction leads generalizing ps with
  | nil =>
    cases traces
    exact .nil
  | cons owner_eq declared more ih =>
    cases traces with
    | cons known found traces =>
      have first := sound.represents clear known found owner_eq declared
      have behind : EntityProperty.actual _ = Segment.actual _ :=
        congrArg TypeRef.actual first.type_eq
      exact .cons first (ih (behind ▸ traces))

/-- A context that answers the path for a node of a resolved path answers one of the same length,
and at every place the property of an entity has the name and the type of the segment and belongs to
the same type. -/
theorem pathOf_agrees {start : Catalog} {requests : List PathResolver.Request}
    {r r' : PathResolver} {source : String} {found : PathInstance} {q : PropertyPath}
    {ops : List Operation} {path : EntityPath} (clear : m.catalog.IsClear)
    (requested : PathResolver.after requests (.ofCatalog start) = r)
    (catalog_eq : r.catalog = m.catalog) (parsed : r.resolve source owner = (.ok found, r'))
    (node : found.path.Reaches q) (before : after ops (ofMapping m) = some c)
    (answered : (pathOf q).runOn c = some (.ok path, c')) :
    path.length = q.length ∧
      List.Forall₂ EntityProperty.Represents path.properties q.segments := by
  have faithful : r.Faithful := by
    rw [← requested]
    exact PathResolver.Faithful.after (.of_nil rfl) requests
  -- the path was remembered or made just now, and its segments lead from the type in either case
  obtain ⟨last, leads⟩ := faithful.leads parsed node
  rw [catalog_eq] at leads
  have words : ∀ name ∈ q.segments.map (·.name), Text.IsWord name := by
    refine List.forall_mem_map.mpr fun s hs => ?_
    obtain ⟨d, hd, hn⟩ := Catalog.mem_propertyNames (leads.declared s hs)
    exact clear.words d hd s.name hn
  obtain ⟨evolves, post⟩ := ensures_traces_path (.of_after before) _ _ answered
  have traces := post path rfl
  have dotPath_eq : q.dotPath = Path.dotted (q.segments.map (·.name)) := rfl
  rw [dotPath_eq, EntityPath.namesIn_dotted words (List.cons_ne_nil _ _)] at traces
  -- the path was traced to the context after the lookup, so that is where its entities are known
  have sound : c'.Sound m := (Sound.of_after before).evolve evolves
  have represent := traces.represents sound clear leads
  exact ⟨represent.length_eq, represent⟩

end Context

/-! ### Letters -/

namespace Sample

def letter : TypeRef := .of "Letter"

def mailbox : TypeRef := .of "Mailbox"

def pageDecl : TypeDecl where
  name := "Page"
  typeParameters := ["T"]
  fields := [{ name := "items", type := .collection .list (.variable "T") }]

/-- A page of letters with an owner. -/
def mailboxDecl : TypeDecl where
  name := "Mailbox"
  superclass := some (.named "Page" [letter])
  fields := [{ name := "owner", type := .of "String" }]

def letterDecl : TypeDecl where
  name := "Letter"
  fields := [{ name := "subject", type := .of "String" }]
  accessors := [{ name := "subject", type := .of "String" }]

/-- Letters in mailboxes. -/
def mailing : Mapping := { catalog := ⟨[pageDecl, mailboxDecl, letterDecl]⟩ }

/-- A mailing has four chains: none, that of a page, that of a mailbox above a page, and that of a
letter. -/
lemma chain_mailing (t : TypeRef) : ∃ b,
    Catalog.chain mailing.catalog.declarations t ∈
      [[], [⟨pageDecl, b⟩], [⟨mailboxDecl, b⟩, ⟨pageDecl, [("T", letter)]⟩],
        [⟨letterDecl, b⟩]] := by
  -- the walk takes the mailbox out of the declarations before it goes on to its page
  have inherited : Catalog.chain (Catalog.without mailing.catalog.declarations "Mailbox")
      (.named "Page" [letter]) = [⟨pageDecl, [("T", letter)]⟩] := by cbv
  rw [Catalog.chain]
  split
  · exact ⟨[], List.mem_cons_self⟩
  · rename_i d found
    have name_eq : d.name = t.name := by simpa using List.find?_some found
    have declared : d ∈ [pageDecl, mailboxDecl, letterDecl] := List.mem_of_find?_eq_some found
    refine ⟨d.bindings t, ?_⟩
    simp only [List.mem_cons, List.not_mem_nil, or_false] at declared
    rcases declared with rfl | rfl | rfl
    · simp [pageDecl]
    · rw [← name_eq]
      show _ :: Catalog.chain (Catalog.without mailing.catalog.declarations "Mailbox")
        (.named "Page" [letter]) ∈ _
      rw [inherited]
      simp
    · simp [letterDecl]

/-- A mailing is clear: no chain is ambiguous about a property, and the properties have words for
names. -/
lemma mailing_clear : mailing.catalog.IsClear where
  unambiguous t := by
    obtain ⟨b, shape⟩ := chain_mailing t
    simp only [List.mem_cons, List.not_mem_nil, or_false] at shape
    rcases shape with eq | eq | eq | eq <;> rw [eq]
    · exact ⟨.nil, List.forall_mem_nil _⟩
    · exact ⟨List.pairwise_singleton _ _, fun _ _ => List.forall_mem_nil _⟩
    · constructor
      · simp [Level.fields, mailboxDecl, pageDecl]
      · simp [Level.fields, Level.accessors, mailboxDecl, pageDecl]
    · constructor
      · simp [Level.fields, letterDecl]
      · simp [Level.fields, Level.accessors, letterDecl]
  words := by
    decide +kernel

def ownerProperty : EntityProperty := property mailboxDecl ⟨"owner", .of "String", {}, []⟩

def itemsProperty : EntityProperty :=
  property mailboxDecl ⟨"items", .collection .list letter, {}, []⟩

def subjectProperty : EntityProperty :=
  .make (.field ⟨"subject", .of "String", {}, []⟩ letterDecl.accessors.head?) letter letterDecl
    .default .annotated

/-- A mailbox is a page of letters. -/
lemma chain_mailbox : Catalog.chain mailing.catalog.declarations mailbox =
    [⟨mailboxDecl, []⟩, ⟨pageDecl, [("T", letter)]⟩] := by
  cbv

/-- A mailbox has an owner and the items of its page. -/
lemma outline_mailbox :
    mailing.outline mailbox = .ok (mailboxDecl, [ownerProperty, itemsProperty]) := by
  have hierarchy_eq : mailing.catalog.hierarchy mailbox =
      .ok [⟨mailboxDecl, []⟩, ⟨pageDecl, [("T", letter)]⟩] := by
    rw [Catalog.hierarchy, chain_mailbox]
  have backings_eq : Mapping.backings mailing.catalog mailbox =
      .ok [ownerProperty.backing, itemsProperty.backing] := by
    rw [Mapping.backings, Catalog.fieldsOf, Catalog.accessorsOf, hierarchy_eq]
    rfl
  have properties_eq : mailing.propertiesOf mailbox mailboxDecl =
      .ok [ownerProperty, itemsProperty] := by
    rw [Mapping.propertiesOf, backings_eq]
    rfl
  exact bind_eq_ok.mpr ⟨mailboxDecl, rfl, bind_eq_ok.mpr ⟨_, properties_eq, rfl⟩⟩

/-- A letter has a subject. -/
lemma outline_letter : mailing.outline letter = .ok (letterDecl, [subjectProperty]) := by
  cbv

/-- A letter is discovered on its own, since it leads nowhere. -/
lemma letter_visited {d : Discovery} (absent : d.table.contains letter = false) :
    ∃ e d', mailing.Visits letter d (.ok ()) d' ∧ d'.table.get? letter = some (some e) := by
  have pop : mailing.Populates (mailing.blank d letter letterDecl) [subjectProperty]
      (d.start (mailing.blank d letter letterDecl)) _ _ := .leaf rfl rfl .nil
  exact ⟨_, _, .completed absent outline_letter pop, Discovery.get?_complete_self⟩

/-- The entity of letters is made together with that of mailboxes. -/
lemma mailbox_visited {d : Discovery} (mailbox_absent : d.table.contains mailbox = false)
    (letter_absent : d.table.contains letter = false) :
    ∃ e l d', mailing.Visits mailbox d (.ok ()) d' ∧ d'.table.get? mailbox = some (some e) ∧
      d'.table.get? letter = some (some l) := by
  have apart : letter ≠ mailbox := by decide
  have still_absent :
      (d.start (mailing.blank d mailbox mailboxDecl)).table.contains letter = false :=
    (Discovery.contains_start_of_ne apart).trans letter_absent
  obtain ⟨l, d₁, vis, found⟩ := letter_visited still_absent
  obtain ⟨e, pop⟩ : ∃ e, mailing.Populates (mailing.blank d mailbox mailboxDecl)
      [ownerProperty, itemsProperty] (d.start (mailing.blank d mailbox mailboxDecl)) (.ok e) d₁ :=
    ⟨_, .leaf rfl rfl (.nested rfl rfl vis .nil)⟩
  have type_eq : (mailing.finish e).type = mailbox := pop.finished_type rfl
  refine ⟨_, l, _, .completed mailbox_absent outline_mailbox pop,
    type_eq ▸ Discovery.get?_complete_self, ?_⟩
  exact (Discovery.get?_complete_of_ne (type_eq ▸ apart)).trans found

/-- The entity of a mailbox finds the items of its page. -/
lemma items_of_built {n : Nat} {e : Entity} (h : mailing.build n mailbox = .ok e) :
    e.property? "items" = some itemsProperty := by
  rw [Mapping.build_of_outline outline_mailbox] at h
  cases h
  rfl

/-- The entity of a letter finds its subject. -/
lemma subject_of_built {n : Nat} {e : Entity} (h : mailing.build n letter = .ok e) :
    e.property? "subject" = some subjectProperty := by
  rw [Mapping.build_of_outline outline_letter] at h
  cases h
  rfl

/-- The subjects of the letters in a mailbox. -/
def subjects : PropertyPath :=
  ⟨⟨mailbox, "items", .collection .list letter⟩, [⟨letter, "subject", .of "String"⟩]⟩

/-- The subjects are parsed as a path of two properties. -/
lemma subjects_parsed : Path.resolve mailing.catalog "items.subject" mailbox = .ok subjects := by
  have items_type : mailing.catalog.propertyType? mailbox "items" =
      some (.collection .list letter) := by
    rw [Catalog.propertyType?_eq rfl, chain_mailbox]
    rfl
  have subject_type : mailing.catalog.propertyType? letter "subject" = some (.of "String") := by cbv
  have leads : Leads mailing.catalog mailbox subjects.segments _ :=
    .cons rfl items_type (.cons rfl subject_type .nil)
  have plain : ∀ s ∈ subjects.segments, Path.IsPlain s.name := by
    have items : Path.IsPlain "items" := ⟨by decide, by decide +kernel, by decide +kernel⟩
    have subject : Path.IsPlain "subject" := ⟨by decide, by decide +kernel, by decide +kernel⟩
    exact List.forall_mem_cons.mpr ⟨items, List.forall_mem_singleton.mpr subject⟩
  have source : subjects.dotPath = "items.subject" := rfl
  rw [← source]
  exact Path.resolve_of_leads leads plain (by decide)

/-- The subjects are resolved from a mailbox and its letters, without a change of the context. -/
lemma subjects_resolved {c : Context} {e l : Entity}
    (mailbox_known : c.table.get? mailbox = some (some e))
    (letter_known : c.table.get? letter = some (some l))
    (items : e.property? "items" = some itemsProperty)
    (subject : l.property? "subject" = some subjectProperty) :
    (resolve "items.subject" mailbox).runOn c =
      some (.ok ⟨[itemsProperty, subjectProperty]⟩, c) := by
  have names : (Text.pieces '.' "items.subject".toList).map String.ofList =
      ["items", "subject"] := rfl
  have first : propertyAt e {} "items" = .ok itemsProperty := Context.propertyAt_ok.mpr items
  have last : propertyAt l ⟨[itemsProperty]⟩ "subject" = .ok subjectProperty :=
    Context.propertyAt_ok.mpr subject
  unfold resolve
  rw [if_neg (by decide), names]
  refine runOn_bind_ok.mpr ⟨e, c, requiredEntity_of_get? mailbox_known, ?_⟩
  unfold follow
  simp only [runOn_bind_ok, runOn_lift_ok]
  refine ⟨_, c, ⟨first, rfl⟩, letter, c, ⟨rfl, rfl⟩, l, c, requiredEntity_of_get? letter_known,
    ⟨[itemsProperty]⟩, c, ⟨rfl, rfl⟩, ?_⟩
  unfold follow
  simp only [runOn_bind_ok, runOn_lift_ok]
  exact ⟨_, c, ⟨last, rfl⟩, rfl, rfl⟩

/-- The path of the subjects is requested by their dotted text. -/
lemma subjects_request : pathOf subjects = ContextM.path "items.subject" mailbox := rfl

/-- A context that was asked for mailboxes answers the path to the subjects. -/
lemma subjects_answered : ∃ c c', Context.after [.lookup (.entity mailbox)] (.ofMapping mailing) =
      some c ∧
    (pathOf subjects).runOn c = some (.ok ⟨[itemsProperty, subjectProperty]⟩, c') := by
  have nothing (t : TypeRef) : (Context.ofMapping mailing).table.get? t = none :=
    EntityTable.get?_empty
  obtain ⟨e, l, d, vis, mailbox_found, letter_found⟩ :=
    mailbox_visited (d := (Context.ofMapping mailing).discovery)
      (EntityTable.contains_eq_false.mpr (nothing _))
      (EntityTable.contains_eq_false.mpr (nothing _))
  obtain ⟨c, before, table_eq, fresh⟩ := Context.exists_looked_up rfl vis mailbox_found
  rw [← table_eq] at mailbox_found letter_found
  have built := (Context.Sound.of_after before).built
  have absent : c.path? mailbox (Text.trim "items.subject") = none := by
    rw [Context.path?, fresh]
    rfl
  have resolved := subjects_resolved mailbox_found letter_found
    (items_of_built (built mailbox e mailbox_found))
    (subject_of_built (built letter l letter_found))
  -- the source has no blanks at its ends
  have trimmed : Text.trim "items.subject" = "items.subject" := rfl
  rw [← trimmed] at resolved
  rw [subjects_request]
  exact ⟨c, _, before, path_of_resolve absent resolved⟩

end Sample

/-- The subjects of letters, which mailboxes have from a page of any type of items. -/
theorem Context.pathOf_agrees_subjects : ∃ c c' path,
    Context.after [.lookup (.entity Sample.mailbox)] (.ofMapping Sample.mailing) = some c ∧
      (pathOf Sample.subjects).runOn c = some (.ok path, c') ∧ path.length = 2 ∧
      List.Forall₂ EntityProperty.Represents path.properties Sample.subjects.segments := by
  have start : PathResolver.after [] (.ofCatalog Sample.mailing.catalog) =
      .ofCatalog Sample.mailing.catalog := rfl
  have faithful : (PathResolver.ofCatalog Sample.mailing.catalog).Faithful := .of_nil rfl
  obtain ⟨found, r', parsed, path_eq⟩ := faithful.resolve_ok Sample.subjects_parsed
  obtain ⟨c, c', before, answered⟩ := Sample.subjects_answered
  obtain ⟨length_eq, represent⟩ := Context.pathOf_agrees Sample.mailing_clear start rfl parsed
    (path_eq ▸ .refl) before answered
  exact ⟨c, c', _, before, answered, length_eq, represent⟩

end EntityModel
