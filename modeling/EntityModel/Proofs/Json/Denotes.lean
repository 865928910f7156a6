import EntityModel.Declaration.Decode
import EntityModel.Proofs.Dictionary
import Mathlib.Data.List.Nodup

/-!
# Trees that denote documents

Many trees denote one document: the members of an object may come in any order, and a string may be
escaped in several ways. A reader of trees reads back what was written if it gives the same for all
trees that denote the document and repeat no names (`Reads`). Readers of arrays and of the members
of objects are put together from readers of what is inside.
-/

namespace EntityModel.JsonNode

/-- No object in the tree has two members of one name. -/
inductive Unrepeated : JsonNode → Prop where
  | null :
    Unrepeated null
  | bool (b : Bool) :
    Unrepeated (bool b)
  | numeral (x : Numeral) :
    Unrepeated (numeral x)
  | string (content : Option String) :
    Unrepeated (string content)
  | array {items : List JsonNode} :
    (∀ n ∈ items, Unrepeated n) →
    Unrepeated (array items)
  | object {members : List (Option String × JsonNode)} :
    (members.map (·.1)).Nodup →
    (∀ m ∈ members, Unrepeated m.2) →
    Unrepeated (object members)

/-- The tree denotes a document that fits into the room, and repeats no names. -/
structure Denotes (room : Nat) (n : JsonNode) (j : Json) : Prop where
  unrepeated : n.Unrepeated
  denoted : n.toJson? room = some j

variable {α : Type} {room : Nat} {n : JsonNode} {ns : List JsonNode} {j : Json} {js : List Json}

/-! ### What a tree of a document looks like -/

/-- Items are documents if each of them is one. -/
lemma items?_eq_some_iff :
    items? room ns = some js ↔ List.Forall₂ (fun n j => n.toJson? room = some j) ns js := by
  induction ns generalizing js with
  | nil => simp [items?, eq_comm]
  | cons n ns ih =>
    simp [items?, Option.bind_eq_some_iff, List.forall₂_cons_left_iff, ih, @eq_comm _ js]

/-- Members are documents if each of them has a name and is one. -/
lemma members?_eq_some_iff {ms : List (Option String × JsonNode)} {es : List (String × Json)} :
    members? room ms = some es ↔
      List.Forall₂ (fun m e => m.1 = some e.1 ∧ m.2.toJson? room = some e.2) ms es := by
  induction ms generalizing es with
  | nil => simp [members?, eq_comm]
  | cons m ms ih =>
    simp [members?, Option.bind_eq_some_iff, List.forall₂_cons_left_iff, ih, @eq_comm _ es,
      and_assoc]

namespace Denotes

/-- Null is written in one way. -/
lemma eq_null (h : n.Denotes room .null) : n = .null := by
  obtain ⟨-, denoted⟩ := h
  cases n with
  | null => rfl
  | bool | numeral | string => simp [toJson?] at denoted
  | array | object => cases room <;> simp [toJson?] at denoted

/-- A truth value is written in one way. -/
lemma eq_bool {b : Bool} (h : n.Denotes room (.bool b)) : n = .bool b := by
  obtain ⟨-, denoted⟩ := h
  cases n with
  | bool => simpa [toJson?] using denoted
  | null | numeral | string => simp [toJson?] at denoted
  | array | object => cases room <;> simp [toJson?] at denoted

/-- A string is written in one way. -/
lemma eq_string {s : String} (h : n.Denotes room (.string s)) : n = .string (some s) := by
  obtain ⟨-, denoted⟩ := h
  cases n with
  | string => simpa [toJson?] using denoted
  | null | bool | numeral => simp [toJson?] at denoted
  | array | object => cases room <;> simp [toJson?] at denoted

/-- An array is written as the trees that denote its items, with room for one level less. -/
theorem items (h : n.Denotes room (.array js)) :
    ∃ ns, n = .array ns ∧ List.Forall₂ (Denotes (room - 1)) ns js := by
  obtain ⟨unrepeated, denoted⟩ := h
  cases unrepeated with
  | null | bool | numeral | string => simp [toJson?] at denoted
  | object => cases room <;> simp [toJson?] at denoted
  | @array ns unrepeated =>
    cases room with
    | zero => simp [toJson?] at denoted
    | succ room =>
      have each : items? room ns = some js := by simpa [toJson?] using denoted
      refine ⟨ns, rfl, ?_⟩
      apply ((List.forall₂_and_left _ _).mpr ⟨unrepeated, items?_eq_some_iff.mp each⟩).imp
      exact fun _ _ h => ⟨h.1, h.2⟩

end Denotes

/-! ### Members -/

/-- The members stand for those of an object, whatever their order: under each name there is one
that denotes the value of the name, or none where the object has none. -/
def Holds (room : Nat) (members : List (String × JsonNode)) (ms : Dictionary Json) : Prop :=
  ∀ name, ∃ found, unique? members name = some found ∧
    Option.Rel (Denotes room) found (Dictionary.get? ms name)

/-- Where names are distinct a member is unique under its name. -/
lemma unique?_eq_get? {members : Dictionary JsonNode} (distinct : members.names.Nodup)
    (name : String) : unique? members name = some (members.get? name) := by
  induction members with
  | nil => rfl
  | cons m rest ih =>
    obtain ⟨k, n⟩ := m
    obtain ⟨new, distinct⟩ := List.nodup_cons.mp distinct
    rw [Dictionary.get?_cons]
    split
    case isTrue eq =>
      obtain rfl := eq
      have alone : rest.filter (fun m => m.1 == k) = [] := by
        refine List.filter_eq_nil_iff.mpr fun m hm => ?_
        have ne : m.1 ≠ k := fun eq => new (List.mem_map.mpr ⟨m, hm, eq⟩)
        simpa using ne
      simp [unique?, alone]
    case isFalse ne =>
      rw [← ih distinct, unique?, List.filter_cons_of_neg (by simpa using ne), ← unique?]

/-- Members that correspond to entries have the names of these. -/
lemma exists_named_of_forall₂ {P : JsonNode → Json → Prop}
    {written : List (Option String × JsonNode)} {entries : List (String × Json)}
    (h : List.Forall₂ (fun m e => m.1 = some e.1 ∧ P m.2 e.2) written entries) :
    ∃ members : List (String × JsonNode), written = members.map (fun m => (some m.1, m.2)) ∧
      List.Forall₂ (fun m e => m.1 = e.1 ∧ P m.2 e.2) members entries := by
  induction h with
  | nil => exact ⟨[], rfl, .nil⟩
  | @cons m e _ _ both _ ih =>
    obtain ⟨_, n⟩ := m
    obtain ⟨rfl, holds⟩ := both
    obtain ⟨members, rfl, related⟩ := ih
    exact ⟨(e.1, n) :: members, rfl, .cons ⟨rfl, holds⟩ related⟩

/-- The members of an object that are named are all of them. -/
lemma namedMembers?_map (members : List (String × JsonNode)) :
    namedMembers? (.object (members.map fun m => (some m.1, m.2))) = some members := by
  rw [namedMembers?]
  induction members with
  | nil => rfl
  | cons m members ih => simp [ih]

/-- An object needs room for a level of nesting. -/
lemma Denotes.room_pos {ms : Dictionary Json} (h : n.Denotes room (.object ms)) : 0 < room := by
  obtain ⟨-, denoted⟩ := h
  cases room with
  | zero => cases n <;> simp [toJson?] at denoted
  | succ room => exact room.succ_pos

/-- An object is written as members that hold its entries, with room for one level less. -/
theorem Denotes.members {ms : Dictionary Json} (h : n.Denotes room (.object ms)) :
    ∃ members, n.namedMembers? = some members ∧ Holds (room - 1) members ms := by
  obtain ⟨unrepeated, denoted⟩ := h
  -- no other node denotes an object
  cases unrepeated with
  | null | bool | numeral | string => simp [toJson?] at denoted
  | array => cases room <;> simp [toJson?] at denoted
  | @object written distinct unrepeated =>
    cases room with
    | zero => simp [toJson?] at denoted
    | succ room =>
      obtain ⟨entries, each, rfl⟩ : ∃ entries, members? room written = some entries ∧
          Dictionary.ofEntries entries = ms := by simpa [toJson?] using denoted
      -- what each member denotes goes along with the names that are not repeated within it
      have related := (List.forall₂_and_left _ _).mpr ⟨unrepeated, members?_eq_some_iff.mp each⟩
      obtain ⟨members, rfl, held⟩ := exists_named_of_forall₂ (P := Denotes room)
        (related.imp fun _ _ h => ⟨h.2.1, h.1, h.2.2⟩)
      have members_distinct : (Dictionary.names members).Nodup := by
        have names_eq : (members.map fun m => (some m.1, m.2)).map (·.1) =
            (Dictionary.names members).map some := by simp [Dictionary.names]
        exact .of_map some (names_eq ▸ distinct)
      have entries_distinct : (Dictionary.names entries).Nodup :=
        Dictionary.names_eq_names (held.imp fun _ _ h => h.1) ▸ members_distinct
      refine ⟨members, namedMembers?_map members, fun name =>
        ⟨_, unique?_eq_get? members_distinct name, ?_⟩⟩
      rw [Dictionary.get?_ofEntries entries_distinct]
      exact Dictionary.rel_get? held name

/-! ### Readers -/

variable {a : α} {as : List α} {reader : JsonNode → Option α} {encode : α → Json}

namespace Holds

variable {members : List (String × JsonNode)} {ms : Dictionary Json} {name : String}

/-- A member that is held is found, and only once. -/
lemma unique (h : Holds room members ms) (held : ms.get? name = some j) :
    ∃ n, unique? members name = some (some n) ∧ n.Denotes room j := by
  obtain ⟨found, unique, related⟩ := h name
  rw [held] at related
  cases related with
  | some denotes => exact ⟨_, unique, denotes⟩

/-- A member that is not held is not found. -/
lemma unique_none (h : Holds room members ms) (absent : ms.get? name = none) :
    unique? members name = some none := by
  obtain ⟨found, unique, related⟩ := h name
  rw [absent] at related
  cases related with
  | none => exact unique

/-- A required member is read if its value is. -/
lemma required (h : Holds room members ms) (held : ms.get? name = some j)
    (reads : ∀ n, n.Denotes room j → reader n = some a) :
    required? members name reader = some a := by
  obtain ⟨n, unique, denotes⟩ := h.unique held
  rw [required?, unique]
  exact reads n denotes

/-- An optional member that is there is read if its value is. -/
lemma optional {default : α} (h : Holds room members ms) (held : ms.get? name = some j)
    (reads : ∀ n, n.Denotes room j → reader n = some a) :
    optional? members name default reader = some a := by
  obtain ⟨n, unique, denotes⟩ := h.unique held
  rw [optional?, unique]
  exact reads n denotes

/-- An optional member that is not there has its default. -/
lemma optional_none {default : α} (h : Holds room members ms) (absent : ms.get? name = none) :
    optional? members name default reader = some default := by
  rw [optional?, h.unique_none absent]

end Holds

/-- A list is read if each of its items is. -/
lemma list?_eq_some (denotes : n.Denotes room (.array (as.map encode)))
    (reads : ∀ a n, n.Denotes (room - 1) (encode a) → reader n = some a) :
    list? reader n = some as := by
  obtain ⟨ns, rfl, each⟩ := denotes.items
  clear denotes
  rw [List.forall₂_map_right_iff] at each
  rw [list?]
  induction each with
  | nil => rfl
  | cons denotes _ ih => simp [reads _ _ denotes, ih]

/-- What is written is read back from every tree that denotes it. -/
def Reads (read : Nat → JsonNode → Option α) (encode : α → Json) : Prop :=
  ∀ a room n, n.Denotes room (encode a) → read room n = some a

/-- A text is read as it was written. -/
lemma reads_text : Reads (fun _ => text?) .string := by
  intro s room n denotes
  rw [denotes.eq_string]
  rfl

/-- A truth value is read as it was written. -/
lemma reads_bool : Reads (fun _ => bool?) .bool := by
  intro b room n denotes
  rw [denotes.eq_bool]
  rfl

/-- A value that is written as a word is read by its word. -/
lemma reads_word {word : α → String} {ofWord : String → Option α}
    (ofWord_word : ∀ a, ofWord (word a) = some a) :
    Reads (fun _ => word? ofWord) fun a => .string (word a) := by
  intro a room n denotes
  rw [denotes.eq_string]
  exact ofWord_word a

/-- A value that is written as a word is read by its word where it stands for itself, too. -/
lemma reads_heldWord {word : α → String} {ofWord : String → Option α}
    (ofWord_word : ∀ a, ofWord (word a) = some a) :
    Reads (fun _ => heldWord? ofWord) fun a => .string (word a) := by
  intro a room n denotes
  rw [denotes.eq_string]
  exact ofWord_word a

namespace Reads

variable {read : Nat → JsonNode → Option α}

/-- An array is read back if its items are. -/
theorem list (h : Reads read encode) :
    Reads (fun room => list? (read (room - 1))) fun as => .array (as.map encode) :=
  fun _ room _ denotes => list?_eq_some denotes fun a n => h a (room - 1) n

/-- An optional value is read back if nothing is written as null. -/
theorem nullable (h : Reads read encode) (notNull : ∀ a, encode a ≠ .null) :
    Reads (fun room => nullable? (read room)) (Json.ofOption encode) := by
  intro o room n denotes
  cases o with
  | none =>
    rw [denotes.eq_null]
    rfl
  | some a =>
    have read_eq := h a room n denotes
    have ne : n ≠ .null := by
      rintro rfl
      exact notNull a (Option.some.inj denotes.denoted).symm
    show nullable? (read room) n = some (some a)
    rw [nullable?, read_eq, Option.map_some]
    exact ne

end Reads

end EntityModel.JsonNode
