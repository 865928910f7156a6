import EntityModel.Json.Printer
import EntityModel.Proofs.Json.Denotes
import EntityModel.Proofs.Json.Parts
import EntityModel.Proofs.Json.Tokens

/-!
# Compact text is read back

The compact text of a plain document, one without numbers, is cut into the tokens of a tree
(`Json.scans_chars`) that denotes the document within as much room as the document is deep
(`Json.denotes_tree`). Each piece of text is shown to give its tokens whatever stands before and
after it.
-/

namespace EntityModel.JsonToken

/-! ### Strings -/

/-- Two hexadecimal digits are read back as the number of a control character. -/
lemma unit?_hexDigit : ∀ n < 32,
    unit? '0' '0' (Json.hexDigit (n / 16)) (Json.hexDigit (n % 16)) = some n := by
  decide

/-- The text of a character in a string is read as one piece, which denotes the character. -/
lemma stringBody_escapeChar (before : List Piece) (c : Char) (cs : List Char) :
    ∃ p, stringBody before (Json.escapeChar c ++ cs) = stringBody (p :: before) cs ∧
      ∀ ps, content (p :: ps) = (content ps).map (c :: ·) := by
  unfold Json.escapeChar
  split
  case h_8 notQuote notBackslash _ _ _ _ _ =>
    split
    case isTrue control =>
      refine ⟨.unit c.toNat, ?_, fun ps => ?_⟩
      · simp [stringBody, unit?_hexDigit c.toNat control]
      · -- a code unit below the surrogates needs no partner
        have notHigh : ¬(0xD800 ≤ c.toNat ∧ c.toNat < 0xDC00) := by omega
        have notLow : ¬(0xDC00 ≤ c.toNat ∧ c.toNat < 0xE000) := by omega
        simp [content.eq_def (.unit c.toNat :: ps), notHigh, notLow, Char.ofNat_toNat]
    case isFalse notControl =>
      refine ⟨.char c, ?_, fun ps => rfl⟩
      have kept : ¬(c.toNat < 32 ∨ c = '\\') := by
        rintro (control | rfl)
        · exact notControl control
        · exact notBackslash rfl
      rw [List.singleton_append, stringBody, if_neg kept]
      · exact notQuote
      · exact fun _ _ _ _ _ eq _ => notBackslash eq
      · exact fun _ _ eq _ => notBackslash eq
  all_goals exact ⟨.char _, rfl, fun ps => rfl⟩

/-- The characters of a string are read back from their escapes, up to the quote at the end. -/
lemma stringBody_flatMap (before : List Piece) (cs rest : List Char) :
    ∃ ps, stringBody before (cs.flatMap Json.escapeChar ++ '"' :: rest) =
      some (before.reverse ++ ps, rest) ∧ content ps = some cs := by
  induction cs generalizing before with
  | nil => exact ⟨[], by simp [stringBody], rfl⟩
  | cons c cs ih =>
    obtain ⟨p, read, denotes⟩ := stringBody_escapeChar before c
      (cs.flatMap Json.escapeChar ++ '"' :: rest)
    obtain ⟨ps, body, content_eq⟩ := ih (p :: before)
    refine ⟨p :: ps, ?_, ?_⟩
    · rw [List.flatMap_cons, List.append_assoc, read, body, List.reverse_cons, List.append_assoc,
        List.singleton_append]
    · rw [denotes, content_eq, Option.map_some]

/-- A string is read back from its text. -/
lemma first?_stringText (s : String) (rest : List Char) :
    first? (Json.stringText s ++ rest) = some (.string (some s), rest) := by
  obtain ⟨ps, body, content_eq⟩ := stringBody_flatMap [] s.toList rest
  simp [Json.stringText, first?, body, content_eq]

/-! ### Pieces of text -/

/-- A piece of text is cut into the given tokens, whatever stands before and after it. -/
def Scans (cs : List Char) (ts : List JsonToken) : Prop :=
  ∀ before rest, scan before (cs ++ rest) = scan (ts.reverse ++ before) rest

namespace Scans

variable {cs ds : List Char} {ts us : List JsonToken} {t : JsonToken}

/-- No text is cut into no tokens. -/
lemma nil : Scans [] [] := fun _ _ => rfl

/-- Two pieces of text are cut into the tokens of both. -/
lemma append (h : Scans cs ts) (h' : Scans ds us) : Scans (cs ++ ds) (ts ++ us) := by
  intro before rest
  rw [List.append_assoc, h, h', List.reverse_append, List.append_assoc]

/-- A text that starts with a token, and not with a blank, is cut into it. -/
lemma of_first? {c : Char} (notBlank : isBlank c = false)
    (first : ∀ rest, first? (c :: cs ++ rest) = some (t, rest)) : Scans (c :: cs) [t] := by
  intro before rest
  have read := first rest
  rw [List.cons_append] at read ⊢
  rw [scan, if_neg (by simp [notBlank])]
  split
  case h_1 found =>
    rw [read] at found
    cases found
    rfl
  case h_2 refused =>
    rw [read] at refused
    cases refused

end Scans

/-- A bracket opens an array. -/
lemma scans_beginArray : Scans ['['] [.beginArray] := .of_first? rfl fun _ => rfl

/-- A bracket closes an array. -/
lemma scans_endArray : Scans [']'] [.endArray] := .of_first? rfl fun _ => rfl

/-- A brace opens an object. -/
lemma scans_beginObject : Scans ['\x7b'] [.beginObject] := .of_first? rfl fun _ => rfl

/-- A brace closes an object. -/
lemma scans_endObject : Scans ['\x7d'] [.endObject] := .of_first? rfl fun _ => rfl

/-- A comma is a token of its own. -/
lemma scans_comma : Scans [','] [.comma] := .of_first? rfl fun _ => rfl

/-- A colon is a token of its own. -/
lemma scans_colon : Scans [':'] [.colon] := .of_first? rfl fun _ => rfl

/-- The text of a string is cut into the string. -/
lemma scans_stringText (s : String) : Scans (Json.stringText s) [.string (some s)] :=
  .of_first? rfl (first?_stringText s)

end EntityModel.JsonToken

namespace EntityModel.Json

open JsonToken

/-! ### Plain documents -/

/-- A document without numbers, whose objects are dictionaries. -/
inductive IsPlain : Json → Prop where
  | null :
    IsPlain null
  | bool (b : Bool) :
    IsPlain (bool b)
  | string (s : String) :
    IsPlain (string s)
  | array {items : List Json} :
    (∀ i ∈ items, IsPlain i) →
    IsPlain (array items)
  | object {members : List (String × Json)} :
    Dictionary.Sorted members →
    (∀ m ∈ members, IsPlain m.2) →
    IsPlain (object members)

attribute [simp] IsPlain.null IsPlain.bool IsPlain.string

/-- A list is plain if its items are written as plain documents. -/
lemma isPlain_list {α : Type} {encode : α → Json} (h : ∀ a, (encode a).IsPlain) (as : List α) :
    (array (as.map encode)).IsPlain :=
  .array (List.forall_mem_map.mpr fun a _ => h a)

mutual

/-- How deep containers are nested in a document. -/
def depth : Json → Nat
  | null | bool _ | number _ | string _ => 0
  | array items => depthEach items + 1
  | object members => depthMembers members + 1

def depthEach : List Json → Nat
  | [] => 0
  | j :: js => max (depth j) (depthEach js)

def depthMembers : List (String × Json) → Nat
  | [] => 0
  | (_, j) :: ms => max (depth j) (depthMembers ms)

end

/-- The tree of a plain document; there is none for numbers. -/
def tree : Json → JsonNode
  | null | number _ => .null
  | bool b => .bool b
  | string s => .string (some s)
  | array items => .array (items.map tree)
  | object members => .object (members.map fun m => (some m.1, tree m.2))
termination_by j => sizeOf j
decreasing_by
  · exact sizeOf_lt_of_mem_children (j := .array items) ‹_›
  · exact sizeOf_lt_of_mem_children (j := .object members) (List.mem_map_of_mem ‹_›)

variable {room : Nat} {j : Json}

/-- Items fit into a room if each of them does. -/
lemma depthEach_le_iff {js : List Json} : depthEach js ≤ room ↔ ∀ j ∈ js, depth j ≤ room := by
  induction js with
  | nil => simp [depthEach]
  | cons j js ih => rw [depthEach, Nat.max_le, ih, List.forall_mem_cons]

/-- Members fit into a room if their values do. -/
lemma depthMembers_le_iff {ms : List (String × Json)} :
    depthMembers ms ≤ room ↔ ∀ m ∈ ms, depth m.2 ≤ room := by
  induction ms with
  | nil => simp [depthMembers]
  | cons m ms ih => rw [depthMembers, Nat.max_le, ih, List.forall_mem_cons]

/-! ### The text of a document -/

/-- The text of items is cut into their tokens, with commas in between. -/
lemma scans_itemChars {items : List Json} (h : ∀ i ∈ items, Scans i.chars i.tree.tokens) :
    Scans (itemChars items) (JsonNode.itemTokens (items.map tree)) := by
  induction items with
  | nil => exact .nil
  | cons i items ih =>
    obtain ⟨first, others⟩ := List.forall_mem_cons.mp h
    cases items with
    | nil => exact first
    | cons i' items => exact first.append (scans_comma.append (ih others))

/-- The text of members is cut into their names and tokens, with commas in between. -/
lemma scans_memberChars {ms : List (String × Json)}
    (h : ∀ m ∈ ms, Scans m.2.chars m.2.tree.tokens) :
    Scans (memberChars ms) (JsonNode.memberTokens (ms.map fun m => (some m.1, m.2.tree))) := by
  induction ms with
  | nil => exact .nil
  | cons m ms ih =>
    obtain ⟨first, others⟩ := List.forall_mem_cons.mp h
    have member := (scans_stringText m.1).append (scans_colon.append first)
    cases ms with
    | nil => exact member
    | cons m' ms =>
      have read := member.append (scans_comma.append (ih others))
      simpa [memberChars, JsonNode.memberTokens] using read

/-- The text of a plain document is cut into the tokens of its tree. -/
theorem scans_chars (h : j.IsPlain) : Scans j.chars j.tree.tokens := by
  induction h with
  | null =>
    rw [tree]
    exact .of_first? rfl fun _ => rfl
  | bool b =>
    rw [tree]
    cases b with
    | true | false => exact .of_first? rfl fun _ => rfl
  | string s =>
    rw [tree]
    exact scans_stringText s
  | array _ ih =>
    rw [tree]
    exact scans_beginArray.append ((scans_itemChars ih).append scans_endArray)
  | object _ _ ih =>
    rw [tree]
    exact scans_beginObject.append ((scans_memberChars ih).append scans_endObject)

/-! ### The tree of a document -/

/-- In the tree of a plain document no name is repeated. -/
lemma unrepeated_tree (h : j.IsPlain) : j.tree.Unrepeated := by
  induction h with
  | null =>
    rw [tree]
    exact .null
  | bool b =>
    rw [tree]
    exact .bool b
  | string s =>
    rw [tree]
    exact .string (some s)
  | array _ ih =>
    rw [tree]
    exact .array (List.forall_mem_map.mpr ih)
  | @object members sorted _ ih =>
    rw [tree]
    refine .object ?_ (List.forall_mem_map.mpr ih)
    rw [List.map_map]
    -- a dictionary is sorted by its names, so no name is written twice
    refine List.pairwise_map.mpr (sorted.imp fun lt eq => ?_)
    obtain eq := Option.some.inj eq
    exact String.lt_irrefl _ (eq ▸ lt)

/-- The tree of a plain document is read as the document, if there is room for its depth. -/
lemma toJson?_tree (h : j.IsPlain) (fits : j.depth ≤ room) : j.tree.toJson? room = some j := by
  induction h generalizing room with
  | null | bool | string =>
    rw [tree]
    rfl
  | @array items _ ih =>
    -- an array takes one level itself, so what is inside it fits the levels that are left
    obtain ⟨room, rfl⟩ := Nat.exists_eq_succ_of_ne_zero (Nat.ne_zero_of_lt fits)
    have each := depthEach_le_iff.mp (Nat.le_of_succ_le_succ fits)
    have read : JsonNode.items? room (items.map tree) = some items := by
      rw [JsonNode.items?_eq_some_iff, List.forall₂_map_left_iff, List.forall₂_same]
      exact fun i hi => ih i hi (each i hi)
    rw [tree, JsonNode.toJson?, read, Option.map_some]
  | @object members sorted _ ih =>
    obtain ⟨room, rfl⟩ := Nat.exists_eq_succ_of_ne_zero (Nat.ne_zero_of_lt fits)
    have each := depthMembers_le_iff.mp (Nat.le_of_succ_le_succ fits)
    have read : JsonNode.members? room (members.map fun m => (some m.1, m.2.tree)) =
        some members := by
      rw [JsonNode.members?_eq_some_iff, List.forall₂_map_left_iff, List.forall₂_same]
      exact fun m hm => ⟨rfl, ih m hm (each m hm)⟩
    rw [tree, JsonNode.toJson?, read, Option.map_some, Dictionary.ofEntries_of_sorted sorted]

/-- The tree of a plain document denotes it wherever there is room for its depth. -/
theorem denotes_tree (h : j.IsPlain) (fits : j.depth ≤ room) : j.tree.Denotes room j :=
  ⟨unrepeated_tree h, toJson?_tree h fits⟩

/-- The compact text of a plain document is read to its tree. -/
theorem ofText?_compact (h : j.IsPlain) : JsonNode.ofText? j.compact = some j.tree := by
  have read := scans_chars h [] []
  rw [JsonNode.ofText?, JsonToken.ofText, compact, String.toList_ofList]
  rw [List.append_nil, List.append_nil] at read
  rw [read, scan, List.reverse_reverse, Option.bind_some, JsonNode.ofTokens?_tokens]

/-- The text is read to a tree that denotes the document within the room. -/
def Spells (room : Nat) (text : String) (j : Json) : Prop :=
  ∃ n, JsonNode.ofText? text = some n ∧ n.Denotes room j

/-- The compact text of a plain document spells it, if there is room for its depth. -/
theorem spells_compact (h : j.IsPlain) (fits : j.depth ≤ room) : Spells room j.compact j :=
  ⟨j.tree, ofText?_compact h, denotes_tree h fits⟩

end EntityModel.Json
