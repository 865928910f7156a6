import EntityModel.Proofs.Json.Parts
import EntityModel.Proofs.Value.Equality
import EntityModel.Value.Json

/-!
# Where the documents of values are lossless

A value reads back from its document unless something inside it has no document of its own: a set
is written like a list, a float that is not finite like null, and an entry named `_class` is taken
for the type of a bean. A document is written back as it was read unless a whole number in it needs
more than a signed word or an object in it has a member `_class` that is no string. Both ways one
level is read and written at a time (`Value.ofJson_toJson`, `Json.toJson_ofJson`), and what is lost
on one level never shows again (`Value.json_roundTrip`).
-/

namespace EntityModel

namespace Value

variable {v : Value} {type? : Option Json} {es : List (String × Value)}

/-- Lists are written element by element. -/
lemma toJsonEach_eq (xs : List Value) : toJsonEach xs = xs.map toJson := by
  induction xs with
  | nil => rfl
  | cons x xs ih => rw [toJsonEach, ih, List.map_cons]

/-- Entries are written value by value, under the same keys. -/
lemma toJsonEntries_eq (es : List (String × Value)) :
    toJsonEntries es = Dictionary.mapValues toJson es := by
  induction es with
  | nil => rfl
  | cons e es ih =>
    rw [toJsonEntries, ih, Dictionary.mapValues, Dictionary.mapValues, List.map_cons]

/-- Arrays are read element by element. -/
lemma ofJsonEach_eq (js : List Json) : ofJsonEach js = js.map ofJson := by
  induction js with
  | nil => rfl
  | cons j js ih => rw [ofJsonEach, ih, List.map_cons]

/-- Members are read value by value, under the same names. -/
lemma ofJsonMembers_eq (ms : List (String × Json)) :
    ofJsonMembers ms = Dictionary.mapValues ofJson ms := by
  induction ms with
  | nil => rfl
  | cons m ms ih =>
    rw [ofJsonMembers, ih, Dictionary.mapValues, Dictionary.mapValues, List.map_cons]

/-- Entries that are equal one by one have the same keys. -/
lemma names_eq_of_forall₂ {fs : List (String × Value)}
    (h : List.Forall₂ (fun e f => e.1 = f.1 ∧ equals e.2 f.2 = true) es fs) :
    Dictionary.names es = Dictionary.names fs :=
  map_eq_of_forall₂ h fun _ _ _ same => same.1

/-- The type of a bean is a further member if no entry is named like it. -/
lemma withType_of_notMem {t : String} {members : Dictionary Json}
    (h : typeKey ∉ Dictionary.names members) :
    withType t members = members.insert typeKey (.string t) := by
  rw [withType, Dictionary.get?_eq_none_iff.mpr h]

/-- An object that names no type is read as a map. -/
lemma ofMembers_of_ne (h : ∀ t, type? ≠ some (.string t)) (es : Dictionary Value) :
    ofMembers type? es = map (es.erase typeKey) := by
  rw [ofMembers.eq_def]
  split
  · exact absurd rfl (h _)
  · rfl

/-! ### Values that are read back -/

/-- The document of a value does not tell what it is, whatever is inside it. -/
def IsLost : Value → Prop
  | set _ => True
  | float x => x.isFinite = false
  | map es | object _ es => typeKey ∈ Dictionary.names es
  | _ => False

/-- Nothing is lost in the document of a value, at any depth. -/
def IsLossless (v : Value) : Prop :=
  ∀ u ∈ v.parts, ¬u.IsLost

/-- Nothing is lost of a value if it is not lost itself and nothing is lost of what is inside it. -/
lemma isLossless_iff : v.IsLossless ↔ ¬v.IsLost ∧ ∀ u ∈ v.children, u.IsLossless :=
  forall_parts_iff

/-- The value of an object holds no entry that would name a type. -/
lemma not_isLost_of_equals_ofMembers (equal : equals (ofMembers type? es) v = true) :
    ¬v.IsLost := by
  have absent := Dictionary.notMem_names_erase es typeKey
  rw [ofMembers.eq_def] at equal
  split at equal
  · cases equals_iff.mp equal with
    | object t each => exact fun mem => absent (names_eq_of_forall₂ each ▸ mem)
  · cases equals_iff.mp equal with
    | map each => exact fun mem => absent (names_eq_of_forall₂ each ▸ mem)

/-- A value that equals what is read back is not lost itself. -/
lemma not_isLost_of_equals (equal : equals (ofJson v.toJson) v = true) : ¬v.IsLost := by
  cases v with
  | null | integer | text | boolean | list => exact id
  | float x =>
    intro infinite
    have lost : x.isFinite = false := infinite
    rw [toJson, lost] at equal
    cases equals_iff.mp equal
  | set xs => cases equals_iff.mp equal
  | map es | object t es => exact not_isLost_of_equals_ofMembers equal

/-- One level of a value is read back. -/
theorem ofJson_toJson (kept : ¬v.IsLost) :
    ofJson v.toJson = v.mapChildren fun u => ofJson u.toJson := by
  cases v with
  | null | text | boolean => rfl
  | integer i =>
    -- an integer is a word, so the number that is written is not out of range
    have inRange : minWord ≤ i.toInt ∧ i.toInt ≤ maxWord := by
      rw [minWord, maxWord, ← Int64.le_iff_toInt_le, ← Int64.le_iff_toInt_le]
      exact ⟨Int64.minValue_le i, Int64.le_maxValue i⟩
    rw [toJson, ofJson, ofWhole, if_pos inRange, Int64.ofInt_toInt]
    rfl
  | float x =>
    rw [toJson, if_pos (Bool.eq_true_of_not_eq_false kept)]
    rfl
  | list xs =>
    rw [toJson, ofJson, ofJsonEach_eq, toJsonEach_eq, List.map_map]
    rfl
  | set xs => exact absurd trivial kept
  | map es =>
    -- no entry is named like the type, so the document is read as a map again
    have absent : typeKey ∉ Dictionary.names es := kept
    rw [toJson, ofJson, toJsonEntries_eq, ofJsonMembers_eq, Dictionary.mapValues_mapValues,
      Dictionary.get?_mapValues, Dictionary.get?_eq_none_iff.mpr absent, Option.map_none,
      ofMembers_of_ne fun _ => (Option.some_ne_none _).symm,
      Dictionary.erase_of_notMem (by rwa [Dictionary.names_mapValues])]
    rfl
  | object t es =>
    -- the type is a member of its own, which is taken out again
    have absent : typeKey ∉ Dictionary.names (Dictionary.mapValues toJson es) := by
      rwa [Dictionary.names_mapValues]
    rw [toJson, ofJson, toJsonEntries_eq, ofJsonMembers_eq, withType_of_notMem absent,
      Dictionary.get?_insert_self, ofMembers, Dictionary.erase_mapValues,
      Dictionary.erase_insert (Dictionary.get?_eq_none_iff.mpr absent),
      Dictionary.mapValues_mapValues]
    rfl

/-- A value equals its image, level by level, if everything directly inside it does. -/
lemma equals_mapChildren_iff {f : Value → Value} (kept : ¬v.IsLost) :
    equals (v.mapChildren f) v = true ↔ ∀ u ∈ v.children, equals (f u) u = true := by
  cases v with
  | null | integer | float | text | boolean => simp [mapChildren, children, equals_refl]
  | set xs => exact absurd trivial kept
  | list xs =>
    simp only [mapChildren, children, equals, equalsEach_iff, List.forall₂_map_left_iff,
      List.forall₂_same]
  | map es | object t es =>
    simp only [mapChildren, children, equals, equalsEntries_iff, Dictionary.mapValues,
      List.forall₂_map_left_iff, List.forall₂_same, List.forall_mem_map, true_and, beq_self_eq_true,
      Bool.true_and]

/-- A value equals what is read from its document if nothing inside it is lost. -/
theorem equals_ofJson_toJson_iff : equals (ofJson v.toJson) v = true ↔ v.IsLossless := by
  induction v using descend with
  | step v ih =>
    rw [isLossless_iff]
    constructor
    · intro equal
      have kept := not_isLost_of_equals equal
      rw [ofJson_toJson kept, equals_mapChildren_iff kept] at equal
      exact ⟨kept, fun u hu => (ih u hu).mp (equal u hu)⟩
    · rintro ⟨kept, inside⟩
      rw [ofJson_toJson kept, equals_mapChildren_iff kept]
      exact fun u hu => (ih u hu).mpr (inside u hu)

/-- A lossless value is read back as it was. -/
theorem IsLossless.ofJson_toJson (h : v.IsLossless) : ofJson v.toJson = v := by
  induction v using descend with
  | step v ih =>
    obtain ⟨kept, inside⟩ := isLossless_iff.mp h
    rw [Value.ofJson_toJson kept]
    exact mapChildren_eq_self fun u hu => ih u hu (inside u hu)

end Value

/-! ### Documents that are written back -/

namespace Json

open Value

variable {i j : Json} {ms : List (String × Json)}

/-- Equality of documents, where the two zeros are equal and a whole number equals no float. -/
inductive Equal : Json → Json → Prop where
  | null :
    Equal null null
  | bool (b : Bool) :
    Equal (bool b) (bool b)
  | integer (n : Int) :
    Equal (number (.integer n)) (number (.integer n))
  | float {x y : Binary64} :
    x.key = y.key →
    Equal (number (.float x)) (number (.float y))
  | string (s : String) :
    Equal (string s) (string s)
  | array {is js : List Json} :
    List.Forall₂ Equal is js →
    Equal (array is) (array js)
  | object {ms ns : List (String × Json)} :
    Dictionary.names ms = Dictionary.names ns →
    List.Forall₂ Equal (ms.map (·.2)) (ns.map (·.2)) →
    Equal (object ms) (object ns)

/-- The members of an object are a dictionary, and no number is infinite or undefined. -/
def IsFormed : Json → Prop
  | object members => Dictionary.Sorted members
  | number (.float x) => x.isFinite = true
  | _ => True

/-- Everything in a document is formed, at any depth. -/
def IsDocument (j : Json) : Prop :=
  ∀ i ∈ j.parts, i.IsFormed

/-- A document is formed itself, and everything inside it is a document. -/
lemma isDocument_iff : j.IsDocument ↔ j.IsFormed ∧ ∀ i ∈ j.children, i.IsDocument :=
  forall_parts_iff

/-- The value of a document does not tell what was written, whatever is inside it. -/
def IsLost : Json → Prop
  | number (.integer n) => ¬(minWord ≤ n ∧ n ≤ maxWord)
  | object ms => ∃ j, Dictionary.get? ms typeKey = some j ∧ ∀ t, j ≠ string t
  | _ => False

/-- Nothing is lost in the value of a document, at any depth. -/
def IsLossless (j : Json) : Prop :=
  ∀ i ∈ j.parts, ¬i.IsLost

/-- Nothing is lost of a document if it is not lost itself and nothing is lost of what is inside it.
-/
lemma isLossless_iff : j.IsLossless ↔ ¬j.IsLost ∧ ∀ i ∈ j.children, i.IsLossless :=
  forall_parts_iff

/-- A document that equals what is written back is not lost itself. -/
lemma not_isLost_of_equal (equal : Equal (ofJson j).toJson j) : ¬j.IsLost := by
  cases j with
  | null | bool | string | array => exact id
  | number n =>
    cases n with
    | float x => exact id
    | integer n =>
      intro outside
      rw [ofJson, ofWhole, if_neg outside, toJson] at equal
      split at equal <;> cases equal
  | object ms =>
    rintro ⟨j, named, notText⟩
    have absent := Dictionary.notMem_names_erase (Dictionary.mapValues ofJson ms) typeKey
    rw [ofJson, named, ofJsonMembers_eq, ofMembers_of_ne fun t eq => notText t (Option.some.inj eq),
      toJson, toJsonEntries_eq] at equal
    cases equal with
    | object names_eq _ =>
      rw [Dictionary.names_mapValues] at names_eq
      exact absent (names_eq ▸ Dictionary.mem_names_of_get? named)

/-- One level of a document is written back. -/
theorem toJson_ofJson (formed : j.IsFormed) (kept : ¬j.IsLost) :
    (ofJson j).toJson = j.mapChildren fun i => (ofJson i).toJson := by
  cases j with
  | null | bool | string => rfl
  | number n =>
    cases n with
    | integer n =>
      have inRange : minWord ≤ n ∧ n ≤ maxWord := not_not.mp kept
      have lower : -2 ^ 63 ≤ n := inRange.1
      have upper : n < 2 ^ 63 := Int.lt_add_one_iff.mpr inRange.2
      rw [ofJson, ofWhole, if_pos inRange, toJson, Int64.toInt_ofInt_of_le lower upper]
      rfl
    | float x =>
      have finite : x.isFinite = true := formed
      rw [ofJson, toJson, if_pos finite]
      rfl
  | array items =>
    rw [ofJson, toJson, toJsonEach_eq, ofJsonEach_eq, List.map_map]
    rfl
  | object ms =>
    rw [ofJson, ofJsonMembers_eq]
    cases named : Dictionary.get? ms typeKey with
    | none =>
      have absent := Dictionary.get?_eq_none_iff.mp named
      rw [ofMembers_of_ne fun _ => (Option.some_ne_none _).symm, toJson, toJsonEntries_eq,
        Dictionary.erase_mapValues, Dictionary.erase_of_notMem absent,
        Dictionary.mapValues_mapValues]
      rfl
    | some j =>
      obtain ⟨t, rfl⟩ : ∃ t, j = string t := by
        by_contra notText
        exact kept ⟨j, named, fun t eq => notText ⟨t, eq⟩⟩
      have absent : typeKey ∉ Dictionary.names (Dictionary.erase (Dictionary.mapValues
          (toJson ∘ ofJson) ms) typeKey) := Dictionary.notMem_names_erase _ _
      rw [Value.ofMembers, toJson, toJsonEntries_eq, ← Dictionary.erase_mapValues,
        Dictionary.mapValues_mapValues, withType_of_notMem absent, Dictionary.erase_mapValues]
      -- the type is written where it stood
      have written := Dictionary.insert_mapValues (toJson ∘ ofJson)
        (Dictionary.erase ms typeKey) typeKey (string t)
      rw [Dictionary.insert_erase formed named] at written
      exact congrArg object written

/-- A document equals its image, level by level, if everything directly inside it does. -/
lemma equal_mapChildren_iff {f : Json → Json} :
    Equal (j.mapChildren f) j ↔ ∀ i ∈ j.children, Equal (f i) i := by
  constructor
  · intro equal
    cases j with
    | null | bool | number | string => exact nofun
    | array items =>
      cases equal with
      | array each =>
        rwa [List.forall₂_map_left_iff, List.forall₂_same] at each
    | object ms =>
      cases equal with
      | object _ each =>
        rw [Dictionary.mapValues, List.map_map, List.forall₂_map_left_iff,
          List.forall₂_map_right_iff, List.forall₂_same] at each
        exact List.forall_mem_map.mpr each
  · intro each
    cases j with
    | null => exact .null
    | bool b => exact .bool b
    | number n =>
      cases n with
      | integer n => exact .integer n
      | float x => exact .float rfl
    | string s => exact .string s
    | array items =>
      apply Equal.array
      rwa [List.forall₂_map_left_iff, List.forall₂_same]
    | object ms =>
      -- the members are changed under their names, so they stand in the same order
      apply Equal.object (Dictionary.names_mapValues f ms)
      rw [Dictionary.mapValues, List.map_map, List.forall₂_map_left_iff,
        List.forall₂_map_right_iff, List.forall₂_same]
      exact List.forall_mem_map.mp each

/-- A document equals what its value is written as if nothing inside it is lost. -/
theorem equal_toJson_ofJson_iff (h : j.IsDocument) :
    Equal (ofJson j).toJson j ↔ j.IsLossless := by
  induction j using descend with
  | step j ih =>
    obtain ⟨formed, documents⟩ := isDocument_iff.mp h
    rw [isLossless_iff]
    constructor
    · intro equal
      have kept := not_isLost_of_equal equal
      rw [toJson_ofJson formed kept, equal_mapChildren_iff] at equal
      exact ⟨kept, fun i hi => (ih i hi (documents i hi)).mp (equal i hi)⟩
    · rintro ⟨kept, inside⟩
      rw [toJson_ofJson formed kept, equal_mapChildren_iff]
      exact fun i hi => (ih i hi (documents i hi)).mpr (inside i hi)

/-- A lossless document is written back as it was. -/
theorem IsLossless.toJson_ofJson (h : j.IsLossless) (document : j.IsDocument) :
    (ofJson j).toJson = j := by
  induction j using descend with
  | step j ih =>
    obtain ⟨formed, documents⟩ := isDocument_iff.mp document
    obtain ⟨kept, inside⟩ := isLossless_iff.mp h
    rw [Json.toJson_ofJson formed kept]
    exact mapChildren_eq_self fun i hi => ih i hi (inside i hi) (documents i hi)

end Json

namespace Value

/-- A value equals what is read from its document exactly if nothing inside it is lost, and a
document equals what its value is written as exactly if nothing inside it is lost. In both cases
they are then the same. -/
theorem json_roundTrip :
    (∀ v : Value, (equals (ofJson v.toJson) v = true ↔ v.IsLossless) ∧
      (v.IsLossless → ofJson v.toJson = v)) ∧
    ∀ j : Json, j.IsDocument → (Json.Equal (ofJson j).toJson j ↔ j.IsLossless) ∧
      (j.IsLossless → (ofJson j).toJson = j) := by
  constructor
  · exact fun v => ⟨equals_ofJson_toJson_iff, IsLossless.ofJson_toJson⟩
  · intro j document
    exact ⟨Json.equal_toJson_ofJson_iff document, fun h => h.toJson_ofJson document⟩

namespace Sample

/-- A bean in a list of a map. -/
def parcel : Value :=
  map [("items", list [object "Item" [("count", integer 12), ("weight", float (.zero true))]])]

/-- A parcel whose item has a set of tags. -/
def taggedParcel : Value :=
  map [("items", list [object "Item" [("count", integer 12), ("tags", set [text "new"])]])]

/-- An object within an array that names its type. -/
def delivery : Json :=
  .array [.object [("_class", .string "Item"), ("count", .number (.integer 12))],
    .number (.float (.zero true))]

/-- A delivery whose object has a type that is no text. -/
def untypedDelivery : Json :=
  .array [.object [("_class", .null), ("count", .number (.integer 12))]]

/-- The parcel has nothing that would be lost. -/
lemma parcel_lossless : parcel.IsLossless := by
  have finite : (Binary64.zero true).isFinite = true := by decide
  unfold IsLossless
  simp [parcel, parts, partsEach, partsEntries, IsLost, Dictionary.names, typeKey, finite]

/-- The tags of the other parcel are a set, which is lost. -/
lemma taggedParcel_lossy : ¬taggedParcel.IsLossless := by
  unfold IsLossless
  simp [taggedParcel, parts, partsEach, partsEntries, IsLost]

/-- The delivery is a document. -/
lemma delivery_isDocument : delivery.IsDocument := by
  have finite : (Binary64.zero true).isFinite = true := by decide
  have sorted : Dictionary.Sorted
      [("_class", Json.string "Item"), ("count", .number (.integer 12))] := by decide
  unfold Json.IsDocument
  simp [delivery, Json.parts, Json.partsEach, Json.partsMembers, Json.IsFormed, finite, sorted]

/-- The delivery has nothing that would be lost. -/
lemma delivery_lossless : delivery.IsLossless := by
  have inRange : minWord ≤ 12 ∧ 12 ≤ maxWord := by decide
  unfold Json.IsLossless
  simp [delivery, Json.parts, Json.partsEach, Json.partsMembers, Json.IsLost, Dictionary.get?_cons,
    typeKey, inRange]

/-- The delivery without a proper type is a document. -/
lemma untypedDelivery_isDocument : untypedDelivery.IsDocument := by
  have sorted : Dictionary.Sorted
      [("_class", Json.null), ("count", .number (.integer 12))] := by decide
  unfold Json.IsDocument
  simp [untypedDelivery, Json.parts, Json.partsEach, Json.partsMembers, Json.IsFormed, sorted]

/-- Its type is no text, so it is lost. -/
lemma untypedDelivery_lossy : ¬untypedDelivery.IsLossless := by
  unfold Json.IsLossless
  simp [untypedDelivery, Json.parts, Json.partsEach, Json.partsMembers, Json.IsLost,
    Dictionary.get?_cons, typeKey]

end Sample

/-- A parcel and a delivery come back as they were; a parcel with tags and a delivery whose type is
no text do not. -/
theorem json_roundTrip_parcels :
    Sample.parcel.IsLossless ∧ ofJson Sample.parcel.toJson = Sample.parcel ∧
      equals (ofJson Sample.taggedParcel.toJson) Sample.taggedParcel = false ∧
      Sample.delivery.IsDocument ∧ Sample.delivery.IsLossless ∧
      (ofJson Sample.delivery).toJson = Sample.delivery ∧
      Sample.untypedDelivery.IsDocument ∧
      ¬Json.Equal (ofJson Sample.untypedDelivery).toJson Sample.untypedDelivery := by
  obtain ⟨values, documents⟩ := json_roundTrip
  have lossless := Sample.parcel_lossless
  have lossless' := Sample.delivery_lossless
  obtain ⟨-, same⟩ := documents _ Sample.delivery_isDocument
  obtain ⟨differs, -⟩ := documents _ Sample.untypedDelivery_isDocument
  refine ⟨lossless, (values _).2 lossless, ?_, Sample.delivery_isDocument, lossless',
    same lossless', Sample.untypedDelivery_isDocument, ?_⟩
  · rw [← Bool.not_eq_true, (values _).1]
    exact Sample.taggedParcel_lossy
  · rw [differs]
    exact Sample.untypedDelivery_lossy

end Value

end EntityModel
