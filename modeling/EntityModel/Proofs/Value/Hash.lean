import EntityModel.Proofs.Value.Equality

/-!
# Hashes of equal values

Equal values feed a hash with the same data (`Value.feed_eq_of_equals`). Inside lists, maps and
beans the data of all parts take part in their order, of a set only the number of its elements
does, so that the order of elements does not matter at any depth. Hence a table of values finds
every equal one, though it compares values of the same hash only (`Value.hash_coherent`).
-/

namespace EntityModel.Value

variable {a b : Value}

/-- The elements of a list are fed one after the other. -/
lemma feedEach_eq (xs : List Value) : feedEach xs = (xs.map feed).flatten := by
  induction xs with
  | nil => rfl
  | cons x xs ih => rw [feedEach, ih, List.map_cons, List.flatten_cons]

/-- The entries of a map are fed one after the other, each with its key first. -/
lemma feedEntries_eq (es : List (String × Value)) :
    feedEntries es = (es.map fun e => .text e.1 :: feed e.2).flatten := by
  induction es with
  | nil => rfl
  | cons e es ih => rw [feedEntries, ih, List.map_cons, List.flatten_cons, List.cons_append]

/-- Equal values are fed alike. -/
theorem feed_eq_of_equals (equal : equals a b = true) : feed a = feed b := by
  induction a using descend generalizing b with
  | step a ih =>
    have sameEntries {es fs : List (String × Value)} (inside : a.children = es.map (·.2))
        (each : List.Forall₂ (fun e f => e.1 = f.1 ∧ equals e.2 f.2 = true) es fs) :
        feedEntries es = feedEntries fs := by
      rw [feedEntries_eq, feedEntries_eq]
      refine congrArg List.flatten (map_eq_of_forall₂ each ?_)
      rintro e he f ⟨name_eq, equal⟩
      rw [name_eq, ih e.2 (inside ▸ List.mem_map_of_mem he) equal]
    cases equals_iff.mp equal with
    | null | integer | text | boolean => rfl
    | float key_eq => rw [feed, feed, key_eq]
    | list each =>
      rw [feed, feed, each.length_eq, feedEach_eq, feedEach_eq,
        map_eq_of_forall₂ each fun x hx y => ih x hx]
    | set length_eq _ => rw [feed, feed, length_eq]
    | map each => rw [feed, feed, each.length_eq, sameEntries rfl each]
    | object t each => rw [feed, feed, each.length_eq, sameEntries rfl each]

/-- A table that compares values of the same hash only finds all that are equal. -/
lemma enter_eq (table : List Value) (v : Value) : enter table v =
    if table.any (equals v) then (table, false) else (table ++ [v], true) := by
  have compared (kept : Value) : (sameHash v kept && equals v kept) = equals v kept := by
    cases equal : equals v kept with
    | false => exact Bool.and_false _
    | true => rw [sameHash, feed_eq_of_equals equal, beq_self_eq_true, Bool.and_true]
  simp only [enter, compared]

/-- Equal values feed a hash with the same data, well-formed or not. So a value is new to a table
exactly if it equals no value there, though only values of the same hash are compared. -/
theorem hash_coherent :
    (∀ a b, equals a b = true → feed a = feed b) ∧
      ∀ table v, enter table v =
        if table.any (equals v) then (table, false) else (table ++ [v], true) :=
  ⟨fun _ _ => feed_eq_of_equals, enter_eq⟩

namespace Sample

/-- Beans with the readings in either order. -/
def report (readings : Value) : Value :=
  object "Report" [("days", list [readings, map [("first", readings)]])]

/-- Reports of equal readings are equal. -/
lemma report_equal : equals (report readings) (report otherReadings) = true := by
  simp [report, equals, equalsEach, equalsEntries, readings_equal]

end Sample

/-- Two reports whose readings are listed in different orders look alike to a hash, so the second
one is not entered beside the first one. -/
theorem hash_coherent_report :
    equals (Sample.report Sample.readings) (Sample.report Sample.otherReadings) = true ∧
      feed (Sample.report Sample.readings) = feed (Sample.report Sample.otherReadings) ∧
      enter [Sample.report Sample.otherReadings] (Sample.report Sample.readings) =
        ([Sample.report Sample.otherReadings], false) := by
  obtain ⟨coherent, entered⟩ := hash_coherent
  have equal := Sample.report_equal
  refine ⟨equal, coherent _ _ equal, ?_⟩
  rw [entered, List.any_cons, equal]
  rfl

end EntityModel.Value
