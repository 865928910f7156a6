import EntityModel.Value.Tagged

/-!
# Reports of values

The report of a value shows everything that can be asked about it.
-/

namespace EntityModel.Value

/-- Everything that can be asked about a value. -/
def reportMembers (v : Value) : List (String × Json) := [
  ("value", v.tagged),
  ("type_name", .string v.typeName),
  ("i64", .ofOption (fun i => .number (.integer i.toInt)) v.int?),
  ("f64", .ofOption (fun x => (float x).tagged) v.float?),
  ("bool", .ofOption Json.bool v.bool?),
  ("str", .ofString? v.text?),
  ("bean", .ofString? (v.bean?.map (·.type))),
  ("elements", .ofOption (fun vs => .ofNat vs.length) v.elements?),
  ("null", .bool v.isNull),
  ("numeric", .bool v.isNumeric),
  ("display", .string v.display),
  ("json", .string v.toJson.compact)]

def report (v : Value) : Json := .ofMembers v.reportMembers

/-- The report of a value together with what becomes of it when it is written as JSON and read. -/
def reportWithRoundTrip (v : Value) : Json :=
  let back := ofJson v.toJson
  .ofMembers (v.reportMembers ++
    [("round_trip", back.tagged), ("round_trip_equal", .bool (back.equals v))])

end EntityModel.Value

namespace EntityModel.Bean

def tagged (b : Bean) : Json := b.toValue.tagged

end EntityModel.Bean
