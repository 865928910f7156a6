import EntityModel.Report.TypeRef
import EntityModel.Repository.Basic

/-!
# Reports of repositories

The reports of fragments, compositions and repositories show what they are made of.
-/

namespace EntityModel

def Method.texts (ms : List Method) : Json := .ofStrings (ms.map (·.text))

def Fragment.report (f : Fragment) : Json :=
  .ofMembers [
    ("display", .string f.text),
    ("contributor", .string f.contributor),
    ("methods", Method.texts f.methods),
    ("implementation", .ofString? (f.implementation.map (·.typeName)))]

def Composition.report (c : Composition) : Json :=
  .ofMembers [
    ("empty", .bool c.isEmpty),
    ("fragments", .ofList Fragment.report c.fragments.items),
    ("methods", Method.texts c.fragments.methods),
    ("fragments_empty", .bool c.fragments.items.isEmpty),
    ("metadata", .ofString? (c.interface.map (·.name))),
    ("lookups", .ofNat c.lookup.length),
    ("debug", .string c.debugText)]

def RepositoryInterface.report (r : RepositoryInterface) : Json :=
  .ofMembers [
    ("interface", .string r.name),
    ("domain", r.domainType.encode),
    ("id", r.idType.encode),
    ("methods", .ofList Method.report r.methods),
    ("generic", .bool r.isMarker)]

/-- What is reported of a repository as a whole. -/
def Repository.reportMembers (i : Repository) : List (String × Json) := [
  ("domain", i.interface.domainType.shown),
  ("id_type", i.interface.idType.shown),
  ("interface", .string i.interface.name),
  ("base", .string i.base.name),
  ("fragments", .ofNat i.composition.fragments.items.length),
  ("generic", .bool i.interface.isMarker)]

end EntityModel
