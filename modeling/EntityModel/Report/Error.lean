import EntityModel.Error
import EntityModel.Json.Basic

/-!
# Reports of errors

An error is reported by the word for its kind and its text. What is wrong with a text that cannot be
read, of which the subject is `json`, is not reported in words; a missing type of that name is.
-/

namespace EntityModel.Error

def kind : Error → String
  | propertyReference .. => "PropertyReference"
  | depthExceeded _ => "ParseDepthExceeded"
  | invalidArgument _ => "InvalidArgument"
  | mapping _ => "Mapping"
  | duplicateId .. => "DuplicateIdProperty"
  | duplicateVersion .. => "DuplicateVersionProperty"
  | unknownEntity _ => "UnknownEntity"
  | introspection .. => "Introspection"
  | nullIntermediate .. => "NullIntermediate"
  | typeMismatch _ => "TypeMismatch"
  | immutableProperty .. => "ImmutableProperty"
  | noFragment _ => "NoFragmentFound"
  | noImplementation _ => "NoImplementation"
  | lock _ => "LockError"

def hasReportedText (e : Error) : Bool :=
  match e with
  | introspection subject _ => subject != "json" || decide (e = unregistered subject)
  | _ => true

def report (e : Error) : Json :=
  .ofMembers (("error", .string e.kind) ::
    if e.hasReportedText then [("message", .string e.message)] else [])

/-- The report of a result or of the error in its place. -/
def reportOr {α : Type} (encode : α → Json) : Except Error α → Json
  | .ok a => encode a
  | .error e => e.report

end EntityModel.Error
