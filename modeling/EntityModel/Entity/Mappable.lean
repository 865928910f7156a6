import EntityModel.Declaration.Basic

/-!
# Mappable elements

Some declared elements never become properties: static and synthetic fields, accessors that can be
neither read nor written, and a few names that runtimes add to every class.
-/

namespace EntityModel

/-- Whether a name is an outer-instance reference: `this$` and more on one line. -/
def isOuterReference : List Char → Bool
  | 't' :: 'h' :: 'i' :: 's' :: '$' :: rest => !rest.contains '\n'
  | _ => false

/-- Names that are never mapped, one of them for a particular type only. -/
def isUnmapped (name : String) (type : TypeRef) : Bool :=
  name == "class" || isOuterReference name.toList ||
    (name == "metaClass" && type.name == "groovy.lang.MetaClass")

def FieldDecl.isMappable (f : FieldDecl) : Bool :=
  !f.modifiers.isStatic && !f.modifiers.isSynthetic && !isUnmapped f.name f.type

def AccessorDecl.isMappable (a : AccessorDecl) : Bool :=
  a.hasAccessor && !isUnmapped a.name a.type

end EntityModel
