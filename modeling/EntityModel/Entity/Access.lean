import EntityModel.Entity.Basic

/-!
# Access to instances

The properties of an instance are read from its fields and written by replacing them. A property
that can only be written is not read, and one that nothing sets is not written.
-/

namespace EntityModel.Entity

/-- An instance whose properties can be accessed through the entity. -/
def openInstance (e : Entity) (v : Value) : Except Error Bean :=
  match e.access with
  | .refused _ => .error (.rejected e.name)
  | .direct => e.instanceOf v

/-- Whether a property of an instance can be written: it is not immutable, or a wither or the
constructor sets it. -/
def canWrite (e : Entity) (p : EntityProperty) : Bool :=
  !p.isImmutable || p.backing.hasWither || e.isConstructorArgument p

def read (b : Bean) (p : EntityProperty) : Except Error Value :=
  if !p.backing.isFieldBacked && !p.backing.hasGetter then .error (.noGetter p.name b.type)
  else .ok (b.get p.name)

def write (e : Entity) (b : Bean) (p : EntityProperty) (v : Value) : Except Error Bean :=
  if e.canWrite p then .ok (b.set p.name v) else .error (.immutableProperty p.name b.type)

end EntityModel.Entity
