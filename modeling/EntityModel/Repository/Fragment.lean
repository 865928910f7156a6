import EntityModel.Repository.Implementation

/-!
# Fragments

A fragment contributes methods to a repository, with or without an implementation. Of several
fragments that declare and implement a method the first one serves it.
-/

namespace EntityModel

/-- A part of a repository. -/
structure Fragment where
  /-- The name of the type that contributes the methods. -/
  contributor : String
  methods : List Method
  implementation : Option Implementation

namespace Fragment

def structural (interface : TypeDecl) : Fragment :=
  ⟨interface.name, interface.methods, none⟩

def implemented (i : Implementation) : Fragment :=
  ⟨i.typeName, i.methods, some i⟩

def implementedAs (interface : TypeDecl) (i : Implementation) : Fragment :=
  { structural interface with implementation := some i }

/-- Whether a method of the same name and parameter types is declared. -/
def hasMethod (f : Fragment) (m : Method) : Bool :=
  f.methods.any (·.matchesSignature m)

/-- A method is declared, and there is an implementation to call it on. -/
def serves (f : Fragment) (m : Method) : Bool :=
  f.hasMethod m && f.implementation.isSome

/-- Methods are declared, but nothing implements them. -/
def lacksImplementation (f : Fragment) : Bool :=
  !f.methods.isEmpty && f.implementation.isNone

/-- A fragment has all methods of one signature or none of them. -/
theorem hasMethod_congr {m m' : Method} (h : m.matchesSignature m' = true) (f : Fragment) :
    f.hasMethod m = f.hasMethod m' := by
  obtain ⟨name_eq, types_eq⟩ := Method.matchesSignature_iff.mp h
  unfold hasMethod Method.matchesSignature
  rw [name_eq, types_eq]

/-- Methods of one signature are served alike, wherever they were declared. -/
theorem serves_congr {m m' : Method} (h : m.matchesSignature m' = true) (f : Fragment) :
    f.serves m = f.serves m' := by
  unfold serves
  rw [hasMethod_congr h]

def text (f : Fragment) : String :=
  match f.implementation with
  | some i => "ImplementedRepositoryFragment " ++ f.contributor ++ ":" ++ i.typeName
  | none => "StructuralRepositoryFragment " ++ f.contributor

def debugText (f : Fragment) : String :=
  Text.record "RepositoryFragment"
    [("signature_contributor", Text.quoted f.contributor),
     ("implementation", Text.optionalName (f.implementation.map (·.typeName)))]

end Fragment

/-- Fragments in order of precedence, with the places to which methods were sent before. -/
structure Fragments where
  items : List Fragment := []
  /-- The places of the fragments that methods were sent to, by the identity of the method. -/
  dispatched : List (MethodIdentity × Nat) := []
  /-- A method was sent to the first fragment that serves it. -/
  settled : ∀ d ∈ dispatched, ∀ m : Method, m.identity = d.1 →
    items.findIdx? (·.serves m) = some d.2 := by nofun

namespace Fragments

def of (items : List Fragment) : Fragments := { items }

def methods (fs : Fragments) : List Method :=
  fs.items.flatMap (·.methods)

/-- Why no fragment serves a method: none declares it, or none that declares it implements it. -/
def refusal (items : List Fragment) (m : Method) : Error :=
  if items.any (·.hasMethod m) then .noImplementation m.text else .noFragment m.text

/-- The fragments after a method was sent to a place for the first time. -/
def remember (fs : Fragments) {m : Method} {place : Nat}
    (found : fs.items.findIdx? (·.serves m) = some place) : Fragments where
  items := fs.items
  dispatched := (m.identity, place) :: fs.dispatched
  settled := by
    intro d hd m' same
    rcases List.mem_cons.mp hd with rfl | old
    · simpa only [Fragment.serves_congr (Method.matchesSignature_of_identity same)] using found
    · exact fs.settled d old m' same

/-- The place of the fragment that serves a method, looked for once to a method. -/
def dispatch (fs : Fragments) (m : Method) : Except Error Nat × Fragments :=
  match fs.dispatched.find? fun d => d.1 = m.identity with
  | some (_, place) => (.ok place, fs)
  | none =>
    match found : fs.items.findIdx? (·.serves m) with
    | some place => (.ok place, fs.remember found)
    | none => (.error (refusal fs.items m), fs)

/-- Sends a call to the implementation that serves its method. -/
def invoke (fs : Fragments) (c : Call) (log : CallLog) :
    Except Error Value × Fragments × CallLog :=
  match fs.dispatch c.method with
  | (.error e, fs) => (.error e, fs, log)
  | (.ok place, fs) =>
    match fs.items[place]?.bind (·.implementation) with
    | some i =>
      let (answer, log) := i.call c log
      (answer, fs, log)
    | none => (.error (.noImplementation c.method.text), fs, log)

def debugText (fs : Fragments) : String :=
  Text.bracketed (fs.items.map (·.debugText))

end Fragments

end EntityModel
