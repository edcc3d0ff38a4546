/-
Declarations.

A declaration says what is to be added to a program.  A property declares up to two
accessors, and a generated one a field that holds its value; an event declares two
accessors.  What a declaration expands into is the matter of `Program.Build`.
-/
import MemberResolution.Program.Basic

namespace MemberResolution

/-! ### Types -/

/-- A type to be added.  At the top level the name is the full name, inside another
type it is the simple name. -/
structure TypeDecl where
  name : String
  kind : TypeKind
  flags : TypeFlags := {}
  base : Option TypeKey := none
  marks : List Mark := []
  deriving DecidableEq, Repr

namespace TypeDecl

/-- Gives the type a base. -/
def extending (decl : TypeDecl) (base : TypeKey) : TypeDecl :=
  { decl with base := some base }

/-- Adds modifiers. -/
def flagged (decl : TypeDecl) (flags : TypeFlags) : TypeDecl :=
  { decl with flags := decl.flags.union flags }

/-- Adds a mark after those there are. -/
def marked (decl : TypeDecl) (mark : Mark) : TypeDecl :=
  { decl with marks := decl.marks ++ [mark] }

end TypeDecl

/-! ### Methods, constructors, operators and fields -/

/-- A method, constructor, operator or field to be added. -/
structure MemberDecl where
  kind : MemberKind
  name : SymbolName
  params : List Param := []
  type : TypeKey := .void
  flags : MemberFlags := {}
  body : BodyState := .present
  marks : List Mark := []
  deriving DecidableEq, Repr

namespace MemberDecl

/-- A method without parameters that returns nothing. -/
def method (name : String) : MemberDecl :=
  { kind := .method, name := .named name }

/-- A constructor of instances. -/
def instanceConstructor : MemberDecl :=
  { kind := .constructor, name := .instanceConstructor }

/-- The constructor of the type itself. -/
def staticConstructor : MemberDecl :=
  { kind := .constructor, name := .staticConstructor, flags := { isStatic := true } }

/-- Operators are static. -/
def operator (op : Operator) (returns : TypeKey) : MemberDecl :=
  { kind := .operator, name := .operator op, type := returns, flags := { isStatic := true } }

/-- A field of a type. -/
def field (name : String) (type : TypeKey) : MemberDecl :=
  { kind := .field, name := .named name, type := type }

/-- Adds a parameter after those there are. -/
def taking (decl : MemberDecl) (param : Param) : MemberDecl :=
  { decl with params := decl.params ++ [param] }

/-- Sets the type. -/
def returning (decl : MemberDecl) (type : TypeKey) : MemberDecl :=
  { decl with type := type }

/-- Sets what is known of the body. -/
def withBody (decl : MemberDecl) (body : BodyState) : MemberDecl :=
  { decl with body := body }

/-- Adds modifiers.  A member made abstract has no body from then on. -/
def flagged (decl : MemberDecl) (flags : MemberFlags) : MemberDecl :=
  { decl with
    flags := decl.flags.union flags
    body := if flags.isAbstract then .abstract else decl.body }

/-- Adds a mark after those there are. -/
def marked (decl : MemberDecl) (mark : Mark) : MemberDecl :=
  { decl with marks := decl.marks ++ [mark] }

end MemberDecl

/-! ### Properties and events -/

/-- An accessor of a property or event. -/
structure AccessorDecl where
  body : BodyState := .present
  marks : List Mark := []
  deriving DecidableEq, Repr, Inhabited

/-- A property to be added.  The accessors and the field of an automatic one are
generated. -/
structure PropertyDecl where
  name : String
  type : TypeKey
  flags : MemberFlags := {}
  getter : Option AccessorDecl := none
  setter : Option AccessorDecl := none
  automatic : Bool := false
  marks : List Mark := []
  deriving DecidableEq, Repr

namespace PropertyDecl

/-- Makes the property automatic, with those accessors it does not have yet. -/
def auto (decl : PropertyDecl) : PropertyDecl :=
  { decl with
    automatic := true
    getter := some (decl.getter.getD {})
    setter := some (decl.setter.getD {}) }

/-- Makes the property static. -/
def makeStatic (decl : PropertyDecl) : PropertyDecl :=
  { decl with flags := { decl.flags with isStatic := true } }

/-- Adds a mark after those there are. -/
def marked (decl : PropertyDecl) (mark : Mark) : PropertyDecl :=
  { decl with marks := decl.marks ++ [mark] }

/-- The property itself, without accessors and field. -/
def head (decl : PropertyDecl) : MemberDecl :=
  { kind := .property, name := .named decl.name, type := decl.type, flags := decl.flags,
    marks := decl.marks }

/-- The method that reads the property. -/
def getMethod (decl : PropertyDecl) (accessor : AccessorDecl) : MemberDecl :=
  { kind := .method, name := .named (AccessorKind.get.lead ++ decl.name), type := decl.type,
    flags := decl.flags, body := accessor.body, marks := accessor.marks }

/-- The method that writes the property. -/
def setMethod (decl : PropertyDecl) (accessor : AccessorDecl) : MemberDecl :=
  { kind := .method, name := .named (AccessorKind.set.lead ++ decl.name),
    params := [⟨"value", decl.type⟩], flags := decl.flags, body := accessor.body,
    marks := accessor.marks }

/-- The field that holds the value of an automatic property. -/
def backingField (decl : PropertyDecl) : MemberDecl :=
  { kind := .field, name := .named ("<" ++ decl.name ++ ">k__BackingField"), type := decl.type,
    flags := { isStatic := decl.flags.isStatic } }

end PropertyDecl

/-- An event to be added.  The accessors of an automatic one are generated. -/
structure EventDecl where
  name : String
  type : TypeKey
  flags : MemberFlags := {}
  add : AccessorDecl := {}
  remove : AccessorDecl := {}
  automatic : Bool := false
  marks : List Mark := []
  deriving DecidableEq, Repr

namespace EventDecl

/-- Makes the event static. -/
def makeStatic (decl : EventDecl) : EventDecl :=
  { decl with flags := { decl.flags with isStatic := true } }

/-- Adds a mark after those there are. -/
def marked (decl : EventDecl) (mark : Mark) : EventDecl :=
  { decl with marks := decl.marks ++ [mark] }

/-- The event itself, without accessors. -/
def head (decl : EventDecl) : MemberDecl :=
  { kind := .event, name := .named decl.name, type := decl.type, flags := decl.flags,
    marks := decl.marks }

/-- The method that adds or removes a handler. -/
def accessMethod (decl : EventDecl) (kind : AccessorKind) (accessor : AccessorDecl) : MemberDecl :=
  { kind := .method, name := .named (kind.lead ++ decl.name),
    params := [⟨"value", decl.type⟩], flags := decl.flags, body := accessor.body,
    marks := accessor.marks }

end EventDecl

end MemberResolution
