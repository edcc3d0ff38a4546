/-
Identities as documents.

An identity is read as it is given, whether or not its parts suit its kind.
-/
import MemberResolution.Document.Fields
import MemberResolution.Symbol.Identity

namespace MemberResolution

/-- A key is written as its text. -/
def TypeKey.ofJson? (json : Json) : Option TypeKey :=
  (Document.text? json).map TypeKey.mk

def TypeKey.toJson (key : TypeKey) : Json :=
  .string key.text

/-- An operator is a bare name. -/
def Operator.ofJson? (insideMember : Bool) : Json → Option Operator :=
  Document.oneOf? Operator.all Operator.documentName insideMember

def Operator.toJson (op : Operator) : Json :=
  .string op.documentName

/-- A name is an object with one field, whose name says which kind of name it is. -/
def SymbolName.ofJson? : Json → Option SymbolName
  | .object [("named", json)] => (Document.text? json).map .named
  | .object [("operator", json)] => (Operator.ofJson? false json).map .operator
  | _ => none

def SymbolName.toJson : SymbolName → Json
  | .named name => .object [("named", .string name)]
  | .operator op => .object [("operator", op.toJson)]

/-- A kind of symbol is a bare name. -/
def SymbolKind.ofJson? : Json → Option SymbolKind :=
  Document.oneOf? SymbolKind.all SymbolKind.documentName false

namespace Identity

/-- The identity a document gives. -/
def ofJson? (json : Json) : Option Identity := do
  let fields ← Document.Fields.read? ["kind", "declaring_type", "name", "params", "returns"] json
  return {
    kind := ← fields.required? "kind" SymbolKind.ofJson?
    declaringType := ← fields.nullable? "declaring_type" TypeKey.ofJson?
    name := ← fields.required? "name" SymbolName.ofJson?
    params := ← fields.required? "params" (Document.listOf? TypeKey.ofJson?)
    returns := ← fields.optional? "returns" TypeKey.ofJson? }

/-- The document of an identity.  An absent result type is left out. -/
def toJson (identity : Identity) : Json :=
  .object <|
    [("kind", .string identity.kind.documentName),
     ("declaring_type", .ofOptional (identity.declaringType.map (·.text))),
     ("name", identity.name.toJson),
     ("params", .array (identity.params.map TypeKey.toJson))]
    ++ match identity.returns with
      | none => []
      | some key => [("returns", key.toJson)]

end Identity

end MemberResolution
