/-
Identities of symbols.

An identity names a type or member apart from everything that marks do to it.  Two
member declarations are the same symbol exactly when kind, declaring type, declared
name and the list of parameter types agree; names of parameters do not count.  A
conversion operator is told apart by its result type as well, since one type may
convert to many.
-/
import MemberResolution.Symbol.Operator
import MemberResolution.Symbol.TypeKey

namespace MemberResolution

/-- What an identity names. -/
inductive SymbolKind where
  | type
  | method
  | field
  | property
  | event
  | constructor
  | operator
  deriving DecidableEq, Repr, Ord

namespace SymbolKind

/-- Every kind, in the order of their definition. -/
def all : List SymbolKind :=
  [.type, .method, .field, .property, .event, .constructor, .operator]

/-- The name of the kind in documents. -/
def documentName : SymbolKind → String
  | .type => "type"
  | .method => "method"
  | .field => "field"
  | .property => "property"
  | .event => "event"
  | .constructor => "constructor"
  | .operator => "operator"

/-- Whether parameter types belong to the identity. -/
def hasSignature : SymbolKind → Bool
  | .method | .constructor | .operator => true
  | _ => false

end SymbolKind

/-- The declared name of a symbol: a name of its own, or an operator. -/
inductive SymbolName where
  | named (name : String)
  | operator (op : Operator)
  deriving DecidableEq, Repr

namespace SymbolName

instance : Inhabited SymbolName := ⟨.named ""⟩

/-- The name of every instance constructor. -/
def instanceConstructor : SymbolName := .named ".ctor"

/-- The name of every static constructor. -/
def staticConstructor : SymbolName := .named ".cctor"

/-- The name as metadata writes it. -/
def text : SymbolName → String
  | .named name => name
  | .operator op => op.metadataName

/-- Whether the name is that of a conversion. -/
def isConversion : SymbolName → Bool
  | .named _ => false
  | .operator op => op.isConversion

/-- Names of their own come before operators. -/
instance : Ord SymbolName where
  compare
    | .named a, .named b => compare a b
    | .named _, .operator _ => .lt
    | .operator _, .named _ => .gt
    | .operator a, .operator b => compare a b

end SymbolName

/-- The identity of a type or member.  The declaring type is absent for a type; the
result type is present for a conversion operator only. -/
structure Identity where
  kind : SymbolKind
  declaringType : Option TypeKey
  name : SymbolName
  params : List TypeKey
  returns : Option TypeKey
  deriving DecidableEq, Repr

namespace Identity

/-! ### Making identities -/

/-- The identity of the type with a key. -/
def ofType (key : TypeKey) : Identity :=
  ⟨.type, none, .named key.text, [], none⟩

/-- The identity of a member.  Parameter types are dropped where the kind has no
signature. -/
def ofMember (kind : SymbolKind) (declaringType : TypeKey) (name : SymbolName)
    (params : List TypeKey) : Identity :=
  ⟨kind, some declaringType, name, if kind.hasSignature then params else [], none⟩

/-- Adds the result type where it belongs to the identity. -/
def returning (identity : Identity) (key : TypeKey) : Identity :=
  if identity.kind = .operator ∧ identity.name.isConversion then
    { identity with returns := some key }
  else identity

/-- The same signature declared by another type. -/
def declaredBy (identity : Identity) (key : TypeKey) : Identity :=
  { identity with declaringType := some key }

/-! ### Looking at identities -/

/-- Whether the identity names a type. -/
def isType (identity : Identity) : Bool :=
  identity.kind = .type

/-- Whether two identities agree in all but the declaring type. -/
def sameSignature (a b : Identity) : Bool :=
  a.kind = b.kind && a.name = b.name && a.params = b.params && a.returns = b.returns

/-- The identity as text: the declaring type and `::`, the name, the parameter
types in parentheses where the kind has a signature, and the result type after a
colon where it is present. -/
def display (identity : Identity) : String :=
  (match identity.declaringType with
    | some key => key.text ++ "::"
    | none => "")
  ++ identity.name.text
  ++ (if identity.kind.hasSignature then
        "(" ++ ", ".intercalate (identity.params.map (·.text)) ++ ")"
      else "")
  ++ (match identity.returns with
    | some key => " : " ++ key.text
    | none => "")

/-! ### Order -/

/-- An absent key comes before every key. -/
def compareOptional : Option TypeKey → Option TypeKey → Ordering
  | none, none => .eq
  | none, some _ => .lt
  | some _, none => .gt
  | some a, some b => compare a b

/-- The first difference decides; a list comes after what it extends. -/
def compareKeys : List TypeKey → List TypeKey → Ordering
  | [], [] => .eq
  | [], _ :: _ => .lt
  | _ :: _, [] => .gt
  | a :: as, b :: bs => (compare a b).then (compareKeys as bs)

/-- Identities are ordered by kind, declaring type, name, parameter types and
result type, in this order. -/
instance : Ord Identity where
  compare a b :=
    (compare a.kind b.kind).then <|
    (compareOptional a.declaringType b.declaringType).then <|
    (compare a.name b.name).then <|
    (compareKeys a.params b.params).then <|
    compareOptional a.returns b.returns

end Identity

end MemberResolution
