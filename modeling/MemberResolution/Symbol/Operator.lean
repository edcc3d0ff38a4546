/-
Operators a type may define.

An operator is one of a closed list, so it is matched by what it is and never by
the name of a method.  Each has two spellings: the one documents use, and the name
of the method that holds it in metadata.
-/
namespace MemberResolution

/-- An operator a type may define. -/
inductive Operator where
  | addition
  | subtraction
  | multiply
  | division
  | modulus
  | equality
  | inequality
  | lessThan
  | greaterThan
  | lessThanOrEqual
  | greaterThanOrEqual
  | bitwiseAnd
  | bitwiseOr
  | exclusiveOr
  | leftShift
  | rightShift
  | unaryNegation
  | unaryPlus
  | logicalNot
  | onesComplement
  | increment
  | decrement
  | truth
  | falsity
  | implicitConversion
  | explicitConversion
  deriving DecidableEq, Repr, Ord

namespace Operator

/-- Every operator, in the order of their definition. -/
def all : List Operator :=
  [.addition, .subtraction, .multiply, .division, .modulus, .equality, .inequality,
   .lessThan, .greaterThan, .lessThanOrEqual, .greaterThanOrEqual, .bitwiseAnd, .bitwiseOr,
   .exclusiveOr, .leftShift, .rightShift, .unaryNegation, .unaryPlus, .logicalNot,
   .onesComplement, .increment, .decrement, .truth, .falsity, .implicitConversion,
   .explicitConversion]

/-- The name of the method that holds the operator in metadata. -/
def metadataName : Operator → String
  | .addition => "op_Addition"
  | .subtraction => "op_Subtraction"
  | .multiply => "op_Multiply"
  | .division => "op_Division"
  | .modulus => "op_Modulus"
  | .equality => "op_Equality"
  | .inequality => "op_Inequality"
  | .lessThan => "op_LessThan"
  | .greaterThan => "op_GreaterThan"
  | .lessThanOrEqual => "op_LessThanOrEqual"
  | .greaterThanOrEqual => "op_GreaterThanOrEqual"
  | .bitwiseAnd => "op_BitwiseAnd"
  | .bitwiseOr => "op_BitwiseOr"
  | .exclusiveOr => "op_ExclusiveOr"
  | .leftShift => "op_LeftShift"
  | .rightShift => "op_RightShift"
  | .unaryNegation => "op_UnaryNegation"
  | .unaryPlus => "op_UnaryPlus"
  | .logicalNot => "op_LogicalNot"
  | .onesComplement => "op_OnesComplement"
  | .increment => "op_Increment"
  | .decrement => "op_Decrement"
  | .truth => "op_True"
  | .falsity => "op_False"
  | .implicitConversion => "op_Implicit"
  | .explicitConversion => "op_Explicit"

/-- The name of the operator in documents. -/
def documentName : Operator → String
  | .addition => "addition"
  | .subtraction => "subtraction"
  | .multiply => "multiply"
  | .division => "division"
  | .modulus => "modulus"
  | .equality => "equality"
  | .inequality => "inequality"
  | .lessThan => "lessThan"
  | .greaterThan => "greaterThan"
  | .lessThanOrEqual => "lessThanOrEqual"
  | .greaterThanOrEqual => "greaterThanOrEqual"
  | .bitwiseAnd => "bitwiseAnd"
  | .bitwiseOr => "bitwiseOr"
  | .exclusiveOr => "exclusiveOr"
  | .leftShift => "leftShift"
  | .rightShift => "rightShift"
  | .unaryNegation => "unaryNegation"
  | .unaryPlus => "unaryPlus"
  | .logicalNot => "logicalNot"
  | .onesComplement => "onesComplement"
  | .increment => "increment"
  | .decrement => "decrement"
  | .truth => "true"
  | .falsity => "false"
  | .implicitConversion => "implicit"
  | .explicitConversion => "explicit"

/-- Conversions may be declared once per result type. -/
def isConversion : Operator → Bool
  | .implicitConversion | .explicitConversion => true
  | _ => false

end Operator

end MemberResolution
