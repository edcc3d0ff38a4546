/-
Configuration errors.

A configuration error says that a directive cannot be honoured: a proxy points at
something that is not there or is not unique, or a chain of base types does not
end in time.  It is fatal for every symbol whose resolution depends on it.
-/
import MemberResolution.Diagnostic
import MemberResolution.Symbol.TypeKey

namespace MemberResolution

/-- A directive that cannot be honoured. -/
inductive ConfigurationError where
  /-- A proxy type targets a type that is not loaded. -/
  | unknownTargetType (proxy target : TypeKey)
  /-- A proxy member targets a member its target type does not declare. -/
  | unknownTargetMember (proxyMember target : String) (targetType : TypeKey)
  /-- The name a proxy member targets belongs to several members. -/
  | ambiguousTarget (proxyMember name : String) (targetType : TypeKey)
  /-- A type has more ancestors than the limit allows. -/
  | inheritanceTooDeep (type : TypeKey) (maxDepth : Nat)
  deriving DecidableEq, Repr

namespace ConfigurationError

/-- The message that tells the error. -/
def message : ConfigurationError → Message
  | .unknownTargetType _ _ => .proxyTargetTypeMissing
  | .unknownTargetMember _ _ _ => .proxyTargetMemberMissing
  | .ambiguousTarget _ _ _ => .proxyTargetAmbiguous
  | .inheritanceTooDeep _ _ => .inheritanceTooDeep

/-- What fills the placeholders of the message. -/
def arguments : ConfigurationError → List String
  | .unknownTargetType proxy target => [proxy.text, target.text]
  | .unknownTargetMember proxyMember target targetType => [proxyMember, target, targetType.text]
  | .ambiguousTarget proxyMember name targetType => [proxyMember, name, targetType.text]
  | .inheritanceTooDeep type maxDepth => [type.text, toString maxDepth]

/-- The number the error is known by. -/
def code (error : ConfigurationError) : Nat :=
  error.message.code

/-- The text of the error. -/
def render (error : ConfigurationError) : String :=
  error.message.render error.arguments

/-- The error as a diagnostic.  It is about no single symbol. -/
def toDiagnostic (error : ConfigurationError) : Diagnostic :=
  Diagnostic.error error.message error.render

end ConfigurationError

end MemberResolution
