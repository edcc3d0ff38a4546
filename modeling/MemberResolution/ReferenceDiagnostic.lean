/-
Diagnostics of references.

When emitted code touches a symbol that may not be used, or that nothing
implements, it raises a diagnostic.  Here it still holds the parts its text is made
of, so that the same finding can be rendered whole or in the short form.
-/
import MemberResolution.Diagnostic

namespace MemberResolution

/-- Why a reference to a symbol, or a call of it, cannot stand. -/
inductive ReferenceDiagnostic where
  /-- The symbol is ignored. -/
  | refused (signature : String)
  /-- The member has no body and no proxy supplies one. -/
  | externalMethod (signature typeName : String)
  /-- Nothing implements the external type. -/
  | externalType (typeName : String)
  /-- The body of the member cannot be lowered. -/
  | untranslatable (signature : String)
  deriving DecidableEq, Repr

namespace ReferenceDiagnostic

/-- The message that tells the diagnostic. -/
def message : ReferenceDiagnostic → Message
  | .refused _ => .memberRefused
  | .externalMethod _ _ => .externalMethodMissing
  | .externalType _ => .externalTypeMissing
  | .untranslatable _ => .untranslatable

/-- What fills the placeholders of the message. -/
def arguments : ReferenceDiagnostic → List String
  | .refused signature => [signature]
  | .externalMethod signature typeName => [signature, typeName]
  | .externalType typeName => [typeName]
  | .untranslatable signature => [signature]

/-- The signature or type name the diagnostic is about. -/
def subject : ReferenceDiagnostic → String
  | .refused signature => signature
  | .externalMethod signature _ => signature
  | .externalType typeName => typeName
  | .untranslatable signature => signature

/-- Whether the text says that something has not been implemented, and so has a
short form. -/
def hasShortForm : ReferenceDiagnostic → Bool
  | .externalMethod _ _ | .externalType _ => true
  | .refused _ | .untranslatable _ => false

/-- The text, whole or in the short form where there is one. -/
def render (diagnostic : ReferenceDiagnostic) (complete : Bool) : String :=
  let whole := diagnostic.message.render diagnostic.arguments
  if diagnostic.hasShortForm && !complete then cutAtStem whole else whole

/-- The rendered diagnostic, naming its subject. -/
def toDiagnostic (diagnostic : ReferenceDiagnostic) (complete : Bool) : Diagnostic :=
  (Diagnostic.error diagnostic.message (diagnostic.render complete)).about diagnostic.subject

end ReferenceDiagnostic

end MemberResolution
