/-
Outcomes.

The outcome of a member says where the implementation that is emitted for it comes
from, or why there is none.  The outcome of a type says how it is declared and
referred to.
-/
import MemberResolution.ReferenceDiagnostic
import MemberResolution.Resolver

namespace MemberResolution

/-- The names of outcomes in reports. -/
inductive OutcomeLabel where
  | own
  | proxy
  | replaced
  | unimplemented
  | external
  | refused
  deriving DecidableEq, Repr

/-- A label as reports write it. -/
def OutcomeLabel.text : OutcomeLabel → String
  | .own => "own"
  | .proxy => "proxy"
  | .replaced => "replaced"
  | .unimplemented => "unimplemented"
  | .external => "external"
  | .refused => "refused"

/-- What is emitted for a member. -/
inductive Outcome where
  | own
  | proxy (body : ProxyBody)
  | replaced (expression : String)
  /-- Declared, but calling it raises the diagnostic. -/
  | unimplemented (diagnostic : ReferenceDiagnostic)
  /-- Not to be used at all. -/
  | refused (diagnostic : ReferenceDiagnostic)
  deriving DecidableEq, Repr

/-- Where an emitted implementation comes from. -/
inductive BodySource where
  | own
  | proxy (body : ProxyBody)
  | replacement (expression : String)
  | none
  deriving DecidableEq, Repr

namespace Outcome

/-- Where the implementation that is emitted comes from. -/
def bodySource : Outcome → BodySource
  | .own => .own
  | .proxy body => .proxy body
  | .replaced expression => .replacement expression
  | .unimplemented _ => .none
  | .refused _ => .none

/-- Whether there is an implementation to emit. -/
def isTranslatable : Outcome → Bool
  | .own | .proxy _ | .replaced _ => true
  | .unimplemented _ | .refused _ => false

/-- What using the member raises. -/
def diagnostic? : Outcome → Option ReferenceDiagnostic
  | .own | .proxy _ | .replaced _ => none
  | .unimplemented diagnostic => some diagnostic
  | .refused diagnostic => some diagnostic

/-- The name of the outcome in reports. -/
def label : Outcome → OutcomeLabel
  | .own => .own
  | .proxy _ => .proxy
  | .replaced _ => .replaced
  | .unimplemented _ => .unimplemented
  | .refused _ => .refused

end Outcome

/-- What is emitted for a type. -/
inductive TypeOutcome where
  | own
  /-- A shell whose members come from outside. -/
  | external
  /-- Every reference is this expression. -/
  | replaced (expression : String)
  | refused (diagnostic : ReferenceDiagnostic)
  deriving DecidableEq, Repr

namespace TypeOutcome

/-- What using the type raises. -/
def diagnostic? : TypeOutcome → Option ReferenceDiagnostic
  | .refused diagnostic => some diagnostic
  | _ => none

/-- The name of the outcome in reports. -/
def label : TypeOutcome → OutcomeLabel
  | .own => .own
  | .external => .external
  | .replaced _ => .replaced
  | .refused _ => .refused

end TypeOutcome

/-- A resolved member: its outcome and the name it is emitted under. -/
structure ResolvedMember where
  member : MemberId
  identity : Identity
  identifier : String
  outcome : Outcome
  deriving DecidableEq, Repr

/-- A resolved type: its outcome, the names it is emitted under, and what a reference
to it emits. -/
structure ResolvedType where
  type : TypeId
  identifier : String
  qualifiedName : String
  reference : String
  outcome : TypeOutcome
  deriving DecidableEq, Repr

end MemberResolution
