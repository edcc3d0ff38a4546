/-
Signatures of members as text, and the diagnostics that show them.

There are three renderings.  A reference shows the name and the names of the
parameters.  A missing implementation shows the result type, with `void` for no
result, and the parameter types.  A body that cannot be lowered shows the declaring
type as well, and keeps the full name of the empty result type.  All of them use
declared names, never the names symbols are emitted under.
-/
import MemberResolution.Program.Basic
import MemberResolution.ReferenceDiagnostic

namespace MemberResolution

namespace Program

/-- The parameter types of a member, separated by commas. -/
def paramTypesText (member : LoadedMember) : String :=
  ", ".intercalate (member.paramTypes.map (·.text))

/-- Name and parameter names; what is not called shows its name alone. -/
def referenceSignature (program : Program) (id : MemberId) : String :=
  let member := program.member id
  if member.kind.isCallable then
    member.name.text ++ "(" ++ ", ".intercalate (member.params.map (·.name)) ++ ")"
  else member.name.text

/-- Result type, name and parameter types. -/
def externalSignature (program : Program) (id : MemberId) : String :=
  let member := program.member id
  (if member.type.isVoid then "void" else member.type.text) ++ " " ++ member.name.text
    ++ "(" ++ paramTypesText member ++ ")"

/-- Result type, declaring type, name and parameter types. -/
def untranslatableSignature (program : Program) (id : MemberId) : String :=
  let member := program.member id
  member.type.text ++ " " ++ (program.type member.declaringType).key.text ++ "::"
    ++ member.name.text ++ "(" ++ paramTypesText member ++ ")"

/-! ### Diagnostics -/

/-- The diagnostic of a use of an ignored member. -/
def refusedMember (program : Program) (id : MemberId) : ReferenceDiagnostic :=
  .refused (program.referenceSignature id)

/-- The diagnostic of a use of an ignored type. -/
def refusedType (program : Program) (id : TypeId) : ReferenceDiagnostic :=
  .refused (program.type id).key.text

/-- The diagnostic of a call of a member without a body. -/
def externalMethod (program : Program) (id : MemberId) : ReferenceDiagnostic :=
  .externalMethod (program.externalSignature id)
    (program.type (program.member id).declaringType).key.text

/-- The diagnostic of a use of an external type that nothing implements. -/
def externalType (program : Program) (id : TypeId) : ReferenceDiagnostic :=
  .externalType (program.type id).key.text

/-- The diagnostic of a call of a member whose body cannot be lowered. -/
def untranslatableMember (program : Program) (id : MemberId) : ReferenceDiagnostic :=
  .untranslatable (program.untranslatableSignature id)

end Program

end MemberResolution
