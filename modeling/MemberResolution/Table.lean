/-
Frozen tables.

A table holds the resolution of every type that is no proxy and of each of its
members, all made at once, and gives its verdicts without a session.
-/
import MemberResolution.Session

namespace MemberResolution

/-- Finished resolutions, each under its position. -/
structure Table where
  types : List (TypeId × ResolvedType)
  members : List (MemberId × ResolvedMember)
  completeMessages : Bool
  deriving DecidableEq, Repr

/-- Resolves everything that is no proxy, unless the store has a configuration error
or a resolution fails. -/
def Ask.freeze : Ask Table := do
  Ask.validate
  let session ← get
  let rows ← session.resolver.program.plainTypes.mapM fun type => do
    let resolved ← Ask.resolveType type.id
    let members ← type.members.mapM fun id => do
      return (id, ← Ask.resolveMember id)
    return ((type.id, resolved), members)
  return {
    types := rows.map (·.1)
    members := rows.flatMap (·.2)
    completeMessages := session.options.completeMessages }

namespace Table

/-- The resolution of a member, if the table holds it. -/
def member? (table : Table) (id : MemberId) : Option ResolvedMember :=
  table.members.lookup id

/-- The resolution of a type, if the table holds it. -/
def type? (table : Table) (id : TypeId) : Option ResolvedType :=
  table.types.lookup id

/-- How many members there are. -/
def size (table : Table) : Nat :=
  table.members.length

/-- A place that calls a member: it may, unless the member has a diagnostic. -/
def checkInvocation? (table : Table) (id : MemberId) : Option Access :=
  (table.member? id).map fun resolved =>
    match resolved.outcome.diagnostic? with
    | some diagnostic => .rejected (diagnostic.toDiagnostic table.completeMessages)
    | none => .allowed resolved.identifier

/-- A place that tests a value against a type: it may, unless the type has a
diagnostic. -/
def checkType? (table : Table) (program : Program) (id : TypeId) : Option TypeCheck :=
  (table.type? id).map fun resolved =>
    match resolved.outcome.diagnostic? with
    | some diagnostic =>
      if (program.type id).kind = .interfaceType then .alwaysFalse
      else .rejected (diagnostic.toDiagnostic table.completeMessages)
    | none => .evaluate resolved.reference

/-- Whether a body is emitted for a resolved member: it is called, and its own or
supplied by a proxy. -/
def emitsBody (program : Program) (resolved : ResolvedMember) : Bool :=
  (program.member resolved.member).kind.isCallable
    && match resolved.outcome with
      | .own | .proxy _ => true
      | _ => false

/-- The members a body is emitted for, by position. -/
def emittedBodies (table : Table) (program : Program) : List MemberId :=
  let emitted := (table.members.map (·.2)).filter (emitsBody program)
  inOrder (fun a b => decide (a.index ≤ b.index)) (emitted.map (·.member))

end Table

end MemberResolution
