/-
Chains of base types.

The chain of a type is the type itself, then its base, and so on up to a type whose
base is absent or not loaded.  Assemblies that do not fit together can make it a
cycle, so a chain is followed only a little beyond the limit: it is cut after one
entry more than the limit, and it is too deep if even then it goes on.
-/
import MemberResolution.ConfigurationError
import MemberResolution.Program.Basic

namespace MemberResolution

namespace Program

/-- A type and its bases, most derived first, at most so many. -/
def ancestorsUpTo (program : Program) : Nat → TypeId → List TypeId
  | 0, _ => []
  | count + 1, id =>
    id :: match program.baseOf? id with
      | some base => program.ancestorsUpTo count base
      | none => []

/-- The chain of a type as far as it is kept. -/
def keptChain (program : Program) (maxDepth : Nat) (id : TypeId) : List TypeId :=
  program.ancestorsUpTo (maxDepth + 1) id

/-- Whether the chain of a type goes on after the part that is kept. -/
def isTooDeep (program : Program) (maxDepth : Nat) (id : TypeId) : Bool :=
  maxDepth + 1 < (program.ancestorsUpTo (maxDepth + 2) id).length

/-- The chain of a type, unless it is too deep. -/
def chain (program : Program) (maxDepth : Nat) (id : TypeId) :
    Except ConfigurationError (List TypeId) :=
  if program.isTooDeep maxDepth id then
    .error (.inheritanceTooDeep (program.type id).key maxDepth)
  else .ok (program.keptChain maxDepth id)

/-- Whether a type is another or stands in the part of its chain that is kept. -/
def isAncestor (program : Program) (maxDepth : Nat) (ancestor id : TypeId) : Bool :=
  (program.keptChain maxDepth id).contains ancestor

end Program

end MemberResolution
