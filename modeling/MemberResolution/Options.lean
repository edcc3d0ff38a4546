/-
Options of a resolution run, and the limits on the walks it makes.
-/
namespace MemberResolution

/-- How many ancestors of a type are walked unless the options say otherwise. -/
def defaultInheritanceDepth : UInt32 := 64

/-- How many types, the innermost included, a walk through enclosing types visits. -/
def maxNestingDepth : Nat := 32

/-- What a caller may choose. -/
structure Options where
  /-- Keep finished answers for the rest of the session. -/
  cacheResolutions : Bool := true
  /-- How deep a chain of base types may be. -/
  maxInheritanceDepth : UInt32 := defaultInheritanceDepth
  /-- Render messages about missing implementations whole. -/
  completeMessages : Bool := true
  deriving DecidableEq, Repr

/-- The defaults without the cache. -/
def Options.uncached : Options :=
  { cacheResolutions := false }

end MemberResolution
