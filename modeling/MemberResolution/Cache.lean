/-
The cache of a session.

A cache is three memos, of members, of types and of dispatches, with a count of the
look-ups that did and did not find something and of the times it was emptied.  A
dispatch that found no declaration is remembered as such, which is not the same as
not being remembered.

A cache that is switched off counts, but keeps nothing.
-/
import MemberResolution.Collection
import MemberResolution.Outcome

namespace MemberResolution

/-! ### The cache -/

/-- What happened to a cache so far. -/
structure CacheStats where
  hits : Nat := 0
  misses : Nat := 0
  invalidations : Nat := 0
  deriving DecidableEq, Repr

/-- Resolved members and types under their identities, and the declarations that
signatures were dispatched to under receiver and signature. -/
structure Cache where
  enabled : Bool
  members : Memo Identity ResolvedMember := {}
  types : Memo Identity ResolvedType := {}
  dispatches : Memo (TypeId × Identity) (Option MemberId) := {}
  stats : CacheStats := {}
  deriving Repr

namespace Cache

/-- How many answers are kept. -/
def size (cache : Cache) : Nat :=
  cache.members.size + cache.types.size + cache.dispatches.size

/-- Counts a look-up. -/
def record (cache : Cache) (found : Bool) : Cache :=
  { cache with
    stats :=
      if found then { cache.stats with hits := cache.stats.hits + 1 }
      else { cache.stats with misses := cache.stats.misses + 1 } }

/-! ### Look-ups -/

/-- The resolved member under an identity. -/
def member (cache : Cache) (identity : Identity) : Option ResolvedMember × Cache :=
  let found := cache.members.find? identity
  (found, cache.record found.isSome)

/-- The resolved type under an identity. -/
def type (cache : Cache) (identity : Identity) : Option ResolvedType × Cache :=
  let found := cache.types.find? identity
  (found, cache.record found.isSome)

/-- What a signature was dispatched to through a receiver, which may be nothing. -/
def dispatch (cache : Cache) (receiver : TypeId) (signature : Identity) :
    Option (Option MemberId) × Cache :=
  let found := cache.dispatches.find? (receiver, signature)
  (found, cache.record found.isSome)

/-! ### Changes -/

/-- Keeps a resolved member, if the cache is switched on. -/
def insertMember (cache : Cache) (identity : Identity) (resolved : ResolvedMember) : Cache :=
  if cache.enabled then { cache with members := cache.members.insert identity resolved }
  else cache

/-- Keeps a resolved type, if the cache is switched on. -/
def insertType (cache : Cache) (identity : Identity) (resolved : ResolvedType) : Cache :=
  if cache.enabled then { cache with types := cache.types.insert identity resolved } else cache

/-- Keeps what a signature was dispatched to, if the cache is switched on. -/
def insertDispatch (cache : Cache) (receiver : TypeId) (signature : Identity)
    (target : Option MemberId) : Cache :=
  if cache.enabled then
    { cache with dispatches := cache.dispatches.insert (receiver, signature) target }
  else cache

/-- Drops every answer.  The counts stay. -/
def invalidate (cache : Cache) : Cache :=
  { cache with
    members := {}
    types := {}
    dispatches := {}
    stats := { cache.stats with invalidations := cache.stats.invalidations + 1 } }

end Cache

end MemberResolution
