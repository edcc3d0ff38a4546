/-
Sessions.

A session answers questions about one program, under one choice of options, and
keeps finished answers in its cache.  A question that fails leaves nothing in the
cache, but it counts.

`Query` names the questions as data, so that whole conversations can be spoken
about.
-/
import MemberResolution.Access
import MemberResolution.Cache

namespace MemberResolution

/-- A resolver, the options it was made with, and the answers kept so far. -/
structure Session where
  resolver : Resolver
  options : Options
  cache : Cache

/-- A question to a session.  The session survives a failure. -/
abbrev Ask := ExceptT ConfigurationError (StateM Session)

namespace Session

/-- The session of a program before any question. -/
def start (program : Program) (options : Options) : Session where
  resolver := { program := program, maxDepth := options.maxInheritanceDepth.toNat }
  options := options
  cache := { enabled := options.cacheResolutions }

/-- Answers a question: the answer and the session after it. -/
def answer {α : Type} (session : Session) (question : Ask α) :
    Except ConfigurationError α × Session :=
  question.run.run session

end Session

namespace Ask

/-! ### The cache -/

/-- Makes a look-up in the cache. -/
def lookUp {α : Type} (find : Cache → Option α × Cache) : Ask (Option α) := do
  let session ← get
  let (found, cache) := find session.cache
  set { session with cache := cache }
  return found

/-- Changes the cache. -/
def store (change : Cache → Cache) : Ask Unit :=
  modify fun session => { session with cache := change session.cache }

/-! ### Resolving -/

/-- Resolves a member, from the cache if it is there. -/
def resolveMember (id : MemberId) : Ask ResolvedMember := do
  let resolver := (← get).resolver
  let identity := resolver.program.identityOfMember id
  match ← lookUp (·.member identity) with
  | some resolved => return resolved
  | none =>
    let resolved ← resolver.resolveMember id
    store (·.insertMember identity resolved)
    return resolved

/-- Resolves the member with an identity, if there is one. -/
def resolveIdentity (identity : Identity) : Ask (Option ResolvedMember) := do
  match (← get).resolver.program.findMember? identity with
  | some id => some <$> resolveMember id
  | none => return none

/-- Resolves a type, from the cache if it is there. -/
def resolveType (id : TypeId) : Ask ResolvedType := do
  let resolver := (← get).resolver
  let identity := resolver.program.identityOfType id
  match ← lookUp (·.type identity) with
  | some resolved => return resolved
  | none =>
    let resolved := resolver.resolveType id
    store (·.insertType identity resolved)
    return resolved

/-- The declaration a call of a signature through a receiver binds to. -/
def findDeclaration (receiver : TypeId) (signature : Identity) : Ask (Option MemberId) := do
  match ← lookUp (·.dispatch receiver signature) with
  | some target => return target
  | none =>
    let target ← (← get).resolver.findDeclaration receiver signature
    store (·.insertDispatch receiver signature target)
    return target

/-- Resolves a call of a signature through a receiver, if a type of the chain declares
it. -/
def resolveDispatch (receiver : TypeId) (signature : Identity) : Ask (Option ResolvedMember) := do
  match ← findDeclaration receiver signature with
  | some id => some <$> resolveMember id
  | none => return none

/-! ### Verdicts -/

/-- Whether a place may name a member. -/
def checkReference (id : MemberId) : Ask Access := do
  return (← resolveMember id).reference (← get).options.completeMessages

/-- Whether a place may call a member. -/
def checkInvocation (id : MemberId) : Ask Access := do
  return (← resolveMember id).invocation (← get).options.completeMessages

/-- Whether a place may name a type. -/
def checkTypeReference (id : TypeId) : Ask Access := do
  return (← resolveType id).access (← get).options.completeMessages

/-- What a test of a value against a type becomes. -/
def checkType (id : TypeId) : Ask TypeCheck := do
  let resolved ← resolveType id
  let session ← get
  return resolved.check (session.resolver.program.type id).kind session.options.completeMessages

/-- How a field is declared. -/
def fieldEmission (id : MemberId) : Ask FieldEmission := do
  let resolved ← resolveMember id
  return (← get).resolver.fieldEmission id resolved.outcome

/-- Drops every answer kept so far. -/
def invalidate : Ask Unit :=
  store Cache.invalidate

/-- Fails with the first configuration error of the store. -/
def validate : Ask Unit := do
  (← get).resolver.validate

end Ask

/-! ### Conversations -/

/-- A question to a session. -/
inductive Query where
  | member (id : MemberId)
  | identified (identity : Identity)
  | type (id : TypeId)
  | dispatch (receiver : TypeId) (signature : Identity)
  | reference (id : MemberId)
  | invocation (id : MemberId)
  | typeReference (id : TypeId)
  | typeCheck (id : TypeId)
  | fieldEmission (id : MemberId)
  | invalidate
  deriving DecidableEq, Repr

/-- The answer to a question. -/
inductive Answer where
  | member (resolved : ResolvedMember)
  | perhapsMember (resolved : Option ResolvedMember)
  | type (resolved : ResolvedType)
  | access (access : Access)
  | typeCheck (check : TypeCheck)
  | fieldEmission (emission : FieldEmission)
  | done
  deriving DecidableEq, Repr

namespace Query

/-- Puts a question to a session. -/
def ask : Query → Ask Answer
  | .member id => .member <$> Ask.resolveMember id
  | .identified identity => .perhapsMember <$> Ask.resolveIdentity identity
  | .type id => .type <$> Ask.resolveType id
  | .dispatch receiver signature => .perhapsMember <$> Ask.resolveDispatch receiver signature
  | .reference id => .access <$> Ask.checkReference id
  | .invocation id => .access <$> Ask.checkInvocation id
  | .typeReference id => .access <$> Ask.checkTypeReference id
  | .typeCheck id => .typeCheck <$> Ask.checkType id
  | .fieldEmission id => .fieldEmission <$> Ask.fieldEmission id
  | .invalidate => do
    Ask.invalidate
    return .done

end Query

namespace Session

/-- What a session becomes by a conversation, questions that fail included. -/
def after (session : Session) (queries : List Query) : Session :=
  queries.foldl (fun session query => (session.answer query.ask).2) session

/-- The answers of a conversation, in order. -/
def answers (session : Session) : List Query → List (Except ConfigurationError Answer)
  | [] => []
  | query :: rest =>
    let (answer, next) := session.answer query.ask
    answer :: next.answers rest

end Session

end MemberResolution
