/-
The store of directives.

The store is a log.  First every type that is no proxy, in loading order, and each
of its members enter what their own marks give.  Then every proxy type, in
the order of full names, enters what it brings to its target: its own directives to
the target type, those of its members to the members they supply, and the members
themselves as candidates.  A proxy that points at nothing enters a fault.

Each question to the store is a selection from the log, so its answers keep the
order of entering: own directives stand before those of proxies, and candidates
stand by the name of their proxy, however the program was loaded.
-/
import MemberResolution.ConfigurationError
import MemberResolution.Directive

namespace MemberResolution

/-- A proxy declaration that cannot be honoured.  The fault of a proxy member is kept
under the target type and the name that was looked for there. -/
structure Fault where
  place : Option (TypeId × String)
  error : ConfigurationError
  deriving DecidableEq, Repr

/-- What can be entered into the store. -/
inductive StoreEntry where
  /-- A directive of the symbol with an identity. -/
  | directive (symbol : Identity) (directive : Directive)
  /-- A candidate for the member with an identity. -/
  | candidate (target : Identity) (candidate : ProxyCandidate)
  /-- A proxy type and its target. -/
  | proxy (target proxy : TypeId)
  | fault (fault : Fault)
  deriving DecidableEq, Repr

namespace StoreEntry

/-- Enters what marks give to a symbol. -/
def ofMarks (symbol : Identity) (marks : List Mark) : List StoreEntry :=
  (Directive.ofMarks marks).map (.directive symbol)

end StoreEntry

namespace Program

/-! ### Own directives -/

/-- What a type and its members enter by themselves. -/
def ownEntries (program : Program) (type : LoadedType) : List StoreEntry :=
  (if program.inStubAssembly type.id then
      [.directive (program.identityOfType type.id) .stubAssembly]
    else [])
  ++ StoreEntry.ofMarks (program.identityOfType type.id) type.marks
  ++ type.members.flatMap fun member =>
      StoreEntry.ofMarks (program.identityOfMember member)
        (program.member member).marks

/-! ### Proxies in order -/

/-- The proxy types by full name. -/
def orderedProxies (program : Program) : List LoadedType :=
  inOrder (fun a b => a.key.precedes b.key) program.proxyTypes

/-! ### What a proxy member supplies -/

/-- The members of a target type that a name and the kind of a proxy member leave. -/
def namedTargets (program : Program) (member : LoadedMember) (target : TypeId) (name : String) :
    List LoadedMember :=
  (program.membersNamed target name).filter fun candidate => candidate.kind = member.kind

/-- The member of the target type that a proxy member supplies, or the fault in the
declaration.

A proxy member with a target name supplies the member of this name and its own kind:
the one with the same parameter types if there is one, else the only one.  Any other
supplies the member with its own signature. -/
def suppliedMember (program : Program) (member : LoadedMember) (target : TypeId) :
    Except Fault (MemberId × ProxyTarget) :=
  let targetKey := (program.type target).key
  let own := program.identityOf member
  match Mark.proxyTarget? member.marks with
  | some name =>
    let targets := program.namedTargets member target name
    let exact := targets.find? fun candidate => candidate.paramTypes = member.paramTypes
    match exact, targets with
    | some found, _ => .ok (found.id, .unqualified targetKey name)
    | none, [only] => .ok (only.id, .unqualified targetKey name)
    | none, [] => .error ⟨(target, name), .unknownTargetMember own.display name targetKey⟩
    | none, _ => .error ⟨(target, name), .ambiguousTarget own.display name targetKey⟩
  | none =>
    let identity := own.declaredBy targetKey
    match program.findMember? identity with
    | some found => .ok (found, .symbol identity)
    | none =>
      .error ⟨(target, member.name.text),
        .unknownTargetMember own.display identity.display targetKey⟩

/-- Whether a proxy member has nothing to do with the target: it is a generated
field, or it or the property or event it belongs to is never to replace anything. -/
def isInert (program : Program) (member : LoadedMember) : Bool :=
  member.isBackingField || Mark.isNeverReplaced member.marks
    || match member.owner? with
      | some owner => Mark.isNeverReplaced (program.member owner).marks
      | none => false

/-- What a proxy member enters. -/
def memberEntries (program : Program) (proxy : LoadedType) (inheritable : Bool) (target : TypeId)
    (id : MemberId) : List StoreEntry :=
  let member := program.member id
  if program.isInert member then []
  else match program.suppliedMember member target with
    | .error fault => [.fault fault]
    | .ok (supplied, proxyTarget) =>
      let identity := program.identityOfMember supplied
      let mode : ProxyMode :=
        if Mark.suppressesBaseCall member.marks then .replaceBodySuppressBaseCall
        else .replaceBody
      StoreEntry.ofMarks identity member.marks
      ++ if !member.kind.isCallable || Mark.isIgnored member.marks then []
        else
          [.directive (program.identityOfMember id)
             (.proxySource ⟨proxyTarget, mode, inheritable⟩),
           .candidate identity
             { member := id, proxyType := proxy.id, target := supplied, mode := mode,
               inheritable := inheritable,
               hasBody := member.body = .present && !Mark.isExternal member.marks }]

/-! ### What a proxy type supplies -/

/-- Whether one of the types around a type is itself marked to be ignored. -/
def isInsideIgnored (program : Program) (id : TypeId) : Bool :=
  (program.enclosingChain id).tail.any fun outer =>
    Mark.isIgnored (program.type outer).marks

/-- What a proxy type and its members enter. -/
def proxyEntries (program : Program) (proxy : LoadedType) : List StoreEntry :=
  match Mark.proxyOf? proxy.marks with
  | none => []
  | some (targetKey, inheritable) =>
    if program.isInsideIgnored proxy.id then []
    else match program.findType? targetKey with
      | none => [.fault ⟨none, .unknownTargetType proxy.key targetKey⟩]
      | some target =>
        .proxy target proxy.id
          :: StoreEntry.ofMarks (program.identityOfType target) proxy.marks
        ++ if Mark.isIgnored proxy.marks then []
          else proxy.members.flatMap (program.memberEntries proxy inheritable target)

end Program

/-- The directives, candidates and faults of a program. -/
structure Store where
  entries : List StoreEntry
  deriving DecidableEq, Repr

namespace Store

/-- The store of a program. -/
def ofProgram (program : Program) : Store :=
  ⟨program.plainTypes.flatMap program.ownEntries
    ++ program.orderedProxies.flatMap program.proxyEntries⟩

/-- The directives of the symbol with an identity, in order. -/
def directivesFor (store : Store) (symbol : Identity) : List Directive :=
  store.entries.filterMap fun
    | .directive identity directive => if identity = symbol then some directive else none
    | _ => none

/-- The candidates for the member with an identity, by the name of their proxy. -/
def candidatesFor (store : Store) (target : Identity) : List ProxyCandidate :=
  store.entries.filterMap fun
    | .candidate identity candidate => if identity = target then some candidate else none
    | _ => none

/-- The proxy types whose target is the given type. -/
def proxiesOf (store : Store) (type : TypeId) : List TypeId :=
  store.entries.filterMap fun
    | .proxy target proxy => if target = type then some proxy else none
    | _ => none

/-- Every fault, in order. -/
def faults (store : Store) : List Fault :=
  store.entries.filterMap fun
    | .fault fault => some fault
    | _ => none

/-- The faults that are recorded: of several proxy members that look for one name in
one type only the first counts. -/
def distinctFaults : List Fault → List Fault
  | [] => []
  | fault :: rest =>
    fault :: (distinctFaults rest).filter fun later =>
      fault.place.isNone || later.place != fault.place

/-- The configuration errors of the program, in order. -/
def configurationErrors (store : Store) : List ConfigurationError :=
  (distinctFaults store.faults).map (·.error)

/-- The error recorded for a name that a proxy member looked for in a type. -/
def errorFor? (store : Store) (type : TypeId) (name : String) : Option ConfigurationError :=
  (store.faults.find? fun fault => fault.place = some (type, name)).map (·.error)

end Store

end MemberResolution
