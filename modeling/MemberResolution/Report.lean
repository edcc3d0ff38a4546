/-
Reports.

A report lists every type that is no proxy, in loading order, with each of its
members, and after that every diagnostic, in the same order.
-/
import MemberResolution.Session

namespace MemberResolution

/-- What a report says of a member. -/
structure MemberRecord where
  signature : String
  identifier : String
  outcome : OutcomeLabel
  translatable : Bool
  proxy : Option String
  replacement : Option String
  diagnostic : Option Diagnostic
  deriving DecidableEq, Repr

/-- What a report says of a type. -/
structure TypeRecord where
  name : TypeKey
  identifier : String
  reference : String
  outcome : OutcomeLabel
  diagnostic : Option Diagnostic
  members : List MemberRecord
  deriving DecidableEq, Repr

/-- The resolution of a whole program. -/
structure Report where
  types : List TypeRecord
  diagnostics : List Diagnostic
  cache : CacheStats
  deriving DecidableEq, Repr

/-- The record of a resolved member. -/
def MemberRecord.ofResolved (program : Program) (complete : Bool) (resolved : ResolvedMember) :
    MemberRecord where
  signature := resolved.identity.display
  identifier := resolved.identifier
  outcome := resolved.outcome.label
  translatable := resolved.outcome.isTranslatable
  proxy :=
    match resolved.outcome.bodySource with
    | .proxy body => some (program.identityOfMember body.member).display
    | _ => none
  replacement :=
    match resolved.outcome.bodySource with
    | .replacement expression => some expression
    | _ => none
  diagnostic := resolved.outcome.diagnostic?.map (·.toDiagnostic complete)

/-- The record of a resolved type with the records of its members. -/
def TypeRecord.ofResolved (program : Program) (complete : Bool) (resolved : ResolvedType)
    (members : List MemberRecord) : TypeRecord where
  name := (program.type resolved.type).key
  identifier := resolved.identifier
  reference := resolved.reference
  outcome := resolved.outcome.label
  diagnostic := resolved.outcome.diagnostic?.map (·.toDiagnostic complete)
  members := members

/-- The diagnostic of a type, then those of its members. -/
def TypeRecord.allDiagnostics (record : TypeRecord) : List Diagnostic :=
  record.diagnostic.toList ++ record.members.filterMap (·.diagnostic)

/-- Adds a member to the record of its type, and its diagnostic to those of before. -/
def TypeRecord.addMember (written : TypeRecord × List Diagnostic) (member : MemberRecord) :
    TypeRecord × List Diagnostic :=
  ({ written.1 with members := written.1.members ++ [member] },
    written.2 ++ member.diagnostic.toList)

/-- Adds a type to a report, and each diagnostic as soon as the type or member is resolved
that it is about. -/
def Ask.reportType (program : Program) (complete : Bool) (report : Report) (type : LoadedType) :
    Ask Report := do
  let record := TypeRecord.ofResolved program complete (← Ask.resolveType type.id) []
  let written ← type.members.foldlM
    (fun written id => do
      let resolved ← Ask.resolveMember id
      return TypeRecord.addMember written (MemberRecord.ofResolved program complete resolved))
    (record, report.diagnostics ++ record.diagnostic.toList)
  return { report with types := report.types ++ [written.1], diagnostics := written.2 }

/-- Reports on everything that is no proxy. -/
def Ask.report : Ask Report := do
  Ask.validate
  let session ← get
  let report ← session.resolver.program.plainTypes.foldlM
    (Ask.reportType session.resolver.program session.options.completeMessages)
    { types := [], diagnostics := [], cache := {} }
  return { report with cache := (← get).cache.stats }

/-- The report of a program, or the first configuration error that is met. -/
def Program.resolve (program : Program) (options : Options) : Except ConfigurationError Report :=
  ((Session.start program options).answer Ask.report).1

namespace Report

/-- The first record of a member with a signature. -/
def member? (report : Report) (signature : String) : Option MemberRecord :=
  (report.types.flatMap (·.members)).find? (·.signature == signature)

/-- The first record of a type with a name. -/
def type? (report : Report) (name : String) : Option TypeRecord :=
  report.types.find? (·.name.text == name)

/-- The report with the types of one name only.  All else stays as it is. -/
def onlyType (report : Report) (name : String) : Report :=
  { report with types := report.types.filter (·.name.text == name) }

end Report

end MemberResolution
