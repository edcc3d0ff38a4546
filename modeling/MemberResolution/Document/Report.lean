/-
Reports and diagnostics as documents.

What is absent is left out.
-/
import MemberResolution.Json.Value
import MemberResolution.Report

namespace MemberResolution

/-- A field that is left out where there is no value. -/
def Json.fieldIfPresent (name : String) : Option Json → List (String × Json)
  | none => []
  | some value => [(name, value)]

/-- The name of a category in documents. -/
def Category.documentName : Category → String
  | .warning => "Warning"
  | .error => "Error"
  | .suggestion => "Suggestion"
  | .message => "Message"

/-- The document of a diagnostic. -/
def Diagnostic.toJson (diagnostic : Diagnostic) : Json :=
  .object <|
    [("code", .natural diagnostic.code),
     ("category", .string diagnostic.category.documentName),
     ("message_text", .string diagnostic.text)]
    ++ Json.fieldIfPresent "symbol" (diagnostic.symbol.map .string)

/-- The document of a diagnostic of a reference: its kind, then its parts. -/
def ReferenceDiagnostic.toJson : ReferenceDiagnostic → Json
  | .refused signature => .object [("kind", .string "refused"), ("signature", .string signature)]
  | .externalMethod signature typeName =>
    .object [("kind", .string "externalMethod"), ("signature", .string signature),
      ("type_name", .string typeName)]
  | .externalType typeName =>
    .object [("kind", .string "externalType"), ("type_name", .string typeName)]
  | .untranslatable signature =>
    .object [("kind", .string "untranslatable"), ("signature", .string signature)]

/-- The document of the counts of a cache. -/
def CacheStats.toJson (stats : CacheStats) : Json :=
  .object [("hits", .natural stats.hits), ("misses", .natural stats.misses),
    ("invalidations", .natural stats.invalidations)]

/-- The document of the record of a member. -/
def MemberRecord.toJson (record : MemberRecord) : Json :=
  .object <|
    [("signature", .string record.signature), ("identifier", .string record.identifier),
     ("outcome", .string record.outcome.text), ("translatable", .bool record.translatable)]
    ++ Json.fieldIfPresent "proxy" (record.proxy.map .string)
    ++ Json.fieldIfPresent "replacement" (record.replacement.map .string)
    ++ Json.fieldIfPresent "diagnostic" (record.diagnostic.map Diagnostic.toJson)

/-- The document of the record of a type, its members last. -/
def TypeRecord.toJson (record : TypeRecord) : Json :=
  .object <|
    [("name", .string record.name.text), ("identifier", .string record.identifier),
     ("reference", .string record.reference), ("outcome", .string record.outcome.text)]
    ++ Json.fieldIfPresent "diagnostic" (record.diagnostic.map Diagnostic.toJson)
    ++ [("members", .array (record.members.map MemberRecord.toJson))]

/-- The document of a report. -/
def Report.toJson (report : Report) : Json :=
  .object [("types", .array (report.types.map TypeRecord.toJson)),
    ("diagnostics", .array (report.diagnostics.map Diagnostic.toJson)),
    ("cache", report.cache.toJson)]

end MemberResolution
