/-
Options as documents.

Every field has a default.  The switch for the cache lies in a structure of its own.
-/
import MemberResolution.Document.Fields
import MemberResolution.Json.Reader
import MemberResolution.Options

namespace MemberResolution

namespace Options

/-- The switch for the cache, in the structure that holds it. -/
def cacheSwitch? (json : Json) : Option Bool := do
  let fields ← Document.Fields.read? ["cacheTypeExpressions"] json
  fields.withDefault? "cacheTypeExpressions" true Document.flag?

/-- The options a document gives. -/
def ofJson? (json : Json) : Option Options := do
  let fields ← Document.Fields.read?
    ["optimizer", "maxInheritanceDepth", "completeUnimplementedMessages"] json
  return {
    cacheResolutions := ← fields.withDefault? "optimizer" true cacheSwitch?
    maxInheritanceDepth :=
      ← fields.withDefault? "maxInheritanceDepth" defaultInheritanceDepth Document.word?
    completeMessages :=
      ← fields.withDefault? "completeUnimplementedMessages" true Document.flag? }

/-- The document of the options. -/
def toJson (options : Options) : Json :=
  .object [
    ("optimizer", .object [("cacheTypeExpressions", .bool options.cacheResolutions)]),
    ("maxInheritanceDepth", .natural options.maxInheritanceDepth.toNat),
    ("completeUnimplementedMessages", .bool options.completeMessages)]

/-- The options the text of a document gives. -/
def parse? (text : String) : Option Options :=
  (Json.parse? text).bind ofJson?

end Options

end MemberResolution
