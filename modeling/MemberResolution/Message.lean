/-
Messages.

Every diagnostic takes its text from a template with the placeholders `{0}`, `{1}`
and so on.  The texts are part of the contract: emitted programs carry them, and
their users match on them.

Placeholders are filled one number after the other, over the text as the numbers
before have left it.
-/
namespace MemberResolution

/-! ### Filling templates -/

/-- Replaces each occurrence of a pattern, from left to right and without overlap.
The counter says how many characters of the last occurrence are still to be
passed over; at zero the next occurrence may start. -/
def replaceFrom (pattern replacement : List Char) : Nat → List Char → List Char
  | _, [] => []
  | passed + 1, _ :: rest => replaceFrom pattern replacement passed rest
  | 0, c :: rest =>
    if pattern.isPrefixOf (c :: rest) then
      replacement ++ replaceFrom pattern replacement (pattern.length - 1) rest
    else c :: replaceFrom pattern replacement 0 rest

/-- The text of the placeholder with a number. -/
def placeholder (number : Nat) : List Char :=
  '\x7b' :: (toString number).toList ++ ['\x7d']

/-- Fills the placeholders from a number on, in order. -/
def fillFrom (number : Nat) (text : List Char) : List String → List Char
  | [] => text
  | argument :: rest =>
    fillFrom (number + 1) (replaceFrom (placeholder number) argument.toList 0 text) rest

/-- The template with its placeholders filled. -/
def formatMessage (template : String) (arguments : List String) : String :=
  String.ofList (fillFrom 0 template.toList arguments)

/-! ### The short form -/

/-- Where a message about something not implemented may be cut. -/
def unimplementedStem : String := "has not"

/-- The text up to the end of the last occurrence of a stem, if it occurs. -/
def throughLast? (stem : List Char) : List Char → Option (List Char)
  | [] => none
  | c :: rest =>
    match throughLast? stem rest with
    | some kept => some (c :: kept)
    | none => if stem.isPrefixOf (c :: rest) then some stem else none

/-- The message cut right after the last `has not`, or whole where it has none. -/
def cutAtStem (message : String) : String :=
  match throughLast? unimplementedStem.toList message.toList with
  | some kept => String.ofList kept
  | none => message

/-! ### The table of messages -/

/-- How serious a diagnostic is. -/
inductive Category where
  | warning
  | error
  | suggestion
  | message
  deriving DecidableEq, Repr

/-- What can be said. -/
inductive Message where
  | memberRefused
  | externalMethodMissing
  | externalTypeMissing
  | untranslatable
  | proxyTargetTypeMissing
  | proxyTargetMemberMissing
  | proxyTargetAmbiguous
  | inheritanceTooDeep
  deriving DecidableEq, Repr

namespace Message

/-- Every message, by ascending code. -/
def all : List Message :=
  [.memberRefused, .externalMethodMissing, .externalTypeMissing, .untranslatable,
   .proxyTargetTypeMissing, .proxyTargetMemberMissing, .proxyTargetAmbiguous,
   .inheritanceTooDeep]

/-- The number a message is known by. -/
def code : Message → Nat
  | .memberRefused => 9001
  | .externalMethodMissing => 9002
  | .externalTypeMissing => 9003
  | .untranslatable => 9004
  | .proxyTargetTypeMissing => 9100
  | .proxyTargetMemberMissing => 9101
  | .proxyTargetAmbiguous => 9102
  | .inheritanceTooDeep => 9103

/-- The text of a message before its placeholders are filled. -/
def template : Message → String
  | .memberRefused => "an attempt was made to reference the member '\x7b0\x7d'"
  | .externalMethodMissing =>
    "The external method '\x7b0\x7d' of type '\x7b1\x7d' has not been implemented."
  | .externalTypeMissing => "The external type '\x7b0\x7d' has not been implemented."
  | .untranslatable => "The function '\x7b0\x7d' could not be translated."
  | .proxyTargetTypeMissing =>
    "Proxy type '\x7b0\x7d' targets type '\x7b1\x7d', which is not loaded."
  | .proxyTargetMemberMissing =>
    "Proxy member '\x7b0\x7d' targets '\x7b1\x7d', which is not declared by type '\x7b2\x7d'."
  | .proxyTargetAmbiguous =>
    "Proxy member '\x7b0\x7d' names '\x7b1\x7d', "
      ++ "which matches more than one member of type '\x7b2\x7d'."
  | .inheritanceTooDeep =>
    "The inheritance chain of type '\x7b0\x7d' exceeds the maximum depth of \x7b1\x7d."

/-- Every message is an error. -/
def category (_ : Message) : Category := .error

/-- The message with a code. -/
def ofCode? (code : Nat) : Option Message :=
  all.find? (·.code == code)

/-- The message with its placeholders filled. -/
def render (message : Message) (arguments : List String) : String :=
  formatMessage message.template arguments

end Message

end MemberResolution
