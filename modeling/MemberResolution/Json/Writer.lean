/-
Writing JSON.

One writer serves both layouts: on one line without blanks, or with every item on
a line of its own, two blanks deeper than its container.  The layouts differ only
in what stands at a break and after a colon.  What was unusable when it was read is
written as `null`.
-/
import MemberResolution.Json.Value

namespace MemberResolution

namespace Json

/-! ### Text

A string is written between quotes.  Quote, backslash and the control characters
below the blank are escaped, with the short form where there is one; everything
else, non-ASCII characters included, stands as it is.
-/

/-- The lower-case hexadecimal digit of a number below sixteen. -/
def hexDigit (n : Nat) : Char :=
  if n < 10 then Char.ofNat (48 + n) else Char.ofNat (87 + n)

/-- A character as it is written inside a string. -/
def escapeChar (c : Char) : List Char :=
  if c = '"' then ['\\', '"']
  else if c = '\\' then ['\\', '\\']
  else if c = '\n' then ['\\', 'n']
  else if c = '\r' then ['\\', 'r']
  else if c = '\t' then ['\\', 't']
  else if c.toNat = 8 then ['\\', 'b']
  else if c.toNat = 12 then ['\\', 'f']
  else if c.toNat < 32 then
    ['\\', 'u', '0', '0', hexDigit (c.toNat / 16), hexDigit (c.toNat % 16)]
  else [c]

/-- A string between quotes, escaped. -/
def quote (s : String) : String :=
  "\"" ++ String.ofList (s.toList.flatMap escapeChar) ++ "\""

/-! ### Values -/

/-- How a value is spread over lines. -/
inductive Layout where
  | compact
  | indented
  deriving DecidableEq

/-- What stands before an item, or before a closing bracket, at a nesting depth. -/
def Layout.lineBreak (layout : Layout) (depth : Nat) : String :=
  match layout with
  | .compact => ""
  | .indented => "\n" ++ String.ofList (List.replicate (2 * depth) ' ')

/-- What stands between a name and its value. -/
def Layout.colon : Layout → String
  | .compact => ":"
  | .indented => ": "

mutual

/-- A value in a layout, its own text starting at a nesting depth. -/
def write (layout : Layout) (depth : Nat) : Json → String
  | .null => "null"
  | .bool true => "true"
  | .bool false => "false"
  | .natural value => toString value
  | .number literal => literal
  | .string value => quote value
  | .array [] => "[]"
  | .array (item :: rest) =>
      "[" ++ layout.lineBreak (depth + 1) ++ write layout (depth + 1) item
        ++ writeItems layout depth rest ++ layout.lineBreak depth ++ "]"
  | .object [] => "\x7b\x7d"
  | .object ((name, value) :: rest) =>
      "\x7b" ++ layout.lineBreak (depth + 1) ++ quote name ++ layout.colon
        ++ write layout (depth + 1) value ++ writeFields layout depth rest
        ++ layout.lineBreak depth ++ "\x7d"
  | .unusable => "null"

/-- The items of an array after the first. -/
def writeItems (layout : Layout) (depth : Nat) : List Json → String
  | [] => ""
  | item :: rest =>
      "," ++ layout.lineBreak (depth + 1) ++ write layout (depth + 1) item
        ++ writeItems layout depth rest

/-- The fields of an object after the first. -/
def writeFields (layout : Layout) (depth : Nat) : List (String × Json) → String
  | [] => ""
  | (name, value) :: rest =>
      "," ++ layout.lineBreak (depth + 1) ++ quote name ++ layout.colon
        ++ write layout (depth + 1) value ++ writeFields layout depth rest

end

/-- A value on one line. -/
def compact (value : Json) : String :=
  write .compact 0 value

/-- A value with every item on its own line. -/
def pretty (value : Json) : String :=
  write .indented 0 value

end Json

end MemberResolution
