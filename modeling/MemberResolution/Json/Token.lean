/-
The tokens of a JSON text.

The scanner is a machine that takes one character at a time, so scanning a text is
a fold over its characters.  It is strict: only blank, tab, line feed and carriage
return separate tokens, a number follows the JSON grammar to the letter, a string
holds no control character, and every other character is a fault.

Escapes of the form `\uXXXX` name UTF-16 units.  Two units of a surrogate pair
make one character; half a pair makes the string unusable, which is not yet a
fault, because a string that is skipped may hold it.
-/
import MemberResolution.Json.Number

namespace MemberResolution

namespace Json

/-- A token.  A text is absent when it holds half a surrogate pair. -/
inductive Token where
  | openArray
  | closeArray
  | openObject
  | closeObject
  | comma
  | colon
  | scalar (value : Json)
  | text (value : Option String)

/-! ### Words -/

/-- The value a word denotes. -/
def wordOf? (letters : List Char) : Option Json :=
  if letters = ['n', 'u', 'l', 'l'] then some .null
  else if letters = ['t', 'r', 'u', 'e'] then some (.bool true)
  else if letters = ['f', 'a', 'l', 's', 'e'] then some (.bool false)
  else none

/-! ### Strings -/

/-- Where inside an escape a string is being read. -/
inductive Escape where
  | outside
  | started
  | unit (digitsLeft value : Nat)

/-- A string that is being read: its characters so far, last first; whether it can
be kept; a leading surrogate that waits for the other half; and the escape. -/
structure OpenText where
  reversed : List Char := []
  sound : Bool := true
  leading : Option Nat := none
  escape : Escape := .outside

namespace OpenText

/-- Nothing that follows completes a waiting surrogate: half a pair was read. -/
def abandonLeading (text : OpenText) : OpenText :=
  match text.leading with
  | none => text
  | some _ => { text with sound := false, leading := none }

/-- A character that stands for itself, or that a short escape names. -/
def push (text : OpenText) (c : Char) : OpenText :=
  let text := text.abandonLeading
  { text with reversed := c :: text.reversed, escape := .outside }

/-- A complete UTF-16 unit.  A trailing half joins the leading one before it. -/
def pushUnit (text : OpenText) (unit : Nat) : OpenText :=
  let closed := { text with escape := .outside }
  if 0xDC00 ≤ unit ∧ unit < 0xE000 then
    match text.leading with
    | some high =>
      let scalar := 0x10000 + (high - 0xD800) * 0x400 + (unit - 0xDC00)
      { closed with reversed := Char.ofNat scalar :: text.reversed, leading := none }
    | none => { closed with sound := false }
  else if 0xD800 ≤ unit ∧ unit < 0xDC00 then
    { closed.abandonLeading with leading := some unit }
  else closed.push (Char.ofNat unit)

/-- The string that ends here. -/
def close (text : OpenText) : Option String :=
  if text.sound && text.leading.isNone then some (String.ofList text.reversed.reverse) else none

/-- The number a hexadecimal digit of either case denotes. -/
def hexValue? (c : Char) : Option Nat :=
  if '0' ≤ c ∧ c ≤ '9' then some (c.toNat - 48)
  else if 'a' ≤ c ∧ c ≤ 'f' then some (c.toNat - 87)
  else if 'A' ≤ c ∧ c ≤ 'F' then some (c.toNat - 55)
  else none

/-- The character a short escape names. -/
def shortEscape? (c : Char) : Option Char :=
  if c = '"' ∨ c = '\\' ∨ c = '/' then some c
  else if c = 'b' then some (Char.ofNat 8)
  else if c = 'f' then some (Char.ofNat 12)
  else if c = 'n' then some '\n'
  else if c = 'r' then some '\r'
  else if c = 't' then some '\t'
  else none

/-- Takes a character inside an escape. -/
def stepEscape (text : OpenText) (c : Char) : Escape → Option OpenText
  | .outside => some (text.push c)
  | .started =>
    if c = 'u' then some { text with escape := .unit 4 0 }
    else (shortEscape? c).map text.push
  | .unit digitsLeft value => do
    let digit ← hexValue? c
    let value := 16 * value + digit
    if digitsLeft ≤ 1 then some (text.pushUnit value)
    else some { text with escape := .unit (digitsLeft - 1) value }

end OpenText

/-! ### The scanner -/

/-- What the scanner is in the middle of. -/
inductive ScanMode where
  | between
  | word (reversed : List Char)
  | number (reversed : List Char)
  | text (soFar : OpenText)

/-- The scanner: its mode and the tokens found so far, last first. -/
structure Scanner where
  mode : ScanMode := .between
  reversed : List Token := []

namespace Scanner

/-- Whether a character may occur in a number. -/
def isNumeric (c : Char) : Bool :=
  c.isDigit || c == '-' || c == '+' || c == '.' || c == 'e' || c == 'E'

/-- The token of a punctuation mark. -/
def punctuation? (c : Char) : Option Token :=
  if c = '[' then some .openArray
  else if c = ']' then some .closeArray
  else if c = '\x7b' then some .openObject
  else if c = '\x7d' then some .closeObject
  else if c = ',' then some .comma
  else if c = ':' then some .colon
  else none

/-- Adds a token and returns to the space between tokens. -/
def emit (scanner : Scanner) (token : Token) : Scanner :=
  ⟨.between, token :: scanner.reversed⟩

/-- Takes a character between tokens. -/
def start (scanner : Scanner) (c : Char) : Option Scanner :=
  if c = ' ' ∨ c = '\n' ∨ c = '\t' ∨ c = '\r' then some scanner
  else if c = '"' then some { scanner with mode := .text {} }
  else if c = '-' ∨ c.isDigit then some { scanner with mode := .number [c] }
  else if c.isLower then some { scanner with mode := .word [c] }
  else (punctuation? c).map scanner.emit

/-- Ends a word or number that the next character, or the end of the text, cuts. -/
def settle (scanner : Scanner) : Option Scanner :=
  match scanner.mode with
  | .between => some scanner
  | .word letters => (wordOf? letters.reverse).map fun value => scanner.emit (.scalar value)
  | .number digits => (numberOf? digits.reverse).map fun value => scanner.emit (.scalar value)
  | .text _ => none

/-- Takes one character. -/
def step (scanner : Scanner) (c : Char) : Option Scanner :=
  match scanner.mode with
  | .between => scanner.start c
  | .word letters =>
    if c.isLower then some { scanner with mode := .word (c :: letters) }
    else scanner.settle.bind (·.start c)
  | .number digits =>
    if isNumeric c then some { scanner with mode := .number (c :: digits) }
    else scanner.settle.bind (·.start c)
  | .text text =>
    match text.escape with
    | .outside =>
      if c = '"' then some (scanner.emit (.text text.close))
      else if c = '\\' then some { scanner with mode := .text { text with escape := .started } }
      else if c.toNat < 32 then none
      else some { scanner with mode := .text (text.push c) }
    | escape => (text.stepEscape c escape).map fun text => { scanner with mode := .text text }

end Scanner

/-- The tokens of a text, if every character belongs to one. -/
def tokens? (text : String) : Option (List Token) := do
  let scanner ← text.toList.foldlM Scanner.step {}
  let scanner ← scanner.settle
  return scanner.reversed.reverse

end Json

end MemberResolution
