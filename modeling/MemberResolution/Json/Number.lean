/-
Number literals.

A literal has a whole part, perhaps a fraction and perhaps an exponent, and follows
the JSON grammar to the letter.  Digits alone denote a natural number, and no other
literal has a meaning to a document.  But every literal that is kept has to lie in
the range of binary64.

Whether it does is not decided on its exact value.  The digits that fit 64 bits
make a significand, the others only move the point, and then the significand and
the power of ten are each rounded to binary64 and multiplied.  So a literal just
below the end of the range may be refused and a longer one just above it kept.
-/
import MemberResolution.Json.Value

namespace MemberResolution

namespace Json

/-- The number a decimal digit denotes. -/
def digitValue (c : Char) : Nat := c.toNat - 48

/-- The number a run of decimal digits denotes. -/
def decimalValue (digits : List Char) : Nat :=
  digits.foldl (fun value c => 10 * value + digitValue c) 0

/-! ### The range of binary64 -/

/-- The least natural number that rounds to infinity in binary64. -/
def binary64Limit : Nat := Nat.pow 2 1024 - Nat.pow 2 970

/-- A natural number rounded to the 53 bits of a binary64 significand, a tie to the
even side. -/
def roundedToBinary64 (n : Nat) : Nat :=
  let unit := Nat.pow 2 (n.log2 - 52)
  let below := n / unit
  let rest := n % unit
  if 2 * rest < unit then below * unit
  else if 2 * rest = unit ∧ below % 2 = 0 then below * unit
  else (below + 1) * unit

/-- A literal as it is read: `significand * 10 ^ exponent`, and whether a digit has
been met that the significand has no room for. -/
structure Scaled where
  significand : Nat := 0
  exponent : Int := 0
  full : Bool := false
  deriving DecidableEq, Repr

namespace Scaled

/-- The significand with a digit behind it, if there is room for the digit. -/
def extended? (scaled : Scaled) (c : Char) : Option Nat :=
  let significand := 10 * scaled.significand + digitValue c
  if scaled.full then none
  else if significand < UInt64.size then some significand
  else none

/-- Takes a digit before the point.  One without room makes the rest ten times what
it was. -/
def takeWhole (scaled : Scaled) (c : Char) : Scaled :=
  match scaled.extended? c with
  | some significand => { scaled with significand := significand }
  | none => { scaled with exponent := scaled.exponent + 1, full := true }

/-- Takes a digit behind the point.  One without room is dropped. -/
def takeFraction (scaled : Scaled) (c : Char) : Scaled :=
  match scaled.extended? c with
  | some significand => { scaled with significand := significand, exponent := scaled.exponent - 1 }
  | none => { scaled with full := true }

/-- The literal with these digits and this written exponent.  The room is looked at
anew behind the point: a fraction may still add a digit smaller than the one that had
no room before it. -/
def ofDigits (whole fraction : List Char) (exponent : Int) : Scaled :=
  let atPoint := whole.foldl takeWhole {}
  let scaled := fraction.foldl takeFraction { atPoint with full := false }
  { scaled with exponent := scaled.exponent + exponent }

/-- Whether a literal lies in the range of binary64.  A significand is far below the
end of the range, so only a power of ten that is not negative can reach it, and every
power beyond the greatest finite one does. -/
def isFinite (scaled : Scaled) : Bool :=
  if scaled.significand = 0 then true
  else if scaled.exponent < 0 then true
  else if 308 < scaled.exponent then false
  else
    let power := Nat.pow 10 scaled.exponent.toNat
    decide (roundedToBinary64 scaled.significand * roundedToBinary64 power < binary64Limit)

end Scaled

/-! ### The grammar -/

/-- The exponent part of a number: nothing, or `e`, a sign and at least one digit. -/
def exponentOf? : List Char → Option Int
  | [] => some 0
  | e :: rest =>
    if e = 'e' ∨ e = 'E' then
      let (negative, digits) := match rest with
        | '-' :: digits => (true, digits)
        | '+' :: digits => (false, digits)
        | digits => (false, digits)
      if digits.isEmpty || !digits.all Char.isDigit then none
      else
        let value : Int := decimalValue digits
        some (if negative then -value else value)
    else none

/-- Whether a run of digits may stand before the point: it is not empty and has no
leading zero. -/
def isWholePart : List Char → Bool
  | [] => false
  | ['0'] => true
  | '0' :: _ => false
  | _ => true

/-- The fraction of what follows the whole part, and what follows the fraction.  A
point has a digit behind it. -/
def fractionOf? : List Char → Option (List Char × List Char)
  | '.' :: rest =>
    let fraction := rest.takeWhile Char.isDigit
    if fraction.isEmpty then none else some (fraction, rest.dropWhile Char.isDigit)
  | rest => some ([], rest)

/-- The value a number literal denotes, if it follows the grammar. -/
def numberOf? (literal : List Char) : Option Json :=
  let (negative, unsigned) := match literal with
    | '-' :: rest => (true, rest)
    | rest => (false, rest)
  let whole := unsigned.takeWhile Char.isDigit
  let tail := unsigned.dropWhile Char.isDigit
  if !isWholePart whole then none
  else do
    let (fraction, rest) ← fractionOf? tail
    let exponent ← exponentOf? rest
    if !(Scaled.ofDigits whole fraction exponent).isFinite then some .unusable
    else if tail.isEmpty && !negative then some (.natural (decimalValue whole))
    else some (.number (String.ofList literal))

end Json

end MemberResolution
