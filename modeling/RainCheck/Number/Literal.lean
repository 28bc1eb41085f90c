import RainCheck.Number.Double

/-!
# Literals

The numbers that texts write.  Underscores in a text do not count.
* An integer is a sign, which may be left out, and decimal digits.
* A floating point number is a sign, which may be left out, and the word `inf` or `infinity`, a decimal number or a
  hexadecimal number, which needs an exponent.  The word `nan` stands alone.
* Any other text writes no number, and neither does one whose number is too large.
-/

namespace RainCheck.Literal

/-- The characters of a literal that count. -/
def characters (text : List Char) : List Char := text.filter (· != '_')

/-- Whether a character is a hexadecimal digit. -/
def isHexDigit (c : Char) : Bool := c.isDigit || ('a' ≤ c.toLower && c.toLower ≤ 'f')

/-- The value of a digit; letters stand for the digits from 10 on. -/
def digitValue (c : Char) : Nat := if c.isDigit then c.toNat - '0'.toNat else c.toLower.toNat - 'a'.toNat + 10

/-- The number written by digits. -/
def valueOf (base : Nat) (digits : List Char) : Nat := digits.foldl (fun n c => base * n + digitValue c) 0

/-- Whether a minus stands in front of a number, and the text behind the sign. -/
def sign : List Char → Bool × List Char
  | '-' :: rest => (true, rest)
  | '+' :: rest => (false, rest)
  | text => (false, text)

/-- Whether characters are decimal digits, at least one. -/
def isNatural (text : List Char) : Bool := !text.isEmpty && text.all Char.isDigit

/-! ### Integers -/

/-- The integer written by a text. -/
def integer? (text : List Char) : Option Int :=
  let (negative, digits) := sign (characters text)
  if isNatural digits then some (if negative then -valueOf 10 digits else valueOf 10 digits) else none

/-- The 32-bit integer written by a text. -/
def int32? (text : List Char) : Option Int32 :=
  (integer? text).bind fun n =>
    if Int32.minValue.toInt ≤ n ∧ n ≤ Int32.maxValue.toInt then some (Int32.ofInt n) else none

/-! ### Floating point numbers -/

/-- The first exponent behind which further digits do not count: what is so large or so small rounds in one way. -/
def exponentLimit : Nat := 10000

/-- The exponent at the end of a number: nothing, or a mark, a sign, which may be left out, and decimal digits. -/
def exponent? (mark : Char) : List Char → Option Int
  | [] => some 0
  | c :: rest =>
    let (negative, digits) := sign rest
    if c.toLower = mark ∧ isNatural digits then
      let n := digits.foldl (fun n c => if n < exponentLimit then 10 * n + digitValue c else n) 0
      some (if negative then -n else n)
    else none

/-- The digits in front of a point and behind it, and the rest of a text. -/
def significand (isDigit : Char → Bool) (text : List Char) : List Char × List Char × List Char :=
  match text.dropWhile isDigit with
  | '.' :: rest => (text.takeWhile isDigit, rest.takeWhile isDigit, rest.dropWhile isDigit)
  | rest => (text.takeWhile isDigit, [], rest)

/-- The numerator and denominator of a decimal number. -/
def decimal? (text : List Char) : Option (Nat × Nat) :=
  let (whole, places, rest) := significand Char.isDigit text
  if (whole ++ places).isEmpty then none
  else (exponent? 'e' rest).map fun e =>
    (valueOf 10 (whole ++ places) * Nat.pow 10 e.toNat, Nat.pow 10 (places.length + (-e).toNat))

/-- The numerator and denominator of a hexadecimal number, without the mark in front of it; it needs an exponent. -/
def hexadecimal? (text : List Char) : Option (Nat × Nat) :=
  let (whole, places, rest) := significand isHexDigit text
  if (whole ++ places).isEmpty || rest.isEmpty then none
  else (exponent? 'p' rest).map fun e =>
    (valueOf 16 (whole ++ places) * Nat.pow 2 e.toNat, Nat.pow 2 (4 * places.length + (-e).toNat))

/-- The numerator and denominator of a number without a sign. -/
def fraction? : List Char → Option (Nat × Nat)
  | '0' :: 'x' :: rest => hexadecimal? rest
  | '0' :: 'X' :: rest => hexadecimal? rest
  | text => decimal? text

/-- The double nearest to the number written by a text. -/
def float? (text : List Char) : Option Float :=
  let (negative, number) := sign (characters text)
  let magnitude? :=
    if number.map Char.toLower ∈ ["inf".toList, "infinity".toList] then some Double.infinity
    else (fraction? number).bind fun (numerator, denominator) => Double.nearest? numerator denominator
  if (characters text).map Char.toLower = "nan".toList then some Double.notANumber
  else magnitude?.map fun x => if negative then -x else x

end RainCheck.Literal
