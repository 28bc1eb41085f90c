import RainCheck.Text.Quoted

/-!
# Decimal integers

Reading a signed integer that fits into 64 bits.
* A sign may stand in front, and at least one digit has to follow.
* A number that leaves the unsigned range is too large whatever follows; otherwise a foreign character is met first.
-/

namespace RainCheck.Decimal

/-- Why a text is no number. -/
inductive Problem where
  | malformed
  | tooLarge
  deriving DecidableEq, Repr

/-- The first number that has no unsigned form in 64 bits. -/
def unsignedLimit : Nat := 0x10000000000000000

/-- The first number that has no signed form in 64 bits; its negation has one. -/
def signedLimit : Nat := 0x8000000000000000

/-- The number written by digits, behind digits that stand for `value`. -/
def readDigits : (value : Nat) → List Char → Except Problem Nat
  | value, [] => .ok value
  | value, c :: rest =>
    if c.isDigit then
      let value := 10 * value + (c.toNat - '0'.toNat)
      if value < unsignedLimit then readDigits value rest else .error .tooLarge
    else .error .malformed

/-- The number written by at least one digit. -/
def readNatural : List Char → Except Problem Nat
  | [] => .error .malformed
  | digits => readDigits 0 digits

/-- The integer written by a text. -/
def read : List Char → Except Problem Int
  | '-' :: digits => do
    let n ← readNatural digits
    if n ≤ signedLimit then return -(n : Int) else .error .tooLarge
  | text => do
    let n ← readNatural (if text.head? = some '+' then text.drop 1 else text)
    if n < signedLimit then return n else .error .tooLarge

/-- The message about a text that is no number. -/
def Problem.message (p : Problem) (text : List Char) : String :=
  "strconv.Atoi: parsing " ++ String.ofList (Text.quote text) ++ ": " ++
    match p with
    | .malformed => "invalid syntax"
    | .tooLarge => "value out of range"

end RainCheck.Decimal
