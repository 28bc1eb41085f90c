import RainCheck.Yaml.Cursor

/-!
# Scalars

How the text of a scalar is read, with or without quotes around it.
* A scalar may go on over several lines.  Blanks around a line end are left out; a single line end counts as a blank,
  and of several ones the first is left out.
* Between single quotes two quotes stand for one, and between double quotes there are escapes.
* A scalar without quotes ends in front of a comment, a colon that ends a key, or a line that is not indented enough;
  between brackets it also ends in front of a bracket or a comma.
Every reader gives nothing if the text is malformed.  Its `bound` exceeds the number of characters that are left.
-/

namespace RainCheck.Yaml

/-- What stands between two words of a scalar. -/
inductive Gap where
  /-- Blanks within a line, last one first. -/
  | blanks (passed : List Char)
  /-- Line ends: the first one, if it is not escaped, and the further ones, last one first. -/
  | breaks (first : Option Char) (more : List Char)

namespace Gap

/-- No space at all. -/
def empty : Gap := .blanks []

/-- The characters that a gap counts as. -/
def text : Gap → List Char
  | .blanks passed => passed.reverse
  | .breaks (some '\n') [] => [' ']
  | .breaks (some '\n') more => more.reverse
  | .breaks first more => first.toList ++ more.reverse

/-- Adds a blank to a gap; behind a line end it does not count. -/
def addBlank (c : Char) : Gap → Gap
  | .blanks passed => .blanks (c :: passed)
  | gap => gap

/-- Adds a line end to a gap; blanks in front of it do not count. -/
def addBreak (c : Char) : Gap → Gap
  | .blanks _ => .breaks (some (breakChar c)) []
  | .breaks first more => .breaks first (breakChar c :: more)

/-- Whether a gap goes on over a line end. -/
def hasBreak : Gap → Bool
  | .blanks _ => false
  | .breaks _ _ => true

end Gap

/-- Passes blanks and line ends.  Behind a line end, a tab cannot stand at a column below `indent`. -/
def passGap (indent : Nat) : (bound : Nat) → Gap → Cursor → Option (Gap × Cursor)
  | 0, _, _ => none
  | bound + 1, gap, c =>
    match c.rest with
    | [] => some (gap, c)
    | x :: _ =>
      if isBlank x then
        if gap.hasBreak && c.column < indent && x = '\t' then none
        else do passGap indent bound (gap.addBlank x) (← c.skip.need 1)
      else if isBreak x then do
        let c ← c.need 2
        passGap indent bound (gap.addBreak x) (← c.skipBreak.need 1)
      else some (gap, c)

/-! ### Scalars without quotes -/

/-- The characters that end a scalar between brackets. -/
def endsBracketed (c : Char) : Bool := ",?[]{}".toList.contains c

/-- Whether a scalar without quotes ends here. -/
def endsWord (bracketed : Bool) : List Char → Bool
  | [] => true
  | c :: rest => isBlank c || isBreak c || (c = ':' && startsBlank rest) || (bracketed && endsBracketed c)

/-- Reads the characters up to the next gap or the end of the scalar.  `done` has the last character first. -/
def word (bracketed : Bool) : (bound : Nat) → (done : List Char) → Cursor → Option (List Char × Cursor)
  | 0, _, _ => none
  | bound + 1, done, c =>
    match c.rest with
    | [] => some (done, c)
    | x :: _ =>
      if endsWord bracketed c.rest then some (done, c)
      else do word bracketed bound (x :: done) (← c.skip.need 2)

/--
Reads the words of a scalar without quotes, whose further lines have to be indented by at least `indent`.  `done` are
the characters so far, last one first, and `gap` is what follows them.  The result says whether line ends behind the
scalar have been passed.
-/
def plainFrom (bracketed : Bool) (indent : Nat) : (bound : Nat) → (done : List Char) → (gap : Gap) → Cursor →
    Option (List Char × Bool × Cursor)
  | 0, _, _, _ => none
  | bound + 1, done, gap, c => do
    let c ← c.need 4
    if c.atDivision || c.isAt '#' || endsWord bracketed c.rest then return (done, gap.hasBreak, c)
    else
      let (done, c) ← word bracketed (bound + 1) (gap.text.reverse ++ done) c
      if c.rest.isEmpty || !c.atBlank then return (done, false, c)
      else
        let (gap, c) ← passGap indent (bound + 1) .empty (← c.need 1)
        if !bracketed && c.column < indent then return (done, gap.hasBreak, c)
        else plainFrom bracketed indent bound done gap c

/-- Reads a scalar without quotes. -/
def plain? (bracketed : Bool) (indent : Nat) (c : Cursor) : Option (String × Bool × Cursor) := do
  let (done, broken, c) ← plainFrom bracketed indent (c.left + 1) [] .empty c
  return (String.ofList done.reverse, broken, c)

/-! ### Scalars in quotes -/

/-- The quotes around a scalar. -/
inductive Quote where
  | single
  | double
  deriving DecidableEq, Repr

/-- The character of a quote. -/
def Quote.char : Quote → Char
  | .single => '\''
  | .double => '"'

/-- The character that a letter behind a backslash stands for. -/
def escaped? : Char → Option Char
  | '0' => some '\x00'
  | 'a' => some '\x07'
  | 'b' => some '\x08'
  | 't' => some '\t'
  | '\t' => some '\t'
  | 'n' => some '\n'
  | 'v' => some '\x0b'
  | 'f' => some '\x0c'
  | 'r' => some '\r'
  | 'e' => some '\x1b'
  | ' ' => some ' '
  | '"' => some '"'
  | '\'' => some '\''
  | '\\' => some '\\'
  | 'N' => some '\x85'
  | '_' => some '\xa0'
  | 'L' => some '\u2028'
  | 'P' => some '\u2029'
  | _ => none

/-- The number of hexadecimal digits that follow a letter behind a backslash. -/
def digitCount? : Char → Option Nat
  | 'x' => some 2
  | 'u' => some 4
  | 'U' => some 8
  | _ => none

/-- The number written by hexadecimal digits. -/
def hexNumber? (digits : List Char) : Option Nat :=
  digits.foldlM (fun n c =>
    if c.isDigit then some (16 * n + (c.toNat - '0'.toNat))
    else if 'a' ≤ c && c ≤ 'f' then some (16 * n + 10 + (c.toNat - 'a'.toNat))
    else if 'A' ≤ c && c ≤ 'F' then some (16 * n + 10 + (c.toNat - 'A'.toNat))
    else none) 0

/-- The character with a number that is written by exactly `count` hexadecimal digits at the start of a text. -/
def hexChar? (count : Nat) (text : List Char) : Option Char := do
  let digits := text.take count
  if digits.length < count then none
  let n ← hexNumber? digits
  if n.isValidChar then some (Utf8.charOf n) else none

/--
Reads the characters of a scalar in quotes up to the next gap or the closing quote.  `done` are the characters so far,
last one first.  An escaped line end starts a gap of its own.
-/
def quotedWord (quote : Quote) : (bound : Nat) → (done : List Char) → Cursor → Option (List Char × Gap × Cursor)
  | 0, _, _ => none
  | bound + 1, done, c =>
    match c.rest with
    | [] => some (done, .empty, c)
    | x :: behind =>
      if isBlank x || isBreak x then some (done, .empty, c)
      else if x = quote.char then
        if quote = .single && behind.head? = some x then do
          quotedWord quote bound (x :: done) (← (c.skipMany 2).need 2)
        else some (done, .empty, c)
      else if quote = .double && x = '\\' then do
        let letter ← behind.head?
        if isBreak letter then
          let c ← c.need 3
          return (done, .breaks none [], c.skip.skipBreak)
        else
          match escaped? letter with
          | some e => quotedWord quote bound (e :: done) (← (c.skipMany 2).need 2)
          | none =>
            let count ← digitCount? letter
            let c ← (c.skipMany 2).need count
            let e ← hexChar? count c.rest
            quotedWord quote bound (e :: done) (← (c.skipMany count).need 2)
      else do quotedWord quote bound (x :: done) (← c.skip.need 2)

/-- Reads a scalar in quotes up to its closing quote.  `done` are the characters so far, last one first. -/
def quotedFrom (quote : Quote) : (bound : Nat) → (done : List Char) → Cursor → Option (List Char × Cursor)
  | 0, _, _ => none
  | bound + 1, done, c => do
    let c ← c.need 4
    if c.atDivision || c.rest.isEmpty then none
    else
      let (done, gap, c) ← quotedWord quote (bound + 1) done c
      let c ← c.need 1
      if c.isAt quote.char then return (done, c.skip)
      else
        let (gap, c) ← passGap 0 (bound + 1) gap c
        quotedFrom quote bound (gap.text.reverse ++ done) c

/-- Reads a scalar in quotes, of which the first one is next. -/
def quoted? (quote : Quote) (c : Cursor) : Option (String × Cursor) := do
  let (done, c) ← quotedFrom quote (c.left + 1) [] c.skip
  return (String.ofList done.reverse, c)

end RainCheck.Yaml
