import RainCheck.Yaml.Scalar
import RainCheck.Yaml.Token

/-!
# Layout of documents

How a text is divided into tokens.
* What is indented deeper than the line above it opens a collection, and a line that is indented less closes some.
* Whether a scalar or a bracketed collection is a key is known only when the colon behind it is found, which has to be
  on the same line and near.  Until then it is a pending key, and no token from it on is given out; only brackets in
  which no key could start are given out at once.  If the colon comes too late, the token waits for the next key.
* Tokens are given out with two further ones behind them, so a text is malformed for a reader of its tokens as soon as
  one of these is.
* Anchors, tags, directives and scalars that keep their lines are no part of these documents.
-/

namespace RainCheck.Yaml

/-! ### Comments -/

/-- Passes the characters up to the end of the line. -/
def passLine : (bound : Nat) → Cursor → Option Cursor
  | 0, _ => none
  | bound + 1, c => do
    let c ← c.need 1
    match c.rest with
    | [] => return c
    | x :: _ => if isBreak x then return c else passLine bound c.skip

/-- Passes spaces, and tabs if these may stand here. -/
def passBlanks (tabs : Bool) : (bound : Nat) → Cursor → Option Cursor
  | 0, _ => none
  | bound + 1, c => do
    let c ← c.need 1
    if c.isAt ' ' || (tabs && c.isAt '\t') then passBlanks tabs bound c.skip else return c

/--
The distance to the next comment from `distance` on, if only characters that may be passed are in front of it.  At most
`bound` characters are looked at.
-/
def commentAhead (passes : Char → Bool) : (bound distance : Nat) → Cursor → Option (Option Nat × Cursor)
  | 0, _, c => some (none, c)
  | bound + 1, distance, c => do
    let c ← c.need (distance + 1)
    match c.rest[distance]? with
    | some '#' => return (some distance, c)
    | some x => if passes x then commentAhead passes bound (distance + 1) c else return (none, c)
    | none => return (none, c)

/-- How far a comment may be for which a reader looks ahead. -/
def commentWindow : Nat := 512

/-- The characters that may stand between comments that are passed together. -/
def dividesComments (c : Char) : Bool := isBlank c || c = '\n' || c = '\r'

/-- Passes the comment at the cursor, and those behind it that only blanks and line ends divide from it. -/
def passComments : (bound : Nat) → Cursor → Option Cursor
  | 0, _ => none
  | bound + 1, c => do
    let c ← (← passLine (bound + 1) c).need 2
    if c.isAt '\n' || c.isAt '\r' then
      match ← commentAhead dividesComments (commentWindow - 1) 1 c with
      | (some _, c) =>
        let (_, c) ← passGap 0 (bound + 1) .empty c
        passComments bound c
      | (none, c) => return c
    else return c

/-- Passes the comment behind a token, if there is one on its line. -/
def passLineComment (c : Cursor) : Option Cursor := do
  match ← commentAhead isBlank commentWindow 0 c with
  | (some distance, c) => passLine (c.left + 1) (c.skipMany distance)
  | (none, c) => return c

/-! ### State -/

/-- A token that is a key if a colon follows it. -/
structure PendingKey where
  /-- The number of the token, counted from the start of the text. -/
  number : Nat
  /-- Whether it cannot be anything but a key. -/
  required : Bool
  index : Nat
  line : Nat
  column : Nat

/-- What is between two brackets, or around all of them. -/
structure Level where
  /-- The pending key, if there is one. -/
  pending : Option PendingKey := none
  /-- The number of the last token that was a pending key, or else of the opening bracket. -/
  latest : Nat := 0
  /-- The numbers of the tokens that are not given out before it is known whether the pending key is one. -/
  held : List Nat := []

/-- The level when nothing is held back any more for a key. -/
def Level.release (l : Level) (k : PendingKey) : Level := { l with pending := none, held := l.held.erase k.number }

/-- The level when a token is given out because it is too late for a colon. -/
def Level.settle (l : Level) (number : Nat) : Level :=
  if l.held.contains number then { l with pending := none, held := l.held.erase number } else l

/-- How far the colon behind a key may be from its start. -/
def maxKeyLength : Nat := 1024

/-- How deep collections may be nested. -/
def maxDepth : Nat := 10000

/-- A position in a text, and what is known about the layout there. -/
structure Layout where
  cursor : Cursor
  /-- The tokens that are found and not given out. -/
  queue : List Token := []
  /-- The number of tokens that are given out. -/
  given : Nat := 0
  /-- The columns of the open collections that are laid out by lines, innermost first. -/
  indents : List Nat := []
  /-- The innermost level of brackets. -/
  level : Level := {}
  /-- The levels around it, innermost first. -/
  around : List Level := []
  /-- Whether a key may start here. -/
  keyAllowed : Bool := true

namespace Layout

/-- Whether the position is between brackets. -/
def bracketed (s : Layout) : Bool := !s.around.isEmpty

/-- The least column of further lines of a scalar. -/
def scalarIndent (s : Layout) : Nat := (s.indents.head?.map (· + 1)).getD 0

/-- The number of the next token that is found. -/
def nextNumber (s : Layout) : Nat := s.given + s.queue.length

/-- Adds a token. -/
def push (t : Token) (s : Layout) : Layout := { s with queue := s.queue ++ [t] }

/-- Adds a token that is one character. -/
def pushChar (t : Token) (s : Layout) : Layout := { s.push t with cursor := s.cursor.skip }

/-- Puts a token in front of the one that has a number; if that one is already given out, the token is the last one. -/
def insert (number : Nat) (t : Token) (s : Layout) : Layout :=
  if number < s.given then s.push t
  else
    let n := number - s.given
    { s with queue := s.queue.take n ++ t :: s.queue.drop n }

/-- Whether it is too late for a colon behind a pending key. -/
def isStale (s : Layout) (k : PendingKey) : Bool :=
  k.line < s.cursor.line || k.index + maxKeyLength < s.cursor.index

/-- Gives the pending key up, which cannot be one that is required. -/
def dropKey (s : Layout) : Option Layout :=
  match s.level.pending with
  | some k => if k.required then none else some { s with level := s.level.release k }
  | none => some s

/-- Makes the token that starts here a pending key, if a key may start here. -/
def saveKey (s : Layout) : Option Layout :=
  if s.keyAllowed then do
    let s ← s.dropKey
    let c := s.cursor
    let required := !s.bracketed && s.indents.head? = some c.column
    let key := { number := s.nextNumber, required, index := c.index, line := c.line, column := c.column }
    return { s with level := ⟨some key, key.number, key.number :: s.level.held⟩ }
  else some s

/--
Opens a collection that is laid out by lines, if a column is deeper than the collections around it.  It starts in front
of the token that has a number.
-/
def openBlock (column number : Nat) (t : Token) (s : Layout) : Option Layout :=
  if s.bracketed || s.indents.head?.any (column ≤ ·) then some s
  else if maxDepth ≤ s.indents.length then none
  else some { s.insert number t with indents := column :: s.indents }

/-- Closes the innermost collections that are laid out by lines, as long as their columns satisfy a condition. -/
def closeBlocks (closes : Nat → Bool) (s : Layout) : Layout :=
  if s.bracketed then s
  else
    let closed := (s.indents.takeWhile closes).length
    { s with indents := s.indents.drop closed, queue := s.queue ++ List.replicate closed .blockEnd }

/-- Passes blanks, comments and line ends up to the next token. -/
def toNext : (bound : Nat) → Layout → Option Layout
  | 0, _ => none
  | bound + 1, s => do
    let c ← s.cursor.need 1
    let c := if c.column = 0 && c.marked then c.skip else c
    let c ← passBlanks (s.bracketed || !s.keyAllowed) (c.left + 1) c
    let c ← if c.isAt '#' then passComments (c.left + 1) c else some c
    if c.rest.head?.any isBreak then
      let c ← c.need 2
      toNext bound { s with cursor := c.skipBreak, keyAllowed := s.keyAllowed || !s.bracketed }
    else return { s with cursor := c }

/-! ### Tokens -/

/-- Passes the comment behind a token. -/
def withComment (s : Layout) : Option Layout := do return { s with cursor := ← passLineComment s.cursor }

/-- The end of the text, which ends a line. -/
def textEnd (s : Layout) : Option Layout := do
  let c := s.cursor
  let c := if c.column = 0 then c else { c with line := c.line + 1, column := 0 }
  let s ← ({ s with cursor := c }.closeBlocks fun _ => true).dropKey
  return { s with keyAllowed := false }.push .textEnd

/-- A mark that divides documents. -/
def division (t : Token) (s : Layout) : Option Layout := do
  let s ← (s.closeBlocks fun _ => true).dropKey
  return { s with keyAllowed := false, cursor := s.cursor.skipMany 3 }.push t

/-- An opening bracket, which may start a key. -/
def openFlow (t : Token) (s : Layout) : Option Layout := do
  let s ← s.saveKey
  if maxDepth ≤ s.around.length then none
  else
    let s := { s with around := s.level :: s.around, level := { latest := s.nextNumber }, keyAllowed := true }
    (s.pushChar t).withComment

/-- The level around brackets; if no key could start between them, they are no longer held back. -/
def leaveLevel (inner : Level) (outer : Level) : Level := { outer with held := outer.held.erase inner.latest }

/-- A closing bracket. -/
def closeFlow (t : Token) (s : Layout) : Option Layout := do
  let s ← s.dropKey
  let s :=
    match s.around with
    | outer :: around => { s with level := leaveLevel s.level outer, around }
    | [] => s
  ({ s with keyAllowed := false }.pushChar t).withComment

/-- The comma between the parts of a bracketed collection. -/
def comma (s : Layout) : Option Layout := do
  let s ← s.dropKey
  ({ s with keyAllowed := true }.pushChar .comma).withComment

/-- Opens a collection at the cursor, where between lines a key has to be allowed. -/
def openHere (t : Token) (s : Layout) : Option Layout :=
  if s.bracketed then some s
  else if s.keyAllowed then s.openBlock s.cursor.column s.nextNumber t
  else none

/-- The hyphen in front of an item. -/
def item (s : Layout) : Option Layout := do
  let s ← (← s.openHere .sequenceStart).dropKey
  return { s with keyAllowed := true }.pushChar .item

/-- The question mark in front of a key. -/
def explicitKey (s : Layout) : Option Layout := do
  let s ← (← s.openHere .mappingStart).dropKey
  ({ s with keyAllowed := !s.bracketed }.pushChar .key).withComment

/-- The colon in front of a value, which makes a pending key one. -/
def value (s : Layout) : Option Layout := do
  let s ←
    match s.level.pending with
    | some k =>
      if !s.isStale k then do
        let s ← (s.insert k.number .key).openBlock k.column k.number .mappingStart
        pure { s with level := s.level.release k, keyAllowed := false }
      else if k.required then none
      else do pure { ← s.openHere .mappingStart with level.pending := none, keyAllowed := !s.bracketed }
    | none => do pure { ← s.openHere .mappingStart with keyAllowed := !s.bracketed }
  (s.pushChar .value).withComment

/-- A scalar in quotes. -/
def quotedScalar (quote : Quote) (s : Layout) : Option Layout := do
  let s ← s.saveKey
  let (text, c) ← quoted? quote s.cursor
  ({ s with keyAllowed := false, cursor := c }.push (.scalar false text)).withComment

/-- A scalar without quotes; if it ends with its line, a key may follow. -/
def plainScalar (s : Layout) : Option Layout := do
  let s ← s.saveKey
  let (text, broken, c) ← plain? s.bracketed s.scalarIndent s.cursor
  let s := { s with keyAllowed := broken, cursor := c }.push (.scalar true text)
  if broken then return s else s.withComment

/-- The characters that start no token. -/
def startsNoToken (c : Char) : Bool := "\t#&*!|>%@`".toList.contains c

/-- Finds the next token. -/
def fetch (s : Layout) : Option Layout := do
  let s ← s.toNext (s.cursor.left + 1)
  let s := s.closeBlocks (s.cursor.column < ·)
  let c ← s.cursor.need 4
  let s := { s with cursor := c }
  let standsAlone := s.bracketed || startsBlank c.rest.tail
  if c.atMark "---" then s.division .documentStart
  else if c.atMark "..." then s.division .documentEnd
  else
    match c.rest with
    | [] => s.textEnd
    | '[' :: _ => s.openFlow .openBracket
    | '{' :: _ => s.openFlow .openBrace
    | ']' :: _ => s.closeFlow .closeBracket
    | '}' :: _ => s.closeFlow .closeBrace
    | ',' :: _ => s.comma
    | '\'' :: _ => s.quotedScalar .single
    | '"' :: _ => s.quotedScalar .double
    | '-' :: rest => if startsBlank rest then s.item else s.plainScalar
    | '?' :: _ => if standsAlone then s.explicitKey else s.plainScalar
    | ':' :: _ => if standsAlone then s.value else s.plainScalar
    | x :: _ => if startsNoToken x then none else s.plainScalar

/--
Whether the next token can be given out, and the layout if a pending key turns out to be none.  If that key is required,
the text is malformed.
-/
def ready (s : Layout) : Option (Bool × Layout) :=
  if s.queue.length < 3 then some (false, s)
  else
    match (s.level :: s.around).findSome? fun l => if l.held.contains s.given then l.pending else none with
    | none => some (true, s)
    | some k =>
      if !s.isStale k then some (false, s)
      else if k.required then none
      else some (true, { s with level := s.level.settle s.given, around := s.around.map (·.settle s.given) })

/-- The tokens of a text up to its end, or as far as they can be given out.  `done` are those given out, last first. -/
def tokensFrom : (bound : Nat) → (done : List Token) → Layout → List Token
  | 0, done, _ => done.reverse
  | bound + 1, done, s =>
    match s.ready with
    | none => done.reverse
    | some (false, s) =>
      match s.fetch with
      | some s => tokensFrom bound done s
      | none => done.reverse
    | some (true, s) =>
      match s.queue with
      | [] => done.reverse
      | .textEnd :: _ => (Token.textEnd :: done).reverse
      | t :: rest => tokensFrom bound (t :: done) { s with queue := rest, given := s.given + 1 }

end Layout

/-- The tokens of a text up to its end, or as far as they can be given out if it is malformed. -/
def tokens (bytes : List UInt8) : List Token :=
  let c := Cursor.ofBytes bytes
  -- each character adds at most a key, the start and the end of a collection, and one more token
  Layout.tokensFrom (8 * (c.left + 4)) [] { cursor := c }

end RainCheck.Yaml
