import RainCheck.Text.Utf8

/-!
# Reading along a document

A `Cursor` stands at a character of a document, and knows its line and column.
* A document is decoded block by block, and only as far as a reader looks ahead: what cannot be decoded is an error
  only for a reader that needs the block it is in.
* Lines end with a line feed, a carriage return, both in this order, or one of the three line ends beyond ASCII.
-/

namespace RainCheck.Yaml

/-! ### Characters -/

/-- Whether a document may hold a character; control characters and noncharacters are refused. -/
def isAllowed (c : Char) : Bool :=
  let n := c.toNat
  n = 9 || n = 10 || n = 13 || (0x20 ≤ n && n < 0x7F) || n = 0x85 || (0xA0 ≤ n && n < 0xFFFE) || 0x10000 ≤ n

/-- Blanks within a line. -/
def isBlank (c : Char) : Bool := c = ' ' || c = '\t'

/-- The characters that end a line. -/
def isBreak (c : Char) : Bool := c = '\n' || c = '\r' || c = '\x85' || c = '\u2028' || c = '\u2029'

/-- Whether a text is at its end, or starts with a blank or a line end. -/
def startsBlank : List Char → Bool
  | [] => true
  | c :: _ => isBlank c || isBreak c

/-- The character that a line end counts as inside of a scalar. -/
def breakChar (c : Char) : Char := if c = '\u2028' || c = '\u2029' then c else '\n'

/-- The character that may start a text and has no meaning there. -/
def byteOrderMark : Char := '\uFEFF'

/-! ### Blocks -/

/-- The number of bytes that are decoded at a time; a character is never divided. -/
def blockSize : Nat := 512

/-- The number of bytes that are needed to decode a character with a given first byte. -/
def encodedLength (first : Nat) : Nat :=
  if first < 0xC0 then 1 else if first < 0xE0 then 2 else if first < 0xF0 then 3 else if first < 0xF8 then 4 else 1

/--
The blocks of a document from a character on, and whether bytes follow them that are not decoded.  The bytes start
with `skip` bytes of the last character, the current block has room for `room` more bytes, and `done` are its
characters, last one first.
-/
def blocksFrom : (skip room : Nat) → (done : List Char) → List Nat → List (List Char) × Bool
  | _, _, done, [] => ([done.reverse], false)
  | skip + 1, room, done, _ :: rest => blocksFrom skip room done rest
  | 0, room, done, first :: rest =>
    let needed := encodedLength first
    if ((first :: rest).take needed).length < needed then ([done.reverse], true)
    else
      match Utf8.first? (first :: rest) with
      | some (n, c) =>
        if isAllowed c then
          if needed ≤ room then blocksFrom (n - 1) (room - n) (c :: done) rest
          else
            let (blocks, more) := blocksFrom (n - 1) (blockSize - n) [c] rest
            (done.reverse :: blocks, more)
        else if needed ≤ room then ([], true)
        else ([done.reverse], true)
      | none => if needed ≤ room then ([], true) else ([done.reverse], true)

/-- The blocks of a document without the mark in front of it, and whether bytes follow them that cannot be decoded. -/
def blocksOf (bytes : List UInt8) : List (List Char) × Bool :=
  match bytes.map (·.toNat) with
  | 0xEF :: 0xBB :: 0xBF :: rest => blocksFrom 0 (blockSize - 3) [] rest
  | bytes => blocksFrom 0 blockSize [] bytes

/-! ### Cursors -/

/-- A position in a document.  Lines and columns count from 0. -/
structure Cursor where
  /-- The characters that are decoded and still to be read. -/
  rest : List Char := []
  /-- The number of these, and how often the end of the document has been looked for behind them. -/
  ahead : Nat := 0
  /-- The blocks that are still to be decoded. -/
  blocks : List (List Char)
  /-- Whether bytes follow the blocks that cannot be decoded. -/
  broken : Bool
  /-- Whether a byte order mark was the next character when the document was last decoded. -/
  marked : Bool := false
  /-- The number of characters that are still to be read, decoded or not. -/
  left : Nat
  index : Nat := 0
  line : Nat := 0
  column : Nat := 0

namespace Cursor

/-- The start of a document. -/
def ofBytes (bytes : List UInt8) : Cursor :=
  let (blocks, broken) := blocksOf bytes
  { blocks, broken, left := blocks.flatten.length }

/-- Decodes blocks until `n` characters are ahead, or the document ends. -/
def fill (n : Nat) (c : Cursor) : List (List Char) → Option Cursor
  | [] =>
    if n ≤ c.ahead then some { c with blocks := [] }
    else if c.broken then none
    else some { c with blocks := [], ahead := c.ahead + 1 }
  | block :: blocks =>
    if n ≤ c.ahead then some { c with blocks := block :: blocks }
    else fill n { c with rest := c.rest ++ block, ahead := c.ahead + block.length } blocks

/-- Makes sure that the next `n` characters are decoded, as far as there are so many. -/
def need (n : Nat) (c : Cursor) : Option Cursor :=
  if n ≤ c.ahead then some c
  else (c.fill n c.blocks).map fun c => { c with marked := c.rest.head? = some byteOrderMark }

/-- Passes a character within a line. -/
def skip (c : Cursor) : Cursor :=
  { c with
    rest := c.rest.tail, ahead := c.ahead - 1, left := c.left - 1, index := c.index + 1, column := c.column + 1 }

/-- Passes a number of characters within a line. -/
def skipMany : Nat → Cursor → Cursor
  | 0, c => c
  | n + 1, c => skipMany n c.skip

/-- Passes a line end. -/
def skipBreak (c : Cursor) : Cursor :=
  let n := if "\r\n".toList.isPrefixOf c.rest then 2 else 1
  { c with
    rest := c.rest.drop n, ahead := c.ahead - n, left := c.left - n, index := c.index + n
    line := c.line + 1, column := 0 }

/-- Whether the cursor is at the end of the document, or at a blank or a line end. -/
def atBlank (c : Cursor) : Bool := startsBlank c.rest

/-- Whether the cursor is at a given character. -/
def isAt (c : Cursor) (x : Char) : Bool := c.rest.head? = some x

/-- Whether the cursor is at a mark that stands alone at the start of a line. -/
def atMark (c : Cursor) (mark : String) : Bool :=
  c.column = 0 && mark.toList.isPrefixOf c.rest && startsBlank (c.rest.drop mark.length)

/-- Whether the cursor is at a mark that divides documents. -/
def atDivision (c : Cursor) : Bool := c.atMark "---" || c.atMark "..."

end Cursor

end RainCheck.Yaml
