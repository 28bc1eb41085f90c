import RainCheck.Yaml.Layout
import RainCheck.Yaml.Node

/-!
# Reading documents

The nodes that the tokens of a text stand for.
* A collection is laid out by lines, or it is between brackets.  Items behind a key need not be indented deeper than the
  key.
* Only the first document of a text is read, and of what follows it no more than one token.
* A part that is left out is a scalar that is not written.
-/

namespace RainCheck.Yaml

/-- The tokens in front of which an item in lines is left out. -/
def endsItem (t : Token) : Bool := t = .item || t = .blockEnd

/-- The tokens in front of which a key or a value in lines is left out. -/
def endsEntry (t : Token) : Bool := t = .key || t = .value || t = .blockEnd

/-- The tokens in front of which a value between brackets is left out. -/
def endsPart (close t : Token) : Bool := t = .comma || t = close

/-- The tokens in front of which the whole content of a document is left out. -/
def endsDocument (t : Token) : Bool := t = .documentStart || t = .documentEnd || t = .textEnd

/-- Reads a part with a reader, unless it is left out in front of the next token. -/
def partUnless (ends : Token → Bool) (read : List Token → Option (Node × List Token)) :
    List Token → Option (Node × List Token)
  | [] => none
  | t :: rest => if ends t then some (.absent, t :: rest) else read (t :: rest)

/-- Reads a value with a reader if a colon is next; otherwise it is left out. -/
def valueOf (ends : Token → Bool) (read : List Token → Option (Node × List Token)) :
    List Token → Option (Node × List Token)
  | [] => none
  | .value :: rest => partUnless ends read rest
  | tokens => some (.absent, tokens)

/-- The tokens behind the comma in front of a part between brackets; the first part and the end need no comma. -/
def behindComma (first : Bool) (close : Token) : List Token → Option (List Token)
  | [] => none
  | t :: rest =>
    if first || t = close then some (t :: rest)
    else if t = .comma then some rest
    else none

mutual

/-- Reads a node; `loose` says that items may stand here without being indented deeper. -/
def node : (bound : Nat) → (loose : Bool) → List Token → Option (Node × List Token)
  | 0, _, _ => none
  | bound + 1, loose, tokens =>
    match tokens with
    | .scalar plain text :: rest => some (.scalar plain text, rest)
    | .item :: _ => do
      if !loose then none
      let (items, rest) ← looseItems bound tokens
      return (.sequence items, rest)
    | .sequenceStart :: rest => do
      let (items, rest) ← blockItems bound rest
      return (.sequence items, rest)
    | .mappingStart :: rest => do
      let (entries, rest) ← blockEntries bound rest
      return (.mapping entries, rest)
    | .openBracket :: rest => do
      let (items, rest) ← bracketItems bound true rest
      return (.sequence items, rest)
    | .openBrace :: rest => do
      let (entries, rest) ← braceEntries bound true rest
      return (.mapping entries, rest)
    | _ => none

/-- Reads items in lines up to the end of their collection. -/
def blockItems : (bound : Nat) → List Token → Option (List Node × List Token)
  | 0, _ => none
  | bound + 1, tokens =>
    match tokens with
    | .item :: rest => do
      let (item, rest) ← partUnless endsItem (node bound false) rest
      let (items, rest) ← blockItems bound rest
      return (item :: items, rest)
    | .blockEnd :: rest => some ([], rest)
    | _ => none

/-- Reads items in lines up to a token that is none. -/
def looseItems : (bound : Nat) → List Token → Option (List Node × List Token)
  | 0, _ => none
  | bound + 1, tokens =>
    match tokens with
    | [] => none
    | .item :: rest => do
      let (item, rest) ← partUnless (fun t => endsItem t || endsEntry t) (node bound false) rest
      let (items, rest) ← looseItems bound rest
      return (item :: items, rest)
    | _ => some ([], tokens)

/-- Reads entries in lines up to the end of their collection. -/
def blockEntries : (bound : Nat) → List Token → Option (List (Node × Node) × List Token)
  | 0, _ => none
  | bound + 1, tokens =>
    match tokens with
    | .key :: rest => do
      let (key, rest) ← partUnless endsEntry (node bound true) rest
      let (value, rest) ← valueOf endsEntry (node bound true) rest
      let (entries, rest) ← blockEntries bound rest
      return ((key, value) :: entries, rest)
    | .blockEnd :: rest => some ([], rest)
    | _ => none

/--
Reads items between brackets up to the closing one.  An item with a key is a mapping of its own; if the key is left out,
so is the token behind it.
-/
def bracketItems : (bound : Nat) → (first : Bool) → List Token → Option (List Node × List Token)
  | 0, _, _ => none
  | bound + 1, first, tokens => do
    match ← behindComma first .closeBracket tokens with
    | .closeBracket :: rest => return ([], rest)
    | .key :: t :: rest =>
      let (key, rest) ←
        if t = .value || endsPart .closeBracket t then some (.absent, rest) else node bound false (t :: rest)
      let (value, rest) ← valueOf (endsPart .closeBracket) (node bound false) rest
      let (items, rest) ← bracketItems bound false rest
      return (.mapping [(key, value)] :: items, rest)
    | rest =>
      let (item, rest) ← node bound false rest
      let (items, rest) ← bracketItems bound false rest
      return (item :: items, rest)

/-- Reads entries between braces up to the closing one.  A key alone has no value. -/
def braceEntries : (bound : Nat) → (first : Bool) → List Token → Option (List (Node × Node) × List Token)
  | 0, _, _ => none
  | bound + 1, first, tokens => do
    match ← behindComma first .closeBrace tokens with
    | .closeBrace :: rest => return ([], rest)
    | .key :: rest =>
      let (key, rest) ← partUnless (fun t => t = .value || endsPart .closeBrace t) (node bound false) rest
      let (value, rest) ← valueOf (endsPart .closeBrace) (node bound false) rest
      let (entries, rest) ← braceEntries bound false rest
      return ((key, value) :: entries, rest)
    | rest =>
      let (key, rest) ← node bound false rest
      let (entries, rest) ← braceEntries bound false rest
      return ((key, .absent) :: entries, rest)

end

/-- The content of the first document, and the tokens behind it; a text may have no document at all. -/
def content? (tokens : List Token) : Option (Node × List Token) :=
  -- a collection adds at most two readers to the nesting, and its first token is its own
  let read := node (2 * tokens.length + 2) false
  match tokens with
  | .documentStart :: rest => partUnless endsDocument read rest
  | .textEnd :: _ => some (.absent, tokens)
  | _ => read tokens

/-- Reads the first document of a text. -/
def read? (bytes : List UInt8) : Option Node := do
  let (node, rest) ← content? (tokens bytes)
  if rest.isEmpty then none else some node

end RainCheck.Yaml
