import RainCheck.Fault

/-!
# Scanners

A `Scanner` measures how many characters at the start of a text belong to a class; 0 means no match.
* A text is any sequence of items that can be told apart and put in order; where nothing else is said, of characters.
* Scanners are greedy and never go back.
* `endOfInput` matches exactly the empty text, with length 1, so a match may be one longer than the text.  A sequence
  that goes on behind such a match looks outside the text, which is a fault.
-/

namespace RainCheck

/-- Descriptions of character classes. -/
inductive Scanner (α : Type := Char) where
  /-- The first alternative that matches. -/
  | firstOf (alternatives : List (Scanner α))
  /-- Exactly these characters. -/
  | exactly (characters : List α)
  /-- One character of a range, both ends included. -/
  | within (lowest highest : α)
  /-- One character at which the given scanner does not match. -/
  | not (scanner : Scanner α)
  /-- As many matches in a row as possible. -/
  | many (scanner : Scanner α)
  /-- The end of the text. -/
  | endOfInput
  /-- One match after the other, none of them empty. -/
  | inOrder (parts : List (Scanner α))
  /-- A sequence, and after it one more part which may be empty. -/
  | inOrderThen (parts : List (Scanner α)) (last : Scanner α)

namespace Scanner

variable {α : Type}

/-- As many characters as possible up to a given one. -/
def upTo (c : α) : Scanner α := .many (.not (.exactly [c]))

/-- A sequence whose last part may be empty; there has to be a last part. -/
def inOrderNullableLast (parts : List (Scanner α)) : Except Fault (Scanner α) :=
  match parts.getLast? with
  | some last => .ok (.inOrderThen parts.dropLast last)
  | none => .error .outOfRange

/-- The text behind the first `n` characters, of which there have to be as many. -/
def behind : (n : Nat) → List α → Except Fault (List α)
  | 0, text => .ok text
  | _ + 1, [] => .error .outOfRange
  | n + 1, _ :: rest => behind n rest

/-- The length of as many matches in a row as possible, behind the first `matched` characters. -/
def repeated (scan : List α → Except Fault Nat) : (matched : Nat) → List α → Except Fault Nat
  | _, [] => .ok 0
  | matched + 1, _ :: rest => repeated scan matched rest
  | 0, c :: rest => do
    let n ← scan (c :: rest)
    if n = 0 then return 0
    return n + (← repeated scan (n - 1) rest)

variable [DecidableEq α] [LE α] [DecidableLE α]

mutual

/-- The number of characters at the start of a text that a scanner matches. -/
def run : Scanner α → List α → Except Fault Nat
  | .firstOf alternatives, text => runFirst alternatives text
  | .exactly characters, text => .ok (if characters.isPrefixOf text then characters.length else 0)
  | .within lowest highest, text =>
    .ok (match text with
      | c :: _ => if lowest ≤ c && c ≤ highest then 1 else 0
      | [] => 0)
  | .not scanner, text =>
    match text with
    | [] => .ok 0
    | _ :: _ => do
      let n ← run scanner text
      return if n = 0 then 1 else 0
  | .many scanner, text => repeated (run scanner) 0 text
  | .endOfInput, text => .ok (if text.isEmpty then 1 else 0)
  | .inOrder parts, text => runAll parts 0 text
  | .inOrderThen parts last, text => do
    let n ← runAll parts 0 text
    if n = 0 then return 0
    return n + (← run last (← behind n text))

/-- The first non-empty match of a list of alternatives. -/
def runFirst : List (Scanner α) → List α → Except Fault Nat
  | [], _ => .ok 0
  | s :: rest, text => do
    let n ← run s text
    if n = 0 then runFirst rest text else return n

/-- The length of non-empty matches one after the other, of which `matched` characters are already found. -/
def runAll : List (Scanner α) → (matched : Nat) → List α → Except Fault Nat
  | [], matched, _ => .ok matched
  | s :: rest, matched, text => do
    let n ← run s (← behind matched text)
    if n = 0 then return 0
    runAll rest (matched + n) text

end

end Scanner

end RainCheck
