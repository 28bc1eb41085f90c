import RainCheck.Scan.Lexer
import RainCheck.Source.File
import RainCheck.Diagnostic

/-!
# Tokens

The words of the language: keywords, names, numbers, punctuation and operators.
* `Token.rules` gives the character class of each kind of token;
* `SourceFile.tokens` splits a file into tokens, leaves out blanks and comments, and tells keywords from names.
-/

namespace RainCheck

/-- The reserved words. -/
inductive Keyword where
  | trueWord
  | falseWord
  | ifWord
  | elseWord
  | loopWord
  | whileWord
  | forWord
  | returnWord
  | breakWord
  | continueWord
  | exportWord
  | structWord
  | interfaceWord
  | selfWord
  | fnWord
  | letWord
  | mutWord
  deriving DecidableEq, Repr

/-- All reserved words. -/
def Keyword.all : List Keyword :=
  [.trueWord, .falseWord, .ifWord, .elseWord, .loopWord, .whileWord, .forWord, .returnWord, .breakWord, .continueWord,
    .exportWord, .structWord, .interfaceWord, .selfWord, .fnWord, .letWord, .mutWord]

/-- The spelling of a reserved word. -/
def Keyword.text : Keyword → String
  | .trueWord => "true"
  | .falseWord => "false"
  | .ifWord => "if"
  | .elseWord => "else"
  | .loopWord => "loop"
  | .whileWord => "while"
  | .forWord => "for"
  | .returnWord => "return"
  | .breakWord => "break"
  | .continueWord => "continue"
  | .exportWord => "export"
  | .structWord => "struct"
  | .interfaceWord => "interface"
  | .selfWord => "self"
  | .fnWord => "fn"
  | .letWord => "let"
  | .mutWord => "mut"

/-- The reserved word with a given spelling. -/
def Keyword.ofText? (text : String) : Option Keyword := Keyword.all.find? (·.text = text)

/-- The kinds of tokens. -/
inductive TokenKind where
  | endOfInput
  | blank
  | comment
  | integer
  | float
  | identifier
  | leftParen
  | rightParen
  | leftBrace
  | rightBrace
  | leftBracket
  | rightBracket
  | hash
  | dot
  | comma
  | colon
  | semicolon
  | arrow
  | at
  | bang
  | ampersand
  | bar
  | caret
  | plus
  | minus
  | star
  | slash
  | percent
  | shiftLeft
  | shiftRight
  | assign
  | equal
  | notEqual
  | less
  | lessEqual
  | greater
  | greaterEqual
  | keyword (word : Keyword)
  deriving DecidableEq, Repr

/-- A token: its kind, where it stands and how it is written. -/
structure Token where
  kind : TokenKind
  span : Span
  text : String
  deriving DecidableEq, Repr

namespace Token

/-- A decimal digit. -/
def digit : Scanner := .within '0' '9'

/-- A digit, and then digits and underscores. -/
def integer : Scanner := .inOrderThen [digit] (.many (.firstOf [digit, .exactly ['_']]))

/-- Two integers with a point between them. -/
def float : Scanner := .inOrder [integer, .exactly ['.'], integer]

/-- A letter or an underscore. -/
def letter : Scanner := .firstOf [.within 'a' 'z', .within 'A' 'Z', .exactly ['_']]

/-- A letter, and then letters and digits. -/
def word : Scanner := .inOrderThen [letter] (.many (.firstOf [letter, digit]))

/-- Blanks, tabulators and line ends. -/
def blanks : Scanner := .many (.firstOf [.exactly [' '], .exactly ['\t'], .exactly ['\r'], .exactly ['\n']])

/-- Two slashes and the rest of the line. -/
def comment : Scanner := .inOrderThen [.exactly ['/', '/']] (.upTo '\n')

/-- The punctuation and operators with their spelling. -/
def marks : List (TokenKind × String) :=
  [(.leftParen, "("), (.rightParen, ")"), (.leftBrace, .ofList ['{']),
    (.rightBrace, .ofList ['}']), (.leftBracket, "["),
    (.rightBracket, "]"), (.hash, "#"), (.dot, "."), (.comma, ","), (.colon, ":"), (.semicolon, ";"), (.arrow, "->"),
    (.at, "@"), (.bang, "!"), (.ampersand, "&"), (.bar, "|"), (.caret, "^"), (.plus, "+"), (.minus, "-"),
    (.star, "*"), (.slash, "/"), (.percent, "%"), (.shiftLeft, "<<"), (.shiftRight, ">>"), (.assign, "="),
    (.equal, "=="), (.notEqual, "!="), (.less, "<"), (.lessEqual, "<="), (.greater, ">"), (.greaterEqual, ">=")]

/-- The character classes of the tokens; earlier ones win among equally long matches. -/
def rules : List (Rule TokenKind) :=
  [⟨.blank, blanks⟩, ⟨.comment, comment⟩, ⟨.float, float⟩, ⟨.integer, integer⟩, ⟨.identifier, word⟩] ++
    marks.map (fun (kind, text) => ⟨kind, .exactly text.toList⟩) ++ [⟨.endOfInput, .endOfInput⟩]

/-- Whether tokens of this kind only separate others. -/
def isLayout (kind : TokenKind) : Bool := kind = .blank || kind = .comment

/-- The token of a lexeme; names that are reserved words become these. -/
def ofLexeme (l : Lexeme TokenKind) : Token :=
  let text := String.ofList l.text
  let kind :=
    match l.kind, Keyword.ofText? text with
    | .identifier, some word => .keyword word
    | kind, _ => kind
  ⟨kind, l.span, text⟩

end Token

/-- The tokens of a file, which end with the end of the input, or the first text that is no token. -/
def SourceFile.tokens (file : SourceFile) : Except Stop (List Token) := do
  let lexer : Lexer TokenKind := { rules := Token.rules, rest := file.contents }
  let (lexemes, lexer) ← Stop.lift lexer.collect
  if lexer.rest.isEmpty then return (lexemes.filter (fun l => !Token.isLayout l.kind)).map Token.ofLexeme
  else .error (.refused ⟨.ofLength lexer.index 1, .unknownText⟩)

end RainCheck
