/-!
# Tokens of documents

A document is a sequence of tokens.  Some of them are written, and some stand for the layout: a collection that is laid
out by lines begins where its first part is indented deeper than what is around it, and ends where a line is not.
-/

namespace RainCheck.Yaml

/-- A token of a document. -/
inductive Token where
  /-- The mark in front of a document. -/
  | documentStart
  /-- The mark behind a document. -/
  | documentEnd
  /-- The end of the text. -/
  | textEnd
  /-- The start of a sequence that is laid out by lines. -/
  | sequenceStart
  /-- The start of a mapping that is laid out by lines. -/
  | mappingStart
  /-- The end of a collection that is laid out by lines. -/
  | blockEnd
  | openBracket
  | closeBracket
  | openBrace
  | closeBrace
  | comma
  /-- The hyphen in front of an item. -/
  | item
  /-- What precedes a key; it is written only in front of a key that is no scalar on one line. -/
  | key
  /-- The colon in front of a value. -/
  | value
  /-- A scalar, which is plain if it is written without quotes. -/
  | scalar (plain : Bool) (text : String)
  deriving DecidableEq, Repr

end RainCheck.Yaml
