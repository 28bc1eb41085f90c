import RainCheck.Text.Printable

/-!
# Quoted texts

A text between quotes, on one line: quotes and backslashes are written with a backslash in front, and so are characters
that cannot be shown.
-/

namespace RainCheck.Text

/-- A number in hexadecimal digits, filled up with zeros to at least `digits` of them. -/
def hex (digits n : Nat) : List Char :=
  let text := Nat.toDigits 16 n
  List.replicate (digits - text.length) '0' ++ text

/-- How a character is written between quotes. -/
def quoteChar (c : Char) : List Char :=
  match c.toNat with
  | 0x22 => ['\\', '"']
  | 0x5C => ['\\', '\\']
  | 0x07 => ['\\', 'a']
  | 0x08 => ['\\', 'b']
  | 0x0C => ['\\', 'f']
  | 0x0A => ['\\', 'n']
  | 0x0D => ['\\', 'r']
  | 0x09 => ['\\', 't']
  | 0x0B => ['\\', 'v']
  | n =>
    if isPrintable c then [c]
    else if n < 0x80 then ['\\', 'x'] ++ hex 2 n
    else if n < 0x10000 then ['\\', 'u'] ++ hex 4 n
    else ['\\', 'U'] ++ hex 8 n

/-- A text between quotes. -/
def quote (text : List Char) : List Char := '"' :: text.flatMap quoteChar ++ ['"']

end RainCheck.Text
