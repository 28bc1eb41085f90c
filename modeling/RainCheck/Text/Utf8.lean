/-!
# Bytes and code points

`Utf8.decode` reads bytes as code points.  It never fails:
* the shortest encodings of scalar values are read as these;
* every byte that is not part of one is read as the replacement character `U+FFFD`.
-/

namespace RainCheck.Utf8

/-- The character that stands for a byte which cannot be decoded. -/
def replacement : Char := '\uFFFD'

/-- Whether a byte continues an encoding. -/
def isContinuation (b : Nat) : Bool := 0x80 ≤ b && b < 0xC0

/-- The code point with this number, or the replacement character for a number that is none. -/
def charOf (n : Nat) : Char :=
  if h : n.isValidChar then Char.ofNatAux n h else replacement

/-- The length of the encoding that starts the bytes, and its code point, if the bytes start with one. -/
def first? : List Nat → Option (Nat × Char)
  | [] => none
  | a :: rest =>
    if a < 0x80 then some (1, charOf a)
    else if 0xC2 ≤ a && a < 0xE0 then
      match rest with
      | b :: _ =>
        if isContinuation b then some (2, charOf ((a - 0xC0) * 64 + (b - 0x80))) else none
      | [] => none
    else if 0xE0 ≤ a && a < 0xF0 then
      match rest with
      | b :: c :: _ =>
        let n := (a - 0xE0) * 4096 + (b - 0x80) * 64 + (c - 0x80)
        if isContinuation b && isContinuation c && 0x800 ≤ n && !(0xD800 ≤ n && n < 0xE000) then
          some (3, charOf n)
        else none
      | _ => none
    else if 0xF0 ≤ a && a < 0xF5 then
      match rest with
      | b :: c :: d :: _ =>
        let n := (a - 0xF0) * 262144 + (b - 0x80) * 4096 + (c - 0x80) * 64 + (d - 0x80)
        if isContinuation b && isContinuation c && isContinuation d && 0x10000 ≤ n && n < 0x110000 then
          some (4, charOf n)
        else none
      | _ => none
    else none

/-- Decodes bytes, skipping the given number of them first. -/
def decodeFrom : Nat → List Nat → List Char
  | _, [] => []
  | skip + 1, _ :: rest => decodeFrom skip rest
  | 0, b :: rest =>
    match first? (b :: rest) with
    | some (n, c) => c :: decodeFrom (n - 1) rest
    | none => replacement :: decodeFrom 0 rest

/-- The code points of a text given as bytes. -/
def decode (bytes : List UInt8) : List Char := decodeFrom 0 (bytes.map (·.toNat))

/-- The bytes of a text. -/
def encode (text : String) : List UInt8 := text.toUTF8.toList

end RainCheck.Utf8
