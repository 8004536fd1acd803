/-!
# Bytes and text

Process output, file contents and environment values are bytes; reports are text.  A byte
string is read strictly (it is the encoding of a text or it is not) or leniently, each maximal
part that no text contains becoming one replacement character.
-/

namespace GrowthFault

abbrev Bytes := List UInt8

namespace Bytes

def ofChars (chars : List Char) : Bytes :=
  chars.flatMap String.utf8EncodeChar

def ofText (text : String) : Bytes :=
  ofChars text.toList

/-- The text that a byte string encodes, if it encodes one. -/
def text? (bytes : Bytes) : Option String :=
  String.fromUTF8? bytes.toByteArray

/-- A stretch of a byte string: one character, or bytes that begin no character. -/
inductive Piece where
  | char (c : Char)
  | invalid (bytes : Bytes)
  deriving DecidableEq, Repr

/-- A character whose last bytes are still to come. -/
structure Unfinished where
  /-- The bytes read so far. -/
  seen : Bytes
  /-- The bits read so far. -/
  value : Nat
  /-- How many bytes follow the next one. -/
  further : Nat
  /-- The least and the greatest byte that may come next. -/
  least : UInt8
  greatest : UInt8

/-- What a byte opens: a whole piece, or a character that needs more bytes. -/
def opening (b : UInt8) : Piece ⊕ Unfinished :=
  let lead (bits further : Nat) (least greatest : UInt8) : Piece ⊕ Unfinished :=
    .inr ⟨[b], b.toNat % bits, further, least, greatest⟩
  if b < 0x80 then .inl (.char (Char.ofNat b.toNat))
  else if b < 0xC2 then .inl (.invalid [b])
  else if b < 0xE0 then lead 0x20 0 0x80 0xBF
  else if b = 0xE0 then lead 0x10 1 0xA0 0xBF
  else if b = 0xED then lead 0x10 1 0x80 0x9F
  else if b < 0xF0 then lead 0x10 1 0x80 0xBF
  else if b = 0xF0 then lead 0x08 2 0x90 0xBF
  else if b < 0xF4 then lead 0x08 2 0x80 0xBF
  else if b = 0xF4 then lead 0x08 2 0x80 0x8F
  else .inl (.invalid [b])

/-- The pieces of a byte string that follows an unfinished character, if there is one. -/
def piecesAfter : Option Unfinished → Bytes → List Piece
  | none, [] => []
  | some u, [] => [.invalid u.seen]
  | none, b :: bs =>
    match opening b with
    | .inl piece => piece :: piecesAfter none bs
    | .inr u => piecesAfter (some u) bs
  | some u, b :: bs =>
    if u.least ≤ b ∧ b ≤ u.greatest then
      let value := u.value * 0x40 + b.toNat % 0x40
      match u.further with
      | 0 => .char (Char.ofNat value) :: piecesAfter none bs
      | further + 1 => piecesAfter (some ⟨u.seen ++ [b], value, further, 0x80, 0xBF⟩) bs
    else
      .invalid u.seen ::
        match opening b with
        | .inl piece => piece :: piecesAfter none bs
        | .inr u => piecesAfter (some u) bs

/-- A byte string as characters and maximal invalid parts, in order. -/
def pieces (bytes : Bytes) : List Piece :=
  piecesAfter none bytes

/-- The text of a byte string, with U+FFFD for each maximal invalid part. -/
def lossyText (bytes : Bytes) : String :=
  match bytes.text? with
  | some text => text
  | none =>
    String.ofList (bytes.pieces.map fun
      | .char c => c
      | .invalid _ => '\uFFFD')

/-- The hexadecimal digits of a byte, lower case. -/
def hexDigits (b : UInt8) : List Char :=
  [Nat.digitChar (b.toNat / 16), Nat.digitChar (b.toNat % 16)]

def hex (bytes : Bytes) : String :=
  String.ofList (bytes.flatMap hexDigits)

end Bytes

end GrowthFault
