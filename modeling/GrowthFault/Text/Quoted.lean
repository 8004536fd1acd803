import GrowthFault.Text.Hidden
import GrowthFault.Text.Utf8

/-!
# Quoted text

Text in messages stands between double quotes, with escapes for what would not show.  Byte
strings are quoted likewise, their invalid parts and ASCII controls as hexadecimal bytes.
-/

namespace GrowthFault.Text

def hexNumber (n : Nat) : List Char :=
  Nat.toDigits 16 n

def byNumber (c : Char) : List Char :=
  ['\\', 'u', '\x7b'] ++ hexNumber c.toNat ++ ['\x7d']

def lettered? (c : Char) : Option (List Char) :=
  if c = '\t' then some ['\\', 't']
  else if c = '\r' then some ['\\', 'r']
  else if c = '\n' then some ['\\', 'n']
  else if c = '\\' then some ['\\', '\\']
  else if c = '"' then some ['\\', '"']
  else none

def quotedChar (c : Char) : List Char :=
  match lettered? c with
  | some escape => escape
  | none =>
    if c = '\x00' then ['\\', '0']
    else if isHidden c then byNumber c
    else [c]

def quoted (text : String) : String :=
  String.ofList ('"' :: text.toList.flatMap quotedChar ++ ['"'])

def byteEscape (b : UInt8) : List Char :=
  ['\\', 'x'] ++ Bytes.hexDigits b

/-- A piece of a quoted byte string; single quotes are escaped as well. -/
def quotedPiece : Bytes.Piece → List Char
  | .invalid bytes => bytes.flatMap byteEscape
  | .char c =>
    match lettered? c with
    | some escape => escape
    | none =>
      if c = '\'' then ['\\', '\'']
      else if c.toNat < 0x80 then
        if isHidden c then byteEscape (UInt8.ofNat c.toNat) else [c]
      else if isHidden c then byNumber c
      else [c]

def upperHexDigits (b : UInt8) : List Char :=
  (Bytes.hexDigits b).map Char.toUpper

def quotedPathPiece : Bytes.Piece → List Char
  | .invalid bytes => bytes.flatMap fun b => ['\\', 'x'] ++ upperHexDigits b
  | .char c => quotedChar c

/-- A path between quotes: text is quoted as text, and invalid parts are bytes in upper case. -/
def quotedPath (path : Bytes) : String :=
  String.ofList ('"' :: path.pieces.flatMap quotedPathPiece ++ ['"'])

def quotedBytes (bytes : Bytes) : String :=
  String.ofList ('"' :: bytes.pieces.flatMap quotedPiece ++ ['"'])

end GrowthFault.Text
