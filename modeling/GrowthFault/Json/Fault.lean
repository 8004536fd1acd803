/-!
# Faults in a text

A fault says what is wrong with a text and where: its place is kept as the number of bytes that
had not been taken when the fault was seen, and turned into a line and a column at the end.
-/

namespace GrowthFault.Json

inductive Flaw where
  | endInValue
  | endInList
  | endInObject
  | endInString
  | expectedValue
  | expectedWord
  | expectedKey
  | expectedColon
  | expectedCommaOrBrace
  | expectedCommaOrBracket
  | trailingComma
  | trailingCharacters
  | invalidNumber
  | numberOutOfRange
  | invalidEscape
  | controlCharacter
  | endOfHexEscape
  | loneSurrogate
  | tooDeep
  deriving DecidableEq, Repr

def Flaw.text : Flaw → String
  | .endInValue => "EOF while parsing a value"
  | .endInList => "EOF while parsing a list"
  | .endInObject => "EOF while parsing an object"
  | .endInString => "EOF while parsing a string"
  | .expectedValue => "expected value"
  | .expectedWord => "expected ident"
  | .expectedKey => "key must be a string"
  | .expectedColon => "expected \x60:\x60"
  | .expectedCommaOrBrace => "expected \x60,\x60 or \x60\x7d\x60"
  | .expectedCommaOrBracket => "expected \x60,\x60 or \x60]\x60"
  | .trailingComma => "trailing comma"
  | .trailingCharacters => "trailing characters"
  | .invalidNumber => "invalid number"
  | .numberOutOfRange => "number out of range"
  | .invalidEscape => "invalid escape"
  | .controlCharacter =>
    "control character (\\u0000-\\u001F) found while parsing a string"
  | .endOfHexEscape => "unexpected end of hex escape"
  | .loneSurrogate => "lone leading surrogate in hex escape"
  | .tooDeep => "recursion limit exceeded"

/-- A flaw and the number of bytes of the text that were left when it was seen. -/
structure Fault where
  flaw : Flaw
  left : Nat
  deriving DecidableEq, Repr

def byteSize (chars : List Char) : Nat :=
  chars.foldr (fun c n => c.utf8Size + n) 0

def Flaw.before (flaw : Flaw) (rest : List Char) : Fault :=
  ⟨flaw, byteSize rest⟩

/-- A fault at the first byte of `rest`, or at the end of the text. -/
def Flaw.at (flaw : Flaw) (rest : List Char) : Fault :=
  ⟨flaw, byteSize rest - 1⟩

def Flaw.atEnd (flaw : Flaw) : Fault :=
  ⟨flaw, 0⟩

/-- A line, and a column in bytes: how many bytes of the line had been taken. -/
structure Position where
  line : Nat
  column : Nat
  deriving DecidableEq, Repr

def Position.of (bytes : List UInt8) (left : Nat) : Position :=
  let taken := bytes.take (bytes.length - left)
  ⟨taken.count 0x0A + 1, (taken.reverse.takeWhile (· != 0x0A)).length⟩

end GrowthFault.Json
