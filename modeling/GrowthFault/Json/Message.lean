import GrowthFault.Json.Document
import GrowthFault.Text.Quoted

/-!
# Why a document is not a value of a type

A document may spell a JSON value and still not be what a reader expects: the wrong kind of
value, a number out of range, a missing, repeated or unknown name, a list of the wrong length.
-/

namespace GrowthFault.Json

/-- A kind of JSON value, with the value where it is short. -/
inductive Found where
  | null
  | bool (b : Bool)
  | number (n : Number)
  | string (text : String)
  | sequence
  | map
  deriving DecidableEq, Repr

def Found.text : Found → String
  | .null => "null"
  | .bool b => "boolean \x60" ++ String.ofList (boolText b) ++ "\x60"
  | .number (.double bits) =>
    "floating point \x60" ++ String.ofList (doubleText bits) ++ "\x60"
  | .number n => "integer \x60" ++ String.ofList n.text ++ "\x60"
  | .string text => "string " ++ Text.quoted text
  | .sequence => "sequence"
  | .map => "map"

def Value.found : Value → Found
  | .null => .null
  | .bool b => .bool b
  | .number n => .number n
  | .string text => .string text
  | .array _ => .sequence
  | .object _ => .map

inductive Message where
  | flaw (flaw : Flaw)
  | invalidType (found : Found) (expected : String)
  | invalidValue (found : Found) (expected : String)
  | missingField (name : String)
  | duplicateField (name : String)
  | unknownVariant (name : String) (names : List String)
  | invalidLength (length : Nat) (expected : String)
  deriving DecidableEq, Repr

def tick (name : String) : String :=
  "\x60" ++ name ++ "\x60"

def oneOf : List String → String
  | [] => "there are no variants"
  | [a] => "expected " ++ tick a
  | [a, b] => "expected " ++ tick a ++ " or " ++ tick b
  | names => "expected one of " ++ ", ".intercalate (names.map tick)

def Message.text : Message → String
  | .flaw f => f.text
  | .invalidType found expected => "invalid type: " ++ found.text ++ ", expected " ++ expected
  | .invalidValue found expected => "invalid value: " ++ found.text ++ ", expected " ++ expected
  | .missingField name => "missing field " ++ tick name
  | .duplicateField name => "duplicate field " ++ tick name
  | .unknownVariant name names => "unknown variant " ++ tick name ++ ", " ++ oneOf names
  | .invalidLength length expected =>
    "invalid length " ++ Decimal.text length ++ ", expected " ++ expected

def elements (n : Nat) : String :=
  if n = 1 then "1 element" else Decimal.text n ++ " elements"

/-- A refusal: its reason and, if it has a place, the number of bytes left there. -/
structure Refusal where
  message : Message
  left? : Option Nat
  deriving DecidableEq, Repr

def Refusal.ofFault (fault : Fault) : Refusal :=
  ⟨.flaw fault.flaw, some fault.left⟩

/-- The words for a refusal of a text, with the line and column where it has a place. -/
def Refusal.text (bytes : Bytes) (r : Refusal) : String :=
  match r.left? with
  | none => r.message.text
  | some left =>
    let p := Position.of bytes left
    r.message.text ++ " at line " ++ Decimal.text p.line ++ " column " ++ Decimal.text p.column

end GrowthFault.Json
