import GrowthFault.Json.Number

/-!
# JSON values

A value is a tree; an object is the list of its members in order.  Values are written on one
line without blanks, or over several lines with two spaces a level.
-/

namespace GrowthFault.Json

inductive Value where
  | null
  | bool (b : Bool)
  | number (n : Number)
  | string (text : String)
  | array (items : List Value)
  | object (members : List (String × Value))
  deriving Repr

/-- The value of a text, if there is one. -/
def Value.optional {α : Type} (write : α → Value) : Option α → Value
  | none => .null
  | some a => write a

def Value.natural (n : UInt64) : Value :=
  .number (.natural n)

/-! ## Strings -/

def controlEscape (c : Char) : List Char :=
  ['\\', 'u', '0', '0', Nat.digitChar (c.toNat / 16), Nat.digitChar (c.toNat % 16)]

/-- A character inside a string: quotes, backslashes and control characters are escaped. -/
def escape (c : Char) : List Char :=
  if c = '"' then ['\\', '"']
  else if c = '\\' then ['\\', '\\']
  else if c.toNat < 0x20 then
    if c = '\n' then ['\\', 'n']
    else if c = '\r' then ['\\', 'r']
    else if c = '\t' then ['\\', 't']
    else if c = '\x08' then ['\\', 'b']
    else if c = '\x0c' then ['\\', 'f']
    else controlEscape c
  else [c]

def quoted (text : String) : List Char :=
  '"' :: text.toList.flatMap escape ++ ['"']

/-! ## On one line -/

def boolText (b : Bool) : List Char :=
  if b then ['t', 'r', 'u', 'e'] else ['f', 'a', 'l', 's', 'e']

mutual

def Value.compactChars : Value → List Char
  | .null => ['n', 'u', 'l', 'l']
  | .bool b => boolText b
  | .number n => n.text
  | .string text => quoted text
  | .array [] => ['[', ']']
  | .array (item :: items) => '[' :: item.compactChars ++ compactItems items
  | .object [] => ['\x7b', '\x7d']
  | .object ((key, value) :: members) =>
    '\x7b' :: quoted key ++ ':' :: value.compactChars ++ compactMembers members

/-- What follows an element: the elements after it and the closing bracket. -/
def Value.compactItems : List Value → List Char
  | [] => [']']
  | item :: items => ',' :: item.compactChars ++ compactItems items

/-- What follows a member: the members after it and the closing brace. -/
def Value.compactMembers : List (String × Value) → List Char
  | [] => ['\x7d']
  | (key, value) :: members =>
    ',' :: quoted key ++ ':' :: value.compactChars ++ compactMembers members

end

def Value.compact (v : Value) : String :=
  String.ofList v.compactChars

/-! ## Over several lines -/

def newline (level : Nat) : List Char :=
  '\n' :: List.replicate (2 * level) ' '

mutual

/-- A value over several lines, `level` containers deep. -/
def Value.prettyChars (level : Nat) : Value → List Char
  | .null => ['n', 'u', 'l', 'l']
  | .bool b => boolText b
  | .number n => n.text
  | .string text => quoted text
  | .array [] => ['[', ']']
  | .array (item :: items) =>
    '[' :: newline (level + 1) ++ item.prettyChars (level + 1) ++ prettyItems level items
  | .object [] => ['\x7b', '\x7d']
  | .object ((key, value) :: members) =>
    '\x7b' :: newline (level + 1) ++ quoted key ++ ':' :: ' ' ::
      value.prettyChars (level + 1) ++ prettyMembers level members

def Value.prettyItems (level : Nat) : List Value → List Char
  | [] => newline level ++ [']']
  | item :: items =>
    ',' :: newline (level + 1) ++ item.prettyChars (level + 1) ++ prettyItems level items

def Value.prettyMembers (level : Nat) : List (String × Value) → List Char
  | [] => newline level ++ ['\x7d']
  | (key, value) :: members =>
    ',' :: newline (level + 1) ++ quoted key ++ ':' :: ' ' ::
      value.prettyChars (level + 1) ++ prettyMembers level members

end

def Value.pretty (v : Value) : String :=
  String.ofList (v.prettyChars 0)

/-! ## Objects without order

Free-form details are kept with each key once, in the order of the code points of the keys; of
members with equal keys the last one counts. -/

/-- Put a member in its place, over a member with the same key. -/
def insertMember (key : String) (value : Value) :
    List (String × Value) → List (String × Value)
  | [] => [(key, value)]
  | (k, v) :: members =>
    if key = k then (key, value) :: members
    else if key < k then (key, value) :: (k, v) :: members
    else (k, v) :: insertMember key value members

/-- Put members in their places, one after the other. -/
def sortMembers (members : List (String × Value)) : List (String × Value) :=
  members.foldl (fun sorted m => insertMember m.1 m.2 sorted) []

mutual

def Value.canonical : Value → Value
  | .array items => .array (canonicalItems items)
  | .object members => .object (sortMembers (canonicalMembers members))
  | v => v

def Value.canonicalItems : List Value → List Value
  | [] => []
  | item :: items => item.canonical :: canonicalItems items

def Value.canonicalMembers : List (String × Value) → List (String × Value)
  | [] => []
  | (key, value) :: members => (key, value.canonical) :: canonicalMembers members

end

def Value.get? (key : String) : Value → Option Value
  | .object members => members.lookup key
  | _ => none

def Value.string? : Value → Option String
  | .string text => some text
  | _ => none

end GrowthFault.Json
