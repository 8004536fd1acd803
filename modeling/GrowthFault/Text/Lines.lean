/-!
# Lines and blanks

A text is cut at its newlines; a carriage return before a newline belongs to the line ending,
and an ending newline opens no further line.  Blanks are the characters of the Unicode property
White_Space.
-/

namespace GrowthFault.Text

def withoutReturn (line : List Char) : List Char :=
  if line.getLast? = some '\r' then line.dropLast else line

/-- The lines of `chars`, when `current` holds the reversed characters of a line already begun. -/
def linesAfter (current : List Char) : List Char → List (List Char)
  | [] => if current.isEmpty then [] else [current.reverse]
  | c :: rest =>
    if c = '\n' then withoutReturn current.reverse :: linesAfter [] rest
    else linesAfter (c :: current) rest

/-- The lines of a text, without their endings. -/
def lines (chars : List Char) : List (List Char) :=
  linesAfter [] chars

def isBlank (c : Char) : Bool :=
  let n := c.toNat
  (9 ≤ n && n ≤ 13) || n == 0x20 || n == 0x85 || n == 0xA0 || n == 0x1680 ||
    (0x2000 ≤ n && n ≤ 0x200A) || n == 0x2028 || n == 0x2029 || n == 0x202F ||
    n == 0x205F || n == 0x3000

def trim (chars : List Char) : List Char :=
  ((chars.dropWhile isBlank).reverse.dropWhile isBlank).reverse

/-- What follows `lead` in `chars`, if `chars` starts with it. -/
def after? (lead chars : List Char) : Option (List Char) :=
  if lead.isPrefixOf chars then some (chars.drop lead.length) else none

/-- The number of times a separator of two equal characters `c` cuts a text, read from the left
without overlap. -/
def countDoubled (c : Char) : List Char → Nat
  | a :: b :: rest => if a = c ∧ b = c then countDoubled c rest + 1 else countDoubled c (b :: rest)
  | _ => 0

end GrowthFault.Text
