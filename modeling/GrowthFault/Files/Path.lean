import GrowthFault.Text.Utf8

/-!
# Paths

A path is a byte string, cut at its slashes.  Empty parts and single dots say nothing, except
for a dot at the very start.
-/

namespace GrowthFault

abbrev Path := Bytes

namespace Path

def slash : UInt8 := 0x2F

def dot : UInt8 := 0x2E

/-- The parts of a path between its slashes, empty ones as well. -/
def split : Path → List Bytes
  | [] => [[]]
  | b :: rest =>
    if b = slash then [] :: split rest
    else match split rest with
      | [] => [[b]]
      | part :: parts => (b :: part) :: parts

def join : List Bytes → Path
  | [] => []
  | [part] => part
  | part :: parts => part ++ slash :: join parts

def isAbsolute (p : Path) : Bool :=
  p.head? == some slash

def isSilent (part : Bytes) : Bool :=
  part.isEmpty || part == [dot]

/-- The start of a path that is no part of it: the slash of the root, or a dot for the working
directory. -/
def lead (p : Path) : Bytes :=
  if p.isAbsolute then [slash]
  else if p = [dot] ∨ [dot, slash].isPrefixOf p then [dot]
  else []

def trimSilent (parts : List Bytes) : List Bytes :=
  (parts.reverse.dropWhile isSilent).reverse

/-- The path without its last part; the root and the empty path have none. -/
def parent? (p : Path) : Option Path :=
  match trimSilent (split (p.drop p.lead.length)) with
  | [] => if p.lead = [dot] then some [] else none
  | parts => some (p.lead ++ join (trimSilent parts.dropLast))

def append (directory : Path) (name : Bytes) : Path :=
  if directory.isEmpty || directory.getLast? == some slash then directory ++ name
  else directory ++ slash :: name

/-- A name in the directory of a file, the working directory standing in for none. -/
def beside (file : Path) (name : Bytes) : Path :=
  append (file.parent?.getD [dot]) name

/-- The text of a path, with U+FFFD for what is no text. -/
def display (p : Path) : String :=
  p.lossyText

end Path

end GrowthFault
