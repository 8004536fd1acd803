import GrowthFault.Files.Fault
import GrowthFault.Files.Path

/-!
# Files

The files are a table of places, each holding data, a directory or one of the two built
binaries.  A path is followed part by part from the root or the working directory; on the way
every place has to be a directory.
-/

namespace GrowthFault

/-- Where something is: the names from the root down. -/
abbrev Place := List Bytes

inductive Node where
  | directory
  /-- Bytes, not to be run. -/
  | data (bytes : Bytes)
  /-- The checker. -/
  | checker
  /-- The library to preload. -/
  | library
  deriving DecidableEq, Repr

structure Files where
  nodes : List (Place × Node) := []
  here : Place := []
  deriving Repr

namespace Files

def nameLimit : Nat := 255

def pathLimit : Nat := 4096

/-- What is at a place; the root is a directory. -/
def node? (fs : Files) (place : Place) : Option Node :=
  if place = [] then some .directory else fs.nodes.lookup place

def put (fs : Files) (place : Place) (node : Node) : Files :=
  { fs with nodes := (place, node) :: fs.nodes.filter fun e => e.1 != place }

def isDirectory (fs : Files) (place : Place) : Bool :=
  fs.node? place == some .directory

def walk (fs : Files) : Place → List Bytes → Except FileFault Place
  | place, [] => .ok place
  | place, part :: parts =>
    if !fs.isDirectory place then .error .notADirectory
    else if Path.isSilent part then fs.walk place parts
    else if part = [Path.dot, Path.dot] then fs.walk place.dropLast parts
    else if nameLimit < part.length then .error .nameTooLong
    else if (fs.node? (place ++ [part])).isNone then .error .notFound
    else fs.walk (place ++ [part]) parts

def start (fs : Files) (p : Path) : Place :=
  if p.isAbsolute then [] else fs.here

def checkPath (p : Path) : Except FileFault Unit :=
  if p.contains 0 then .error .nulInPath
  else if p.isEmpty then .error .notFound
  else if pathLimit ≤ p.length then .error .nameTooLong
  else .ok ()

/-- The place that a path leads to; there must be something. -/
def locate (fs : Files) (p : Path) : Except FileFault Place := do
  checkPath p
  fs.walk (fs.start p) p.split

/-- The paths on the way to a path, the shortest first and the path itself last. -/
def stages (p : Path) : List Path :=
  let parts := p.split
  ((List.range parts.length).map fun n => Path.join (parts.take (n + 1))).filter (!·.isEmpty)

/-- The place that a path means by its text alone, from the working directory. -/
def textualPlace (fs : Files) (p : Path) : Place :=
  p.split.foldl (fun place part =>
    if Path.isSilent part then place
    else if part = [Path.dot, Path.dot] then place.dropLast
    else place ++ [part]) (fs.start p)

def isFile (fs : Files) (p : Path) : Bool :=
  match fs.locate p with
  | .ok place => !fs.isDirectory place
  | .error _ => false

def absolute (place : Place) : Path :=
  Path.slash :: Path.join place

def canonical? (fs : Files) (p : Path) : Option Path :=
  match fs.locate p with
  | .ok place => some (absolute place)
  | .error _ => none

/-- What stands for the bytes of a binary, which are not kept: they are no text. -/
def machineCode : Bytes := [0x7F, 0x45, 0x4C, 0x46, 0xFF]

def read (fs : Files) (p : Path) : Except FileFault Bytes := do
  let place ← fs.locate p
  match fs.node? place with
  | some .directory => .error .isADirectory
  | some (.data bytes) => .ok bytes
  | some .checker | some .library => .ok machineCode
  | none => .error .notFound

def readText (fs : Files) (p : Path) : Except FileFault String := do
  let bytes ← fs.read p
  match bytes.text? with
  | some text => .ok text
  | none => .error .notText

/-- The place for a file to be created or emptied.  A path that ends in a slash or in dots can
only mean a directory. -/
def creationPlace (fs : Files) (p : Path) : Except FileFault Place := do
  checkPath p
  let parts := (p.split.reverse.dropWhile List.isEmpty).reverse
  let directory ← fs.walk (fs.start p) parts.dropLast
  let name := parts.getLast?.getD []
  if !fs.isDirectory directory then .error .notADirectory
  else if p.getLast? == some Path.slash || Path.isSilent name || name == [Path.dot, Path.dot] then
    .error .isADirectory
  else if nameLimit < name.length then .error .nameTooLong
  else if fs.isDirectory (directory ++ [name]) then .error .isADirectory
  else .ok (directory ++ [name])

/-- Create a file with some content, or replace the content of a file. -/
def write (fs : Files) (p : Path) (content : Bytes) : Except FileFault Files := do
  let place ← fs.creationPlace p
  .ok (fs.put place (.data content))

end Files

end GrowthFault
