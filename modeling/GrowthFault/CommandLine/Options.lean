import GrowthFault.Decimal.Digits
import GrowthFault.Text.Utf8

/-!
# Options

Arguments are options of the form `--name`, `--name value` or `--name=value`.  Each may be given
once.  A value that starts with a hyphen has to follow an equals sign, unless it is a hyphen
alone.
-/

namespace GrowthFault.CommandLine

/-- An option that a command knows: a flag, or a name with a value. -/
inductive Spec where
  | flag (name : String)
  | valued (name : String)
  deriving DecidableEq, Repr

def Spec.name : Spec → String
  | .flag name => name
  | .valued name => name

structure Given where
  name : String
  value : Option Bytes
  deriving DecidableEq, Repr

def hyphen : UInt8 := 0x2D

def equals : UInt8 := 0x3D

def isValue (argument : Bytes) : Bool :=
  argument.head? != some hyphen || argument == [hyphen]

/-- The argument after its two hyphens, if it has them and more. -/
def long? : Bytes → Option Bytes
  | 0x2D :: 0x2D :: b :: rest => some (b :: rest)
  | _ => none

/-- The text before the first equals sign, and the value behind it. -/
def cut (body : Bytes) : Bytes × Option Bytes :=
  let name := body.takeWhile (· != equals)
  match body.drop name.length with
  | [] => (name, none)
  | _ :: value => (name, some value)

def find? (specs : List Spec) (name : Bytes) : Option Spec :=
  specs.find? fun s => Bytes.ofText s.name == name

/-- The options that the arguments give; anything unknown or out of place is refused. -/
def readOptions (specs : List Spec) : List Bytes → Option (List Given)
  | [] => some []
  | argument :: rest =>
    if argument = [hyphen, hyphen] then if rest.isEmpty then some [] else none
    else do
      let body ← long? argument
      let (name, value?) := cut body
      match find? specs name, value?, rest with
      | some (.flag name), none, rest => do
        let more ← readOptions specs rest
        some (⟨name, none⟩ :: more)
      | some (.valued name), some value, rest => do
        let more ← readOptions specs rest
        some (⟨name, some value⟩ :: more)
      | some (.valued name), none, value :: rest =>
        if isValue value then do
          let more ← readOptions specs rest
          some (⟨name, some value⟩ :: more)
        else none
      | _, _, _ => none

/-- The options that the arguments give, none of them twice. -/
def options (specs : List Spec) (arguments : List Bytes) : Option (List Given) := do
  let given ← readOptions specs arguments
  if (given.map Given.name).Nodup then some given else none

def isGiven (given : List Given) (name : String) : Bool :=
  given.any fun g => g.name == name

def value? (given : List Given) (name : String) : Option Bytes :=
  (given.find? fun g => g.name == name).bind Given.value

/-- Read the value of an option, if it was given; a value that cannot be read is refused. -/
def optional {α : Type} (read : Bytes → Option α) (given : List Given) (name : String) :
    Option (Option α) :=
  match value? given name with
  | none => some none
  | some bytes => (read bytes).map some

def required {α : Type} (read : Bytes → Option α) (given : List Given) (name : String) :
    Option α := do
  let bytes ← value? given name
  read bytes

/-- Read the value of an option, or take the given one for it. -/
def defaulted {α : Type} (default : α) (read : Bytes → Option α) (given : List Given)
    (name : String) : Option α :=
  (optional read given name).map (·.getD default)

def readPath (bytes : Bytes) : Option Bytes :=
  if bytes.isEmpty then none else some bytes

def readNumber (bytes : Bytes) : Option UInt64 := do
  let text ← bytes.text?
  Decimal.word? text.toList

end GrowthFault.CommandLine
