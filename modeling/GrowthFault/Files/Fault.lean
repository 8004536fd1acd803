import GrowthFault.Decimal.Digits
import GrowthFault.Text.Quoted

/-!
# File faults

Why a file could not be used: a condition that the operating system numbers, or a refusal before
the system was asked.
-/

namespace GrowthFault

inductive FileFault where
  | notFound
  | permissionDenied
  | notADirectory
  | isADirectory
  | nameTooLong
  /-- The path holds a NUL. -/
  | nulInPath
  /-- The content is no text. -/
  | notText
  deriving DecidableEq, Repr

namespace FileFault

def number? : FileFault → Option Nat
  | .notFound => some 2
  | .permissionDenied => some 13
  | .notADirectory => some 20
  | .isADirectory => some 21
  | .nameTooLong => some 36
  | .nulInPath => none
  | .notText => none

/-- The words for a fault, without its number. -/
def words : FileFault → String
  | .notFound => "No such file or directory"
  | .permissionDenied => "Permission denied"
  | .notADirectory => "Not a directory"
  | .isADirectory => "Is a directory"
  | .nameTooLong => "File name too long"
  | .nulInPath => "file name contained an unexpected NUL byte"
  | .notText => "stream did not contain valid UTF-8"

def kind : FileFault → String
  | .notFound => "NotFound"
  | .permissionDenied => "PermissionDenied"
  | .notADirectory => "NotADirectory"
  | .isADirectory => "IsADirectory"
  | .nameTooLong => "InvalidFilename"
  | .nulInPath => "InvalidInput"
  | .notText => "InvalidData"

def text (f : FileFault) : String :=
  match f.number? with
  | some n => f.words ++ " (os error " ++ Decimal.text n ++ ")"
  | none => f.words

def inspect (f : FileFault) : String :=
  match f.number? with
  | some n =>
    "Os \x7b code: " ++ Decimal.text n ++ ", kind: " ++ f.kind ++ ", message: "
      ++ Text.quoted f.words ++ " \x7d"
  | none =>
    "Error \x7b kind: " ++ f.kind ++ ", message: " ++ Text.quoted f.words ++ " \x7d"

end FileFault

end GrowthFault
