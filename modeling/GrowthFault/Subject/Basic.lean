import GrowthFault.Json.Schema

/-!
# Subjects

A subject is one of two ways to append a string to another in a growing buffer: the fixed one
keeps the old pointer until the growth has succeeded, the buggy one overwrites it.
-/

namespace GrowthFault

inductive Subject where
  | fixed
  | buggy
  deriving DecidableEq, Repr

namespace Subject

def all : List Subject := [.fixed, .buggy]

def name : Subject → String
  | .fixed => "fixed"
  | .buggy => "buggy"

/-- The words for the fixed subject, in lower case. -/
def fixedWords : List String := ["fixed", "safe", "tmp"]

/-- The words for the buggy subject, in lower case. -/
def buggyWords : List String := ["buggy", "unsafe", "direct"]

/-- The subject that a word names, in any case of its ASCII letters. -/
def ofWord? (word : String) : Option Subject :=
  let lower := String.ofList (word.toList.map Char.toLower)
  if fixedWords.contains lower then some .fixed
  else if buggyWords.contains lower then some .buggy
  else none

def unknownText (word : String) : String :=
  "unknown subject '" ++ word ++ "' (expected 'fixed' or 'buggy')"

end Subject

instance : Json.Described Subject where
  schema := .choice ["fixed", "buggy"]
  toCarrier
    | .fixed => ⟨0, by decide⟩
    | .buggy => ⟨1, by decide⟩
  ofCarrier i := match i.val with
    | 0 => .fixed
    | _ => .buggy
  ofCarrier_toCarrier a := by cases a <;> rfl

end GrowthFault
