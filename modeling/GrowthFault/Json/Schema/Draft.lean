import GrowthFault.Json.Message
import GrowthFault.Json.Schema

/-!
# Drafts of records

The members of an object come in any order, so a record is collected in a draft: the fields
found so far.  A finished draft has every required field; the others are empty if they were not
found.
-/

namespace GrowthFault.Json

@[reducible] def Fields.Draft : Fields → Type
  | .nil => Unit
  | .cons _ presence schema rest => Option (presence.Slot schema.Carrier) × rest.Draft

def Fields.blank : (fs : Fields) → fs.Draft
  | .nil => ()
  | .cons _ _ _ rest => (none, rest.blank)

def Fields.holds (name : String) : (fs : Fields) → fs.Draft → Bool
  | .nil, _ => false
  | .cons field _ _ rest, (slot, more) =>
    if field = name then slot.isSome else rest.holds name more

def missingSlot {α : Type} (name : String) :
    (presence : Presence) → Except Message (presence.Slot α)
  | .required => .error (.missingField name)
  | .nullable => .ok none
  | .omittable => .ok none

/-- The record of a draft; the first missing field in order is reported. -/
def Fields.finish : (fs : Fields) → fs.Draft → Except Message fs.Carrier
  | .nil, _ => .ok ()
  | .cons name presence _ rest, (slot, more) => do
    let value ← match slot with
      | some value => .ok value
      | none => missingSlot name presence
    let values ← rest.finish more
    .ok (value, values)

def readInteger (width : Width) (n : Number) : Except Message width.Carrier :=
  match n.int? with
  | none => .error (.invalidType (.number n) width.name)
  | some i =>
    let outside : Message := .invalidValue (.number n) width.name
    match width with
    | .word64 => if 0 ≤ i then .ok (UInt64.ofNat i.toNat) else .error outside
    | .size => if 0 ≤ i then .ok (UInt64.ofNat i.toNat) else .error outside
    | .word32 =>
      if 0 ≤ i ∧ i < 0x100000000 then .ok (UInt32.ofNat i.toNat) else .error outside
    | .int32 =>
      if -0x80000000 ≤ i ∧ i < 0x80000000 then .ok (Int32.ofInt i) else .error outside

def readChoice (names : List String) (name : String) : Except Message (Fin names.length) :=
  match names.findFinIdx? (· == name) with
  | some i => .ok i
  | none => .error (.unknownVariant name names)

def structName (name : String) : String := "struct " ++ name

/-- The characters of a name of words between low lines as one word of capitalised words: a letter
begins a word if `initial`. -/
def capitalised : (initial : Bool) → List Char → List Char
  | _, [] => []
  | initial, c :: rest =>
    if c = '_' then capitalised true rest
    else (if initial then c.toUpper else c) :: capitalised false rest

/-- The variant tagged `variant` of the choice called `name`, in messages; they name a variant by
a title, whose words its tag spells in small letters. -/
def variantName (name variant : String) : String :=
  "struct variant " ++ name ++ "::" ++ String.ofList (capitalised true variant.toList)

/-- The choice of records called `name`, in messages. -/
def taggedName (name : String) : String := "internally tagged enum " ++ name

/-- What is called `name` and has that many elements, in messages. -/
def withElements (name : String) (count : Nat) : String :=
  name ++ " with " ++ elements count

end GrowthFault.Json
