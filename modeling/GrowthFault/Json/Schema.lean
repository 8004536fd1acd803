import GrowthFault.Json.Value

/-!
# Schemas

A schema describes how the values of a type are written: as a scalar, a list, one of some
names, a record of named fields, or one of several records told apart by a tag.  Every schema
has a carrier, the type of the values that it describes; `write` gives the JSON value of such a
value.  A record is written with its fields in the order of the schema.
-/

namespace GrowthFault.Json

inductive Width where
  | word64
  | size
  | word32
  | int32
  deriving DecidableEq, Repr

@[reducible] def Width.Carrier : Width → Type
  | .word64 => UInt64
  | .size => UInt64
  | .word32 => UInt32
  | .int32 => Int32

def Width.name : Width → String
  | .word64 => "u64"
  | .size => "usize"
  | .word32 => "u32"
  | .int32 => "i32"

inductive Presence where
  | required
  /-- May be missing or null, and is written as null when it is empty. -/
  | nullable
  /-- May be missing or null, and is left out when it is empty. -/
  | omittable
  deriving DecidableEq, Repr

/-- The type of a field whose values, if it has one, have type `α`. -/
@[reducible] def Presence.Slot : Presence → Type → Type
  | .required, α => α
  | .nullable, α => Option α
  | .omittable, α => Option α

mutual

/-- A description of the values of a type. -/
inductive Schema where
  | string
  | bool
  | integer (width : Width)
  /-- Any JSON value, its objects without order. -/
  | any
  | list (item : Schema)
  /-- One of these names. -/
  | choice (names : List String)
  | record (name : String) (fields : Fields)
  /-- One of several records, told apart by the name in the member `kind`. -/
  | tagged (name : String) (variants : Variants)

inductive Fields where
  | nil
  | cons (name : String) (presence : Presence) (schema : Schema) (rest : Fields)

inductive Variants where
  | nil
  | cons (name : String) (fields : Fields) (rest : Variants)

end

def tagName : String := "kind"

def Fields.count : Fields → Nat
  | .nil => 0
  | .cons _ _ _ rest => rest.count + 1

def Variants.names : Variants → List String
  | .nil => []
  | .cons name _ rest => name :: rest.names

mutual

@[reducible] def Schema.Carrier : Schema → Type
  | .string => String
  | .bool => Bool
  | .integer width => width.Carrier
  | .any => Value
  | .list item => List item.Carrier
  | .choice names => Fin names.length
  | .record _ fields => fields.Carrier
  | .tagged _ variants => variants.Carrier

@[reducible] def Fields.Carrier : Fields → Type
  | .nil => Unit
  | .cons _ presence schema rest => presence.Slot schema.Carrier × rest.Carrier

@[reducible] def Variants.Carrier : Variants → Type
  | .nil => Empty
  | .cons _ fields rest => fields.Carrier ⊕ rest.Carrier

end

def writeInteger : (width : Width) → width.Carrier → Number
  | .word64, n => .natural n
  | .size, n => .natural n
  | .word32, n => .natural n.toUInt64
  | .int32, i =>
    if h : i.toInt < 0 then .negative ⟨(-i.toInt - 1).toNat, by have := i.le_toInt; omega⟩
    else .natural (UInt64.ofNat i.toInt.toNat)

def writeSlot {α : Type} (name : String) (write : α → Value) :
    (presence : Presence) → presence.Slot α → List (String × Value)
  | .required, a => [(name, write a)]
  | .nullable, some a => [(name, write a)]
  | .nullable, none => [(name, .null)]
  | .omittable, some a => [(name, write a)]
  | .omittable, none => []

mutual

def Schema.write : (s : Schema) → s.Carrier → Value
  | .string, text => .string text
  | .bool, b => .bool b
  | .integer width, n => .number (writeInteger width n)
  | .any, v => v
  | .list item, xs => .array (xs.map item.write)
  | .choice names, i => .string (names.get i)
  | .record _ fields, x => .object (fields.write x)
  | .tagged _ variants, x => .object (variants.write x)

def Fields.write : (fs : Fields) → fs.Carrier → List (String × Value)
  | .nil, _ => []
  | .cons name presence schema rest, (x, more) =>
    writeSlot name schema.write presence x ++ rest.write more

/-- The members for a variant, its name first. -/
def Variants.write : (vs : Variants) → vs.Carrier → List (String × Value)
  | .nil, x => nomatch x
  | .cons name fields _, .inl x => (tagName, .string name) :: fields.write x
  | .cons _ _ rest, .inr x => rest.write x

end

/-! ## Described types -/

/-- A type whose values are written by a schema.  Nothing is lost on the way to the carrier. -/
class Described (α : Type) where
  schema : Schema
  toCarrier : α → schema.Carrier
  ofCarrier : schema.Carrier → α
  ofCarrier_toCarrier : ∀ a, ofCarrier (toCarrier a) = a

namespace Described

attribute [simp] ofCarrier_toCarrier

@[simp] theorem ofCarrier_comp_toCarrier {α : Type} [Described α] :
    (ofCarrier : (schema α).Carrier → α) ∘ toCarrier = id :=
  funext ofCarrier_toCarrier

end Described

def toValue {α : Type} [Described α] (a : α) : Value :=
  (Described.schema α).write (Described.toCarrier a)

def compact {α : Type} [Described α] (a : α) : String :=
  (toValue a).compact

def pretty {α : Type} [Described α] (a : α) : String :=
  (toValue a).pretty

end GrowthFault.Json
