import GrowthFault.Json.Schema.Draft

/-!
# Values of a schema from JSON values

A JSON value that is already there is turned into a value of a schema.  Its members are taken in
their order, unknown ones are ignored, and a list may stand for a record.
-/

namespace GrowthFault.Json

inductive Content where
  | members (members : List (String × Value))
  | items (items : List Value)

/-- The value of a field; a field that may be missing may be null. -/
def slotOfValue {α : Type} (read : Value → Except Message α) :
    (presence : Presence) → Value → Except Message (presence.Slot α)
  | .required, v => read v
  | .nullable, .null => .ok none
  | .nullable, v => (read v).map some
  | .omittable, .null => .ok none
  | .omittable, v => (read v).map some

mutual

def Schema.ofValue : (s : Schema) → Value → Except Message s.Carrier
  | .string, v =>
    match v with
    | .string text => .ok text
    | v => .error (.invalidType v.found "a string")
  | .bool, v =>
    match v with
    | .bool b => .ok b
    | v => .error (.invalidType v.found "a boolean")
  | .integer width, v =>
    match v with
    | .number n => readInteger width n
    | v => .error (.invalidType v.found width.name)
  | .any, v => .ok v.canonical
  | .list item, v =>
    match v with
    | .array items => items.mapM item.ofValue
    | v => .error (.invalidType v.found "a sequence")
  | .choice names, v =>
    match v with
    | .string name => readChoice names name
    | .object [(name, payload)] => do
      let i ← readChoice names name
      match payload with
      | .null => .ok i
      | payload => .error (.invalidType payload.found "unit")
    | .object _ => .error (.invalidValue .map "map with a single key")
    | v => .error (.invalidType v.found "string or map")
  | .record name fields, v =>
    match v with
    | .object members => do
      let draft ← members.foldlM (fun d m => fields.takeValue m.1 m.2 d) fields.blank
      fields.finish draft
    | .array items => do
      let (x, more) ← fields.ofItems (withElements (structName name) fields.count) 0 items
      if more.isEmpty then .ok x
      else .error (.invalidLength items.length "fewer elements in array")
    | v => .error (.invalidType v.found (structName name))
  | .tagged name variants, v =>
    match v with
    | .object members =>
      match members.lookup tagName with
      | none => .error (.missingField tagName)
      | some (.string variant) =>
        variants.ofContent name variants.names variant
          (.members (members.filter (·.1 != tagName)))
      | some other => .error (.invalidType other.found "variant identifier")
    | .array [] => .error (.missingField tagName)
    | .array (.string variant :: items) =>
      variants.ofContent name variants.names variant (.items items)
    | .array (other :: _) => .error (.invalidType other.found "variant identifier")
    | v => .error (.invalidType v.found (taggedName name))

/-- The draft with one more member, if it has a field for it. -/
def Fields.takeValue (key : String) (v : Value) :
    (fs : Fields) → fs.Draft → Except Message fs.Draft
  | .nil, d => .ok d
  | .cons name presence schema rest, (slot, more) =>
    if name = key then
      if slot.isSome then .error (.duplicateField name)
      else do
        let value ← slotOfValue schema.ofValue presence v
        .ok (some value, more)
    else do
      let more ← rest.takeValue key v more
      .ok (slot, more)

/-- The record whose fields are the first of these values, and the values behind them. -/
def Fields.ofItems (expected : String) (index : Nat) :
    (fs : Fields) → List Value → Except Message (fs.Carrier × List Value)
  | .nil, items => .ok ((), items)
  | .cons _ _ _ _, [] => .error (.invalidLength index expected)
  | .cons _ presence schema rest, v :: items => do
    let value ← slotOfValue schema.ofValue presence v
    let (values, more) ← rest.ofItems expected (index + 1) items
    .ok ((value, values), more)

def Variants.ofContent (choice : String) (names : List String) (variant : String) :
    (vs : Variants) → Content → Except Message vs.Carrier
  | .nil, _ => .error (.unknownVariant variant names)
  | .cons name fields rest, content =>
    if name = variant then
      match content with
      | .members members => do
        let draft ← members.foldlM (fun d m => fields.takeValue m.1 m.2 d) fields.blank
        let x ← fields.finish draft
        .ok (.inl x)
      | .items items => do
        let expected := withElements (variantName choice name) fields.count
        let (x, more) ← fields.ofItems expected 0 items
        if more.isEmpty then .ok (.inl x)
        else .error (.invalidLength items.length (elements fields.count ++ " in sequence"))
    else do
      let x ← rest.ofContent choice names variant content
      .ok (.inr x)

end

def ofValue (α : Type) [Described α] (v : Value) : Except Message α :=
  ((Described.schema α).ofValue v).map Described.ofCarrier

end GrowthFault.Json
