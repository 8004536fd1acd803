import GrowthFault.Json.Schema.Value

/-!
# Values of a schema from text

A text is read as a document and the document as a value of a schema, from the front, so the
first thing wrong is what is reported, be it a fault of the text or a value that does not fit.
A scalar that does not fit is reported behind it; a record or list that does not fit is reported
where its reading ends.  A variant is collected first and understood afterwards, so what is
wrong inside it has no place of its own and takes that of the record around it.
-/

namespace GrowthFault.Json

inductive Stop where
  /-- At a place: the number of bytes left there. -/
  | placed (message : Message) (left : Nat)
  /-- At no place; `here` is the text that had not been taken. -/
  | unplaced (message : Message) (here : List Char)
  deriving Repr

def Stop.ofFault (fault : Fault) : Stop :=
  .placed (.flaw fault.flaw) fault.left

def Stop.before (message : Message) (rest : List Char) : Stop :=
  .placed message (byteSize rest)

/-- The stop, with a place if it had none. -/
def Stop.settle (place : List Char → Nat) : Stop → Stop
  | .placed message left => .placed message left
  | .unplaced message here => .placed message (place here)

/-- The result of a step that can only fail for a fault of the text. -/
def orStop {α : Type} : Except Fault α → Except Stop α
  | .ok a => .ok a
  | .error fault => .error (.ofFault fault)

/-- Where an object that is given up at `here` is left: behind its brace, if that comes next. -/
def leftInObject (here : List Char) : Nat :=
  match skipSpace here with
  | '\x7d' :: rest => byteSize rest
  | rest => byteSize rest

/-- Where a list that is given up at `here` is left: behind its bracket or a comma, if that
comes next. -/
def leftInList (here : List Char) : Nat :=
  match skipSpace here with
  | ']' :: rest => byteSize rest
  | ',' :: rest => byteSize (skipSpace rest)
  | rest => byteSize rest

def closeList (chars : List Char) : Except Fault (List Char) :=
  match skipSpace chars with
  | [] => .error Flaw.endInList.atEnd
  | c :: rest =>
    if c = ']' then .ok rest
    else if c = ',' then
      match skipSpace rest with
      | ']' :: more => .error (Flaw.trailingComma.at (']' :: more))
      | more => .error (Flaw.trailingCharacters.at more)
    else .error (Flaw.trailingCharacters.at (c :: rest))

def Node.mismatch (expected : String) : Node → Stop
  | .absent [] => .ofFault Flaw.endInValue.atEnd
  | .absent (c :: chars) => .ofFault (Flaw.expectedValue.at (c :: chars))
  | .word _ truth rest =>
    match rest with
    | .error fault => .ofFault fault
    | .ok rest => .before (.invalidType ((truth.map Found.bool).getD .null) expected) rest
  | .number _ value rest =>
    match value, rest with
    | .error fault, _ => .ofFault fault
    | .ok _, .error fault => .ofFault fault
    | .ok n, .ok rest => .before (.invalidType (.number n) expected) rest
  | .string _ value rest =>
    match value, rest with
    | .error fault, _ => .ofFault fault
    | .ok _, .error fault => .ofFault fault
    | .ok text, .ok rest => .before (.invalidType (.string text) expected) rest
  | .array start _ _ => .before (.invalidType .sequence expected) start
  | .object start _ _ => .before (.invalidType .map expected) start

def Node.readText (expected : String) : Node → Except Stop (String × List Char)
  | .string _ value rest => do
    let text ← orStop value
    let rest ← orStop rest
    .ok (text, rest)
  | node => .error (node.mismatch expected)

def placeAt {α : Type} (rest : List Char) : Except Message α → Except Stop α
  | .ok a => .ok a
  | .error message => .error (.before message rest)

/-- A name out of a choice, and what follows it. -/
def Node.readName (names : List String) (node : Node) :
    Except Stop (Fin names.length × List Char) := do
  let (name, rest) ← node.readText "variant identifier"
  let i ← placeAt rest (readChoice names name)
  .ok (i, rest)

def Node.readBool : Node → Except Stop (Bool × List Char)
  | .word start truth rest =>
    match truth with
    | some b => do
      let rest ← orStop rest
      .ok (b, rest)
    | none => .error (Node.mismatch "a boolean" (.word start truth rest))
  | node => .error (node.mismatch "a boolean")

def Node.readInteger (width : Width) : Node → Except Stop (width.Carrier × List Char)
  | .number _ value rest => do
    let n ← orStop value
    let rest ← orStop rest
    let i ← placeAt rest (Json.readInteger width n)
    .ok (i, rest)
  | node => .error (node.mismatch width.name)

def partOf (chars : List Char) : Node :=
  document chars

def expectColon (chars : List Char) : Except Fault (List Char) :=
  match skipSpace chars with
  | [] => .error Flaw.endInObject.atEnd
  | c :: rest => if c = ':' then .ok rest else .error (Flaw.expectedColon.at (c :: rest))

/-- The key that comes next in an object, which may not be without one. -/
def keyPart (chars : List Char) : Except Fault Node :=
  match skipSpace chars with
  | [] => .error Flaw.endInObject.atEnd
  | c :: rest =>
    if c = '"' then .ok (partOf (c :: rest))
    else if c = '\x7d' then .error (Flaw.expectedValue.at (c :: rest))
    else .error (Flaw.expectedKey.at (c :: rest))

/-- A name that is the only key of an object and has the value null; `chars` is the text behind
the brace. -/
def readKeyedName (names : List String) (chars : List Char) :
    Except Stop (Fin names.length × List Char) := do
  let key ← orStop (keyPart chars)
  let (i, rest) ← key.readName names
  let rest ← orStop (expectColon rest)
  let rest ← match partOf rest with
    | .word _ none rest => orStop rest
    | node => .error (node.mismatch "unit")
  match skipSpace rest with
  | [] => .error (.ofFault Flaw.endInObject.atEnd)
  | c :: behind =>
    if c = '\x7d' then .ok (i, behind)
    else .error (.ofFault (Flaw.expectedValue.before (c :: behind)))

/-- One of some names, as a string or as the only key of an object. -/
def Node.readChoice (names : List String) (depth : Nat) :
    Node → Except Stop (Fin names.length × List Char)
  | .string start value rest => (Node.string start value rest).readName names
  | .object start _ _ =>
    match depth with
    | _ + 2 => readKeyedName names (start.drop 1)
    | _ => .error (.ofFault (Flaw.tooDeep.at start))
  | .absent [] => .error (.ofFault Flaw.endInValue.atEnd)
  | .absent start => .error (.ofFault (Flaw.expectedValue.at start))
  | .word start _ _ => .error (.ofFault (Flaw.expectedValue.at start))
  | .number start _ _ => .error (.ofFault (Flaw.expectedValue.at start))
  | .array start _ _ => .error (.ofFault (Flaw.expectedValue.at start))

/-- The elements of a list, each read in the same way. -/
def Items.readAll {α : Type} (read : Node → Except Stop (α × List Char)) :
    Items → Except Stop (List α × List Char)
  | .closed rest => .ok ([], rest)
  | .broken fault _ => .error (.ofFault fault)
  | .item node more => do
    let (x, _) ← read node
    let (xs, rest) ← more.readAll read
    .ok (x :: xs, rest)

/-- Collect the members of an object.  A key that may not come again stops the reading before
the colon behind it. -/
def Members.collect {δ : Type} (repeated : String → δ → Bool)
    (take : String → Node → δ → Except Stop δ) :
    Members → δ → Except Stop (δ × List Char)
  | .closed rest, d => .ok (d, rest)
  | .broken fault _, _ => .error (.ofFault fault)
  | .keyOnly key behind fault, d => do
    let key ← orStop key
    if repeated key d then .error (.unplaced (.duplicateField key) behind)
    else .error (.ofFault fault)
  | .member key behind node more, d => do
    let key ← orStop key
    if repeated key d then .error (.unplaced (.duplicateField key) behind)
    else do
      let d ← take key node d
      more.collect repeated take d

/-- A variant's name, if it has been found, and its other members, the last one first. -/
abbrev Collected (names : List String) := Option (Fin names.length) × List (String × Value)

def takeVariantMember (names : List String) (depth : Nat) (key : String) (node : Node)
    (c : Collected names) : Except Stop (Collected names) :=
  if key = tagName then do
    let (i, _) ← node.readName names
    .ok (some i, c.2)
  else do
    let (v, _) ← orStop (node.read depth)
    .ok (c.1, (key, v) :: c.2)

/-- The name and the content of a variant, and what follows it. -/
def Node.readVariant (names : List String) (expected : String) (depth : Nat) :
    Node → Except Stop ((Fin names.length × Content) × List Char)
  | .object start members _ =>
    match depth with
    | depth + 2 =>
      match members.collect (fun key c => key == tagName && c.1.isSome)
          (takeVariantMember names (depth + 1)) ((none, []) : Collected names) with
      | .error stop => .error (stop.settle leftInObject)
      | .ok ((none, _), rest) => .error (.before (.missingField tagName) rest)
      | .ok ((some i, members), rest) => .ok ((i, .members members.reverse), rest)
    | _ => .error (.ofFault (Flaw.tooDeep.at start))
  | .array start items _ =>
    match depth with
    | depth + 2 =>
      match items with
      | .closed rest => .error (.before (.missingField tagName) rest)
      | .broken fault _ => .error (.ofFault fault)
      | .item node more => do
        let (i, _) ← node.readName names
        let (values, rest) ← orStop (more.read (depth + 1))
        .ok ((i, .items values), rest)
    | _ => .error (.ofFault (Flaw.tooDeep.at start))
  | node => .error (node.mismatch expected)

/-- The value of a field, and what follows it; a field that may be missing may be null. -/
def slotOfNode {α : Type} (read : Node → Except Stop (α × List Char)) :
    (presence : Presence) → Node → Except Stop (presence.Slot α × List Char)
  | .required, node => read node
  | .nullable, .word _ none rest => (orStop rest).map fun rest => (none, rest)
  | .nullable, node => (read node).map fun r => (some r.1, r.2)
  | .omittable, .word _ none rest => (orStop rest).map fun rest => (none, rest)
  | .omittable, node => (read node).map fun r => (some r.1, r.2)

mutual

/-- The value of a schema that a part of a document is, and the text behind it; `depth`
containers may still be opened, and one more. -/
def Schema.ofNode : (s : Schema) → (depth : Nat) → Node → Except Stop (s.Carrier × List Char)
  | .string, _, node => node.readText "a string"
  | .bool, _, node => node.readBool
  | .integer width, _, node => node.readInteger width
  | .any, depth, node => do
    let (v, rest) ← orStop (node.read depth)
    .ok (v.canonical, rest)
  | .list item, depth, node =>
    match node with
    | .array start items _ =>
      match depth with
      | depth + 2 =>
        match items.readAll (item.ofNode (depth + 1)) with
        | .ok result => .ok result
        | .error stop => .error (stop.settle leftInList)
      | _ => .error (.ofFault (Flaw.tooDeep.at start))
    | node => .error (node.mismatch "a sequence")
  | .choice names, depth, node => node.readChoice names depth
  | .record name fields, depth, node =>
    match node with
    | .object start members _ =>
      match depth with
      | depth + 2 =>
        match members.collect (fun key d => fields.holds key d)
            (fun key node d => fields.takeNode (depth + 1) key node d) fields.blank with
        | .error stop => .error (stop.settle leftInObject)
        | .ok (draft, rest) => do
          let x ← placeAt rest (fields.finish draft)
          .ok (x, rest)
      | _ => .error (.ofFault (Flaw.tooDeep.at start))
    | .array start items _ =>
      match depth with
      | depth + 2 =>
        match fields.ofElements (withElements (structName name) fields.count) (depth + 1) 0
            items (start.drop 1) with
        | .error stop => .error (stop.settle leftInList)
        | .ok (x, behind) => do
          let rest ← orStop (closeList behind)
          .ok (x, rest)
      | _ => .error (.ofFault (Flaw.tooDeep.at start))
    | node => .error (node.mismatch (structName name))
  | .tagged name variants, depth, node => do
    let ((i, content), rest) ← node.readVariant variants.names (taggedName name) depth
    match variants.ofContent name variants.names (variants.names.get i) content with
    | .ok x => .ok (x, rest)
    | .error message => .error (.unplaced message rest)

/-- The draft with one more member, if it has a field for it; any other member is skipped. -/
def Fields.takeNode (depth : Nat) (key : String) (node : Node) :
    (fs : Fields) → fs.Draft → Except Stop fs.Draft
  | .nil, d => do
    let _ ← orStop node.skip
    .ok d
  | .cons name presence schema rest, (slot, more) =>
    if name = key then do
      let (value, _) ← slotOfNode (schema.ofNode depth) presence node
      .ok (some value, more)
    else do
      let more ← rest.takeNode depth key node more
      .ok (slot, more)

/-- The record whose fields are the first elements of a list, and the text behind the last of
them; `behind` is the text behind the element before. -/
def Fields.ofElements (expected : String) (depth index : Nat) :
    (fs : Fields) → Items → (behind : List Char) → Except Stop (fs.Carrier × List Char)
  | .nil, _, behind => .ok ((), behind)
  | .cons _ _ _ _, .closed rest, _ => .error (.before (.invalidLength index expected) rest)
  | .cons _ _ _ _, .broken fault _, _ => .error (.ofFault fault)
  | .cons _ presence schema rest, .item node more, _ => do
    let (value, behind) ← slotOfNode (schema.ofNode depth) presence node
    let (values, behind) ← rest.ofElements expected depth (index + 1) more behind
    .ok ((value, values), behind)

end

def Stop.refusal : Stop → Refusal
  | .placed message left => ⟨message, some left⟩
  | .unplaced message _ => ⟨message, none⟩

def Schema.ofChars (s : Schema) (chars : List Char) : Except Refusal s.Carrier :=
  match s.ofNode depthLimit (document chars) with
  | .error stop => .error stop.refusal
  | .ok (x, rest) =>
    match expectEnd rest with
    | .error fault => .error (.ofFault fault)
    | .ok () => .ok x

def ofText (α : Type) [Described α] (text : String) : Except Refusal α :=
  ((Described.schema α).ofChars text.toList).map Described.ofCarrier

end GrowthFault.Json
