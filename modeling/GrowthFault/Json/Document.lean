import GrowthFault.Json.Value
import GrowthFault.Json.Fault

/-!
# Documents

A document is the tree that a text spells, read once and with its faults left in place: nothing
stands behind a fault.  A part of a document is either read for its value or only skipped, and
skipping asks less (it minds neither the range of a number, nor unpaired surrogates, nor depth),
so a fault is kept for either use.  Every part also keeps the text where it begins and the text
that follows it.
-/

namespace GrowthFault.Json

/-! ## White space and words -/

def isSpace (c : Char) : Bool :=
  c == ' ' || c == '\n' || c == '\t' || c == '\r'

def skipSpace (chars : List Char) : List Char :=
  chars.dropWhile isSpace

def expectWord : (word chars : List Char) → Except Fault (List Char)
  | [], chars => .ok chars
  | _ :: _, [] => .error Flaw.endInValue.atEnd
  | w :: word, c :: chars =>
    if c = w then expectWord word chars else .error (Flaw.expectedWord.at (c :: chars))

/-! ## Strings -/

def hexValue? (c : Char) : Option Nat :=
  if '0' ≤ c ∧ c ≤ '9' then some (c.toNat - '0'.toNat)
  else if 'a' ≤ c ∧ c ≤ 'f' then some (c.toNat - 'a'.toNat + 10)
  else if 'A' ≤ c ∧ c ≤ 'F' then some (c.toNat - 'A'.toNat + 10)
  else none

def noHexUnit (chars : List Char) : Fault :=
  if byteSize chars < 4 then Flaw.endInString.atEnd
  else ⟨.invalidEscape, byteSize chars - 4⟩

def hexUnit (chars : List Char) : Except Fault (Nat × List Char) :=
  match chars with
  | a :: b :: c :: d :: rest =>
    match hexValue? a, hexValue? b, hexValue? c, hexValue? d with
    | some a, some b, some c, some d => .ok (((a * 16 + b) * 16 + c) * 16 + d, rest)
    | _, _, _, _ => .error (noHexUnit chars)
  | _ => .error (noHexUnit chars)

def expectInPair (c : Char) : List Char → Except Fault (List Char)
  | [] => .error Flaw.endInString.atEnd
  | d :: rest => if d = c then .ok rest else .error (Flaw.endOfHexEscape.at (d :: rest))

/-- The character of an escape with a number, and how many characters spell it. -/
def unicodeEscape (chars : List Char) : Except Fault (Char × Nat) := do
  let (high, rest) ← hexUnit chars
  if 0xDC00 ≤ high ∧ high ≤ 0xDFFF then .error (Flaw.loneSurrogate.before rest)
  else if high < 0xD800 ∨ 0xDBFF < high then .ok (Char.ofNat high, 4)
  else
    let rest ← expectInPair '\\' rest
    let rest ← expectInPair 'u' rest
    let (low, rest) ← hexUnit rest
    if low < 0xDC00 ∨ 0xDFFF < low then .error (Flaw.loneSurrogate.before rest)
    else .ok (Char.ofNat (0x10000 + (high - 0xD800) * 0x400 + (low - 0xDC00)), 10)

def simpleEscape? (c : Char) : Option Char :=
  if c = '"' ∨ c = '\\' ∨ c = '/' then some c
  else if c = 'b' then some '\x08'
  else if c = 'f' then some '\x0c'
  else if c = 'n' then some '\n'
  else if c = 'r' then some '\r'
  else if c = 't' then some '\t'
  else none

/-- The character of an escape, given the text behind the backslash, and how many characters of
that text the escape takes. -/
def readEscape : List Char → Except Fault (Char × Nat)
  | [] => .error Flaw.endInString.atEnd
  | c :: rest =>
    match simpleEscape? c with
    | some d => .ok (d, 1)
    | none =>
      if c = 'u' then (unicodeEscape rest).map fun (d, taken) => (d, taken + 1)
      else .error (Flaw.invalidEscape.at (c :: rest))

def skipEscape : List Char → Except Fault Nat
  | [] => .error Flaw.endInString.atEnd
  | c :: rest =>
    match simpleEscape? c with
    | some _ => .ok 1
    | none =>
      if c = 'u' then (hexUnit rest).map fun _ => 5
      else .error (Flaw.invalidEscape.at (c :: rest))

/-- The characters up to the closing quote.  The first `taken` characters belong to an escape
that has been read already. -/
def readString : (taken : Nat) → List Char → Except Fault (List Char)
  | _, [] => .error Flaw.endInString.atEnd
  | taken + 1, _ :: rest => readString taken rest
  | 0, c :: rest =>
    if c = '"' then .ok []
    else if c = '\\' then do
      let (d, taken) ← readEscape rest
      let chars ← readString taken rest
      .ok (d :: chars)
    else if c.toNat < 0x20 then .error (Flaw.controlCharacter.before rest)
    else do
      let chars ← readString 0 rest
      .ok (c :: chars)

def skipString : (taken : Nat) → List Char → Except Fault (List Char)
  | _, [] => .error Flaw.endInString.atEnd
  | taken + 1, _ :: rest => skipString taken rest
  | 0, c :: rest =>
    if c = '"' then .ok rest
    else if c = '\\' then do
      let taken ← skipEscape rest
      skipString taken rest
    else if c.toNat < 0x20 then .error (Flaw.controlCharacter.before (c :: rest))
    else skipString 0 rest

/-! ## Numbers -/

/-- The run of digits at the front, and the text behind it. -/
def spanDigits (chars : List Char) : List Char × List Char :=
  (chars.takeWhile Char.isDigit, chars.dropWhile Char.isDigit)

/-- Append digits to a 64-bit number until one does not fit; the digits from there on are left
over. -/
def accumulate (n : Nat) : List Char → Nat × List Char
  | [] => (n, [])
  | d :: ds =>
    let m := n * 10 + (d.toNat - '0'.toNat)
    if m < UInt64.size then accumulate m ds else (n, d :: ds)

def powerOfTen (k : Nat) : Float :=
  Float.ofScientific 1 false k

/-- Divide by `1e308` while the exponent is below what one division can do.  Three steps bring
every 64-bit number to zero, where the exponent no longer matters. -/
def scaleDown : (steps : Nat) → (f : Float) → (below : Nat) → Float
  | 0, f, _ => f
  | steps + 1, f, below =>
    if below ≤ 308 then f / powerOfTen below
    else if f == 0 then f
    else scaleDown steps (f / powerOfTen 308) (below - 308)

/-- The double `n · 10 ^ e` by one multiplication or by divisions, none if it is infinite. -/
def scale? (n : Nat) (e : Int) : Option Float :=
  let f := (UInt64.ofNat n).toFloat
  if e < 0 then some (scaleDown 4 f e.natAbs)
  else if e ≤ 308 then
    let g := f * powerOfTen e.toNat
    if g.isInf then none else some g
  else if f == 0 then some f
  else none

def signedDouble (negative : Bool) (f : Float) : Number :=
  .double (if negative then -f else f).toBits

def scaled (negative : Bool) (n : Nat) (e : Int) (rest : List Char) : Except Fault Number :=
  match scale? n e with
  | some f => .ok (signedDouble negative f)
  | none => .error (Flaw.numberOutOfRange.before rest)

def exponentLimit : Nat := 0x7FFFFFFF

/-- Append digits to an exponent; the digits behind the first one that does not fit are left
over. -/
def accumulateExponent (e : Nat) : List Char → Except (List Char) Nat
  | [] => .ok e
  | d :: ds =>
    let m := e * 10 + (d.toNat - '0'.toNat)
    if m ≤ exponentLimit then accumulateExponent m ds else .error ds

/-- The sign at the front of an exponent: whether it is a minus, and the text behind it. -/
def exponentSign : List Char → Bool × List Char
  | '+' :: rest => (false, rest)
  | '-' :: rest => (true, rest)
  | rest => (false, rest)

/-- The number whose exponent starts at `chars`, behind the mark. -/
def readExponent (negative : Bool) (n : Nat) (start : Int) (chars : List Char) :
    Except Fault Number :=
  let (down, behind) := exponentSign chars
  let (ds, rest) := spanDigits behind
  match ds with
  | [] =>
    match behind with
    | [] => .error Flaw.endInValue.atEnd
    | _ :: _ => .error (Flaw.invalidNumber.at behind)
  | _ :: _ =>
    match accumulateExponent 0 ds with
    | .ok e => scaled negative n (if down then start - e else start + e) rest
    | .error excess =>
      if n ≠ 0 ∧ !down then .error (Flaw.numberOutOfRange.before (excess ++ rest))
      else .ok (signedDouble negative 0)

/-- The number whose digits so far make `n · 10 ^ e` and whose text goes on at `chars`. -/
def readTail (negative : Bool) (n : Nat) (e : Int) (chars : List Char) :
    Except Fault Number :=
  match chars with
  | '.' :: behind =>
    let (ds, rest) := spanDigits behind
    match ds with
    | [] =>
      match behind with
      | [] => .error Flaw.endInValue.atEnd
      | _ :: _ => .error (Flaw.invalidNumber.at behind)
    | _ :: _ =>
      let (m, excess) := accumulate n ds
      let e := e - (ds.length - excess.length : Nat)
      match rest with
      | 'e' :: behind => readExponent negative m e behind
      | 'E' :: behind => readExponent negative m e behind
      | _ => scaled negative m e rest
  | 'e' :: behind => readExponent negative n e behind
  | 'E' :: behind => readExponent negative n e behind
  | rest => scaled negative n e rest

def continues : List Char → Bool
  | c :: _ => c == '.' || c == 'e' || c == 'E'
  | [] => false

/-- The integer of this size and sign, as a double if no exact number holds it. -/
def exact (negative : Bool) (n : Nat) : Number :=
  if !negative then .natural (UInt64.ofNat n)
  else if h : 0 < n ∧ n ≤ 0x8000000000000000 then .negative ⟨n - 1, by omega⟩
  else signedDouble true (UInt64.ofNat n).toFloat

/-- The number at the front of a text, behind its sign. -/
def readUnsigned (negative : Bool) (chars : List Char) : Except Fault Number :=
  match chars with
  | [] => .error Flaw.endInValue.atEnd
  | '0' :: rest =>
    match rest with
    | d :: _ =>
      if d.isDigit then .error (Flaw.invalidNumber.at rest)
      else if continues rest then readTail negative 0 0 rest
      else .ok (exact negative 0)
    | [] => .ok (exact negative 0)
  | _ :: _ =>
    let (ds, rest) := spanDigits chars
    match ds with
    | [] => .error (Flaw.invalidNumber.at chars)
    | _ :: _ =>
      let (n, excess) := accumulate 0 ds
      if excess.isEmpty && !continues rest then .ok (exact negative n)
      else readTail negative n excess.length rest

def readNumber : List Char → Except Fault Number
  | '-' :: rest => readUnsigned true rest
  | chars => readUnsigned false chars

def skipExponent (chars : List Char) : Except Fault (List Char) :=
  let (_, behind) := exponentSign chars
  let (ds, rest) := spanDigits behind
  if ds.isEmpty then .error (Flaw.invalidNumber.at behind) else .ok rest

def skipTail : List Char → Except Fault (List Char)
  | '.' :: behind =>
    let (ds, rest) := spanDigits behind
    if ds.isEmpty then .error (Flaw.invalidNumber.at behind)
    else
      match rest with
      | 'e' :: behind => skipExponent behind
      | 'E' :: behind => skipExponent behind
      | _ => .ok rest
  | 'e' :: behind => skipExponent behind
  | 'E' :: behind => skipExponent behind
  | rest => .ok rest

def skipNumber (chars : List Char) : Except Fault (List Char) :=
  let unsigned := match chars with
    | '-' :: rest => rest
    | _ => chars
  match unsigned with
  | '0' :: rest =>
    match rest with
    | d :: _ => if d.isDigit then .error (Flaw.invalidNumber.at rest) else skipTail rest
    | [] => .ok rest
  | _ =>
    let (ds, rest) := spanDigits unsigned
    if ds.isEmpty then .error (Flaw.invalidNumber.at unsigned) else skipTail rest

/-! ## The tree -/

mutual

inductive Node where
  /-- No value begins here. -/
  | absent (start : List Char)
  /-- Null, if it is no truth value. -/
  | word (start : List Char) (truth : Option Bool) (rest : Except Fault (List Char))
  | number (start : List Char) (value : Except Fault Number) (rest : Except Fault (List Char))
  | string (start : List Char) (value : Except Fault String) (rest : Except Fault (List Char))
  | array (start : List Char) (items : Items) (rest : Except Fault (List Char))
  | object (start : List Char) (members : Members) (rest : Except Fault (List Char))

/-- The elements of a list from some point on. -/
inductive Items where
  | closed (rest : List Char)
  /-- Nothing can follow; what a reader reports and what a skipper reports. -/
  | broken (reading skipping : Fault)
  | item (node : Node) (more : Items)

/-- The members of an object from some point on. -/
inductive Members where
  | closed (rest : List Char)
  /-- Nothing can follow; what a reader reports and what a skipper reports. -/
  | broken (reading skipping : Fault)
  /-- A key without a value; `behind` is the text behind the key. -/
  | keyOnly (key : Except Fault String) (behind : List Char) (fault : Fault)
  | member (key : Except Fault String) (behind : List Char) (value : Node) (more : Members)

end

def Node.skip : Node → Except Fault (List Char)
  | .absent [] => .error Flaw.endInValue.atEnd
  | .absent (c :: chars) => .error (Flaw.expectedValue.at (c :: chars))
  | .word _ _ rest => rest
  | .number _ _ rest => rest
  | .string _ _ rest => rest
  | .array _ _ rest => rest
  | .object _ _ rest => rest

def Items.skip : Items → Except Fault (List Char)
  | .closed rest => .ok rest
  | .broken _ fault => .error fault
  | .item node more =>
    match node.skip with
    | .error fault => .error fault
    | .ok _ => more.skip

def Members.skip : Members → Except Fault (List Char)
  | .closed rest => .ok rest
  | .broken _ fault => .error fault
  | .keyOnly _ _ fault => .error fault
  | .member _ _ value more =>
    match value.skip with
    | .error fault => .error fault
    | .ok _ => more.skip

def Node.ofItems (start : List Char) (items : Items) : Node :=
  .array start items items.skip

def Node.ofMembers (start : List Char) (members : Members) : Node :=
  .object start members members.skip

@[simp] theorem Node.skip_ofItems (start : List Char) (items : Items) :
    (Node.ofItems start items).skip = items.skip :=
  rfl

@[simp] theorem Node.skip_ofMembers (start : List Char) (members : Members) :
    (Node.ofMembers start members).skip = members.skip :=
  rfl

/-! ## Reading a text

Every step takes at least one character, so the length of the text bounds the steps. -/

mutual

def readNode : (steps : Nat) → List Char → Node
  | 0, start => .absent start
  | steps + 1, start =>
    match start with
    | [] => .absent start
    | c :: rest =>
      if c = 'n' then .word start none (expectWord ['u', 'l', 'l'] rest)
      else if c = 't' then .word start (some true) (expectWord ['r', 'u', 'e'] rest)
      else if c = 'f' then .word start (some false) (expectWord ['a', 'l', 's', 'e'] rest)
      else if c = '"' then
        .string start ((readString 0 rest).map String.ofList) (skipString 0 rest)
      else if c = '-' ∨ c.isDigit then .number start (readNumber start) (skipNumber start)
      else if c = '[' then .ofItems start (readItems steps rest)
      else if c = '\x7b' then .ofMembers start (readMembers steps rest)
      else .absent start

def readItems : (steps : Nat) → List Char → Items
  | 0, rest => .broken (Flaw.endInList.at rest) (Flaw.endInList.at rest)
  | steps + 1, rest =>
    match skipSpace rest with
    | [] => .broken Flaw.endInList.atEnd Flaw.endInList.atEnd
    | c :: behind =>
      if c = ']' then .closed behind
      else
        let node := readNode steps (c :: behind)
        .item node (readMoreItems steps node.skip)

def readMoreItems : (steps : Nat) → Except Fault (List Char) → Items
  | _, .error fault => .broken fault fault
  | 0, .ok rest => .broken (Flaw.endInList.at rest) (Flaw.endInList.at rest)
  | steps + 1, .ok rest =>
    match skipSpace rest with
    | [] => .broken Flaw.endInList.atEnd Flaw.endInList.atEnd
    | c :: behind =>
      if c = ']' then .closed behind
      else if c = ',' then
        match skipSpace behind with
        | [] => .broken Flaw.endInValue.atEnd Flaw.endInValue.atEnd
        | d :: next =>
          if d = ']' then
            .broken (Flaw.trailingComma.at (d :: next)) (Flaw.expectedValue.at (d :: next))
          else
            let node := readNode steps (d :: next)
            .item node (readMoreItems steps node.skip)
      else
        let fault := Flaw.expectedCommaOrBracket.at (c :: behind)
        .broken fault fault

def readMembers : (steps : Nat) → List Char → Members
  | 0, rest => .broken (Flaw.endInObject.at rest) (Flaw.endInObject.at rest)
  | steps + 1, rest =>
    match skipSpace rest with
    | [] => .broken Flaw.endInObject.atEnd Flaw.endInObject.atEnd
    | c :: behind =>
      if c = '\x7d' then .closed behind
      else if c = '"' then readMember steps behind
      else
        let fault := Flaw.expectedKey.at (c :: behind)
        .broken fault fault

/-- The members of an object from a key on whose quote has just been taken. -/
def readMember : (steps : Nat) → List Char → Members
  | 0, rest => .broken (Flaw.endInObject.at rest) (Flaw.endInObject.at rest)
  | steps + 1, rest =>
    let key := (readString 0 rest).map String.ofList
    match skipString 0 rest with
    | .error skipping =>
      match key with
      | .error reading => .broken reading skipping
      | .ok _ => .broken skipping skipping
    | .ok behind =>
      match skipSpace behind with
      | [] => .keyOnly key [] Flaw.endInObject.atEnd
      | c :: next =>
        if c = ':' then
          let node := readNode steps (skipSpace next)
          .member key (c :: next) node (readMoreMembers steps node.skip)
        else .keyOnly key (c :: next) (Flaw.expectedColon.at (c :: next))

def readMoreMembers : (steps : Nat) → Except Fault (List Char) → Members
  | _, .error fault => .broken fault fault
  | 0, .ok rest => .broken (Flaw.endInObject.at rest) (Flaw.endInObject.at rest)
  | steps + 1, .ok rest =>
    match skipSpace rest with
    | [] => .broken Flaw.endInObject.atEnd Flaw.endInObject.atEnd
    | c :: behind =>
      if c = '\x7d' then .closed behind
      else if c = ',' then
        match skipSpace behind with
        | [] => .broken Flaw.endInValue.atEnd Flaw.endInObject.atEnd
        | d :: next =>
          if d = '"' then readMember steps next
          else
            let fault := Flaw.expectedKey.at (d :: next)
            .broken (if d = '\x7d' then Flaw.trailingComma.at (d :: next) else fault) fault
      else
        let fault := Flaw.expectedCommaOrBrace.at (c :: behind)
        .broken fault fault

end

def document (chars : List Char) : Node :=
  readNode (2 * chars.length + 2) (skipSpace chars)

/-! ## Values -/

/-- How many containers may be open at once, and one more. -/
def depthLimit : Nat := 128

mutual

/-- The value of a part, its objects as they stand, and the text behind it; `depth` containers
may still be opened, and one more. -/
def Node.read (depth : Nat) : Node → Except Fault (Value × List Char)
  | .absent [] => .error Flaw.endInValue.atEnd
  | .absent (c :: chars) => .error (Flaw.expectedValue.at (c :: chars))
  | .word _ truth rest => do
    let rest ← rest
    .ok ((truth.map Value.bool).getD .null, rest)
  | .number _ value rest => do
    let n ← value
    let rest ← rest
    .ok (.number n, rest)
  | .string _ value rest => do
    let text ← value
    let rest ← rest
    .ok (.string text, rest)
  | .array start items _ =>
    match depth with
    | depth + 2 => do
      let (values, rest) ← items.read (depth + 1)
      .ok (.array values, rest)
    | _ => .error (Flaw.tooDeep.at start)
  | .object start members _ =>
    match depth with
    | depth + 2 => do
      let (values, rest) ← members.read (depth + 1)
      .ok (.object values, rest)
    | _ => .error (Flaw.tooDeep.at start)

def Items.read (depth : Nat) : Items → Except Fault (List Value × List Char)
  | .closed rest => .ok ([], rest)
  | .broken fault _ => .error fault
  | .item node more => do
    let (value, _) ← node.read depth
    let (values, rest) ← more.read depth
    .ok (value :: values, rest)

def Members.read (depth : Nat) : Members → Except Fault (List (String × Value) × List Char)
  | .closed rest => .ok ([], rest)
  | .broken fault _ => .error fault
  | .keyOnly key _ fault => do
    let _ ← key
    .error fault
  | .member key _ node more => do
    let key ← key
    let (value, _) ← node.read depth
    let (values, rest) ← more.read depth
    .ok ((key, value) :: values, rest)

end

def expectEnd (rest : List Char) : Except Fault Unit :=
  match skipSpace rest with
  | [] => .ok ()
  | c :: rest => .error (Flaw.trailingCharacters.at (c :: rest))

/-- The value of a text, its objects in order and without repeated keys. -/
def parse (chars : List Char) : Except Fault Value := do
  let (value, rest) ← (document chars).read depthLimit
  expectEnd rest
  .ok value.canonical

end GrowthFault.Json
