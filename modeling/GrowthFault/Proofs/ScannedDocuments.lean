import GrowthFault.Proofs.ReadRecords

/-!
# Scanned documents

Every part of a document is scanned from a text, and the text of a part begins where the part before
it ends.  So a part that is read for its value spells the value, and is skipped up to where it is
read to.  A reader that goes back to the text finds there what the document has.
-/

namespace GrowthFault.Json

variable {steps depth : Nat} {node : Node} {items : Items} {members : Members}
  {start front behind rest : List Char} {v : Value}

/-! ## Parts and their texts -/

/-- The part of a document was scanned from some text. -/
def Node.Scanned (node : Node) : Prop :=
  ∃ steps chars, node = readNode steps chars

/-- The elements were scanned from this text, at the bracket of a list or behind an element. -/
def Items.Scanned (items : Items) (front : List Char) : Prop :=
  ∃ steps, items = readItems steps front ∨ items = readMoreItems steps (.ok front)

/-- The members were scanned from some text. -/
def Members.Scanned (members : Members) : Prop :=
  ∃ steps, (∃ front, members = readMembers steps front) ∨
    (∃ front, members = readMember steps front) ∨
      ∃ skipped, members = readMoreMembers steps skipped

theorem scanned_document (chars : List Char) : (document chars).Scanned :=
  ⟨_, _, rfl⟩

theorem Node.Scanned.array {after : Except Fault (List Char)}
    (h : (Node.array start items after).Scanned) :
    after = items.skip ∧ items.Scanned (start.drop 1) := by
  obtain ⟨steps, chars, h⟩ := h
  cases steps with
  | zero => cases h
  | succ steps =>
      cases chars with
      | nil => cases h
      | cons c rest =>
          rw [readNode] at h
          split_ifs at h
          all_goals cases h
          exact ⟨rfl, steps, .inl rfl⟩

theorem Node.Scanned.object {after : Except Fault (List Char)}
    (h : (Node.object start members after).Scanned) :
    after = members.skip ∧ ∃ steps, members = readMembers steps (start.drop 1) := by
  obtain ⟨steps, chars, h⟩ := h
  cases steps with
  | zero => cases h
  | succ steps =>
      cases chars with
      | nil => cases h
      | cons c rest =>
          rw [readNode] at h
          split_ifs at h
          all_goals cases h
          exact ⟨rfl, steps, rfl⟩

/-! ## Elements -/

def Items.IsBroken (items : Items) : Prop :=
  ∃ reading skipping, items = .broken reading skipping

theorem readItems_cases (steps : Nat) (front : List Char) :
    (readItems steps front).IsBroken ∨
      (∃ rest, readItems steps front = .closed rest ∧ skipSpace front = ']' :: rest) ∨
        ∃ less c text, skipSpace front = c :: text ∧ c ≠ ']' ∧
          readItems steps front = .item (readNode less (c :: text))
            (readMoreItems less (readNode less (c :: text)).skip) := by
  cases steps with
  | zero => exact .inl ⟨_, _, rfl⟩
  | succ steps =>
      rw [readItems]
      split
      next => exact .inl ⟨_, _, rfl⟩
      next c text hfound =>
        split_ifs with hclose
        · exact .inr (.inl ⟨text, rfl, hclose ▸ hfound⟩)
        · exact .inr (.inr ⟨steps, c, text, hfound, hclose, rfl⟩)

theorem readMoreItems_cases (steps : Nat) (front : List Char) :
    (readMoreItems steps (.ok front)).IsBroken ∨
      (∃ rest, readMoreItems steps (.ok front) = .closed rest ∧ skipSpace front = ']' :: rest) ∨
        ∃ less text next, skipSpace front = ',' :: text ∧
          readMoreItems steps (.ok front) = .item (readNode less next)
            (readMoreItems less (readNode less next).skip) := by
  cases steps with
  | zero => exact .inl ⟨_, _, rfl⟩
  | succ steps =>
      rw [readMoreItems]
      split
      next => exact .inl ⟨_, _, rfl⟩
      next c text hfound =>
        split_ifs with hclose hcomma
        · exact .inr (.inl ⟨text, rfl, hclose ▸ hfound⟩)
        · split
          next => exact .inl ⟨_, _, rfl⟩
          next d next hnext =>
            split_ifs
            · exact .inl ⟨_, _, rfl⟩
            · exact .inr (.inr ⟨steps, text, _, hcomma ▸ hfound, rfl⟩)
        · exact .inl ⟨_, _, rfl⟩

theorem closeList_eq_ok {chars : List Char} :
    closeList chars = .ok rest ↔ skipSpace chars = ']' :: rest := by
  rw [closeList]
  split
  next hblank => simp [hblank]
  next c behind hfound =>
    rw [hfound, List.cons.injEq]
    split_ifs with hclose hcomma
    · simp [hclose]
    · split <;> simp [hclose]
    · simp [hclose]

/-- Where the elements end the list is closed, and where there is another one it is not. -/
theorem Items.Scanned.cases (h : items.Scanned front) :
    items.IsBroken ∨ (∃ rest, items = .closed rest ∧ closeList front = .ok rest) ∨
      ∃ node more, items = .item node more ∧ node.Scanned ∧
        (∀ rest, closeList front ≠ .ok rest) ∧
          ∀ between, node.skip = .ok between → more.Scanned between := by
  have hmore {less : Nat} {node : Node} (between : List Char) (hskip : node.skip = .ok between) :
      (readMoreItems less node.skip).Scanned between := by
    rw [hskip]
    exact ⟨less, .inr rfl⟩
  simp only [ne_eq, closeList_eq_ok]
  obtain ⟨steps, rfl | rfl⟩ := h
  · obtain hbroken | hclosed | ⟨less, c, text, hfound, hopen, hitem⟩ := readItems_cases steps front
    · exact .inl hbroken
    · exact .inr (.inl hclosed)
    · refine .inr (.inr ⟨_, _, hitem, ⟨less, _, rfl⟩, ?_, hmore⟩)
      simp [hfound, hopen]
  · obtain hbroken | hclosed | ⟨less, text, next, hfound, hitem⟩ := readMoreItems_cases steps front
    · exact .inl hbroken
    · exact .inr (.inl hclosed)
    · refine .inr (.inr ⟨_, _, hitem, ⟨less, _, rfl⟩, ?_, hmore⟩)
      simp [hfound]

/-! ## Members -/

def Members.IsBroken (members : Members) : Prop :=
  ∃ reading skipping, members = .broken reading skipping

theorem readMembers_cases (steps : Nat) (front : List Char) :
    (readMembers steps front).IsBroken ∨
      (∃ rest, readMembers steps front = .closed rest ∧ skipSpace front = '\x7d' :: rest) ∨
        ∃ less text, skipSpace front = '"' :: text ∧
          readMembers steps front = readMember less text := by
  cases steps with
  | zero => exact .inl ⟨_, _, rfl⟩
  | succ steps =>
      rw [readMembers]
      split
      next => exact .inl ⟨_, _, rfl⟩
      next c text hfound =>
        split_ifs with hclose hquote
        · exact .inr (.inl ⟨text, rfl, hclose ▸ hfound⟩)
        · exact .inr (.inr ⟨steps, text, hquote ▸ hfound, rfl⟩)
        · exact .inl ⟨_, _, rfl⟩

theorem readMember_cases (steps : Nat) (front : List Char) :
    (readMember steps front).IsBroken ∨
      (∃ key behind fault, readMember steps front = .keyOnly key behind fault) ∨
        ∃ less afterKey next, skipString 0 front = .ok afterKey ∧
          skipSpace afterKey = ':' :: next ∧
          readMember steps front = .member ((readString 0 front).map String.ofList) (':' :: next)
            (readNode less (skipSpace next))
            (readMoreMembers less (readNode less (skipSpace next)).skip) := by
  cases steps with
  | zero => exact .inl ⟨_, _, rfl⟩
  | succ steps =>
      rw [readMember]
      split
      next => split <;> exact .inl ⟨_, _, rfl⟩
      next afterKey hskip =>
        split
        next => exact .inr (.inl ⟨_, _, _, rfl⟩)
        next c next hfound =>
          split_ifs with hcolon
          · subst hcolon
            exact .inr (.inr ⟨steps, afterKey, next, hskip, hfound, rfl⟩)
          · exact .inr (.inl ⟨_, _, _, rfl⟩)

theorem readMoreMembers_cases (steps : Nat) (front : List Char) :
    (readMoreMembers steps (.ok front)).IsBroken ∨
      (∃ rest, readMoreMembers steps (.ok front) = .closed rest ∧
        skipSpace front = '\x7d' :: rest) ∨
        ∃ less text next, skipSpace front = ',' :: text ∧
          readMoreMembers steps (.ok front) = readMember less next := by
  cases steps with
  | zero => exact .inl ⟨_, _, rfl⟩
  | succ steps =>
      rw [readMoreMembers]
      split
      next => exact .inl ⟨_, _, rfl⟩
      next c text hfound =>
        split_ifs with hclose hcomma
        · exact .inr (.inl ⟨text, rfl, hclose ▸ hfound⟩)
        · split
          next => exact .inl ⟨_, _, rfl⟩
          next d next hnext =>
            split_ifs
            · exact .inr (.inr ⟨steps, text, next, hcomma ▸ hfound, rfl⟩)
            · exact .inl ⟨_, _, rfl⟩
            · exact .inl ⟨_, _, rfl⟩
        · exact .inl ⟨_, _, rfl⟩

theorem Members.Scanned.member {key : Except Fault String} {more : Members}
    (h : (Members.member key behind node more).Scanned) : node.Scanned ∧ more.Scanned := by
  have hmember {steps : Nat} {front : List Char}
      (h : Members.member key behind node more = readMember steps front) :
      node.Scanned ∧ more.Scanned := by
    obtain ⟨_, _, hbroken⟩ | ⟨_, _, _, hkey⟩ | ⟨less, _, next, -, -, hfound⟩ :=
      readMember_cases steps front
    · cases h.trans hbroken
    · cases h.trans hkey
    · cases h.trans hfound
      exact ⟨⟨less, _, rfl⟩, less, .inr (.inr ⟨_, rfl⟩)⟩
  obtain ⟨steps, ⟨front, h⟩ | ⟨front, h⟩ | ⟨skipped, h⟩⟩ := h
  · obtain ⟨_, _, hbroken⟩ | ⟨_, hclosed, -⟩ | ⟨less, text, -, hfirst⟩ :=
      readMembers_cases steps front
    · cases h.trans hbroken
    · cases h.trans hclosed
    · exact hmember (h.trans hfirst)
  · exact hmember h
  · cases skipped with
    | error fault =>
        rw [readMoreMembers] at h
        cases h
    | ok front =>
        obtain ⟨_, _, hbroken⟩ | ⟨_, hclosed, -⟩ | ⟨less, _, next, -, hnext⟩ :=
          readMoreMembers_cases steps front
        · cases h.trans hbroken
        · cases h.trans hclosed
        · exact hmember (h.trans hnext)

/-! ## What was read -/

mutual

/-- A part that was read for its value spells the value, and it is skipped as far as it was read. -/
theorem Node.spells_of_read : ∀ {node : Node} {depth : Nat} {v : Value} {rest : List Char},
    node.Scanned → node.read depth = .ok (v, rest) → node.Spells v rest
  | .absent [], _, _, _, _, hread => nomatch hread
  | .absent (_ :: _), _, _, _, _, hread => nomatch hread
  | .word _ truth _, _, _, _, _, hread => by
    obtain ⟨_, rfl, ⟨⟩⟩ := bind_eq_ok.1 hread
    cases truth
    · exact .null
    · exact .bool
  | .number _ _ _, _, _, _, _, hread => by
    obtain ⟨_, rfl, hafter⟩ := bind_eq_ok.1 hread
    obtain ⟨_, rfl, ⟨⟩⟩ := bind_eq_ok.1 hafter
    exact .number
  | .string _ _ _, _, _, _, _, hread => by
    obtain ⟨_, rfl, hafter⟩ := bind_eq_ok.1 hread
    obtain ⟨_, rfl, ⟨⟩⟩ := bind_eq_ok.1 hafter
    exact .string
  | .array _ items _, depth + 2, _, _, hscanned, hread => by
    obtain ⟨⟨values, _⟩, hvalues, ⟨⟩⟩ := bind_eq_ok.1 hread
    obtain ⟨rfl, hitems⟩ := hscanned.array
    have hspells := items.spells_of_read hitems hvalues
    exact .array hspells hspells.skip_eq
  | .object _ members _, depth + 2, _, _, hscanned, hread => by
    obtain ⟨⟨values, _⟩, hvalues, ⟨⟩⟩ := bind_eq_ok.1 hread
    obtain ⟨rfl, steps, hmembers⟩ := hscanned.object
    have hspells := members.spells_of_read ⟨steps, .inl ⟨_, hmembers⟩⟩ hvalues
    exact .object hspells hspells.skip_eq

theorem Items.spells_of_read : ∀ {items : Items} {depth : Nat} {values : List Value}
    {front rest : List Char}, items.Scanned front → items.read depth = .ok (values, rest) →
      items.Spells values rest
  | .closed _, _, _, _, _, _, hread => by
    cases hread
    exact .closed
  | .broken _ _, _, _, _, _, _, hread => nomatch hread
  | .item node more, _, _, _, _, hscanned, hread => by
    obtain ⟨⟨v, between⟩, hvalue, hafter⟩ := bind_eq_ok.1 hread
    obtain ⟨⟨values, _⟩, hmore, ⟨⟩⟩ := bind_eq_ok.1 hafter
    obtain ⟨_, _, ⟨⟩⟩ | ⟨_, ⟨⟩, -⟩ | ⟨_, _, ⟨⟩, hnode, -, hnext⟩ := hscanned.cases
    have hspells := node.spells_of_read hnode hvalue
    exact .item hspells (more.spells_of_read (hnext between hspells.skip_eq) hmore)

theorem Members.spells_of_read : ∀ {members : Members} {depth : Nat}
    {values : List (String × Value)} {rest : List Char}, members.Scanned →
      members.read depth = .ok (values, rest) → members.Spells values rest
  | .closed _, _, _, _, _, hread => by
    cases hread
    exact .closed
  | .broken _ _, _, _, _, _, hread => nomatch hread
  | .keyOnly _ _ _, _, _, _, _, hread => by
    obtain ⟨_, -, ⟨⟩⟩ := bind_eq_ok.1 hread
  | .member _ _ node more, _, _, _, hscanned, hread => by
    obtain ⟨key, rfl, hmember⟩ := bind_eq_ok.1 hread
    obtain ⟨⟨v, between⟩, hvalue, hafter⟩ := bind_eq_ok.1 hmember
    obtain ⟨⟨values, _⟩, hmore, ⟨⟩⟩ := bind_eq_ok.1 hafter
    obtain ⟨hnode, hnext⟩ := hscanned.member
    exact .member (node.spells_of_read hnode hvalue) (more.spells_of_read hnext hmore)

end

/-! ## What comes next in an object

A reader that goes back to the text finds the key, the word for null and the closing brace where the
document has them. -/

theorem document_quote (text : List Char) :
    document ('"' :: text) =
      .string ('"' :: text) ((readString 0 text).map String.ofList) (skipString 0 text) :=
  rfl

theorem keyPart_of_quote {text afterKey : List Char} {key : String}
    (hfront : skipSpace front = '"' :: text)
    (hkey : (readString 0 text).map String.ofList = .ok key)
    (hskip : skipString 0 text = .ok afterKey) :
    keyPart front = .ok (.string ('"' :: text) (.ok key) (.ok afterKey)) := by
  rw [keyPart, hfront, ← hkey, ← hskip, ← document_quote]
  rfl

theorem keyPart_of_brace (hfront : skipSpace front = '\x7d' :: rest) :
    keyPart front = .error (Flaw.expectedValue.at ('\x7d' :: rest)) := by
  rw [keyPart, hfront]
  rfl

theorem expectColon_of_colon (hfront : skipSpace front = ':' :: rest) :
    expectColon front = .ok rest := by
  rw [expectColon, hfront]
  rfl

/-- The word for null is found whatever steps there are. -/
theorem readNode_null {chars : List Char} {after : Except Fault (List Char)}
    (h : readNode steps chars = .word start none after) (more : Nat) :
    readNode (more + 1) chars = .word start none after := by
  cases steps with
  | zero => cases h
  | succ steps =>
      cases chars with
      | nil => cases h
      | cons c chars =>
          rw [readNode] at h ⊢
          split_ifs at h ⊢
          all_goals cases h
          rfl

theorem partOf_of_spells_null {chars : List Char}
    (h : (readNode steps (skipSpace chars)).Spells .null rest) :
    ∃ start, partOf chars = .word start none (.ok rest) := by
  generalize hnode : readNode steps (skipSpace chars) = node at h
  cases h with
  | @null start => exact ⟨start, readNode_null hnode _⟩

theorem not_isNull_partOf {chars : List Char}
    (h : (readNode steps (skipSpace chars)).Spells v rest) (hv : v ≠ .null) :
    ¬ (partOf chars).IsNull := by
  rintro ⟨start, after, hpart⟩
  cases steps with
  | zero => cases h
  | succ steps => exact h.not_isNull hv ⟨start, after, readNode_null hpart steps⟩

theorem Members.Spells.exists_of_member {key : Except Fault String} {more : Members}
    {values : List (String × Value)}
    (h : (Members.member key behind node more).Spells values rest) :
    ∃ name v between others, key = .ok name ∧ values = (name, v) :: others ∧
      node.Spells v between ∧ more.Spells others rest := by
  cases h with
  | member hnode hmore => exact ⟨_, _, _, _, rfl, rfl, hnode, hmore⟩

/-- What a member is made of where it was scanned whole. -/
theorem exists_of_readMember_spells {values : List (String × Value)}
    (h : (readMember steps front).Spells values rest) :
    ∃ less afterKey next key v between others,
      (readString 0 front).map String.ofList = .ok key ∧ skipString 0 front = .ok afterKey ∧
        skipSpace afterKey = ':' :: next ∧ values = (key, v) :: others ∧
        (readNode less (skipSpace next)).Spells v between ∧
        (readMoreMembers less (.ok between)).Spells others rest := by
  obtain ⟨_, _, hbroken⟩ | ⟨_, _, _, hkey⟩ | ⟨less, afterKey, next, hskip, hcolon, hmember⟩ :=
    readMember_cases steps front
  · rw [hbroken] at h
    cases h
  · rw [hkey] at h
    cases h
  · rw [hmember] at h
    obtain ⟨key, v, between, others, hkey, hvalues, hnode, hmore⟩ := h.exists_of_member
    rw [hnode.skip_eq] at hmore
    exact ⟨less, afterKey, next, key, v, between, others, hkey, hskip, hcolon, hvalues, hnode,
      hmore⟩

/-- Behind a member the object is closed, or there is another one. -/
theorem cases_of_readMoreMembers_spells {values : List (String × Value)}
    (h : (readMoreMembers steps (.ok front)).Spells values rest) :
    values = [] ∧ skipSpace front = '\x7d' :: rest ∨
      values ≠ [] ∧ ∃ text, skipSpace front = ',' :: text := by
  obtain ⟨_, _, hbroken⟩ | ⟨_, hclosed, hfront⟩ | ⟨less, text, next, hfront, hmember⟩ :=
    readMoreMembers_cases steps front
  · rw [hbroken] at h
    cases h
  · rw [hclosed] at h
    cases h
    exact .inl ⟨rfl, hfront⟩
  · rw [hmember] at h
    obtain ⟨_, _, _, _, _, _, _, -, -, -, rfl, -, -⟩ := exists_of_readMember_spells h
    exact .inr ⟨List.cons_ne_nil _ _, text, hfront⟩

end GrowthFault.Json
