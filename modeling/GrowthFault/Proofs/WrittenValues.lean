import GrowthFault.Proofs.CanonicalValues
import GrowthFault.Proofs.WrittenScalars

/-!
# Written values are read back

Whether a value is written on one line or over several, only the blanks differ, and a reader skips
them.  So both ways of writing are one layout with the blanks as a parameter, and what is read from
either is the value, its objects in order, as long as no number is a double and the containers are
not nested too deep.
-/

namespace GrowthFault.Json

/-! ## Layouts -/

/-- The blanks of a written value: those between the parts of a container, at a level, and those
behind a colon. -/
structure Layout where
  gap : Nat → List Char
  colon : List Char
  blank_gap : ∀ level, ∀ c ∈ gap level, isSpace c = true
  blank_colon : ∀ c ∈ colon, isSpace c = true

def Layout.line : Layout where
  gap _ := []
  colon := []
  blank_gap := by simp
  blank_colon := by simp

def Layout.indented : Layout where
  gap := newline
  colon := [' ']
  blank_gap := by
    intro level c hc
    rcases List.mem_cons.1 hc with rfl | hc
    · rfl
    · rw [List.eq_of_mem_replicate hc]
      rfl
  blank_colon := by
    intro c hc
    rw [List.mem_singleton.1 hc]
    rfl

mutual

def Value.chars (l : Layout) (level : Nat) : Value → List Char
  | .null => ['n', 'u', 'l', 'l']
  | .bool b => boolText b
  | .number n => n.text
  | .string text => quoted text
  | .array [] => ['[', ']']
  | .array (item :: items) =>
    '[' :: l.gap (level + 1) ++ item.chars l (level + 1) ++ charsOfItems l level items
  | .object [] => ['\x7b', '\x7d']
  | .object ((key, value) :: members) =>
    '\x7b' :: l.gap (level + 1) ++ quoted key ++ ':' :: l.colon ++ value.chars l (level + 1) ++
      charsOfMembers l level members

def Value.charsOfItems (l : Layout) (level : Nat) : List Value → List Char
  | [] => l.gap level ++ [']']
  | item :: items =>
    ',' :: l.gap (level + 1) ++ item.chars l (level + 1) ++ charsOfItems l level items

def Value.charsOfMembers (l : Layout) (level : Nat) : List (String × Value) → List Char
  | [] => l.gap level ++ ['\x7d']
  | (key, value) :: members =>
    ',' :: l.gap (level + 1) ++ quoted key ++ ':' :: l.colon ++ value.chars l (level + 1) ++
      charsOfMembers l level members

end

mutual

theorem Value.compactChars_eq (level : Nat) : ∀ v : Value, v.compactChars = v.chars .line level
  | .null | .bool _ | .number _ | .string _ | .array [] | .object [] => by
    rw [compactChars, chars]
  | .array (item :: items) => by
    rw [compactChars, chars, compactChars_eq (level + 1) item, compactItems_eq level items]
    simp [Layout.line]
  | .object ((key, value) :: members) => by
    rw [compactChars, chars, compactChars_eq (level + 1) value, compactMembers_eq level members]
    simp [Layout.line]

theorem Value.compactItems_eq (level : Nat) :
    ∀ items : List Value, compactItems items = charsOfItems .line level items
  | [] => by
    rw [compactItems, charsOfItems]
    rfl
  | item :: items => by
    rw [compactItems, charsOfItems, compactChars_eq (level + 1) item, compactItems_eq level items]
    simp [Layout.line]

theorem Value.compactMembers_eq (level : Nat) :
    ∀ members : List (String × Value), compactMembers members = charsOfMembers .line level members
  | [] => by
    rw [compactMembers, charsOfMembers]
    rfl
  | (key, value) :: members => by
    rw [compactMembers, charsOfMembers, compactChars_eq (level + 1) value,
      compactMembers_eq level members]
    simp [Layout.line]

end

mutual

theorem Value.prettyChars_eq (level : Nat) :
    ∀ v : Value, v.prettyChars level = v.chars .indented level
  | .null | .bool _ | .number _ | .string _ | .array [] | .object [] => by
    rw [prettyChars, chars]
  | .array (item :: items) => by
    rw [prettyChars, chars, prettyChars_eq (level + 1) item, prettyItems_eq level items]
    rfl
  | .object ((key, value) :: members) => by
    rw [prettyChars, chars, prettyChars_eq (level + 1) value, prettyMembers_eq level members]
    simp [Layout.indented]

theorem Value.prettyItems_eq (level : Nat) :
    ∀ items : List Value, prettyItems level items = charsOfItems .indented level items
  | [] => by
    rw [prettyItems, charsOfItems]
    rfl
  | item :: items => by
    rw [prettyItems, charsOfItems, prettyChars_eq (level + 1) item, prettyItems_eq level items]
    rfl

theorem Value.prettyMembers_eq (level : Nat) :
    ∀ members : List (String × Value),
      prettyMembers level members = charsOfMembers .indented level members
  | [] => by
    rw [prettyMembers, charsOfMembers]
    rfl
  | (key, value) :: members => by
    rw [prettyMembers, charsOfMembers, prettyChars_eq (level + 1) value,
      prettyMembers_eq level members]
    simp [Layout.indented]

end

/-! ## Documents of a value -/

mutual

/-- The part of a document is whole and spells this value; this text is behind it. -/
inductive Node.Spells : Node → Value → List Char → Prop where
  | null {start rest : List Char} : Node.Spells (.word start none (.ok rest)) .null rest
  | bool {start rest : List Char} {b : Bool} :
    Node.Spells (.word start (some b) (.ok rest)) (.bool b) rest
  | number {start rest : List Char} {n : Number} :
    Node.Spells (.number start (.ok n) (.ok rest)) (.number n) rest
  | string {start rest : List Char} {text : String} :
    Node.Spells (.string start (.ok text) (.ok rest)) (.string text) rest
  | array {start rest : List Char} {items : Items} {values : List Value}
    (hitems : Items.Spells items values rest) (hskip : items.skip = .ok rest) :
    Node.Spells (.ofItems start items) (.array values) rest
  | object {start rest : List Char} {members : Members} {values : List (String × Value)}
    (hmembers : Members.Spells members values rest) (hskip : members.skip = .ok rest) :
    Node.Spells (.ofMembers start members) (.object values) rest

inductive Items.Spells : Items → List Value → List Char → Prop where
  | closed {rest : List Char} : Items.Spells (.closed rest) [] rest
  | item {node : Node} {more : Items} {v : Value} {values : List Value} {between rest : List Char}
    (hnode : Node.Spells node v between) (hmore : Items.Spells more values rest) :
    Items.Spells (.item node more) (v :: values) rest

inductive Members.Spells : Members → List (String × Value) → List Char → Prop where
  | closed {rest : List Char} : Members.Spells (.closed rest) [] rest
  | member {key : String} {behind : List Char} {node : Node} {more : Members} {v : Value}
    {values : List (String × Value)} {between rest : List Char}
    (hnode : Node.Spells node v between) (hmore : Members.Spells more values rest) :
    Members.Spells (.member (.ok key) behind node more) ((key, v) :: values) rest

end

theorem Node.Spells.skip_eq {node : Node} {v : Value} {rest : List Char}
    (h : node.Spells v rest) : node.skip = .ok rest := by
  cases h with
  | null => rfl
  | bool => rfl
  | number => rfl
  | string => rfl
  | array hitems hskip => exact hskip
  | object hmembers hskip => exact hskip

theorem Items.Spells.skip_eq {rest : List Char} : ∀ {items : Items} {values : List Value},
    items.Spells values rest → items.skip = .ok rest
  | _, _, .closed => rfl
  | _, _, .item hnode hmore => by
    rw [Items.skip, hnode.skip_eq]
    exact hmore.skip_eq

theorem Members.Spells.skip_eq {rest : List Char} :
    ∀ {members : Members} {values : List (String × Value)},
      members.Spells values rest → members.skip = .ok rest
  | _, _, .closed => rfl
  | _, _, .member hnode hmore => by
    rw [Members.skip, hnode.skip_eq]
    exact hmore.skip_eq

mutual

/-- A part that spells a value is read for that value, unless it is nested too deep. -/
theorem Node.Spells.read_eq {rest : List Char} {depth : Nat} :
    ∀ {node : Node} {v : Value}, node.Spells v rest → v.depth < depth →
      node.read depth = .ok (v, rest)
  | _, _, .null, _ => rfl
  | _, _, .bool, _ => rfl
  | _, _, .number, _ => rfl
  | _, _, .string, _ => rfl
  | _, .array values, .array hitems _, hdepth => by
    obtain ⟨inner, rfl, hinner⟩ := Value.exists_of_depth_array_lt hdepth
    have hread := hitems.read_eq hinner
    simp only [Node.ofItems, Node.read, hread, bind, Except.bind]
  | _, .object values, .object hmembers _, hdepth => by
    obtain ⟨inner, rfl, hinner⟩ := Value.exists_of_depth_object_lt hdepth
    have hread := hmembers.read_eq hinner
    simp only [Node.ofMembers, Node.read, hread, bind, Except.bind]

theorem Items.Spells.read_eq {rest : List Char} {depth : Nat} :
    ∀ {items : Items} {values : List Value}, items.Spells values rest →
      (∀ v ∈ values, v.depth < depth) → items.read depth = .ok (values, rest)
  | _, _, .closed, _ => rfl
  | _, _, .item hnode hmore, hdepth => by
    obtain ⟨hfirst, hrest⟩ := List.forall_mem_cons.1 hdepth
    simp only [Items.read, hnode.read_eq hfirst, hmore.read_eq hrest, bind, Except.bind]

theorem Members.Spells.read_eq {rest : List Char} {depth : Nat} :
    ∀ {members : Members} {values : List (String × Value)}, members.Spells values rest →
      (∀ m ∈ values, m.2.depth < depth) → members.read depth = .ok (values, rest)
  | _, _, .closed, _ => rfl
  | _, _, .member hnode hmore, hdepth => by
    obtain ⟨hfirst, hrest⟩ := List.forall_mem_cons.1 hdepth
    simp only [Members.read, hnode.read_eq hfirst, hmore.read_eq hrest, bind, Except.bind]

end

/-! ## Reading what was written

A step is needed for every character at most, so the length of what was written bounds the steps. -/

theorem isSpace_cases {c : Char} (hc : isSpace c = true) :
    c = ' ' ∨ c = '\n' ∨ c = '\t' ∨ c = '\r' := by
  simpa [isSpace, or_assoc] using hc

theorem skipSpace_append {gap : List Char} (hgap : ∀ c ∈ gap, isSpace c = true)
    (rest : List Char) : skipSpace (gap ++ rest) = skipSpace rest :=
  List.dropWhile_append_of_pos hgap

theorem skipSpace_cons {c : Char} (hc : isSpace c = false) (rest : List Char) :
    skipSpace (c :: rest) = c :: rest :=
  List.dropWhile_cons_of_neg (by simp [hc])

theorem Ends.space {gap rest : List Char} (hgap : ∀ c ∈ gap, isSpace c = true)
    (hends : Ends rest) : Ends (gap ++ rest) := by
  cases gap with
  | nil => exact hends
  | cons c gap =>
      rcases isSpace_cases (hgap c List.mem_cons_self) with rfl | rfl | rfl | rfl
      all_goals exact .cons (by decide) (by decide) _

/-- A character that a value may begin with. -/
structure Begins (c : Char) : Prop where
  space : isSpace c = false
  bracket : c ≠ ']'

theorem Begins.sign_or_digit {c : Char} (h : c = '-' ∨ c.isDigit = true) : Begins c := by
  rcases h with rfl | h
  · exact ⟨by decide, by decide⟩
  · constructor
    · rw [← Bool.not_eq_true]
      intro hspace
      rcases isSpace_cases hspace with rfl | rfl | rfl | rfl
      all_goals cases h
    · rintro rfl
      cases h

namespace Value

variable {l : Layout} {v : Value} {items : List Value} {members : List (String × Value)}
  {key : String}

theorem Whole.begins (h : v.Whole) (l : Layout) (level : Nat) :
    ∃ c cs, v.chars l level = c :: cs ∧ Begins c := by
  have hword {c : Char} {cs : List Char} (hspace : isSpace c = false) (hbracket : c ≠ ']')
      (hchars : v.chars l level = c :: cs) : ∃ c cs, v.chars l level = c :: cs ∧ Begins c :=
    ⟨c, cs, hchars, hspace, hbracket⟩
  cases h with
  | null => exact hword (by decide) (by decide) rfl
  | @bool b =>
      cases b with
      | false => exact hword (by decide) (by decide) rfl
      | true => exact hword (by decide) (by decide) rfl
  | number h =>
      obtain ⟨⟨c, cs, htext, hc⟩, -⟩ := written_number h
      exact ⟨c, cs, htext, .sign_or_digit hc⟩
  | string => exact hword (by decide) (by decide) rfl
  | @array items h =>
      cases items with
      | nil => exact hword (by decide) (by decide) rfl
      | cons item items => exact hword (by decide) (by decide) rfl
  | @object members h =>
      rcases members with _ | ⟨⟨key, value⟩, members⟩
      · exact hword (by decide) (by decide) rfl
      · exact hword (by decide) (by decide) rfl

theorem ends_charsOfItems (l : Layout) (level : Nat) (items : List Value) (rest : List Char) :
    Ends (charsOfItems l level items ++ rest) := by
  cases items with
  | nil =>
      rw [charsOfItems, List.append_assoc]
      exact .space (l.blank_gap level) (.cons (by decide) (by decide) _)
  | cons item items =>
      rw [charsOfItems]
      exact .cons (by decide) (by decide) _

theorem ends_charsOfMembers (l : Layout) (level : Nat) (members : List (String × Value))
    (rest : List Char) : Ends (charsOfMembers l level members ++ rest) := by
  rcases members with _ | ⟨⟨key, value⟩, members⟩
  · rw [charsOfMembers, List.append_assoc]
    exact .space (l.blank_gap level) (.cons (by decide) (by decide) _)
  · rw [charsOfMembers]
    exact .cons (by decide) (by decide) _

/-- Where the value was written, a reader with enough steps finds it. -/
structure Legible (l : Layout) (v : Value) : Prop where
  whole : v.Whole
  spells : ∀ (level : Nat) {steps : Nat} {rest : List Char}, (v.chars l level).length ≤ steps →
    Ends rest → (readNode steps (v.chars l level ++ rest)).Spells v rest

theorem Legible.length_pos (h : v.Legible l) (level : Nat) : 0 < (v.chars l level).length := by
  obtain ⟨c, cs, hchars, -⟩ := h.whole.begins l level
  rw [hchars]
  exact Nat.succ_pos _

theorem length_charsOfItems_pos (l : Layout) (level : Nat) (items : List Value) :
    0 < (charsOfItems l level items).length := by
  cases items <;> simp [charsOfItems]

/-- Blanks before a value are skipped, and it is found behind them. -/
theorem Legible.behind {gap : List Char} (h : v.Legible l) (hgap : ∀ c ∈ gap, isSpace c = true)
    (level : Nat) {steps : Nat} {rest : List Char} (hsteps : (v.chars l level).length ≤ steps)
    (hends : Ends rest) :
    ∃ c cs, skipSpace (gap ++ (v.chars l level ++ rest)) = c :: cs ∧ Begins c ∧
      (readNode steps (c :: cs)).Spells v rest := by
  obtain ⟨c, cs, hchars, hbegins⟩ := h.whole.begins l level
  have hspells := h.spells level hsteps hends
  rw [hchars, List.cons_append] at hspells
  refine ⟨c, cs ++ rest, ?_, hbegins, hspells⟩
  rw [skipSpace_append hgap, hchars, List.cons_append, skipSpace_cons hbegins.space]

theorem readMoreItems_spells (hitems : ∀ v ∈ items, v.Legible l) (level : Nat) {steps : Nat}
    {rest : List Char} (hsteps : (charsOfItems l level items).length ≤ steps) :
    (readMoreItems steps (.ok (charsOfItems l level items ++ rest))).Spells items rest := by
  induction items generalizing steps with
  | nil =>
      cases steps with
      | zero => simp [charsOfItems] at hsteps
      | succ steps =>
          rw [charsOfItems, readMoreItems, List.append_assoc, skipSpace_append (l.blank_gap level),
            List.singleton_append, skipSpace_cons (by decide)]
          exact .closed
  | cons v items ih =>
      obtain ⟨hlegible, hrest⟩ := List.forall_mem_cons.1 hitems
      simp only [charsOfItems, List.cons_append, List.append_assoc, List.length_cons,
        List.length_append] at hsteps ⊢
      cases steps with
      | zero => omega
      | succ steps =>
          have hroom : (v.chars l (level + 1)).length ≤ steps := by omega
          obtain ⟨c, cs, hskip, hbegins, hspells⟩ :=
            hlegible.behind (l.blank_gap (level + 1)) (level + 1) hroom
              (ends_charsOfItems l level items rest)
          rw [readMoreItems, skipSpace_cons (by decide)]
          simp only [hskip, hbegins.bracket, hspells.skip_eq, Char.reduceEq, if_true, if_false]
          exact .item hspells (ih hrest (by omega))

theorem readMember_spells (hlegible : v.Legible l) (level : Nat) {steps : Nat} {rest : List Char}
    (hsteps : (key.toList.flatMap escape ++ '"' :: ':' :: (l.colon ++
      (v.chars l (level + 1) ++ charsOfMembers l level members))).length ≤ steps)
    (hmore : ∀ {less : Nat}, (charsOfMembers l level members).length ≤ less →
      (readMoreMembers less (.ok (charsOfMembers l level members ++ rest))).Spells members rest) :
    (readMember steps (key.toList.flatMap escape ++ '"' :: ':' :: (l.colon ++
      (v.chars l (level + 1) ++ (charsOfMembers l level members ++ rest))))).Spells
        ((key, v) :: members) rest := by
  simp only [List.length_cons, List.length_append] at hsteps
  cases steps with
  | zero => omega
  | succ steps =>
      have hroom : (v.chars l (level + 1)).length ≤ steps := by omega
      obtain ⟨c, cs, hskip, hbegins, hspells⟩ :=
        hlegible.behind l.blank_colon (level + 1) hroom (ends_charsOfMembers l level members rest)
      rw [readMember, readString_escaped, skipString_escaped]
      simp only [skipSpace_cons (show isSpace ':' = false by decide), hskip, hspells.skip_eq,
        if_true, Except.map, String.ofList_toList]
      exact .member hspells (hmore (by omega))

theorem readMoreMembers_spells (hmembers : ∀ m ∈ members, m.2.Legible l) (level : Nat) {steps : Nat}
    {rest : List Char} (hsteps : (charsOfMembers l level members).length ≤ steps) :
    (readMoreMembers steps (.ok (charsOfMembers l level members ++ rest))).Spells members rest := by
  induction members generalizing steps with
  | nil =>
      cases steps with
      | zero => simp [charsOfMembers] at hsteps
      | succ steps =>
          rw [charsOfMembers, readMoreMembers, List.append_assoc,
            skipSpace_append (l.blank_gap level), List.singleton_append, skipSpace_cons (by decide)]
          exact .closed
  | cons m members ih =>
      obtain ⟨key, v⟩ := m
      obtain ⟨hlegible, hrest⟩ := List.forall_mem_cons.1 hmembers
      simp only [charsOfMembers, quoted, List.cons_append, List.append_assoc, List.length_cons,
        List.length_append, List.nil_append] at hsteps ⊢
      cases steps with
      | zero => omega
      | succ steps =>
          rw [readMoreMembers, skipSpace_cons (by decide)]
          simp only [skipSpace_append (l.blank_gap (level + 1)),
            skipSpace_cons (show isSpace '"' = false by decide), Char.reduceEq, if_true, if_false]
          refine readMember_spells hlegible level ?_ fun hless => ih hrest hless
          simp only [List.length_cons, List.length_append]
          omega

theorem readNode_number {n : Number} (h : n.int?.isSome) {steps : Nat} {rest : List Char}
    (hsteps : n.text.length ≤ steps) (hends : Ends rest) :
    (readNode steps (n.text ++ rest)).Spells (.number n) rest := by
  obtain ⟨⟨c, cs, htext, hc⟩, hwritten⟩ := written_number h
  obtain ⟨hread, hskip⟩ := hwritten rest hends
  rw [htext] at hsteps hread hskip ⊢
  rw [List.cons_append] at hread hskip ⊢
  cases steps with
  | zero => simp at hsteps
  | succ steps =>
      have hother {d : Char} (hd : d ≠ '-') (hdigit : d.isDigit = false) : c ≠ d := by
        rintro rfl
        rcases hc with rfl | hc
        · exact hd rfl
        · rw [hdigit] at hc
          cases hc
      rw [readNode, if_neg (hother (by decide) rfl), if_neg (hother (by decide) rfl),
        if_neg (hother (by decide) rfl), if_neg (hother (by decide) rfl), if_pos hc, hread, hskip]
      exact .number

theorem readNode_list (steps : Nat) (rest : List Char) :
    readNode (steps + 1) ('[' :: rest) = .ofItems ('[' :: rest) (readItems steps rest) := rfl

theorem readNode_record (steps : Nat) (rest : List Char) :
    readNode (steps + 1) ('\x7b' :: rest) = .ofMembers ('\x7b' :: rest) (readMembers steps rest) :=
  rfl

theorem legible_array (hitems : ∀ v ∈ items, v.Legible l) : (Value.array items).Legible l where
  whole := .array fun v hv => (hitems v hv).whole
  spells := by
    intro level steps rest hsteps hends
    cases items with
    | nil =>
        obtain ⟨less, rfl⟩ : ∃ less, steps = less + 2 :=
          ⟨steps - 2, by simp [chars] at hsteps; omega⟩
        exact .array .closed rfl
    | cons v items =>
        obtain ⟨hlegible, hrest⟩ := List.forall_mem_cons.1 hitems
        have hv := hlegible.length_pos (level + 1)
        have hmore := length_charsOfItems_pos l level items
        simp only [chars, List.cons_append, List.append_assoc, List.length_cons,
          List.length_append] at hsteps ⊢
        obtain ⟨less, rfl⟩ : ∃ less, steps = less + 2 := ⟨steps - 2, by omega⟩
        have hroom : (v.chars l (level + 1)).length ≤ less := by omega
        obtain ⟨c, cs, hskip, hbegins, hspells⟩ :=
          hlegible.behind (l.blank_gap (level + 1)) (level + 1) hroom
            (ends_charsOfItems l level items rest)
        have hread : (readItems (less + 1) (l.gap (level + 1) ++ (v.chars l (level + 1) ++
            (charsOfItems l level items ++ rest)))).Spells (v :: items) rest := by
          rw [readItems]
          simp only [hskip, hbegins.bracket, hspells.skip_eq, if_false]
          exact .item hspells (readMoreItems_spells hrest level (by omega))
        rw [readNode_list]
        exact .array hread hread.skip_eq

theorem legible_object (hmembers : ∀ m ∈ members, m.2.Legible l) :
    (Value.object members).Legible l where
  whole := .object fun m hm => (hmembers m hm).whole
  spells := by
    intro level steps rest hsteps hends
    rcases members with _ | ⟨⟨key, v⟩, members⟩
    · obtain ⟨less, rfl⟩ : ∃ less, steps = less + 2 :=
        ⟨steps - 2, by simp [chars] at hsteps; omega⟩
      exact .object .closed rfl
    · obtain ⟨hlegible, hrest⟩ := List.forall_mem_cons.1 hmembers
      simp only [chars, quoted, List.cons_append, List.append_assoc, List.length_cons,
        List.length_append, List.nil_append] at hsteps ⊢
      obtain ⟨less, rfl⟩ : ∃ less, steps = less + 2 := ⟨steps - 2, by omega⟩
      have hroom : (key.toList.flatMap escape ++ '"' :: ':' :: (l.colon ++
          (v.chars l (level + 1) ++ charsOfMembers l level members))).length ≤ less := by
        simp only [List.length_cons, List.length_append]
        omega
      have hmore {less : Nat} (hless : (charsOfMembers l level members).length ≤ less) :
          (readMoreMembers less (.ok (charsOfMembers l level members ++ rest))).Spells members
            rest :=
        readMoreMembers_spells hrest level hless
      have hmember := readMember_spells hlegible level hroom hmore
      have hread : (readMembers (less + 1) (l.gap (level + 1) ++ '"' ::
          (key.toList.flatMap escape ++ '"' :: ':' :: (l.colon ++ (v.chars l (level + 1) ++
            (charsOfMembers l level members ++ rest)))))).Spells ((key, v) :: members) rest := by
        rw [readMembers, skipSpace_append (l.blank_gap (level + 1)), skipSpace_cons (by decide)]
        exact hmember
      rw [readNode_record]
      exact .object hread hread.skip_eq

/-- A value without doubles is found wherever it was written. -/
theorem Whole.legible (h : v.Whole) (l : Layout) : v.Legible l := by
  induction h with
  | null =>
      refine ⟨.null, fun level steps rest hsteps hends => ?_⟩
      obtain ⟨less, rfl⟩ : ∃ less, steps = less + 1 := ⟨steps - 1, by simp [chars] at hsteps; omega⟩
      exact .null
  | @bool b =>
      refine ⟨.bool, fun level steps rest hsteps hends => ?_⟩
      obtain ⟨less, rfl⟩ : ∃ less, steps = less + 1 :=
        ⟨steps - 1, by cases b <;> simp [chars, boolText] at hsteps <;> omega⟩
      cases b with
      | false => exact .bool
      | true => exact .bool
  | number h =>
      exact ⟨.number h, fun level {steps rest} hsteps hends => readNode_number h hsteps hends⟩
  | @string text =>
      refine ⟨.string, fun level steps rest hsteps hends => ?_⟩
      simp only [chars, quoted, List.cons_append, List.append_assoc, List.length_cons,
        List.nil_append] at hsteps ⊢
      obtain ⟨less, rfl⟩ : ∃ less, steps = less + 1 := ⟨steps - 1, by omega⟩
      have hnode : readNode (less + 1) ('"' :: (text.toList.flatMap escape ++ '"' :: rest)) =
          .string ('"' :: (text.toList.flatMap escape ++ '"' :: rest)) (.ok text) (.ok rest) := by
        rw [readNode, readString_escaped, skipString_escaped]
        simp [Except.map]
      rw [hnode]
      exact .string
  | array h ih => exact legible_array ih
  | object h ih => exact legible_object ih

/-! ## Lines -/

theorem newline_compactItems (hitems : ∀ v ∈ items, '\n' ∉ v.compactChars) :
    '\n' ∉ compactItems items := by
  induction items with
  | nil => simp [compactItems]
  | cons v items ih =>
      obtain ⟨hv, hrest⟩ := List.forall_mem_cons.1 hitems
      simp [compactItems, hv, ih hrest]

theorem newline_compactMembers (hmembers : ∀ m ∈ members, '\n' ∉ m.2.compactChars) :
    '\n' ∉ compactMembers members := by
  induction members with
  | nil => simp [compactMembers]
  | cons m members ih =>
      obtain ⟨hv, hrest⟩ := List.forall_mem_cons.1 hmembers
      simp [compactMembers, newline_quoted, hv, ih hrest]

/-- A value on one line does not go on to the next, whatever its texts hold. -/
theorem Whole.newline_compactChars (h : v.Whole) : '\n' ∉ v.compactChars := by
  induction h with
  | null => decide
  | @bool b => cases b <;> decide
  | number h => exact newline_text h
  | string => exact newline_quoted _
  | @array items h ih =>
      cases items with
      | nil => decide
      | cons v items =>
          obtain ⟨hv, hrest⟩ := List.forall_mem_cons.1 ih
          simp [compactChars, hv, newline_compactItems hrest]
  | @object members h ih =>
      rcases members with _ | ⟨⟨key, v⟩, members⟩
      · decide
      · obtain ⟨hv, hrest⟩ := List.forall_mem_cons.1 ih
        simp [compactChars, newline_quoted, hv, newline_compactMembers hrest]

theorem exists_compactMembers (members : List (String × Value)) :
    ∃ inner, compactMembers members = inner ++ ['\x7d'] := by
  induction members with
  | nil => exact ⟨[], rfl⟩
  | cons m members ih =>
      obtain ⟨inner, hinner⟩ := ih
      exact ⟨',' :: quoted m.1 ++ ':' :: m.2.compactChars ++ inner,
        by simp [compactMembers, hinner]⟩

/-- An object stands between its braces. -/
theorem exists_compactChars_object (members : List (String × Value)) :
    ∃ inner, (Value.object members).compactChars = '\x7b' :: inner ++ ['\x7d'] := by
  rcases members with _ | ⟨⟨key, v⟩, members⟩
  · exact ⟨[], rfl⟩
  · obtain ⟨inner, hinner⟩ := exists_compactMembers members
    exact ⟨quoted key ++ ':' :: v.compactChars ++ inner, by simp [compactChars, hinner]⟩

/-! ## Documents and values -/

/-- What a value was written as is a document that spells the value. -/
theorem Whole.document_spells (h : v.Whole) (l : Layout) (level : Nat) :
    (document (v.chars l level)).Spells v [] := by
  obtain ⟨c, cs, hchars, hbegins⟩ := h.begins l level
  have hskip : skipSpace (v.chars l level) = v.chars l level ++ [] := by
    rw [hchars, skipSpace_cons hbegins.space, List.append_nil]
  rw [document, hskip]
  exact (h.legible l).spells level (by omega) .nil

theorem Whole.parse_chars (h : v.Whole) (hdepth : v.depth < depthLimit) (l : Layout)
    (level : Nat) : parse (v.chars l level) = .ok v.canonical := by
  have hread := (h.document_spells l level).read_eq hdepth
  rw [parse, hread]
  rfl

/-- A value without doubles that is not nested too deep is read back from its line, its objects in
order. -/
theorem Whole.parse_compact (h : v.Whole) (hdepth : v.depth < depthLimit) :
    parse v.compactChars = .ok v.canonical := by
  rw [compactChars_eq 0]
  exact h.parse_chars hdepth .line 0

end Value

end GrowthFault.Json
