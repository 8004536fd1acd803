import GrowthFault.Proofs.SuccessfulSteps
import GrowthFault.Proofs.TextReading

/-!
# Records that were read

What can be said of a record once it was read, from a value or from a text.  Every field was read
from the value that its name stands for, or was left empty; null leaves a field empty, too, so a
free-form value that was read into such a field is not null.  What was parsed is not nested deeper
than a reader may go.
-/

namespace GrowthFault.Json

variable {node : Node} {rest : List Char} {depth : Nat}

/-! ## Steps that succeed -/

theorem orStop_eq_ok {α : Type} {x : Except Fault α} {a : α} : orStop x = .ok a ↔ x = .ok a := by
  cases x with
  | error fault => simp [orStop]
  | ok b => simp [orStop]

theorem placeAt_eq_ok {α : Type} {x : Except Message α} {a : α} :
    placeAt rest x = .ok a ↔ x = .ok a := by
  cases x with
  | error message => simp [placeAt]
  | ok b => simp [placeAt]

/-! ## Records from values -/

/-- What a field may hold whose name stands for this value, or for none. -/
def SlotRead {α : Type} (name : String) (read : Value → Except Message α) (presence : Presence)
    (x : presence.Slot α) : Option Value → Prop
  | none => missingSlot name presence = .ok x
  | some v => slotOfValue read presence v = .ok x

/-- Every field was read from the value that its name stands for, or is empty. -/
def Fields.Read (find : String → Option Value) : (fs : Fields) → fs.Carrier → Prop
  | .nil, _ => True
  | .cons name presence schema rest, (x, more) =>
    SlotRead name schema.ofValue presence x (find name) ∧ rest.Read find more

variable {members : List (String × Value)} {key : String} {v : Value}

/-- Nothing goes into a full slot. -/
theorem SlotFilled.eq_of_full {α : Type} {read : Value → Except Message α} {presence : Presence}
    {x : presence.Slot α} {after : Option (presence.Slot α)} {found : Option Value}
    (h : SlotFilled read presence (some x) after found) : after = some x := by
  cases found with
  | none => exact h
  | some v => cases h.1

theorem Fields.filled_nothing : ∀ (fs : Fields) (draft : fs.Draft),
    fs.Filled (fun _ => none) draft draft
  | .nil, _ => trivial
  | .cons _ _ _ rest, (_, more) => ⟨rfl, rest.filled_nothing more⟩

/-- A member that was taken in was the first for its field. -/
theorem Fields.Filled.of_takeValue : ∀ {fs : Fields} {before between after : fs.Draft},
    fs.names.Nodup → fs.takeValue key v before = .ok between →
      fs.Filled (members.lookup ·) between after →
        fs.Filled (((key, v) :: members).lookup ·) before after
  | .nil, _, _, _, _, _, _ => trivial
  | .cons name presence schema rest, (before, moreBefore), (between, moreBetween),
      (after, moreAfter), hnames, htake, ⟨hslot, hrest⟩ => by
    obtain ⟨hfresh, hnames⟩ := List.nodup_cons.1 hnames
    rw [Fields.takeValue] at htake
    split at htake
    next hkey =>
      subst hkey
      cases before with
      | some x => cases htake
      | none =>
          obtain ⟨a, ha, ⟨⟩⟩ := bind_eq_ok.1 htake
          refine ⟨?_, hrest.congr fun other hother => ?_⟩
          · beta_reduce
            rw [lookup_member, if_pos rfl]
            exact ⟨rfl, a, ha, hslot.eq_of_full⟩
          · have hne : ¬ other = name := fun h => hfresh (h ▸ hother)
            rw [lookup_member, if_neg hne]
    next hkey =>
      obtain ⟨more, hmore, ⟨⟩⟩ := bind_eq_ok.1 htake
      refine ⟨?_, .of_takeValue hnames hmore hrest⟩
      beta_reduce
      rw [lookup_member, if_neg hkey]
      exact hslot

theorem Fields.filled_of_foldlM {fs : Fields} {before after : fs.Draft} (hnames : fs.names.Nodup)
    (hmembers : members.foldlM (fun d m => fs.takeValue m.1 m.2 d) before = .ok after) :
    fs.Filled (members.lookup ·) before after := by
  induction members generalizing before with
  | nil =>
      cases hmembers
      exact fs.filled_nothing _
  | cons m members ih =>
      rw [List.foldlM_cons] at hmembers
      obtain ⟨between, htake, hmore⟩ := bind_eq_ok.1 hmembers
      exact .of_takeValue hnames htake (ih hmore)

/-- In a finished record every field is what its slot holds, or is empty. -/
theorem Fields.finish_cons_eq_ok {name : String} {presence : Presence} {schema : Schema}
    {fields : Fields} {slot : Option (presence.Slot schema.Carrier)} {draft : fields.Draft}
    {x : presence.Slot schema.Carrier} {more : fields.Carrier} :
    (Fields.cons name presence schema fields).finish (slot, draft) = .ok (x, more) ↔
      (slot = some x ∨ slot = none ∧ missingSlot name presence = .ok x) ∧
        fields.finish draft = .ok more := by
  cases slot with
  | some y => cases hmore : fields.finish draft <;> simp [Fields.finish, hmore, bind, Except.bind]
  | none =>
      cases hmissing : missingSlot name presence with
      | error message => simp [Fields.finish, hmissing, bind, Except.bind]
      | ok y =>
          cases hmore : fields.finish draft <;>
            simp [Fields.finish, hmissing, hmore, bind, Except.bind]

theorem Fields.Filled.read {find : String → Option Value} : ∀ {fs : Fields} {draft : fs.Draft}
    {x : fs.Carrier}, fs.Filled find fs.blank draft → fs.finish draft = .ok x → fs.Read find x
  | .nil, _, _, _, _ => trivial
  | .cons name presence schema rest, (slot, draft), (x, more), ⟨hslot, hrest⟩, hfinish => by
    obtain ⟨hx, hmore⟩ := Fields.finish_cons_eq_ok.1 hfinish
    refine ⟨?_, hrest.read hmore⟩
    cases hfind : find name with
    | none =>
        rw [hfind] at hslot
        cases hslot
        exact (hx.resolve_left nofun).2
    | some v =>
        rw [hfind] at hslot
        obtain ⟨-, a, ha, rfl⟩ := hslot
        rcases hx with ⟨⟨⟩⟩ | ⟨⟨⟩, -⟩
        exact ha

theorem Schema.read_of_ofValue {name : String} {fs : Fields} {x : fs.Carrier}
    (hnames : fs.names.Nodup) (h : (Schema.record name fs).ofValue (.object members) = .ok x) :
    fs.Read (members.lookup ·) x := by
  rw [Schema.ofValue] at h
  obtain ⟨draft, hdraft, hfinish⟩ := bind_eq_ok.1 h
  exact (Fields.filled_of_foldlM hnames hdraft).read hfinish

section SlotRead

variable {α : Type} {name : String} {read : Value → Except Message α} {a : α}
  {found : Option Value}

theorem SlotRead.exists_of_required (h : SlotRead name read .required a found) :
    ∃ v, found = some v ∧ read v = .ok a := by
  cases found with
  | none => cases h
  | some v => exact ⟨v, rfl, h⟩

theorem SlotRead.exists_of_some (h : SlotRead name read .omittable (some a) found) :
    ∃ v, found = some v ∧ v ≠ .null ∧ read v = .ok a := by
  cases found with
  | none => cases h
  | some v =>
      refine ⟨v, rfl, ?_⟩
      cases v with
      | null => cases h
      | bool | number | string | array | object =>
          obtain ⟨b, hb, ⟨⟩⟩ := map_eq_ok.1 h
          exact ⟨nofun, hb⟩

theorem SlotRead.eq_null (h : SlotRead name read .omittable none found) {v : Value}
    (hfound : found = some v) : v = .null := by
  subst hfound
  cases v with
  | null => rfl
  | bool | number | string | array | object =>
      obtain ⟨_, -, ⟨⟩⟩ := map_eq_ok.1 h

end SlotRead

/-! ## Records from texts

Null leaves a field empty, so a free-form value that was read into such a field is not null. -/

/-- Whether a field of the schema has no free-form value, or is left empty by null. -/
def Schema.guarded (presence : Presence) : Schema → Bool
  | .any => presence != .required
  | s => s.closed

def Fields.guarded : Fields → Bool
  | .nil => true
  | .cons _ presence schema rest => schema.guarded presence && rest.guarded

/-- Every free-form value in the slots that were filled has a property. -/
def Fields.DraftFree (P : Value → Prop) : (fs : Fields) → fs.Draft → Prop
  | .nil, _ => True
  | .cons _ presence schema rest, (slot, more) =>
    (∀ x, slot = some x → SlotHolds (schema.Free P) presence x) ∧ rest.DraftFree P more

theorem Fields.draftFree_blank {P : Value → Prop} (fs : Fields) : fs.DraftFree P fs.blank := by
  fun_induction Fields.blank fs with
  | case1 => trivial
  | case2 name presence schema rest ih => exact ⟨by simp, ih⟩

theorem slotHolds_of_missing {α : Type} {Q : α → Prop} {name : String} {presence : Presence}
    {x : presence.Slot α} (h : missingSlot name presence = .ok x) : SlotHolds Q presence x := by
  cases presence with
  | required => cases h
  | nullable =>
      cases h
      exact nofun
  | omittable =>
      cases h
      exact nofun

theorem Fields.free_of_finish {P : Value → Prop} : ∀ {fs : Fields} {draft : fs.Draft}
    {x : fs.Carrier}, fs.DraftFree P draft → fs.finish draft = .ok x → fs.Free P x
  | .nil, _, _, _, _ => trivial
  | .cons name presence schema rest, (slot, draft), (x, more), ⟨hslot, hdraft⟩, hfinish => by
    obtain ⟨hx, hmore⟩ := Fields.finish_cons_eq_ok.1 hfinish
    refine ⟨?_, rest.free_of_finish hdraft hmore⟩
    rcases hx with hx | ⟨-, hmissing⟩
    · exact hslot x hx
    · exact slotHolds_of_missing hmissing

theorem Node.read_ne_null {v : Value} (hread : node.read depth = .ok (v, rest))
    (hnode : ¬ node.IsNull) : v ≠ .null := by
  rintro rfl
  cases node with
  | absent start => cases start <;> cases hread
  | word start truth after =>
      cases truth with
      | none => exact hnode ⟨start, after, rfl⟩
      | some b => simp [Node.read, bind_eq_ok] at hread
  | number start value after => simp [Node.read, bind_eq_ok] at hread
  | string start value after => simp [Node.read, bind_eq_ok] at hread
  | array | object =>
      rcases depth with _ | _ | depth
      · cases hread
      · cases hread
      · simp [Node.read, bind_eq_ok] at hread

/-- What was read into a field that null leaves empty was not read from null. -/
theorem slotHolds_of_slotOfNode {α : Type} {Q : α → Prop}
    {read : Node → Except Stop (α × List Char)} {presence : Presence}
    (hpresence : presence ≠ .required) {x : presence.Slot α}
    (hslot : slotOfNode read presence node = .ok (x, rest))
    (hread : ¬ node.IsNull → ∀ a behind, read node = .ok (a, behind) → Q a) :
    SlotHolds Q presence x := by
  by_cases hnode : node.IsNull
  · obtain ⟨start, after, rfl⟩ := hnode
    cases presence with
    | required => exact absurd rfl hpresence
    | nullable | omittable =>
        obtain ⟨_, -, ⟨⟩⟩ := map_eq_ok.1 hslot
        exact nofun
  · obtain ⟨hnullable, homittable⟩ := slotOfNode_of_not_isNull read hnode
    cases presence with
    | required => exact absurd rfl hpresence
    | nullable =>
        rw [hnullable] at hslot
        obtain ⟨⟨a, behind⟩, ha, ⟨⟩⟩ := map_eq_ok.1 hslot
        rintro _ ⟨⟩
        exact hread hnode a behind ha
    | omittable =>
        rw [homittable] at hslot
        obtain ⟨⟨a, behind⟩, ha, ⟨⟩⟩ := map_eq_ok.1 hslot
        rintro _ ⟨⟩
        exact hread hnode a behind ha

theorem Schema.settled_any {v : Value} (hread : Schema.any.ofNode depth node = .ok (v, rest))
    (hnode : ¬ node.IsNull) : v.Settled := by
  obtain ⟨⟨w, behind⟩, hvalue, ⟨⟩⟩ := bind_eq_ok.1 hread
  have hpresent := Node.read_ne_null (orStop_eq_ok.1 hvalue) hnode
  exact ⟨w.canonical_canonical, mt Value.canonical_eq_null_iff.1 hpresent⟩

/-- A field without loose free-form values is read with settled ones. -/
theorem Schema.settled_of_slotOfNode {s : Schema} {presence : Presence}
    (h : s.guarded presence = true) {x : presence.Slot s.Carrier}
    (hslot : slotOfNode (s.ofNode depth) presence node = .ok (x, rest)) :
    SlotHolds (s.Free Value.Settled) presence x := by
  cases s with
  | any =>
      exact slotHolds_of_slotOfNode (bne_iff_ne.1 h) hslot fun hnode v behind hread =>
        Schema.settled_any hread hnode
  | string | bool | integer | list | choice | record | tagged =>
      exact slotHolds_of_forall (Schema.free_of_closed h)

theorem Fields.draftFree_takeNode {key : String} : ∀ {fs : Fields} {draft draft' : fs.Draft},
    fs.guarded = true → fs.DraftFree Value.Settled draft →
      fs.takeNode depth key node draft = .ok draft' → fs.DraftFree Value.Settled draft'
  | .nil, _, _, _, _, _ => trivial
  | .cons name presence schema rest, (slot, draft), (slot', draft'), h, ⟨hslot, hdraft⟩, htake => by
    obtain ⟨hschema, hrest⟩ := Bool.and_eq_true_iff.1 h
    rw [Fields.takeNode] at htake
    split at htake
    next hkey =>
      obtain ⟨⟨x, behind⟩, hvalue, ⟨⟩⟩ := bind_eq_ok.1 htake
      refine ⟨?_, hdraft⟩
      rintro _ ⟨⟩
      exact schema.settled_of_slotOfNode hschema hvalue
    next hkey =>
      obtain ⟨more, hmore, ⟨⟩⟩ := bind_eq_ok.1 htake
      exact ⟨hslot, rest.draftFree_takeNode hrest hdraft hmore⟩

/-- What holds of a draft and is kept by every member holds in the end. -/
theorem Members.collect_keeps {δ : Type} {repeated : String → δ → Bool}
    {take : String → Node → δ → Except Stop δ} {I : δ → Prop}
    (htake : ∀ key node d d', I d → take key node d = .ok d' → I d') :
    ∀ {members : Members} {d d' : δ} {rest : List Char}, I d →
      members.collect repeated take d = .ok (d', rest) → I d'
  | .closed _, _, _, _, hd, hcollect => by
    cases hcollect
    exact hd
  | .broken _ _, _, _, _, _, hcollect => nomatch hcollect
  | .keyOnly key _ _, d, _, _, _, hcollect => by
    cases key with
    | error fault => cases hcollect
    | ok name =>
        cases hrepeated : repeated name d <;>
          simp [Members.collect, orStop, hrepeated, bind, Except.bind] at hcollect
  | .member _ _ _ more, _, _, _, hd, hcollect => by
    obtain ⟨_, between, -, -, hbetween, hmore⟩ := Members.collect_member_eq_ok.1 hcollect
    exact more.collect_keeps htake (htake _ _ _ _ hd hbetween) hmore

theorem Fields.free_of_ofElements {expected : String} : ∀ {fs : Fields} {index : Nat}
    {items : Items} {behind rest : List Char} {x : fs.Carrier}, fs.guarded = true →
      fs.ofElements expected depth index items behind = .ok (x, rest) → fs.Free Value.Settled x
  | .nil, _, _, _, _, _, _, _ => trivial
  | .cons _ _ _ _, _, .closed _, _, _, _, _, hread => nomatch hread
  | .cons _ _ _ _, _, .broken _ _, _, _, _, _, hread => nomatch hread
  | .cons name presence schema fields, index, .item node more, behind, rest, (x, xs), h, hread => by
    obtain ⟨hschema, hrest⟩ := Bool.and_eq_true_iff.1 h
    obtain ⟨⟨y, between⟩, hvalue, hread⟩ := bind_eq_ok.1 hread
    obtain ⟨⟨ys, after⟩, hmore, ⟨⟩⟩ := bind_eq_ok.1 hread
    exact ⟨schema.settled_of_slotOfNode hschema hvalue, fields.free_of_ofElements hrest hmore⟩

/-- The free-form values of a record that was read are settled, be it an object or a list. -/
theorem Fields.free_of_ofNode {name : String} {fs : Fields} {x : fs.Carrier}
    (h : fs.guarded = true)
    (hread : (Schema.record name fs).ofNode depth node = .ok (x, rest)) :
    fs.Free Value.Settled x := by
  cases node with
  | absent | word | number | string => cases hread
  | object start members after =>
      rcases depth with _ | _ | depth
      · cases hread
      · cases hread
      · simp only [Schema.ofNode] at hread
        split at hread
        next => cases hread
        next draft behind hcollect =>
          have hdraft := Members.collect_keeps (fun key node d d' => fs.draftFree_takeNode h)
            fs.draftFree_blank hcollect
          obtain ⟨y, hfinish, ⟨⟩⟩ := bind_eq_ok.1 hread
          exact fs.free_of_finish hdraft (placeAt_eq_ok.1 hfinish)
  | array start items after =>
      rcases depth with _ | _ | depth
      · cases hread
      · cases hread
      · simp only [Schema.ofNode] at hread
        split at hread
        next => cases hread
        next y behind hitems =>
          obtain ⟨after, -, ⟨⟩⟩ := bind_eq_ok.1 hread
          exact fs.free_of_ofElements h hitems

theorem Schema.exists_of_ofChars {s : Schema} {chars : List Char} {x : s.Carrier}
    (hread : s.ofChars chars = .ok x) :
    ∃ rest, s.ofNode depthLimit (document chars) = .ok (x, rest) := by
  rw [Schema.ofChars] at hread
  split at hread
  next => cases hread
  next y rest hnode =>
    split at hread
    next => cases hread
    next =>
      cases hread
      exact ⟨rest, hnode⟩

/-! ## Depth -/

mutual

/-- What was read is not nested deeper than was allowed. -/
theorem Node.depth_lt_of_read : ∀ {node : Node} {depth : Nat} {v : Value} {rest : List Char},
    0 < depth → node.read depth = .ok (v, rest) → v.depth < depth
  | .absent [], _, _, _, _, hread => nomatch hread
  | .absent (_ :: _), _, _, _, _, hread => nomatch hread
  | .word _ truth _, _, _, _, hpositive, hread => by
    obtain ⟨_, -, ⟨⟩⟩ := bind_eq_ok.1 hread
    cases truth <;> exact hpositive
  | .number _ _ _, _, _, _, hpositive, hread => by
    obtain ⟨_, -, hread⟩ := bind_eq_ok.1 hread
    obtain ⟨_, -, ⟨⟩⟩ := bind_eq_ok.1 hread
    exact hpositive
  | .string _ _ _, _, _, _, hpositive, hread => by
    obtain ⟨_, -, hread⟩ := bind_eq_ok.1 hread
    obtain ⟨_, -, ⟨⟩⟩ := bind_eq_ok.1 hread
    exact hpositive
  | .array _ items _, depth + 2, _, _, _, hread => by
    obtain ⟨⟨values, _⟩, hitems, ⟨⟩⟩ := bind_eq_ok.1 hread
    have hinner := items.depth_lt_of_read (Nat.succ_pos depth) hitems
    exact Nat.lt_succ_of_le (Value.depth_array_le_iff.2 fun v hv => Nat.le_of_lt_succ (hinner v hv))
  | .object _ members _, depth + 2, _, _, _, hread => by
    obtain ⟨⟨values, _⟩, hmembers, ⟨⟩⟩ := bind_eq_ok.1 hread
    have hinner := members.depth_lt_of_read (Nat.succ_pos depth) hmembers
    exact Nat.lt_succ_of_le
      (Value.depth_object_le_iff.2 fun m hm => Nat.le_of_lt_succ (hinner m hm))

theorem Items.depth_lt_of_read : ∀ {items : Items} {depth : Nat} {values : List Value}
    {rest : List Char}, 0 < depth → items.read depth = .ok (values, rest) →
      ∀ v ∈ values, v.depth < depth
  | .closed _, _, _, _, _, hread => by
    cases hread
    exact List.forall_mem_nil _
  | .broken _ _, _, _, _, _, hread => nomatch hread
  | .item node more, _, _, _, hpositive, hread => by
    obtain ⟨⟨v, _⟩, hnode, hread⟩ := bind_eq_ok.1 hread
    obtain ⟨⟨values, _⟩, hmore, ⟨⟩⟩ := bind_eq_ok.1 hread
    exact List.forall_mem_cons.2 ⟨node.depth_lt_of_read hpositive hnode,
      more.depth_lt_of_read hpositive hmore⟩

theorem Members.depth_lt_of_read : ∀ {members : Members} {depth : Nat}
    {values : List (String × Value)} {rest : List Char}, 0 < depth →
      members.read depth = .ok (values, rest) → ∀ m ∈ values, m.2.depth < depth
  | .closed _, _, _, _, _, hread => by
    cases hread
    exact List.forall_mem_nil _
  | .broken _ _, _, _, _, _, hread => nomatch hread
  | .keyOnly _ _ _, _, _, _, _, hread => by
    obtain ⟨_, -, ⟨⟩⟩ := bind_eq_ok.1 hread
  | .member _ _ node more, _, _, _, hpositive, hread => by
    obtain ⟨key, -, hread⟩ := bind_eq_ok.1 hread
    obtain ⟨⟨v, _⟩, hnode, hread⟩ := bind_eq_ok.1 hread
    obtain ⟨⟨values, _⟩, hmore, ⟨⟩⟩ := bind_eq_ok.1 hread
    exact List.forall_mem_cons.2 ⟨node.depth_lt_of_read hpositive hnode,
      more.depth_lt_of_read hpositive hmore⟩

end

/-- The objects of a parsed value are in order, and it is not nested too deep. -/
theorem parse_eq_ok {chars : List Char} {v : Value} (h : parse chars = .ok v) :
    v.canonical = v ∧ v.depth < depthLimit := by
  obtain ⟨⟨w, rest⟩, hread, h⟩ := bind_eq_ok.1 h
  obtain ⟨_, -, ⟨⟩⟩ := bind_eq_ok.1 h
  have hdepth : w.depth < 127 + 1 := Node.depth_lt_of_read (by decide) hread
  exact ⟨w.canonical_canonical,
    Nat.lt_succ_of_le (Value.depth_canonical_le (Nat.le_of_lt_succ hdepth))⟩

end GrowthFault.Json
