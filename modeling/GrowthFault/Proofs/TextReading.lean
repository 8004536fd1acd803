import GrowthFault.Json.Schema.Text
import GrowthFault.Proofs.SchemaReading
import GrowthFault.Proofs.WrittenValues

/-!
# What a schema writes is read back from its text

A text is read front to back, straight into a value of the schema.  Where a value of the schema was
written the document spells what the schema wrote, so the fields of a record come in the order of
the schema: one after the other takes its member, or finds that it was left out, and no member
behind it is for it.  The members of a variant are kept as they come, and understood in the end.
-/

namespace GrowthFault.Json

variable {node : Node} {rest : List Char} {depth : Nat}

/-! ## Lists and slots -/

theorem Items.Spells.readAll {α : Type} {read : Node → Except Stop (α × List Char)}
    {write : α → Value} : ∀ {items : Items} {xs : List α}, items.Spells (xs.map write) rest →
      (∀ x ∈ xs, ∀ node behind, Node.Spells node (write x) behind →
        read node = .ok (x, behind)) → items.readAll read = .ok (xs, rest)
  | _, [], .closed, _ => rfl
  | _, x :: xs, .item hnode hmore, hread => by
    obtain ⟨hx, hxs⟩ := List.forall_mem_cons.1 hread
    simp only [Items.readAll, hx _ _ hnode, hmore.readAll hxs, bind, Except.bind]

/-- The part of a document is the word for null, be it whole or not. -/
def Node.IsNull (node : Node) : Prop :=
  ∃ start rest, node = .word start none rest

theorem Node.Spells.not_isNull {v : Value} (hspells : node.Spells v rest) (hv : v ≠ .null) :
    ¬ node.IsNull := by
  rintro ⟨start, rest, rfl⟩
  cases hspells
  exact hv rfl

/-- Only null leaves a field empty. -/
theorem slotOfNode_of_not_isNull {α : Type} (read : Node → Except Stop (α × List Char))
    (hnode : ¬ node.IsNull) :
    slotOfNode read .nullable node = (read node).map (fun r => (some r.1, r.2)) ∧
      slotOfNode read .omittable node = (read node).map (fun r => (some r.1, r.2)) := by
  cases node with
  | word start truth rest =>
      cases truth with
      | none => exact absurd ⟨start, rest, rfl⟩ hnode
      | some b => exact ⟨rfl, rfl⟩
  | absent | number | string | array | object => exact ⟨rfl, rfl⟩

/-- A field that was written is read from where it was written. -/
theorem slotOfNode_write {s : Schema} {presence : Presence} {x : presence.Slot s.Carrier}
    {v : Value} (hx : SlotHolds (s.Free Value.Settled) presence x)
    (hv : slotValue s.write presence x = some v) (hspells : node.Spells v rest)
    (hread : ∀ a : s.Carrier, s.Free Value.Settled a → s.write a = v →
      s.ofNode depth node = .ok (a, rest)) :
    slotOfNode (s.ofNode depth) presence node = .ok (x, rest) := by
  have hsome (a : s.Carrier) (ha : s.Free Value.Settled a) (hwrite : s.write a = v) :
      slotOfNode (s.ofNode depth) .nullable node = .ok (some a, rest) ∧
        slotOfNode (s.ofNode depth) .omittable node = .ok (some a, rest) := by
    have hnode := hspells.not_isNull (hwrite ▸ Schema.write_ne_null ha)
    obtain ⟨hnullable, homittable⟩ := slotOfNode_of_not_isNull (s.ofNode depth) hnode
    rw [hnullable, homittable, hread a ha hwrite]
    exact ⟨rfl, rfl⟩
  cases presence with
  | required => exact hread x hx (Option.some.inj hv)
  | nullable =>
      cases x with
      | none =>
          cases hv
          cases hspells
          rfl
      | some a => exact (hsome a (hx a rfl) (Option.some.inj hv)).1
  | omittable =>
      cases x with
      | none => cases hv
      | some a => exact (hsome a (hx a rfl) (Option.some.inj hv)).2

theorem missingSlot_write {α : Type} {write : α → Value} {presence : Presence}
    {x : presence.Slot α} (name : String) (hv : slotValue write presence x = none) :
    missingSlot name presence = .ok x := by
  cases presence with
  | required => cases hv
  | nullable => cases hv
  | omittable =>
      cases x with
      | none => rfl
      | some a => cases hv

/-! ## The members of an object -/

theorem Members.collect_member_eq_ok {δ : Type} {repeated : String → δ → Bool}
    {take : String → Node → δ → Except Stop δ} {key : Except Fault String} {behind : List Char}
    {more : Members} {d d' : δ} :
    (Members.member key behind node more).collect repeated take d = .ok (d', rest) ↔
      ∃ name between, key = .ok name ∧ repeated name d = false ∧
        take name node d = .ok between ∧ more.collect repeated take between = .ok (d', rest) := by
  cases key with
  | error fault => simp [Members.collect, orStop, bind, Except.bind]
  | ok name =>
      cases hrepeated : repeated name d with
      | true => simp [Members.collect, orStop, hrepeated, bind, Except.bind]
      | false =>
          cases htake : take name node d with
          | error stop => simp [Members.collect, orStop, hrepeated, htake, bind, Except.bind]
          | ok between => simp [Members.collect, orStop, hrepeated, htake, bind, Except.bind]

/-- The draft with the members of an object, and the text behind it. -/
def Fields.collect (fs : Fields) (depth : Nat) (members : Members) (draft : fs.Draft) :
    Except Stop (fs.Draft × List Char) :=
  members.collect (fun key d => fs.holds key d) (fun key node d => fs.takeNode depth key node d)
    draft

/-- Members that are not for the first field go by its slot. -/
theorem Fields.collect_cons {name : String} {presence : Presence} {schema : Schema}
    {fields : Fields} {slot : Option (presence.Slot schema.Carrier)} {behind : List Char} :
    ∀ {members : Members} {values : List (String × Value)} {draft draft' : fields.Draft},
      members.Spells values rest → name ∉ values.map Prod.fst →
        fields.collect depth members draft = .ok (draft', behind) →
          (Fields.cons name presence schema fields).collect depth members (slot, draft) =
            .ok ((slot, draft'), behind)
  | _, _, draft, _, .closed, _, hcollect => by
    cases hcollect
    rfl
  | .member _ _ node more, _ :: _, draft, draft', .member hnode hmore, hname, hcollect => by
    obtain ⟨hkey, hrest⟩ := not_or.1 (mt List.mem_cons.2 hname)
    obtain ⟨_, between, ⟨⟩, hfresh, htake, hmore'⟩ := Members.collect_member_eq_ok.1 hcollect
    refine Members.collect_member_eq_ok.2 ⟨_, (slot, between), rfl, ?_, ?_,
      Fields.collect_cons hmore hrest hmore'⟩
    · rw [Fields.holds, if_neg hkey, hfresh]
    · rw [Fields.takeNode, if_neg hkey, htake]
      rfl

/-- The members of a variant besides the tag are kept, the last one first. -/
theorem Members.collect_untagged {names : List String} {i : Option (Fin names.length)} :
    ∀ {members : Members} {values taken : List (String × Value)},
      members.Spells values rest → tagName ∉ values.map Prod.fst →
      (∀ m ∈ values, m.2.depth < depth) →
      members.collect (fun key c => key == tagName && c.1.isSome)
        (takeVariantMember names depth) (i, taken) = .ok ((i, values.reverse ++ taken), rest)
  | _, _, _, .closed, _, _ => rfl
  | _, (key, v) :: values, taken, .member hnode hmore, htag, hdepth => by
    obtain ⟨hkey, hrest⟩ := not_or.1 (mt List.mem_cons.2 htag)
    obtain ⟨hfirst, hmoreDepth⟩ := List.forall_mem_cons.1 hdepth
    rw [List.reverse_cons, List.append_assoc]
    refine Members.collect_member_eq_ok.2 ⟨key, (i, (key, v) :: taken), rfl, ?_, ?_,
      Members.collect_untagged hmore hrest hmoreDepth⟩
    · rw [beq_false_of_ne (Ne.symm hkey)]
      rfl
    · rw [takeVariantMember, if_neg (Ne.symm hkey), hnode.read_eq hfirst]
      rfl

theorem Variants.names_nodup : ∀ {vs : Variants}, vs.wellNamed = true → vs.names.Nodup
  | .nil, _ => .nil
  | .cons _ _ rest, h => by
    simp only [Variants.wellNamed, Bool.and_eq_true, decide_eq_true_eq] at h
    exact List.nodup_cons.2 ⟨h.1.1.1, rest.names_nodup h.2⟩

/-- A written variant has its tag first, and no other. -/
theorem Variants.exists_write_eq : ∀ (vs : Variants) (x : vs.Carrier), vs.wellNamed = true →
    ∃ name values, vs.write x = (tagName, .string name) :: values ∧
      tagName ∉ values.map Prod.fst
  | .nil, x, _ => nomatch x
  | .cons name fields _, .inl x, h => by
    simp only [Variants.wellNamed, Bool.and_eq_true, decide_eq_true_eq] at h
    obtain ⟨⟨⟨-, htag⟩, -⟩, -⟩ := h
    exact ⟨name, fields.write x, rfl, fun hkey => htag ((fields.keys_sublist x).subset hkey)⟩
  | .cons _ _ rest, .inr x, h => by
    simp only [Variants.wellNamed, Bool.and_eq_true] at h
    exact rest.exists_write_eq x h.2

/-- Without the tag there are the other members. -/
theorem filter_tagged (tag : Value) {values : List (String × Value)}
    (htag : tagName ∉ values.map Prod.fst) :
    ((tagName, tag) :: values).filter (·.1 != tagName) = values := by
  rw [List.filter_cons_of_neg (by simp), List.filter_eq_self]
  exact fun m hm => bne_iff_ne.2 fun hkey => htag (hkey ▸ List.mem_map_of_mem hm)

/-- The other members of a written variant are understood as its fields. -/
theorem Variants.ofContent_write {vs : Variants} {x : vs.Carrier} (choice : String)
    (h : vs.wellNamed = true) (hx : vs.Free Value.Settled x) :
    ∃ (i : Fin vs.names.length) (values : List (String × Value)),
      vs.write x = (tagName, .string (vs.names.get i)) :: values ∧
        tagName ∉ values.map Prod.fst ∧
        vs.ofContent choice vs.names (vs.names.get i) (.members values) = .ok x := by
  obtain ⟨name, values, hwrite, htag⟩ := vs.exists_write_eq x h
  obtain ⟨other, hother, arranged, harranged, hlookup, hread⟩ :=
    Variants.exists_ofContent_write Value.arranges_id h hx
  obtain ⟨i, rfl⟩ := List.mem_iff_get.1 hother
  obtain rfl : (tagName, .string name) :: values = arranged := by
    rw [id, hwrite] at harranged
    exact Value.object.inj harranged
  rw [lookup_member, if_pos rfl] at hlookup
  cases hlookup
  refine ⟨i, values, hwrite, htag, ?_⟩
  have hcontent := hread choice vs.names
  rwa [filter_tagged _ htag] at hcontent

theorem readVariant_write {names : List String} {i : Fin names.length}
    {values : List (String × Value)} (expected : String) (hnames : names.Nodup)
    (htag : tagName ∉ values.map Prod.fst)
    (hdepth : (Value.object ((tagName, .string (names.get i)) :: values)).depth < depth)
    (hspells : node.Spells (.object ((tagName, .string (names.get i)) :: values)) rest) :
    node.readVariant names expected depth = .ok ((i, .members values), rest) := by
  obtain ⟨inner, rfl, hinner⟩ := Value.exists_of_depth_object_lt hdepth
  obtain ⟨-, hvalues⟩ := List.forall_mem_cons.1 hinner
  cases hspells with
  | @object _ _ members _ hmembers hskip =>
      have hcollect : members.collect (fun key c => key == tagName && c.1.isSome)
          (takeVariantMember names (inner + 1)) (none, []) =
            .ok ((some i, values.reverse ++ []), rest) := by
        cases hmembers with
        | member hnode hmore =>
            cases hnode
            refine Members.collect_member_eq_ok.2 ⟨tagName, (some i, []), rfl, rfl, ?_,
              Members.collect_untagged hmore htag hvalues⟩
            simp only [takeVariantMember, Node.readName, Node.readText, orStop,
              readChoice_get hnames, placeAt, if_true, bind, Except.bind]
      simp only [Node.ofMembers, Node.readVariant, hcollect, List.append_nil, List.reverse_reverse]

mutual

/-- Where a value of a schema was written, the reader of the schema finds it. -/
theorem Schema.ofNode_write {depth : Nat} : ∀ {s : Schema} {x : s.Carrier} {node : Node}
    {rest : List Char}, s.wellNamed = true → s.Free Value.Settled x →
      (s.write x).depth < depth → node.Spells (s.write x) rest →
        s.ofNode depth node = .ok (x, rest)
  | .string, _, _, _, _, _, _, .string => rfl
  | .bool, _, _, _, _, _, _, .bool => rfl
  | .integer width, n, _, _, _, _, _, .number => by
    simp only [Schema.ofNode, Node.readInteger, orStop, readInteger_writeInteger, placeAt, bind,
      Except.bind]
  | .any, v, node, rest, _, hx, hdepth, hspells => by
    have hread : node.read depth = .ok (v, rest) := hspells.read_eq hdepth
    simp only [Schema.ofNode, hread, orStop, hx.ordered, bind, Except.bind]
  | .choice names, i, _, _, h, _, _, .string => by
    simp only [Schema.ofNode, Node.readChoice, Node.readName, Node.readText, orStop,
      readChoice_get (of_decide_eq_true h), placeAt, bind, Except.bind]
  | .list item, xs, _, _, h, hx, hdepth, hspells => by
    rw [Schema.write] at hdepth hspells
    obtain ⟨inner, rfl, hinner⟩ := Value.exists_of_depth_array_lt hdepth
    cases hspells with
    | array hitems hskip =>
        have hread := hitems.readAll fun x hmem node behind hnode =>
          item.ofNode_write h (hx x hmem) (hinner _ (List.mem_map_of_mem hmem)) hnode
        simp only [Node.ofItems, Schema.ofNode, hread]
  | .record name fields, x, _, _, h, hx, hdepth, hspells => by
    rw [Schema.write] at hdepth hspells
    obtain ⟨inner, rfl, hinner⟩ := Value.exists_of_depth_object_lt hdepth
    cases hspells with
    | object hmembers hskip =>
        obtain ⟨draft, hcollect, hfinish⟩ := fields.collect_write h hx hinner hmembers
        rw [Fields.collect] at hcollect
        simp only [Node.ofMembers, Schema.ofNode, hcollect, hfinish, placeAt, bind, Except.bind]
  | .tagged choice variants, x, _, _, h, hx, hdepth, hspells => by
    obtain ⟨i, values, hwrite, htag, hcontent⟩ := Variants.ofContent_write choice h hx
    rw [Schema.write, hwrite] at hdepth hspells
    have hread := readVariant_write (taggedName choice) (variants.names_nodup h) htag hdepth hspells
    simp only [Schema.ofNode, hread, hcontent, bind, Except.bind]

/-- The members of a written record fill a draft that is finished to the record. -/
theorem Fields.collect_write {depth : Nat} : ∀ {fs : Fields} {x : fs.Carrier} {members : Members}
    {rest : List Char}, fs.wellNamed = true → fs.Free Value.Settled x →
      (∀ m ∈ fs.write x, m.2.depth < depth) → members.Spells (fs.write x) rest →
        ∃ draft, fs.collect depth members fs.blank = .ok (draft, rest) ∧
          fs.finish draft = .ok x
  | .nil, _, _, _, _, _, _, .closed => ⟨(), rfl, rfl⟩
  | .cons name presence schema fields, (x, more), members, rest, h, ⟨hslot, hmore⟩, hdepth,
      hspells => by
    simp only [Fields.wellNamed, Bool.and_eq_true, decide_eq_true_eq] at h
    obtain ⟨⟨hname, hschema⟩, hfields⟩ := h
    have hfresh : name ∉ (fields.write more).map Prod.fst :=
      fun hkey => hname ((fields.keys_sublist more).subset hkey)
    rw [Fields.write, writeSlot_eq] at hdepth hspells
    cases hv : slotValue schema.write presence x with
    | none =>
        rw [hv] at hdepth hspells
        obtain ⟨draft, hcollect, hfinish⟩ := fields.collect_write hfields hmore hdepth hspells
        refine ⟨(none, draft), Fields.collect_cons hspells hfresh hcollect, ?_⟩
        simp only [Fields.finish, missingSlot_write name hv, hfinish]
        rfl
    | some v =>
        rw [hv] at hdepth hspells
        obtain ⟨hfirst, hdepth⟩ := List.forall_mem_cons.1 hdepth
        cases hspells with
        | member hnode hspells =>
            obtain ⟨draft, hcollect, hfinish⟩ := fields.collect_write hfields hmore hdepth hspells
            have hread := slotOfNode_write hslot hv hnode fun a ha hwrite =>
              schema.ofNode_write hschema ha (hwrite ▸ hfirst) (hwrite ▸ hnode)
            refine ⟨(some x, draft), Members.collect_member_eq_ok.2
              ⟨name, (some x, fields.blank), rfl, ?_, ?_, ?_⟩, ?_⟩
            · rw [Fields.holds, if_pos rfl]
              rfl
            · rw [Fields.takeNode, if_pos rfl, hread]
              rfl
            · exact Fields.collect_cons hspells hfresh hcollect
            · simp only [Fields.finish, hfinish]
              rfl

end

/-- Either layout of a written value is read as what was written, if its free-form values have no
doubles and are not nested too deep. -/
theorem Schema.ofChars_write {s : Schema} {x : s.Carrier} {n : Nat} (h : s.wellNamed = true)
    (hsettled : s.Free Value.Settled x) (hplain : s.Free (Value.Plain n) x)
    (hdepth : s.depthOver n < depthLimit) (l : Layout) (level : Nat) :
    s.ofChars ((s.write x).chars l level) = .ok x := by
  have hwritten := Schema.plain_write_over hplain
  have hspells := hwritten.whole.document_spells l level
  have hread := Schema.ofNode_write h hsettled (Nat.lt_of_le_of_lt hwritten.shallow hdepth) hspells
  simp only [Schema.ofChars, hread]
  rfl

/-! ## Described types -/

section Described

variable {α : Type} [Described α]

/-- The value is read back from what it is written as on one line, and over several. -/
structure Restored (a : α) : Prop where
  compact : ofText α (compact a) = .ok a
  pretty : ofText α (pretty a) = .ok a

/-- Every value of the type is read back, and whatever text was read can be written anew. -/
structure Faithful (α : Type) [Described α] : Prop where
  restored (a : α) : Restored a
  reread {text : String} {a : α} (hread : ofText α text = .ok a) : Restored a

theorem restored_of_plain {a : α} {n : Nat} (h : (Described.schema α).wellNamed = true)
    (hsettled : (Described.schema α).Free Value.Settled (Described.toCarrier a))
    (hplain : (Described.schema α).Free (Value.Plain n) (Described.toCarrier a))
    (hdepth : (Described.schema α).depthOver n < depthLimit) : Restored a := by
  have hread (l : Layout) :
      ((Described.schema α).ofChars ((toValue a).chars l 0)).map Described.ofCarrier = .ok a := by
    rw [toValue, Schema.ofChars_write h hsettled hplain hdepth, Except.map,
      Described.ofCarrier_toCarrier]
  constructor
  · rw [ofText, compact, Value.compact, String.toList_ofList, Value.compactChars_eq 0]
    exact hread .line
  · rw [ofText, pretty, Value.pretty, String.toList_ofList, Value.prettyChars_eq]
    exact hread .indented

end Described

/-! ## Schemas without free-form values -/

mutual

/-- Whether there is no free-form value in the values of a schema. -/
def Schema.closed : Schema → Bool
  | .any => false
  | .string | .bool | .integer _ | .choice _ => true
  | .list item => item.closed
  | .record _ fields => fields.closed
  | .tagged _ variants => variants.closed

def Fields.closed : Fields → Bool
  | .nil => true
  | .cons _ _ schema rest => schema.closed && rest.closed

def Variants.closed : Variants → Bool
  | .nil => true
  | .cons _ fields rest => fields.closed && rest.closed

end

theorem slotHolds_of_forall {α : Type} {Q : α → Prop} {presence : Presence}
    {x : presence.Slot α} (h : ∀ a, Q a) : SlotHolds Q presence x := by
  cases presence with
  | required => exact h x
  | nullable => exact fun a _ => h a
  | omittable => exact fun a _ => h a

mutual

theorem Schema.free_of_closed {P : Value → Prop} :
    ∀ {s : Schema}, s.closed = true → ∀ x : s.Carrier, s.Free P x
  | .string, _, _ | .bool, _, _ | .integer _, _, _ | .choice _, _, _ => trivial
  | .list item, h, _ => fun x _ => item.free_of_closed h x
  | .record _ fields, h, x => fields.free_of_closed h x
  | .tagged _ variants, h, x => variants.free_of_closed h x

theorem Fields.free_of_closed {P : Value → Prop} :
    ∀ {fs : Fields}, fs.closed = true → ∀ x : fs.Carrier, fs.Free P x
  | .nil, _, _ => trivial
  | .cons _ _ schema rest, h, (_, more) => by
    obtain ⟨hschema, hrest⟩ := Bool.and_eq_true_iff.1 h
    exact ⟨slotHolds_of_forall (schema.free_of_closed hschema), rest.free_of_closed hrest more⟩

theorem Variants.free_of_closed {P : Value → Prop} :
    ∀ {vs : Variants}, vs.closed = true → ∀ x : vs.Carrier, vs.Free P x
  | .nil, _, x => nomatch x
  | .cons _ fields _, h, .inl x => fields.free_of_closed (Bool.and_eq_true_iff.1 h).1 x
  | .cons _ _ rest, h, .inr x => rest.free_of_closed (Bool.and_eq_true_iff.1 h).2 x

end

/-- Whether every value of the schema is read back, whatever it holds. -/
def Schema.restores (s : Schema) : Bool :=
  s.wellNamed && s.closed && decide (s.depthOver 0 < depthLimit)

theorem faithful_of_restores {α : Type} [Described α]
    (h : (Described.schema α).restores = true) : Faithful α := by
  simp only [Schema.restores, Bool.and_eq_true, decide_eq_true_eq] at h
  obtain ⟨⟨hnamed, hclosed⟩, hdepth⟩ := h
  have hrestored (a : α) : Restored a :=
    restored_of_plain hnamed (Schema.free_of_closed hclosed _) (Schema.free_of_closed hclosed _)
      hdepth
  exact ⟨hrestored, fun _ => hrestored _⟩

end GrowthFault.Json
