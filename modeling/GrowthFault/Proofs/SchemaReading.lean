import GrowthFault.Json.Schema.Value
import GrowthFault.Proofs.CanonicalValues
import Mathlib.Data.List.Nodup

/-!
# What a schema writes is read back

A record is read from an object whose members come in any order, each key at most once: a draft is
filled with one member after the other, and in the end every slot holds what its name stands for.
So the reader does not see in which order a record was written, and an object that was put in order
is read like the one that was written.
-/

namespace GrowthFault.Json

/-! ## Filling a draft -/

def Fields.names : Fields → List String
  | .nil => []
  | .cons name _ _ rest => name :: rest.names

/-- The fields of a record; no other schema has any. -/
def Schema.fields : Schema → Fields
  | .record _ fields => fields
  | _ => .nil

/-- What becomes of the slot of a field whose name stands for this value, or for none. -/
def SlotFilled {α : Type} (read : Value → Except Message α) (presence : Presence)
    (before after : Option (presence.Slot α)) : Option Value → Prop
  | none => after = before
  | some v => before = none ∧ ∃ a, slotOfValue read presence v = .ok a ∧ after = some a

/-- What becomes of a draft in which every slot is filled with what its name stands for. -/
def Fields.Filled (find : String → Option Value) : (fs : Fields) → fs.Draft → fs.Draft → Prop
  | .nil, _, _ => True
  | .cons name presence schema rest, (before, moreBefore), (after, moreAfter) =>
    SlotFilled schema.ofValue presence before after (find name) ∧
      rest.Filled find moreBefore moreAfter

variable {find find' : String → Option Value} {members : List (String × Value)} {key : String}
  {v : Value}

theorem Fields.Filled.congr : ∀ {fs : Fields} {before after : fs.Draft},
    fs.Filled find before after → (∀ name ∈ fs.names, find' name = find name) →
      fs.Filled find' before after
  | .nil, _, _, _, _ => trivial
  | .cons name _ _ rest, (_, _), (_, _), ⟨hslot, hrest⟩, hfind => by
    obtain ⟨hname, hnames⟩ := List.forall_mem_cons.1 hfind
    refine ⟨?_, hrest.congr hnames⟩
    rw [hname]
    exact hslot

theorem Fields.Filled.of_nothing : ∀ {fs : Fields} {before after : fs.Draft},
    fs.Filled (fun _ => none) before after → before = after
  | .nil, _, _, _ => rfl
  | .cons _ _ _ rest, (_, _), (_, _), ⟨hslot, hrest⟩ => by
    have hslot : _ = _ := hslot
    rw [hslot, hrest.of_nothing]

/-- One member is taken in, and the others fill what is left. -/
theorem Fields.Filled.takeValue (hkey : members.lookup key = none) :
    ∀ {fs : Fields} {before after : fs.Draft}, fs.names.Nodup →
      fs.Filled (((key, v) :: members).lookup ·) before after →
        ∃ between, fs.takeValue key v before = .ok between ∧
          fs.Filled (members.lookup ·) between after
  | .nil, before, _, _, _ => ⟨before, rfl, trivial⟩
  | .cons name presence schema rest, (before, moreBefore), (after, moreAfter), hnames,
      ⟨hslot, hrest⟩ => by
    obtain ⟨hfresh, hnames⟩ := List.nodup_cons.1 hnames
    beta_reduce at hslot
    rw [lookup_member] at hslot
    by_cases hname : name = key
    · subst hname
      rw [if_pos rfl] at hslot
      obtain ⟨rfl, a, ha, rfl⟩ := hslot
      refine ⟨(some a, moreBefore), ?_, ?_, ?_⟩
      · simp [Fields.takeValue, ha, bind, Except.bind]
      · beta_reduce
        rw [hkey]
        rfl
      · refine hrest.congr fun other hother => ?_
        have hne : ¬ other = name := fun h => hfresh (h ▸ hother)
        rw [lookup_member, if_neg hne]
    · obtain ⟨between, htake, hfilled⟩ := hrest.takeValue hkey hnames
      refine ⟨(before, between), ?_, ?_, hfilled⟩
      · simp [Fields.takeValue, hname, htake, bind, Except.bind]
      · rw [if_neg hname] at hslot
        exact hslot

/-- The members of an object without repeated keys are taken in one after the other. -/
theorem Fields.Filled.foldlM {fs : Fields} {before after : fs.Draft} (hnames : fs.names.Nodup)
    (hkeys : (members.map Prod.fst).Nodup) (h : fs.Filled (members.lookup ·) before after) :
    members.foldlM (fun d m => fs.takeValue m.1 m.2 d) before = .ok after := by
  induction members generalizing before with
  | nil =>
      rw [h.of_nothing]
      rfl
  | cons m members ih =>
      obtain ⟨key, v⟩ := m
      obtain ⟨hfresh, hkeys⟩ := List.nodup_cons.1 hkeys
      have hkey : members.lookup key = none := by
        cases hlookup : members.lookup key with
        | none => rfl
        | some value => exact absurd (List.mem_map_of_mem (mem_of_lookup hlookup)) hfresh
      obtain ⟨between, htake, hfilled⟩ := h.takeValue hkey hnames
      rw [List.foldlM_cons, htake]
      exact ih hkeys hfilled

/-! ## Scalars -/

theorem readInteger_writeInteger (width : Width) (n : width.Carrier) :
    readInteger width (writeInteger width n) = .ok n := by
  cases width with
  | word64 => simp [writeInteger, readInteger, Number.int?]
  | size => simp [writeInteger, readInteger, Number.int?]
  | word32 =>
      have hn : (n.toNat : Int) < 0x100000000 := Int.ofNat_lt.2 n.toNat_lt
      simp [writeInteger, readInteger, Number.int?, hn]
  | int32 =>
      have hleast := n.le_toInt
      have hgreatest := n.toInt_lt
      have hvalue : (writeInteger .int32 n).int? = some n.toInt := by
        rw [writeInteger]
        split
        next hnegative =>
          simp only [Number.int?, Option.some.injEq]
          omega
        next hnatural =>
          have hfits : n.toInt.toNat < UInt64.size := by
            have : (2 : Nat) ^ 31 < UInt64.size := by decide
            omega
          simp only [Number.int?, UInt64.toNat_ofNat_of_lt' hfits, Option.some.injEq]
          omega
      have hrange : -0x80000000 ≤ n.toInt ∧ n.toInt < 0x80000000 := ⟨hleast, hgreatest⟩
      simp only [readInteger, hvalue]
      rw [if_pos hrange, Int32.ofInt_toInt]

theorem readChoice_get {names : List String} (hnames : names.Nodup) (i : Fin names.length) :
    readChoice names (names.get i) = .ok i := by
  have hfind : names.findFinIdx? (· == names.get i) = some i := by
    rw [List.findFinIdx?_eq_some_iff]
    refine ⟨beq_self_eq_true _, fun j hji hsame => ?_⟩
    have hij := List.nodup_iff_injective_get.1 hnames (beq_iff_eq.1 hsame)
    exact absurd hji (hij ▸ Nat.lt_irrefl _)
  rw [readChoice, hfind]

/-! ## Written records -/

/-- What a field is written as, if it is not left out. -/
def slotValue {α : Type} (write : α → Value) :
    (presence : Presence) → presence.Slot α → Option Value
  | .required, a => some (write a)
  | .nullable, a => some (.optional write a)
  | .omittable, a => a.map write

theorem writeSlot_eq {α : Type} (name : String) (write : α → Value) (presence : Presence)
    (x : presence.Slot α) :
    writeSlot name write presence x = ((slotValue write presence x).map (name, ·)).toList := by
  cases presence with
  | required => rfl
  | nullable => cases x <;> rfl
  | omittable => cases x <;> rfl

/-- Every name stands for what its field is written as. -/
def Fields.Shown (find : String → Option Value) : (fs : Fields) → fs.Carrier → Prop
  | .nil, _ => True
  | .cons name presence schema rest, (x, more) =>
    find name = slotValue schema.write presence x ∧ rest.Shown find more

theorem Fields.Shown.congr : ∀ {fs : Fields} {x : fs.Carrier}, fs.Shown find x →
    (∀ name ∈ fs.names, find' name = find name) → fs.Shown find' x
  | .nil, _, _, _ => trivial
  | .cons _ _ _ _, (_, _), ⟨hslot, hrest⟩, hfind => by
    obtain ⟨hname, hnames⟩ := List.forall_mem_cons.1 hfind
    exact ⟨hname.trans hslot, hrest.congr hnames⟩

/-- The keys of a written record are among its names, in their order. -/
theorem Fields.keys_sublist : ∀ (fs : Fields) (x : fs.Carrier),
    ((fs.write x).map Prod.fst).Sublist fs.names
  | .nil, _ => .slnil
  | .cons name presence schema rest, (x, more) => by
    rw [Fields.write, List.map_append, writeSlot_eq]
    have hrest := rest.keys_sublist more
    cases slotValue schema.write presence x with
    | none => exact hrest.cons name
    | some v => exact hrest.cons_cons name

theorem Fields.shown_write : ∀ (fs : Fields) (x : fs.Carrier), fs.names.Nodup →
    fs.Shown ((fs.write x).lookup ·) x
  | .nil, _, _ => trivial
  | .cons name presence schema rest, (x, more), hnames => by
    obtain ⟨hfresh, hnames⟩ := List.nodup_cons.1 hnames
    have hnone : (rest.write more).lookup name = none := by
      cases hlookup : (rest.write more).lookup name with
      | none => rfl
      | some value =>
          have hkey := List.mem_map_of_mem (f := Prod.fst) (mem_of_lookup hlookup)
          exact absurd ((rest.keys_sublist more).subset hkey) hfresh
    have hrest := rest.shown_write more hnames
    rw [Fields.write, writeSlot_eq]
    cases hslot : slotValue schema.write presence x with
    | none => exact ⟨hnone.trans hslot.symm, hrest⟩
    | some v =>
        refine ⟨?_, hrest.congr fun other hother => ?_⟩
        · rw [hslot]
          exact (lookup_member name (name, v) _).trans (if_pos rfl)
        · have hne : ¬ other = name := fun h => hfresh (h ▸ hother)
          exact (lookup_member other (name, v) _).trans (if_neg hne)

/-! ## Well-named schemas

A schema whose names are told apart describes its values without loss.  Free-form values have to be
in order already, and an empty slot cannot be told from one that holds null. -/

mutual

/-- Whether the names of every choice, record and variant are told apart; no field of a variant has
the name of the tag. -/
def Schema.wellNamed : Schema → Bool
  | .string | .bool | .integer _ | .any => true
  | .list item => item.wellNamed
  | .choice names => decide names.Nodup
  | .record _ fields => fields.wellNamed
  | .tagged _ variants => variants.wellNamed

def Fields.wellNamed : Fields → Bool
  | .nil => true
  | .cons name _ schema rest => decide (name ∉ rest.names) && schema.wellNamed && rest.wellNamed

def Variants.wellNamed : Variants → Bool
  | .nil => true
  | .cons name fields rest =>
    decide (name ∉ rest.names) && decide (tagName ∉ fields.names) && fields.wellNamed &&
      rest.wellNamed

end

/-- What is in a slot, if anything is, has a property. -/
def SlotHolds {α : Type} (Q : α → Prop) : (presence : Presence) → presence.Slot α → Prop
  | .required, a => Q a
  | .nullable, x => ∀ a, x = some a → Q a
  | .omittable, x => ∀ a, x = some a → Q a

mutual

/-- Every free-form value in a value of a schema has a property. -/
def Schema.Free (P : Value → Prop) : (s : Schema) → s.Carrier → Prop
  | .string, _ | .bool, _ | .integer _, _ | .choice _, _ => True
  | .any, v => P v
  | .list item, xs => ∀ x ∈ xs, item.Free P x
  | .record _ fields, x => fields.Free P x
  | .tagged _ variants, x => variants.Free P x

def Fields.Free (P : Value → Prop) : (fs : Fields) → fs.Carrier → Prop
  | .nil, _ => True
  | .cons _ presence schema rest, (x, more) =>
    SlotHolds (schema.Free P) presence x ∧ rest.Free P more

def Variants.Free (P : Value → Prop) : (vs : Variants) → vs.Carrier → Prop
  | .nil, x => nomatch x
  | .cons _ fields _, .inl x => fields.Free P x
  | .cons _ _ rest, .inr x => rest.Free P x

end

/-- A free-form value that is told from an empty slot, and whose objects are in order. -/
structure Value.Settled (v : Value) : Prop where
  ordered : v.canonical = v
  present : v ≠ .null

theorem Fields.nodup_names : ∀ {fs : Fields}, fs.wellNamed = true → fs.names.Nodup
  | .nil, _ => .nil
  | .cons _ _ _ rest, h => by
    simp only [Fields.wellNamed, Bool.and_eq_true, decide_eq_true_eq] at h
    exact List.nodup_cons.2 ⟨h.1.1, rest.nodup_names h.2⟩

theorem Schema.write_ne_null {s : Schema} {x : s.Carrier} (hx : s.Free Value.Settled x) :
    s.write x ≠ .null := by
  cases s with
  | any => exact hx.present
  | string => exact nofun
  | bool => exact nofun
  | integer width => exact nofun
  | list item => exact nofun
  | choice names => exact nofun
  | record name fields => exact nofun
  | tagged name variants => exact nofun

/-- Only null leaves a field empty. -/
theorem slotOfValue_of_ne_null {α : Type} (read : Value → Except Message α) {v : Value}
    (hv : v ≠ .null) :
    slotOfValue read .nullable v = (read v).map some ∧
      slotOfValue read .omittable v = (read v).map some := by
  cases v with
  | null => exact absurd rfl hv
  | bool | number | string | array | object => exact ⟨rfl, rfl⟩

theorem slotOfValue_of_some {α : Type} {read : Value → Except Message α} {v : Value} {a : α}
    (hread : read v = .ok a) (hv : v ≠ .null) :
    slotOfValue read .nullable v = .ok (some a) ∧ slotOfValue read .omittable v = .ok (some a) := by
  obtain ⟨hnullable, homittable⟩ := slotOfValue_of_ne_null read hv
  rw [hnullable, homittable, hread]
  exact ⟨rfl, rfl⟩

/-- A value may be arranged anew, the members of its objects among one another, if every key goes
on standing for what it stood for. -/
structure Value.Arranges (f : Value → Value) : Prop where
  null : f .null = .null
  bool (b : Bool) : f (.bool b) = .bool b
  number (n : Number) : f (.number n) = .number n
  string (text : String) : f (.string text) = .string text
  array (items : List Value) : f (.array items) = .array (items.map f)
  object {members : List (String × Value)} (hkeys : (members.map Prod.fst).Nodup) :
    ∃ arranged, f (.object members) = .object arranged ∧ (arranged.map Prod.fst).Nodup ∧
      ∀ key, arranged.lookup key = (members.lookup key).map f
  canonical (v : Value) : (f v).canonical = v.canonical

theorem nodup_keys_canonical (members : List (String × Value)) :
    (((sortMembers members).map fun m => (m.1, m.2.canonical)).map Prod.fst).Nodup := by
  rw [List.map_map]
  exact (ascending_sortMembers members).nodup_keys

/-- Putting its objects in order arranges a value anew. -/
theorem Value.arranges_canonical : Value.Arranges Value.canonical where
  null := rfl
  bool _ := rfl
  number _ := rfl
  string _ := rfl
  array := Value.canonical_array
  object {members} hkeys := by
    refine ⟨_, Value.canonical_object members, nodup_keys_canonical members, fun key => ?_⟩
    rw [lookup_map, lookup_sortMembers, lookup_reverse hkeys]
  canonical := Value.canonical_canonical

theorem Value.arranges_id : Value.Arranges id where
  null := rfl
  bool _ := rfl
  number _ := rfl
  string _ := rfl
  array items := by rw [List.map_id, id]
  object {members} hkeys := ⟨members, rfl, hkeys, fun key => by rw [Option.map_id, id]⟩
  canonical _ := rfl

variable {f : Value → Value}

theorem Value.Arranges.ne_null (hf : Value.Arranges f) (hv : v ≠ .null) : f v ≠ .null := by
  intro hnull
  have hcanonical := hf.canonical v
  rw [hnull] at hcanonical
  exact hv (Value.canonical_eq_null_iff.1 hcanonical.symm)

/-- A slot is filled from what its field was written as, or stays blank if it was left out. -/
theorem exists_slotFilled {s : Schema} {presence : Presence} {x : presence.Slot s.Carrier}
    (hf : Value.Arranges f) (name : String) (hx : SlotHolds (s.Free Value.Settled) presence x)
    (hread : ∀ a : s.Carrier, s.Free Value.Settled a → s.ofValue (f (s.write a)) = .ok a) :
    ∃ slot, SlotFilled s.ofValue presence none slot ((slotValue s.write presence x).map f) ∧
      (slot = some x ∨ slot = none ∧ missingSlot name presence = .ok x) := by
  have hsome (a : s.Carrier) (ha : s.Free Value.Settled a) :=
    slotOfValue_of_some (hread a ha) (hf.ne_null (Schema.write_ne_null ha))
  cases presence with
  | required => exact ⟨some x, ⟨rfl, x, hread x hx, rfl⟩, .inl rfl⟩
  | nullable =>
      cases x with
      | none =>
          refine ⟨some none, ⟨rfl, none, ?_, rfl⟩, .inl rfl⟩
          rw [Value.optional, hf.null]
          rfl
      | some a => exact ⟨some (some a), ⟨rfl, some a, (hsome a (hx a rfl)).1, rfl⟩, .inl rfl⟩
  | omittable =>
      cases x with
      | none => exact ⟨none, rfl, .inr ⟨rfl, rfl⟩⟩
      | some a => exact ⟨some (some a), ⟨rfl, some a, (hsome a (hx a rfl)).2, rfl⟩, .inl rfl⟩

/-! ## Reading written values

A record is read from members in any order, among which there may be others, as long as every one
of its names stands for what its field was written as. -/

theorem lookup_filter (p : String → Bool) (key : String) (members : List (String × Value)) :
    (members.filter (p ·.1)).lookup key = if p key then members.lookup key else none := by
  induction members with
  | nil => simp
  | cons m members ih =>
      rw [List.filter_cons, lookup_member]
      by_cases hkey : key = m.1
      · subst hkey
        cases hp : p m.1 <;> simp [ih, hp, lookup_member]
      · cases hp : p m.1 <;> simp [ih, hkey, lookup_member]

theorem mapM_map_eq_ok {α : Type} {read : Value → Except Message α} {write : α → Value}
    {xs : List α} (h : ∀ x ∈ xs, read (write x) = .ok x) : (xs.map write).mapM read = .ok xs := by
  induction xs with
  | nil => rfl
  | cons x xs ih =>
      obtain ⟨hx, hxs⟩ := List.forall_mem_cons.1 h
      rw [List.map_cons, List.mapM_cons, hx, ih hxs]
      rfl

/-- The members are collected in a draft, and the draft is finished. -/
theorem Fields.read_of_filled {fs : Fields} {x : fs.Carrier} (hnames : fs.names.Nodup)
    (hkeys : (members.map Prod.fst).Nodup)
    (hfind : ∀ name ∈ fs.names, members.lookup name = ((fs.write x).lookup name).map f)
    (h : ∃ draft, fs.Filled (fun k => ((fs.write x).lookup k).map f) fs.blank draft ∧
      fs.finish draft = .ok x) :
    (do
      let draft ← members.foldlM (fun d m => fs.takeValue m.1 m.2 d) fs.blank
      fs.finish draft) = Except.ok x := by
  obtain ⟨draft, hfilled, hfinish⟩ := h
  rw [(hfilled.congr hfind).foldlM hnames hkeys]
  exact hfinish

/-- Behind the name of a variant the record of its fields is read. -/
theorem Fields.read_behind_tag {fs : Fields} {x : fs.Carrier} (hf : Value.Arranges f)
    (name : String) (htag : tagName ∉ fs.names) (hnames : fs.names.Nodup)
    (h : ∃ draft, fs.Filled (fun k => ((fs.write x).lookup k).map f) fs.blank draft ∧
      fs.finish draft = .ok x) :
    ∃ arranged, f (.object ((tagName, .string name) :: fs.write x)) = .object arranged ∧
      arranged.lookup tagName = some (.string name) ∧
      (do
        let draft ← (arranged.filter (·.1 != tagName)).foldlM
          (fun d m => fs.takeValue m.1 m.2 d) fs.blank
        fs.finish draft) = Except.ok x := by
  have hwritten : (((tagName, Value.string name) :: fs.write x).map Prod.fst).Nodup :=
    ((fs.keys_sublist x).cons_cons tagName).nodup (List.nodup_cons.2 ⟨htag, hnames⟩)
  obtain ⟨arranged, harranged, hkeys, hlookup⟩ := hf.object hwritten
  refine ⟨arranged, harranged, ?_, ?_⟩
  · rw [hlookup, lookup_member, if_pos rfl, Option.map_some, hf.string]
  · refine Fields.read_of_filled hnames ?_ (fun key hkey => ?_) h
    · exact hkeys.sublist (List.filter_sublist.map Prod.fst)
    · have hne : ¬ key = tagName := fun h => htag (h ▸ hkey)
      rw [lookup_filter (· != tagName), if_pos (bne_iff_ne.2 hne), hlookup, lookup_member,
        if_neg hne]

mutual

/-- What a schema writes is read as what was written, however it was arranged in between. -/
theorem Schema.ofValue_arranged (hf : Value.Arranges f) : ∀ {s : Schema} {x : s.Carrier},
    s.wellNamed = true → s.Free Value.Settled x → s.ofValue (f (s.write x)) = .ok x
  | .string, text, _, _ => by
    rw [Schema.write, hf.string]
    rfl
  | .bool, b, _, _ => by
    rw [Schema.write, hf.bool]
    rfl
  | .integer width, n, _, _ => by
    rw [Schema.write, hf.number]
    exact readInteger_writeInteger width n
  | .any, v, _, hx => by
    rw [Schema.write, Schema.ofValue, hf.canonical, hx.ordered]
  | .choice names, i, h, _ => by
    rw [Schema.write, hf.string]
    exact readChoice_get (of_decide_eq_true h) i
  | .list item, xs, h, hx => by
    rw [Schema.write, hf.array, List.map_map, Schema.ofValue]
    exact mapM_map_eq_ok fun x hmem => item.ofValue_arranged hf h (hx x hmem)
  | .record name fields, x, h, hx => by
    have hnames := fields.nodup_names h
    obtain ⟨arranged, harranged, hkeys, hlookup⟩ :=
      hf.object ((fields.keys_sublist x).nodup hnames)
    rw [Schema.write, harranged, Schema.ofValue]
    exact Fields.read_of_filled hnames hkeys (fun key _ => hlookup key)
      (fields.exists_filled hf h hx (fields.shown_write x hnames))
  | .tagged choice variants, x, h, hx => by
    obtain ⟨name, -, arranged, harranged, htag, hread⟩ :=
      variants.exists_ofContent_write hf h hx
    rw [Schema.write, harranged, Schema.ofValue, htag]
    exact hread choice variants.names

/-- A written record is collected in a draft that is finished to the record. -/
theorem Fields.exists_filled (hf : Value.Arranges f) :
    ∀ {fs : Fields} {x : fs.Carrier} {find : String → Option Value},
      fs.wellNamed = true → fs.Free Value.Settled x → fs.Shown find x →
        ∃ draft, fs.Filled (fun k => (find k).map f) fs.blank draft ∧ fs.finish draft = .ok x
  | .nil, _, _, _, _, _ => ⟨(), trivial, rfl⟩
  | .cons name presence schema rest, (x, more), find, h, ⟨hslot, hmore⟩, ⟨hshown, hrest⟩ => by
    simp only [Fields.wellNamed, Bool.and_eq_true] at h
    obtain ⟨⟨-, hschema⟩, hfields⟩ := h
    obtain ⟨slot, hfilled, hvalue⟩ :=
      exists_slotFilled hf name hslot fun a ha => schema.ofValue_arranged hf hschema ha
    obtain ⟨draft, hdraft, hfinish⟩ := rest.exists_filled hf hfields hmore hrest
    refine ⟨(slot, draft), ⟨?_, hdraft⟩, ?_⟩
    · beta_reduce
      rw [hshown]
      exact hfilled
    · rcases hvalue with rfl | ⟨rfl, hmissing⟩
      · simp only [Fields.finish, hfinish]
        rfl
      · simp only [Fields.finish, hmissing, hfinish]
        rfl

/-- A written variant names itself, and its other members are read as its fields. -/
theorem Variants.exists_ofContent_write (hf : Value.Arranges f) :
    ∀ {vs : Variants} {x : vs.Carrier}, vs.wellNamed = true → vs.Free Value.Settled x →
      ∃ name ∈ vs.names, ∃ arranged, f (.object (vs.write x)) = .object arranged ∧
        arranged.lookup tagName = some (.string name) ∧
        ∀ choice names, vs.ofContent choice names name
          (.members (arranged.filter (·.1 != tagName))) = .ok x
  | .nil, x, _, _ => nomatch x
  | .cons name fields rest, .inl x, h, hx => by
    simp only [Variants.wellNamed, Bool.and_eq_true, decide_eq_true_eq] at h
    obtain ⟨⟨⟨-, htag⟩, hfields⟩, -⟩ := h
    have hnames := fields.nodup_names hfields
    obtain ⟨arranged, harranged, htagged, hread⟩ := Fields.read_behind_tag hf name htag hnames
      (fields.exists_filled hf hfields hx (fields.shown_write x hnames))
    refine ⟨name, List.mem_cons_self, arranged, harranged, htagged, fun choice names => ?_⟩
    rw [Variants.ofContent, if_pos rfl]
    simp only [← bind_assoc, hread]
    rfl
  | .cons name fields rest, .inr x, h, hx => by
    simp only [Variants.wellNamed, Bool.and_eq_true, decide_eq_true_eq] at h
    obtain ⟨⟨⟨hname, -⟩, -⟩, hrest⟩ := h
    obtain ⟨other, hother, arranged, harranged, htag, hread⟩ :=
      rest.exists_ofContent_write hf hrest hx
    have hne : ¬ name = other := fun h => hname (h ▸ hother)
    refine ⟨other, List.mem_cons_of_mem name hother, arranged, harranged, htag,
      fun choice names => ?_⟩
    rw [Variants.ofContent, if_neg hne, hread]
    rfl

end

theorem Schema.ofValue_write {s : Schema} {x : s.Carrier} (h : s.wellNamed = true)
    (hx : s.Free Value.Settled x) : s.ofValue (s.write x).canonical = .ok x :=
  Schema.ofValue_arranged Value.arranges_canonical h hx

/-! ## Whole numbers and depth -/

/-- A value without doubles whose containers are nested this deep at most. -/
structure Value.Plain (n : Nat) (v : Value) : Prop where
  whole : v.Whole
  shallow : v.depth ≤ n

variable {n : Nat} {items : List Value}

theorem Value.Plain.mono {m : Nat} (h : v.Plain n) (hnm : n ≤ m) : v.Plain m :=
  ⟨h.whole, Nat.le_trans h.shallow hnm⟩

theorem Value.Plain.array (h : ∀ v ∈ items, v.Plain n) : (Value.array items).Plain (n + 1) where
  whole := .array fun v hv => (h v hv).whole
  shallow := depth_array_le_iff.2 fun v hv => (h v hv).shallow

theorem Value.Plain.object (h : ∀ m ∈ members, m.2.Plain n) :
    (Value.object members).Plain (n + 1) where
  whole := .object fun m hm => (h m hm).whole
  shallow := depth_object_le_iff.2 fun m hm => (h m hm).shallow

theorem Value.Plain.canonical (h : v.Plain n) : v.canonical.Plain n :=
  ⟨h.whole.canonical, depth_canonical_le h.shallow⟩

theorem int?_writeInteger (width : Width) (n : width.Carrier) :
    (writeInteger width n).int?.isSome := by
  cases width with
  | word64 => rfl
  | size => rfl
  | word32 => rfl
  | int32 =>
      rw [writeInteger]
      split <;> rfl

mutual

/-- How deep a schema nests containers above the free-form values. -/
def Schema.depth : Schema → Nat
  | .string | .bool | .integer _ | .any | .choice _ => 0
  | .list item => item.depth + 1
  | .record _ fields => fields.depth + 1
  | .tagged _ variants => variants.depth + 1

def Fields.depth : Fields → Nat
  | .nil => 0
  | .cons _ _ schema rest => max schema.depth rest.depth

def Variants.depth : Variants → Nat
  | .nil => 0
  | .cons _ fields rest => max fields.depth rest.depth

end

mutual

/-- How deep the values of a schema are nested, if their free-form values are nested so deep. -/
def Schema.depthOver (n : Nat) : Schema → Nat
  | .string | .bool | .integer _ | .choice _ => 0
  | .any => n
  | .list item => item.depthOver n + 1
  | .record _ fields => fields.depthOver n + 1
  | .tagged _ variants => variants.depthOver n + 1

def Fields.depthOver (n : Nat) : Fields → Nat
  | .nil => 0
  | .cons _ _ schema rest => max (schema.depthOver n) (rest.depthOver n)

def Variants.depthOver (n : Nat) : Variants → Nat
  | .nil => 0
  | .cons _ fields rest => max (fields.depthOver n) (rest.depthOver n)

end

mutual

theorem Schema.depthOver_le (n : Nat) : ∀ s : Schema, s.depthOver n ≤ s.depth + n
  | .string | .bool | .integer _ | .choice _ => Nat.zero_le _
  | .any => Nat.le_add_left n _
  | .list item => by
    rw [Schema.depthOver, Schema.depth, Nat.add_right_comm]
    exact Nat.add_le_add_right (item.depthOver_le n) 1
  | .record _ fields => by
    rw [Schema.depthOver, Schema.depth, Nat.add_right_comm]
    exact Nat.add_le_add_right (fields.depthOver_le n) 1
  | .tagged _ variants => by
    rw [Schema.depthOver, Schema.depth, Nat.add_right_comm]
    exact Nat.add_le_add_right (variants.depthOver_le n) 1

theorem Fields.depthOver_le (n : Nat) : ∀ fs : Fields, fs.depthOver n ≤ fs.depth + n
  | .nil => Nat.zero_le _
  | .cons _ _ schema rest => by
    have hschema := schema.depthOver_le n
    have hrest := rest.depthOver_le n
    rw [Fields.depthOver, Fields.depth]
    omega

theorem Variants.depthOver_le (n : Nat) : ∀ vs : Variants, vs.depthOver n ≤ vs.depth + n
  | .nil => Nat.zero_le _
  | .cons _ fields rest => by
    have hfields := fields.depthOver_le n
    have hrest := rest.depthOver_le n
    rw [Variants.depthOver, Variants.depth]
    omega

end

theorem plain_writeSlot {α : Type} {Q : α → Prop} {write : α → Value} {presence : Presence}
    {x : presence.Slot α} (name : String) (hx : SlotHolds Q presence x)
    (hwrite : ∀ a, Q a → (write a).Plain n) :
    ∀ m ∈ writeSlot name write presence x, m.2.Plain n := by
  have hone (a : α) (ha : Q a) : ∀ m ∈ [(name, write a)], m.2.Plain n := by
    simpa using hwrite a ha
  cases presence with
  | required => exact hone x hx
  | nullable =>
      cases x with
      | none => simpa [writeSlot] using Value.Plain.mk .null (Nat.zero_le n)
      | some a => exact hone a (hx a rfl)
  | omittable =>
      cases x with
      | none => exact List.forall_mem_nil _
      | some a => exact hone a (hx a rfl)

mutual

/-- Only free-form values bring doubles, and they are nested where the schema has them. -/
theorem Schema.plain_write_over : ∀ {s : Schema} {x : s.Carrier}, s.Free (Value.Plain n) x →
    (s.write x).Plain (s.depthOver n)
  | .string, _, _ => ⟨.string, Nat.zero_le _⟩
  | .bool, _, _ => ⟨.bool, Nat.zero_le _⟩
  | .integer width, x, _ => ⟨.number (int?_writeInteger width x), Nat.zero_le _⟩
  | .any, _, hx => hx
  | .choice _, _, _ => ⟨.string, Nat.zero_le _⟩
  | .list item, _, hx =>
    .array (List.forall_mem_map.2 fun x hmem => item.plain_write_over (hx x hmem))
  | .record _ fields, _, hx => .object (fields.plain_write_over hx)
  | .tagged _ variants, _, hx => .object (variants.plain_write_over hx)

theorem Fields.plain_write_over : ∀ {fs : Fields} {x : fs.Carrier}, fs.Free (Value.Plain n) x →
    ∀ m ∈ fs.write x, m.2.Plain (fs.depthOver n)
  | .nil, _, _ => List.forall_mem_nil _
  | .cons name _ schema rest, (_, _), ⟨hslot, hmore⟩ => by
    rw [Fields.write, Fields.depthOver, List.forall_mem_append]
    constructor
    · intro m hm
      have hfirst := plain_writeSlot name hslot (fun _ ha => schema.plain_write_over ha) m hm
      exact hfirst.mono (Nat.le_max_left _ _)
    · intro m hm
      exact (rest.plain_write_over hmore m hm).mono (Nat.le_max_right _ _)

theorem Variants.plain_write_over : ∀ {vs : Variants} {x : vs.Carrier},
    vs.Free (Value.Plain n) x → ∀ m ∈ vs.write x, m.2.Plain (vs.depthOver n)
  | .nil, x, _ => nomatch x
  | .cons name fields rest, .inl x, hx => by
    rw [Variants.write, Variants.depthOver, List.forall_mem_cons]
    refine ⟨⟨.string, Nat.zero_le _⟩, fun m hm => ?_⟩
    exact (fields.plain_write_over hx m hm).mono (Nat.le_max_left _ _)
  | .cons name fields rest, .inr x, hx => by
    rw [Variants.write, Variants.depthOver]
    intro m hm
    exact (rest.plain_write_over hx m hm).mono (Nat.le_max_right _ _)

end

theorem Schema.plain_write {s : Schema} {x : s.Carrier} (hx : s.Free (Value.Plain n) x) :
    (s.write x).Plain (s.depth + n) :=
  (Schema.plain_write_over hx).mono (s.depthOver_le n)

end GrowthFault.Json
