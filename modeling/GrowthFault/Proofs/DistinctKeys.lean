import GrowthFault.Proofs.ReadRecords

/-!
# Values without repeated keys

An object is kept in order, each key once, before it is read.  Where no key comes twice this changes
nothing for the reader of a schema: it takes the members as they come, and every field finds the
member that its name stands for.
-/

namespace GrowthFault.Json

mutual

/-- Whether no object in the value has a key twice. -/
def Value.distinctKeys : Value → Bool
  | .array items => distinctKeysOfItems items
  | .object members => decide (members.map Prod.fst).Nodup && distinctKeysOfMembers members
  | _ => true

def Value.distinctKeysOfItems : List Value → Bool
  | [] => true
  | item :: items => item.distinctKeys && distinctKeysOfItems items

def Value.distinctKeysOfMembers : List (String × Value) → Bool
  | [] => true
  | (_, value) :: members => value.distinctKeys && distinctKeysOfMembers members

end

variable {items : List Value} {members arranged : List (String × Value)} {v : Value}

theorem Value.distinctKeys_array_iff :
    (Value.array items).distinctKeys = true ↔ ∀ v ∈ items, v.distinctKeys = true := by
  rw [distinctKeys]
  induction items with
  | nil => simp [distinctKeysOfItems]
  | cons v items ih => rw [distinctKeysOfItems, Bool.and_eq_true, ih, List.forall_mem_cons]

theorem Value.distinctKeys_object_iff :
    (Value.object members).distinctKeys = true ↔
      (members.map Prod.fst).Nodup ∧ ∀ m ∈ members, m.2.distinctKeys = true := by
  rw [distinctKeys, Bool.and_eq_true, decide_eq_true_eq]
  refine and_congr_right' ?_
  induction members with
  | nil => simp [distinctKeysOfMembers]
  | cons m members ih => rw [distinctKeysOfMembers, Bool.and_eq_true, ih, List.forall_mem_cons]

/-! ## Members in another order -/

/-- The members of an object and the same members in order. -/
structure Arranged (members arranged : List (String × Value)) : Prop where
  keys : (members.map Prod.fst).Nodup
  arrangedKeys : (arranged.map Prod.fst).Nodup
  lookup : ∀ key, arranged.lookup key = (members.lookup key).map Value.canonical
  distinct : ∀ m ∈ members, m.2.distinctKeys = true

theorem exists_arranged (h : (Value.object members).distinctKeys = true) :
    ∃ arranged, (Value.object members).canonical = .object arranged ∧
      Arranged members arranged := by
  obtain ⟨hkeys, hdistinct⟩ := Value.distinctKeys_object_iff.1 h
  obtain ⟨arranged, hcanonical, harranged, hlookup⟩ := Value.arranges_canonical.object hkeys
  exact ⟨arranged, hcanonical, hkeys, harranged, hlookup, hdistinct⟩

theorem Arranged.filter (h : Arranged members arranged) (p : String → Bool) :
    Arranged (members.filter (p ·.1)) (arranged.filter (p ·.1)) where
  keys := h.keys.sublist (List.filter_sublist.map Prod.fst)
  arrangedKeys := h.arrangedKeys.sublist (List.filter_sublist.map Prod.fst)
  lookup := by
    intro key
    rw [lookup_filter, lookup_filter, h.lookup]
    split <;> rfl
  distinct m hm := h.distinct m (List.mem_of_mem_filter hm)

theorem Arranged.distinct_lookup (h : Arranged members arranged) (key : String) (v : Value)
    (hfound : members.lookup key = some v) : v.distinctKeys = true :=
  h.distinct _ (mem_of_lookup hfound)

/-- An object has one member only if it has one member in order. -/
theorem Arranged.eq_of_singleton {m n : String × Value} {others : List (String × Value)}
    (h : Arranged (m :: others) [n]) : others = [] := by
  cases others with
  | nil => rfl
  | cons m' others =>
      have hkey {k : String} {v : Value} (hfound : (m :: m' :: others).lookup k = some v) :
          k = n.1 := by
        have hlookup := h.lookup k
        rw [hfound, lookup_member] at hlookup
        split at hlookup
        next hkey => exact hkey
        next => cases hlookup
      have hne : m'.1 ≠ m.1 := by
        rintro hsame
        have hfresh := (List.nodup_cons.1 h.keys).1
        exact hfresh (hsame ▸ List.mem_cons_self)
      have hfirst := hkey (k := m.1) ((lookup_member _ _ _).trans (if_pos rfl))
      have hsecond := hkey (k := m'.1) (v := m'.2) (by
        rw [lookup_member, if_neg hne, lookup_member, if_pos rfl])
      exact absurd (hsecond.trans hfirst.symm) hne

/-! ## Reading in order -/

section Steps

variable {α : Type} {read : Value → Except Message α}

theorem sameResult_slotOfValue (presence : Presence) (h : SameResult (read v.canonical) (read v)) :
    SameResult (slotOfValue read presence v.canonical) (slotOfValue read presence v) := by
  by_cases hv : v = .null
  · subst hv
    exact .refl _
  · obtain ⟨hnullable, homittable⟩ := slotOfValue_of_ne_null read hv
    obtain ⟨hnullable', homittable'⟩ :=
      slotOfValue_of_ne_null read (mt Value.canonical_eq_null_iff.1 hv)
    cases presence with
    | required => exact h
    | nullable =>
        rw [hnullable, hnullable']
        exact h.map some
    | omittable =>
        rw [homittable, homittable']
        exact h.map some

theorem sameResult_mapM (h : ∀ v ∈ items, SameResult (read v.canonical) (read v)) :
    SameResult ((items.map Value.canonical).mapM read) (items.mapM read) := by
  induction items with
  | nil => exact .refl _
  | cons v items ih =>
      obtain ⟨hv, hitems⟩ := List.forall_mem_cons.1 h
      rw [List.map_cons, List.mapM_cons, List.mapM_cons]
      exact hv.bind fun a _ => (ih hitems).bind fun as _ => .refl _

/-- Nothing may be left over. -/
theorem sameResult_whole (x : α) (more : List Value) (message message' : Message) :
    SameResult (if (more.map Value.canonical).isEmpty then Except.ok x else .error message)
      (if more.isEmpty then Except.ok x else .error message') := by
  cases more with
  | nil => exact .ok _
  | cons => exact .error _ _

end Steps

/-- Members without repeated keys are taken in if each of them fits where its key is a name. -/
theorem Fields.foldlM_eq_ok_iff {fs : Fields} {before after : fs.Draft} (hnames : fs.names.Nodup)
    (hkeys : (members.map Prod.fst).Nodup) :
    members.foldlM (fun d m => fs.takeValue m.1 m.2 d) before = .ok after ↔
      fs.Filled (members.lookup ·) before after :=
  ⟨Fields.filled_of_foldlM hnames, fun hfilled => hfilled.foldlM hnames hkeys⟩

/-- A draft is filled alike if every slot is. -/
theorem Arranged.sameResult_foldlM {fs : Fields} (h : Arranged members arranged)
    (hnames : fs.names.Nodup)
    (hfilled : ∀ after, fs.Filled (fun key => (members.lookup key).map Value.canonical) fs.blank
      after ↔ fs.Filled (members.lookup ·) fs.blank after) :
    SameResult (arranged.foldlM (fun d m => fs.takeValue m.1 m.2 d) fs.blank)
      (members.foldlM (fun d m => fs.takeValue m.1 m.2 d) fs.blank) := by
  intro after
  rw [Fields.foldlM_eq_ok_iff hnames h.arrangedKeys, Fields.foldlM_eq_ok_iff hnames h.keys,
    ← hfilled after]
  simp only [h.lookup]

theorem sameResult_choice (names : List String) (h : v.distinctKeys = true) :
    SameResult ((Schema.choice names).ofValue v.canonical) ((Schema.choice names).ofValue v) := by
  cases v with
  | null | bool | number | string => exact .refl _
  | array => exact .error _ _
  | object members =>
      obtain ⟨arranged, hcanonical, harranged⟩ := exists_arranged h
      match members with
      | [] => exact .refl _
      | [(key, v)] =>
          show SameResult ((Schema.choice names).ofValue (.object [(key, v.canonical)])) _
          rw [Schema.ofValue, Schema.ofValue]
          refine (SameResult.refl _).bind fun i _ => ?_
          cases v with
          | null => exact .refl _
          | bool | number | string | array | object => exact .error _ _
      | m :: m' :: others =>
          rw [hcanonical]
          match arranged with
          | [] => exact .error _ _
          | [n] => cases harranged.eq_of_singleton
          | _ :: _ :: _ => exact .error _ _

mutual

/-- A value is read like the same value in order. -/
theorem Schema.sameResult_canonical : ∀ {s : Schema} {v : Value}, s.wellNamed = true →
    v.distinctKeys = true → SameResult (s.ofValue v.canonical) (s.ofValue v)
  | .string, v, _, _ | .bool, v, _, _ | .integer _, v, _, _ => by
    cases v with
    | null | bool | number | string => exact .refl _
    | array | object => exact .error _ _
  | .any, v, _, _ => by
    rw [Schema.ofValue, Schema.ofValue, Value.canonical_canonical]
    exact .refl _
  | .choice names, v, _, h => sameResult_choice names h
  | .list item, v, hnamed, h => by
    cases v with
    | null | bool | number | string => exact .refl _
    | object => exact .error _ _
    | array items =>
        rw [Value.canonical_array, Schema.ofValue, Schema.ofValue]
        exact sameResult_mapM fun v hv =>
          item.sameResult_canonical hnamed (Value.distinctKeys_array_iff.1 h v hv)
  | .record name fields, v, hnamed, h => by
    cases v with
    | null | bool | number | string => exact .refl _
    | array items =>
        have hitems := fields.sameResult_ofItems (withElements (structName name) fields.count) 0
          hnamed (Value.distinctKeys_array_iff.1 h)
        rw [Value.canonical_array, Schema.ofValue, Schema.ofValue]
        exact hitems.bind_map fun (x, more) _ => sameResult_whole x more _ _
    | object members =>
        obtain ⟨arranged, hcanonical, harranged⟩ := exists_arranged h
        rw [hcanonical, Schema.ofValue, Schema.ofValue]
        have hfilled := harranged.sameResult_foldlM (fields.nodup_names hnamed) fun _ =>
          fields.filled_canonical_iff hnamed harranged.distinct_lookup
        exact hfilled.bind fun draft _ => .refl _
  | .tagged choice variants, v, hnamed, h => by
    cases v with
    | null | bool | number | string => exact .refl _
    | array items =>
        rw [Value.canonical_array]
        cases items with
        | nil => exact .refl _
        | cons tag items =>
            obtain ⟨-, hitems⟩ := List.forall_mem_cons.1 (Value.distinctKeys_array_iff.1 h)
            cases tag with
            | string variant => exact variants.sameResult_ofItems choice _ variant hnamed hitems
            | null | bool | number | array | object => exact .error _ _
    | object members =>
        obtain ⟨arranged, hcanonical, harranged⟩ := exists_arranged h
        rw [hcanonical, Schema.ofValue, Schema.ofValue, harranged.lookup]
        cases members.lookup tagName with
        | none => exact .error _ _
        | some tag =>
            cases tag with
            | string variant =>
                exact variants.sameResult_ofMembers choice _ variant hnamed
                  (harranged.filter (· != tagName))
            | null | bool | number | array | object => exact .error _ _

theorem Fields.filled_canonical_iff : ∀ {fs : Fields} {find : String → Option Value}
    {before after : fs.Draft}, fs.wellNamed = true →
      (∀ key v, find key = some v → v.distinctKeys = true) →
        (fs.Filled (fun key => (find key).map Value.canonical) before after ↔
          fs.Filled find before after)
  | .nil, _, _, _, _, _ => Iff.rfl
  | .cons name presence schema rest, find, (before, moreBefore), (after, moreAfter), hnamed,
      hdistinct => by
    simp only [Fields.wellNamed, Bool.and_eq_true] at hnamed
    obtain ⟨⟨-, hschema⟩, hrest⟩ := hnamed
    refine and_congr ?_ (rest.filled_canonical_iff hrest hdistinct)
    beta_reduce
    cases hfound : find name with
    | none => exact Iff.rfl
    | some v =>
        have hslot := sameResult_slotOfValue presence
          (schema.sameResult_canonical hschema (hdistinct name v hfound))
        exact and_congr_right' (exists_congr fun a => and_congr_left' (hslot a))

theorem Fields.sameResult_ofItems (expected : String) (index : Nat) : ∀ {fs : Fields}
    {items : List Value}, fs.wellNamed = true → (∀ v ∈ items, v.distinctKeys = true) →
      SameResult (fs.ofItems expected index (items.map Value.canonical))
        ((fs.ofItems expected index items).map fun r => (r.1, r.2.map Value.canonical))
  | .nil, _, _, _ => .ok _
  | .cons _ _ _ _, [], _, _ => .error _ _
  | .cons name presence schema rest, v :: items, hnamed, hdistinct => by
    simp only [Fields.wellNamed, Bool.and_eq_true] at hnamed
    obtain ⟨⟨-, hschema⟩, hrest⟩ := hnamed
    obtain ⟨hv, hitems⟩ := List.forall_mem_cons.1 hdistinct
    have hslot := sameResult_slotOfValue presence (schema.sameResult_canonical hschema hv)
    rw [List.map_cons, Fields.ofItems, Fields.ofItems, map_bind]
    exact hslot.bind fun a _ =>
      (rest.sameResult_ofItems expected (index + 1) hrest hitems).step fun r _ => .ok _

theorem Variants.sameResult_ofMembers (choice : String) (names : List String) (variant : String) :
    ∀ {vs : Variants} {members arranged : List (String × Value)}, vs.wellNamed = true →
      Arranged members arranged →
        SameResult (vs.ofContent choice names variant (.members arranged))
          (vs.ofContent choice names variant (.members members))
  | .nil, _, _, _, _ => .refl _
  | .cons name fields rest, members, arranged, hnamed, h => by
    simp only [Variants.wellNamed, Bool.and_eq_true] at hnamed
    obtain ⟨⟨-, hfields⟩, hrest⟩ := hnamed
    rw [Variants.ofContent, Variants.ofContent]
    split
    next =>
      have hfilled := h.sameResult_foldlM (fields.nodup_names hfields) fun _ =>
        fields.filled_canonical_iff hfields h.distinct_lookup
      exact hfilled.bind fun draft _ => .refl _
    next => exact (rest.sameResult_ofMembers choice names variant hrest h).bind fun x _ => .refl _

theorem Variants.sameResult_ofItems (choice : String) (names : List String) (variant : String) :
    ∀ {vs : Variants} {items : List Value}, vs.wellNamed = true →
      (∀ v ∈ items, v.distinctKeys = true) →
        SameResult (vs.ofContent choice names variant (.items (items.map Value.canonical)))
          (vs.ofContent choice names variant (.items items))
  | .nil, _, _, _ => .refl _
  | .cons name fields rest, items, hnamed, h => by
    simp only [Variants.wellNamed, Bool.and_eq_true] at hnamed
    obtain ⟨⟨-, hfields⟩, hrest⟩ := hnamed
    rw [Variants.ofContent, Variants.ofContent]
    split
    next =>
      have hread := fields.sameResult_ofItems (withElements (variantName choice name) fields.count)
        0 hfields h
      exact hread.bind_map fun (x, more) _ => sameResult_whole _ more _ _
    next => exact (rest.sameResult_ofItems choice names variant hrest h).bind fun x _ => .refl _

end

end GrowthFault.Json
