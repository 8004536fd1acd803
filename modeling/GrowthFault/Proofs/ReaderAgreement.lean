import GrowthFault.Proofs.DistinctKeys
import GrowthFault.Proofs.ScannedDocuments

/-!
# Reading from a text and reading from its value

A type is read from a text front to back, straight into its fields, or the text is read as a value
and the type from the value.  Both ways come to the same result, or both fail, as long as no object
has a key twice; only why they fail may differ.  A record takes its members one after the other on
either way, and stops at a field that comes again.  A variant is told by its tag, wherever the tag
stands.
-/

namespace GrowthFault.Json

variable {steps depth : Nat} {node : Node} {items : Items} {members : Members}
  {start front behind between rest : List Char} {v : Value}

theorem sameResult_placeAt {α : Type} (rest : List Char) (x : Except Message α) :
    SameResult (placeAt rest x >>= fun a => Except.ok (a, rest)) (x.map (·, rest)) := by
  cases x with
  | ok a => exact .ok _
  | error message => exact .error _ _

/-! ## Names -/

/-- A name out of a choice, which only a string is. -/
def Value.readName (names : List String) : Value → Except Message (Fin names.length)
  | .string name => readChoice names name
  | v => .error (.invalidType v.found "variant identifier")

theorem sameResult_readName (names : List String) (hspells : node.Spells v rest) :
    SameResult (node.readName names) ((v.readName names).map (·, rest)) := by
  cases hspells with
  | @string _ _ text => exact sameResult_placeAt rest (readChoice names text)
  | null | bool | number | array | object => exact .error _ _

/-- An object is a name only if the name is its one key and stands for null. -/
theorem exists_ofValue_choice_eq_error (names : List String) (key : String) (v : Value)
    (others : List (String × Value)) (h : v ≠ .null ∨ others ≠ []) :
    ∃ message, (Schema.choice names).ofValue (.object ((key, v) :: others)) = .error message := by
  cases others with
  | cons m others => exact ⟨_, rfl⟩
  | nil =>
      rw [Schema.ofValue]
      cases readChoice names key with
      | error message => exact ⟨message, rfl⟩
      | ok i =>
          cases v with
          | null => exact absurd rfl (h.resolve_right (absurd rfl))
          | bool | number | string | array | object => exact ⟨_, rfl⟩

/-- A name that is the only key of an object is read where the object begins. -/
theorem sameResult_readKeyedName (names : List String) {values : List (String × Value)}
    (hspells : (readMembers steps front).Spells values rest) :
    SameResult (readKeyedName names front)
      (((Schema.choice names).ofValue (.object values)).map (·, rest)) := by
  obtain ⟨_, _, hbroken⟩ | ⟨_, hclosed, hfront⟩ | ⟨less, text, hfront, hfirst⟩ :=
    readMembers_cases steps front
  · rw [hbroken] at hspells
    cases hspells
  · rw [hclosed] at hspells
    cases hspells
    rw [readKeyedName, keyPart_of_brace hfront]
    exact .error _ _
  · rw [hfirst] at hspells
    obtain ⟨less, afterKey, next, key, v, between, others, hkey, hskip, hcolon, rfl, hnode,
      hmore⟩ := exists_of_readMember_spells hspells
    have hkeyPart := keyPart_of_quote hfront hkey hskip
    cases hname : readChoice names key with
    | error message =>
        simp only [readKeyedName, hkeyPart, Node.readName, Node.readText, orStop, hname, placeAt,
          bind, Except.bind]
        cases others with
        | nil =>
            simp only [Schema.ofValue, hname, bind, Except.bind]
            exact .error _ _
        | cons => exact .error _ _
    | ok i =>
        simp only [readKeyedName, hkeyPart, Node.readName, Node.readText, orStop, hname, placeAt,
          expectColon_of_colon hcolon, bind, Except.bind]
        by_cases hv : v = .null
        · subst hv
          obtain ⟨start, hpart⟩ := partOf_of_spells_null hnode
          obtain ⟨rfl, hclosed⟩ | ⟨hothers, text, hcomma⟩ :=
            cases_of_readMoreMembers_spells hmore
          · simp only [hpart, hclosed, if_true, Schema.ofValue, hname, bind, Except.bind]
            exact .ok _
          · obtain ⟨message, hvalue⟩ :=
              exists_ofValue_choice_eq_error names key .null others (.inr hothers)
            rw [hvalue]
            simp only [hpart, hcomma]
            exact .error _ _
        · obtain ⟨message, hvalue⟩ := exists_ofValue_choice_eq_error names key v others (.inl hv)
          rw [hvalue]
          split
          next start after hpart => exact absurd ⟨start, after, hpart⟩ (not_isNull_partOf hnode hv)
          next => exact .error _ _

/-! ## Slots, elements and members -/

section Parts

variable {α : Type} (read : Node → Except Stop (α × List Char))
  (ofValue : Value → Except Message α)

variable {read ofValue} in
theorem sameResult_slotOfNode (presence : Presence) (hspells : node.Spells v rest)
    (h : SameResult (read node) ((ofValue v).map (·, rest))) :
    SameResult (slotOfNode read presence node)
      ((slotOfValue ofValue presence v).map (·, rest)) := by
  by_cases hv : v = .null
  · subst hv
    cases presence with
    | required => exact h
    | nullable | omittable =>
        cases hspells
        exact .ok _
  · have hsome := h.map fun r => (some r.1, r.2)
    rw [map_map] at hsome
    obtain ⟨hnullable, homittable⟩ := slotOfNode_of_not_isNull read (hspells.not_isNull hv)
    obtain ⟨hnullable', homittable'⟩ := slotOfValue_of_ne_null ofValue hv
    cases presence with
    | required => exact h
    | nullable =>
        rw [hnullable, hnullable', map_map]
        exact hsome
    | omittable =>
        rw [homittable, homittable', map_map]
        exact hsome

theorem sameResult_readAll {values : List Value} (hscanned : items.Scanned front)
    (hspells : items.Spells values rest)
    (hread : ∀ v ∈ values, ∀ node between, node.Scanned → Node.Spells node v between →
      SameResult (read node) ((ofValue v).map (·, between))) :
    SameResult (items.readAll read) ((values.mapM ofValue).map (·, rest)) := by
  induction values generalizing items front with
  | nil =>
      cases hspells
      exact .ok _
  | cons v values ih =>
      cases hspells with
      | item hnode hmore =>
          obtain ⟨_, _, ⟨⟩⟩ | ⟨_, ⟨⟩, -⟩ | ⟨_, _, ⟨⟩, hfirst, -, hnext⟩ := hscanned.cases
          obtain ⟨hv, hvalues⟩ := List.forall_mem_cons.1 hread
          rw [List.mapM_cons, Items.readAll]
          exact (hv _ _ hfirst hnode).step fun x _ =>
            (ih (hnext _ hnode.skip_eq) hmore hvalues).step fun xs _ => .ok _

end Parts

theorem Fields.takeValue_of_holds {key : String} (v : Value) : ∀ {fs : Fields} {draft : fs.Draft},
    fs.holds key draft = true → ∃ message, fs.takeValue key v draft = .error message
  | .nil, _, h => nomatch h
  | .cons name presence schema rest, (slot, more), h => by
    rw [Fields.holds] at h
    rw [Fields.takeValue]
    split at h
    next hname =>
      rw [if_pos hname, if_pos h]
      exact ⟨_, rfl⟩
    next hname =>
      obtain ⟨message, hmore⟩ := rest.takeValue_of_holds v h
      rw [if_neg hname, hmore]
      exact ⟨message, rfl⟩

/-- A draft takes in the members of an object one after the other, or their values. -/
theorem Fields.sameResult_collect (fs : Fields) {values : List (String × Value)} (draft : fs.Draft)
    (hscanned : members.Scanned) (hspells : members.Spells values rest)
    (htake : ∀ m ∈ values, ∀ node between draft, node.Scanned → Node.Spells node m.2 between →
      fs.holds m.1 draft = false →
        SameResult (fs.takeNode depth m.1 node draft) (fs.takeValue m.1 m.2 draft)) :
    SameResult (fs.collect depth members draft)
      ((values.foldlM (fun d m => fs.takeValue m.1 m.2 d) draft).map (·, rest)) := by
  induction values generalizing members draft with
  | nil =>
      cases hspells
      exact .ok _
  | cons m values ih =>
      cases hspells with
      | @member name _ node more v _ _ _ hnode hmore =>
          obtain ⟨hfirst, hnext⟩ := hscanned.member
          obtain ⟨hv, hvalues⟩ := List.forall_mem_cons.1 htake
          rw [List.foldlM_cons, map_bind]
          show SameResult (if fs.holds name draft = true then _ else
            fs.takeNode depth name node draft >>= fun d => fs.collect depth more d) _
          split
          next hholds =>
            obtain ⟨message, hfull⟩ := Fields.takeValue_of_holds v hholds
            rw [hfull]
            exact .error _ _
          next hholds =>
            exact (hv _ _ _ hfirst hnode (Bool.eq_false_iff.2 hholds)).bind fun d _ =>
              ih d hnext hmore hvalues

/-! ## Variants -/

/-- A variant's name and its content. -/
def Value.readVariant (names : List String) (expected : String) :
    Value → Except Message (Fin names.length × Content)
  | .object members =>
    match members.lookup tagName with
    | none => .error (.missingField tagName)
    | some tag => (tag.readName names).map (·, .members (members.filter (·.1 != tagName)))
  | .array [] => .error (.missingField tagName)
  | .array (tag :: items) => (tag.readName names).map (·, .items items)
  | v => .error (.invalidType v.found expected)

theorem get_of_readChoice {names : List String} {name : String} {i : Fin names.length}
    (h : readChoice names name = .ok i) : names.get i = name := by
  rw [readChoice] at h
  split at h
  next j hfound =>
    cases h
    exact beq_iff_eq.1 (List.findFinIdx?_eq_some_iff.1 hfound).1
  next => cases h

theorem not_mem_of_readChoice {names : List String} {name : String} {message : Message}
    (h : readChoice names name = .error message) : name ∉ names := by
  rw [readChoice] at h
  split at h
  next => cases h
  next hnone =>
    intro hname
    have hother := List.findFinIdx?_eq_none_iff.1 hnone name hname
    simp at hother

theorem Variants.ofContent_of_not_mem (choice : String) (names : List String) {variant : String}
    (content : Content) : ∀ {vs : Variants}, variant ∉ vs.names →
      ∃ message, vs.ofContent choice names variant content = .error message
  | .nil, _ => ⟨_, rfl⟩
  | .cons name fields rest, h => by
    obtain ⟨hname, hrest⟩ := not_or.1 (mt List.mem_cons.2 h)
    obtain ⟨message, hmessage⟩ := rest.ofContent_of_not_mem choice names content hrest
    cases content with
    | members | items =>
        rw [Variants.ofContent, if_neg (Ne.symm hname), hmessage]
        exact ⟨message, rfl⟩

/-- The content is understood by the name of its variant. -/
theorem Variants.sameResult_ofContent (choice variant : String) (content : Content)
    (vs : Variants) :
    SameResult
      (((Value.string variant).readName vs.names).map (·, content) >>= fun r =>
        vs.ofContent choice vs.names (vs.names.get r.1) r.2)
      (vs.ofContent choice vs.names variant content) := by
  rw [Value.readName]
  cases hname : readChoice vs.names variant with
  | ok i =>
      show SameResult (vs.ofContent choice vs.names (vs.names.get i) content) _
      rw [get_of_readChoice hname]
      exact .refl _
  | error message =>
      obtain ⟨unknown, hunknown⟩ :=
        vs.ofContent_of_not_mem choice vs.names content (not_mem_of_readChoice hname)
      rw [hunknown]
      exact .error _ _

theorem sameResult_tagged (choice expected : String) (vs : Variants) (v : Value) :
    SameResult
      (v.readVariant vs.names expected >>= fun r =>
        vs.ofContent choice vs.names (vs.names.get r.1) r.2)
      ((Schema.tagged choice vs).ofValue v) := by
  cases v with
  | null | bool | number | string => exact .error _ _
  | array items =>
      cases items with
      | nil => exact .error _ _
      | cons tag items =>
          cases tag with
          | string variant => exact vs.sameResult_ofContent choice variant (.items items)
          | null | bool | number | array | object => exact .error _ _
  | object members =>
      rw [Value.readVariant, Schema.ofValue]
      cases members.lookup tagName with
      | none => exact .error _ _
      | some tag =>
          cases tag with
          | string variant => exact vs.sameResult_ofContent choice variant (.members _)
          | null | bool | number | array | object => exact .error _ _

/-- The members of a variant are kept, but for the tag.  A second tag would be an error here; of the
value it is the first one that counts. -/
theorem Members.Spells.sameResult_collect_tagged {values : List (String × Value)}
    (hspells : members.Spells values rest) (names : List String) (taken : List (String × Value))
    (hkeys : (values.map Prod.fst).Nodup) (hdepth : ∀ m ∈ values, m.2.depth < depth) :
    SameResult
      (members.collect (fun key c => key == tagName && c.1.isSome)
        (takeVariantMember names depth) (none, taken))
      (((values.lookup tagName).elim (.ok none) fun tag => (tag.readName names).map some).map
        fun i => ((i, (values.filter (·.1 != tagName)).reverse ++ taken), rest)) := by
  induction values generalizing members taken with
  | nil =>
      cases hspells
      exact .ok _
  | cons m values ih =>
      obtain ⟨hfresh, hothers⟩ := List.nodup_cons.1 hkeys
      obtain ⟨hfirst, hmoreDepth⟩ := List.forall_mem_cons.1 hdepth
      cases hspells with
      | @member key _ node more v _ _ _ hnode hmore =>
          show SameResult (if (key == tagName && false) = true then _ else
            takeVariantMember names depth key node (none, taken) >>= fun c =>
              more.collect _ (takeVariantMember names depth) c) _
          rw [Bool.and_false, if_neg Bool.false_ne_true, takeVariantMember, lookup_member]
          by_cases hkey : key = tagName
          · subst hkey
            have htaken (i : Fin names.length) :
                more.collect (fun key c => key == tagName && c.1.isSome)
                  (takeVariantMember names depth) (some i, taken) =
                    .ok ((some i, values.reverse ++ taken), rest) :=
              Members.collect_untagged hmore hfresh hmoreDepth
            rw [if_pos rfl, if_pos rfl, Option.elim_some, map_map, map_eq_bind, bind_assoc,
              filter_tagged v hfresh]
            refine (sameResult_readName names hnode).bind_map fun i _ => ?_
            show SameResult (more.collect _ _ (some i, taken)) _
            rw [htaken]
            exact .ok _
          · rw [if_neg hkey, if_neg (Ne.symm hkey), hnode.read_eq hfirst,
              List.filter_cons_of_pos (by simpa using hkey), List.reverse_cons, List.append_assoc]
            exact ih hmore _ hothers hmoreDepth

theorem sameResult_readVariant (names : List String) (expected : String)
    (hspells : node.Spells v rest) (hdepth : v.depth < depth) (hkeys : v.distinctKeys = true) :
    SameResult (node.readVariant names expected depth)
      ((v.readVariant names expected).map (·, rest)) := by
  cases hspells with
  | null | bool | number | string => exact .error _ _
  | array hitems hskip =>
      obtain ⟨inner, rfl, hinner⟩ := Value.exists_of_depth_array_lt hdepth
      cases hitems with
      | closed => exact .error _ _
      | @item node more tag values _ _ hnode hmore =>
          obtain ⟨-, hvalues⟩ := List.forall_mem_cons.1 hinner
          have hread := hmore.read_eq hvalues
          show SameResult
            (node.readName names >>= fun r => orStop (more.read (inner + 1)) >>= fun r' =>
              .ok ((r.1, .items r'.1), r'.2))
            (((tag.readName names).map fun i => (i, Content.items values)).map (·, rest))
          rw [hread, map_map, map_eq_bind]
          exact (sameResult_readName names hnode).bind_map fun i _ => .ok _
  | @object start _ members values hmembers hskip =>
      obtain ⟨inner, rfl, hinner⟩ := Value.exists_of_depth_object_lt hdepth
      obtain ⟨hnodup, -⟩ := Value.distinctKeys_object_iff.1 hkeys
      have hcollect := hmembers.sameResult_collect_tagged names [] hnodup hinner
      rw [Node.ofMembers, Node.readVariant, Value.readVariant]
      cases htag : values.lookup tagName with
      | none =>
          rw [htag] at hcollect
          rw [(hcollect _).2 rfl]
          exact .error _ _
      | some tag =>
          rw [htag, Option.elim_some] at hcollect
          dsimp only
          cases hname : tag.readName names with
          | ok i =>
              rw [hname] at hcollect
              rw [(hcollect _).2 rfl]
              dsimp only
              rw [List.append_nil, List.reverse_reverse]
              exact .ok _
          | error message =>
              rw [hname] at hcollect
              split
              next => exact .error _ _
              next hfound => cases (hcollect _).1 hfound
              next hfound => cases (hcollect _).1 hfound

/-! ## Schemas -/

/-- The part of a document was scanned from a text and spells this value, which is not nested too
deep and has no repeated keys. -/
structure Node.Stands (depth : Nat) (node : Node) (v : Value) (rest : List Char) : Prop where
  scanned : node.Scanned
  spells : node.Spells v rest
  depth_lt : v.depth < depth
  distinct : v.distinctKeys = true

mutual

/-- A value of a schema is read from a text like from the value that the text spells. -/
theorem Schema.sameResult_ofNode : ∀ {s : Schema} {depth : Nat} {node : Node} {v : Value}
    {rest : List Char}, node.Stands depth v rest →
      SameResult (s.ofNode depth node) ((s.ofValue v).map (·, rest))
  | .string, _, _, _, _, h => by
    cases h.spells with
    | string => exact .ok _
    | null | bool | number | array | object => exact .error _ _
  | .bool, _, _, _, _, h => by
    cases h.spells with
    | bool => exact .ok _
    | null | string | number | array | object => exact .error _ _
  | .integer width, _, _, _, rest, h => by
    cases h.spells with
    | @number _ _ n => exact sameResult_placeAt rest (readInteger width n)
    | null | bool | string | array | object => exact .error _ _
  | .any, _, _, _, _, h => by
    rw [Schema.ofNode, h.spells.read_eq h.depth_lt]
    exact .ok _
  | .list item, _, _, _, rest, ⟨hscanned, hspells, hdepth, hdistinct⟩ => by
    cases hspells with
    | null | bool | number | string | object => exact .error _ _
    | @array _ _ items values hitems hskip =>
        obtain ⟨inner, rfl, hinner⟩ := Value.exists_of_depth_array_lt hdepth
        obtain ⟨-, hfront⟩ := hscanned.array
        have hread := sameResult_readAll (item.ofNode (inner + 1)) item.ofValue hfront hitems
          fun v hv node between hnode hspells => item.sameResult_ofNode
            ⟨hnode, hspells, hinner v hv, Value.distinctKeys_array_iff.1 hdistinct v hv⟩
        rw [Node.ofItems, Schema.ofNode, Schema.ofValue]
        refine SameResult.trans ?_ hread
        cases items.readAll (item.ofNode (inner + 1)) with
        | ok r => exact .ok _
        | error stop => exact .error _ _
  | .choice names, _, _, _, _, ⟨hscanned, hspells, hdepth, hdistinct⟩ => by
    cases hspells with
    | null | bool | number | array => exact .error _ _
    | string => exact sameResult_readName names .string
    | object hmembers hskip =>
        obtain ⟨inner, rfl, -⟩ := Value.exists_of_depth_object_lt hdepth
        obtain ⟨-, steps, rfl⟩ := hscanned.object
        exact sameResult_readKeyedName names hmembers
  | .record name fields, _, _, _, rest, ⟨hscanned, hspells, hdepth, hdistinct⟩ => by
    cases hspells with
    | null | bool | number | string => exact .error _ _
    | @array start _ items values hitems hskip =>
        obtain ⟨inner, rfl, hinner⟩ := Value.exists_of_depth_array_lt hdepth
        obtain ⟨-, hfront⟩ := hscanned.array
        have hvalues (v : Value) (hv : v ∈ values) : v.depth < inner + 1 ∧ v.distinctKeys = true :=
          ⟨hinner v hv, Value.distinctKeys_array_iff.1 hdistinct v hv⟩
        have hread := fields.sameResult_ofElements (withElements (structName name) fields.count)
          (.invalidLength values.length "fewer elements in array") id 0 hfront hitems hvalues
        rw [Node.ofItems, Schema.ofNode, Schema.ofValue]
        refine SameResult.trans ?_ hread
        cases fields.ofElements (withElements (structName name) fields.count) (inner + 1) 0 items
          (start.drop 1) with
        | ok r => exact .refl _
        | error stop => exact .error _ _
    | @object start _ members values hmembers hskip =>
        obtain ⟨inner, rfl, hinner⟩ := Value.exists_of_depth_object_lt hdepth
        obtain ⟨-, steps, hfront⟩ := hscanned.object
        obtain ⟨-, hvalues⟩ := Value.distinctKeys_object_iff.1 hdistinct
        have hcollect := fields.sameResult_collect fields.blank ⟨steps, .inl ⟨_, hfront⟩⟩ hmembers
          fun m hm node between draft hnode hspells hholds => fields.sameResult_takeNode
            ⟨hnode, hspells, hinner m hm, hvalues m hm⟩ hholds
        have hread : SameResult
            (fields.collect (inner + 1) members fields.blank >>= fun r =>
              placeAt r.2 (fields.finish r.1) >>= fun x => Except.ok (x, r.2))
            (((Schema.record name fields).ofValue (.object values)).map (·, rest)) := by
          rw [Schema.ofValue]
          exact hcollect.step fun draft _ => sameResult_placeAt rest (fields.finish draft)
        rw [Node.ofMembers, Schema.ofNode]
        refine SameResult.trans ?_ hread
        rw [Fields.collect]
        cases members.collect (fun key d => fields.holds key d)
          (fun key node d => fields.takeNode (inner + 1) key node d) fields.blank with
        | ok r => exact .refl _
        | error stop => exact .error _ _
  | .tagged choice variants, _, node, v, rest, h => by
    have hread := sameResult_readVariant variants.names (taggedName choice) h.spells h.depth_lt
      h.distinct
    have hvalue := (sameResult_tagged choice (taggedName choice) variants v).map (·, rest)
    rw [Schema.ofNode]
    refine SameResult.trans ?_ hvalue
    refine hread.step fun (i, content) _ => ?_
    dsimp only
    cases variants.ofContent choice variants.names (variants.names.get i) content with
    | ok x => exact .ok _
    | error message => exact .error _ _

theorem Fields.sameResult_takeNode : ∀ {fs : Fields} {depth : Nat} {key : String} {node : Node}
    {v : Value} {rest : List Char} {draft : fs.Draft}, node.Stands depth v rest →
      fs.holds key draft = false →
        SameResult (fs.takeNode depth key node draft) (fs.takeValue key v draft)
  | .nil, _, _, _, _, _, draft, h, _ => by
    rw [Fields.takeNode, h.spells.skip_eq]
    exact .ok _
  | .cons name presence schema fields, _, key, _, _, _, (slot, draft), h, hholds => by
    rw [Fields.holds] at hholds
    rw [Fields.takeNode, Fields.takeValue]
    split at hholds
    next hname =>
      rw [if_pos hname, if_pos hname, hholds, if_neg Bool.false_ne_true]
      exact (sameResult_slotOfNode presence h.spells (schema.sameResult_ofNode h)).bind_map
        fun a _ => .ok _
    next hname =>
      rw [if_neg hname, if_neg hname]
      exact (fields.sameResult_takeNode h hholds).bind fun more _ => .ok _

/-- The first elements are the fields of the record, and no elements are left over. -/
theorem Fields.sameResult_ofElements {γ : Type} (expected : String) (message : Message) :
    ∀ {fs : Fields} {depth : Nat} {items : Items} {values : List Value} {front rest : List Char}
      (f : fs.Carrier → γ) (index : Nat), items.Scanned front → items.Spells values rest →
        (∀ v ∈ values, v.depth < depth ∧ v.distinctKeys = true) →
          SameResult
            (fs.ofElements expected depth index items front >>= fun r =>
              orStop (closeList r.2) >>= fun rest => Except.ok (f r.1, rest))
            ((fs.ofItems expected index values >>= fun r =>
              if r.2.isEmpty then Except.ok (f r.1) else .error message).map (·, rest))
  | .nil, _, _, _, front, _, f, _, hscanned, hspells, _ => by
    show SameResult (orStop (closeList front) >>= _) _
    obtain ⟨_, _, rfl⟩ | ⟨_, rfl, hclosed⟩ | ⟨_, _, rfl, -, hopen, -⟩ := hscanned.cases
    · cases hspells
    · cases hspells
      rw [hclosed]
      exact .ok _
    · cases hspells
      cases hclosed : closeList front with
      | ok rest => exact absurd hclosed (hopen rest)
      | error fault => exact .error _ _
  | .cons _ _ _ _, _, _, [], _, _, _, _, _, .closed, _ => .error _ _
  | .cons name presence schema fields, _, _, v :: values, _, _, f, index, hscanned,
      .item hnode hmore, hvalues => by
    obtain ⟨_, _, ⟨⟩⟩ | ⟨_, ⟨⟩, -⟩ | ⟨_, _, ⟨⟩, hfirst, -, hnext⟩ := hscanned.cases
    obtain ⟨⟨hdepth, hdistinct⟩, hothers⟩ := List.forall_mem_cons.1 hvalues
    have hslot := sameResult_slotOfNode presence hnode
      (schema.sameResult_ofNode ⟨hfirst, hnode, hdepth, hdistinct⟩)
    -- What is done with the record is done with its first field and the rest.
    rw [Fields.ofElements, Fields.ofItems, bind_assoc, bind_assoc]
    refine hslot.step fun a _ => ?_
    rw [bind_assoc, bind_assoc]
    exact fields.sameResult_ofElements expected message (fun xs => f (a, xs)) (index + 1)
      (hnext _ hnode.skip_eq) hmore hothers

end

/-! ## Texts -/

/-- Whether no object in the value that a text spells has a key twice.  A text that spells no value
has no objects. -/
def keysApart (chars : List Char) : Bool :=
  match (document chars).read depthLimit with
  | .ok (v, _) => v.distinctKeys
  | .error _ => true

theorem Schema.sameResult_ofChars {s : Schema} {chars : List Char} (hnamed : s.wellNamed = true)
    (hkeys : keysApart chars = true) (hparse : parse chars = .ok v) :
    SameResult (s.ofChars chars) (s.ofValue v) := by
  obtain ⟨⟨w, rest⟩, hread, hparse⟩ := bind_eq_ok.1 hparse
  obtain ⟨_, hend, ⟨⟩⟩ := bind_eq_ok.1 hparse
  rw [keysApart, hread] at hkeys
  have hscanned := scanned_document chars
  have hnode : SameResult (s.ofNode depthLimit (document chars)) ((s.ofValue w).map (·, rest)) :=
    s.sameResult_ofNode ⟨hscanned, Node.spells_of_read hscanned hread,
      Node.depth_lt_of_read (by decide) hread, hkeys⟩
  have hchars : SameResult (s.ofChars chars) (s.ofValue w) := by
    cases hvalue : s.ofValue w with
    | ok x =>
        rw [hvalue] at hnode
        rw [Schema.ofChars, (hnode (x, rest)).2 rfl]
        simp only [hend]
        exact .ok x
    | error message =>
        rw [hvalue] at hnode
        rw [Schema.ofChars]
        cases hfound : s.ofNode depthLimit (document chars) with
        | ok r => cases (hnode r).1 hfound
        | error stop => exact .error _ _
  exact hchars.trans (s.sameResult_canonical hnamed hkeys).symm

/-- Where no key comes twice, a type is read from a text like from the value of the text. -/
theorem sameResult_ofText {α : Type} [Described α] {text : String}
    (hnamed : (Described.schema α).wellNamed = true) (hkeys : keysApart text.toList = true)
    (hparse : parse text.toList = .ok v) : SameResult (ofText α text) (ofValue α v) :=
  (Schema.sameResult_ofChars hnamed hkeys hparse).map Described.ofCarrier

end GrowthFault.Json
