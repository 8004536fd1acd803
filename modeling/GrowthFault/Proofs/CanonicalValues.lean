import GrowthFault.Json.Value
import Mathlib.Data.List.Induction

/-!
# Canonical values

An object without order has each key once and its keys ascend, so two such objects with the same
members are the same list.  Putting members in their places keeps what a key stands for, the last
member with that key, and does nothing to members that are in their places already.
-/

namespace GrowthFault.Json

variable {key other : String} {value : Value} {members : List (String × Value)}

theorem lookup_member (key : String) (m : String × Value) (members : List (String × Value)) :
    (m :: members).lookup key = if key = m.1 then some m.2 else members.lookup key := by
  obtain ⟨other, value⟩ := m
  by_cases h : key = other
  · simp [h]
  · have hne : (key == other) = false := by simpa using h
    simp [List.lookup_cons, hne, h]

/-- What a key stands for is a member. -/
theorem mem_of_lookup (h : members.lookup key = some value) : (key, value) ∈ members := by
  induction members with
  | nil => cases h
  | cons m members ih =>
      rw [lookup_member] at h
      split at h
      next hkey =>
        cases h
        subst hkey
        exact List.mem_cons_self
      next => exact List.mem_cons_of_mem m (ih h)

theorem lookup_map (f : Value → Value) (key : String) (members : List (String × Value)) :
    (members.map fun m => (m.1, f m.2)).lookup key = (members.lookup key).map f := by
  induction members with
  | nil => rfl
  | cons m members ih =>
      rw [List.map_cons, lookup_member, lookup_member, ih]
      split <;> rfl

/-! ## Members in their places -/

/-- Every key comes once, and the keys ascend. -/
def Ascending (members : List (String × Value)) : Prop :=
  members.Pairwise fun m n => m.1 < n.1

theorem lookup_insertMember (key other : String) (value : Value)
    (members : List (String × Value)) :
    (insertMember key value members).lookup other =
      if other = key then some value else members.lookup other := by
  induction members with
  | nil => exact lookup_member other (key, value) []
  | cons m members ih =>
      obtain ⟨k, v⟩ := m
      rw [insertMember]
      split
      next hkey =>
        subst hkey
        rw [lookup_member, lookup_member]
        split <;> rfl
      next hkey =>
        split
        next => exact lookup_member other (key, value) _
        next =>
          rw [lookup_member, ih, lookup_member]
          by_cases hk : other = k
          · have hne : ¬ other = key := fun h => hkey (h.symm.trans hk)
            rw [if_pos hk, if_neg hne, if_pos hk]
          · rw [if_neg hk, if_neg hk]

theorem mem_insertMember {m : String × Value} (hm : m ∈ insertMember key value members) :
    m = (key, value) ∨ m ∈ members := by
  induction members with
  | nil => exact .inl (List.mem_singleton.1 hm)
  | cons n members ih =>
      obtain ⟨k, v⟩ := n
      rw [insertMember] at hm
      split at hm
      next =>
        rcases List.mem_cons.1 hm with rfl | hm
        · exact .inl rfl
        · exact .inr (List.mem_cons_of_mem _ hm)
      next =>
        split at hm
        next => exact List.mem_cons.1 hm
        next =>
          rcases List.mem_cons.1 hm with rfl | hm
          · exact .inr List.mem_cons_self
          · exact (ih hm).imp_right (List.mem_cons_of_mem _)

theorem Ascending.insertMember (h : Ascending members) (key : String) (value : Value) :
    Ascending (insertMember key value members) := by
  induction members with
  | nil => exact List.pairwise_singleton _ _
  | cons n members ih =>
      obtain ⟨k, v⟩ := n
      obtain ⟨hfirst, hrest⟩ := List.pairwise_cons.1 h
      rw [Json.insertMember]
      split
      next hkey =>
        subst hkey
        exact List.pairwise_cons.2 ⟨hfirst, hrest⟩
      next hkey =>
        split
        next hbefore =>
          refine List.pairwise_cons.2 ⟨?_, h⟩
          rw [List.forall_mem_cons]
          exact ⟨hbefore, fun m hm => String.lt_trans hbefore (hfirst m hm)⟩
        next hbehind =>
          have hlt : k < key :=
            Std.lt_of_le_of_ne (String.not_lt.1 hbehind) (Ne.symm hkey)
          refine List.pairwise_cons.2 ⟨fun m hm => ?_, ih hrest⟩
          rcases mem_insertMember hm with rfl | hm
          · exact hlt
          · exact hfirst m hm

/-- A member whose key is behind all others goes to the end. -/
theorem insertMember_of_last (h : ∀ m ∈ members, m.1 < key) :
    insertMember key value members = members ++ [(key, value)] := by
  induction members with
  | nil => rfl
  | cons n members ih =>
      obtain ⟨k, v⟩ := n
      obtain ⟨hfirst, hrest⟩ := List.forall_mem_cons.1 h
      have hne : ¬ key = k := fun heq => String.lt_irrefl k (heq ▸ hfirst)
      have hnot : ¬ key < k := fun hlt => String.lt_irrefl k (String.lt_trans hfirst hlt)
      rw [insertMember, if_neg hne, if_neg hnot, ih hrest, List.cons_append]

/-! The members are put in their places from the front, so what is shown of one of them is carried
through the fold. -/

theorem sortMembers_concat (members : List (String × Value)) (m : String × Value) :
    sortMembers (members ++ [m]) = insertMember m.1 m.2 (sortMembers members) := by
  rw [sortMembers, List.foldl_append]
  rfl

theorem ascending_sortMembers (members : List (String × Value)) :
    Ascending (sortMembers members) := by
  induction members using List.reverseRecOn with
  | nil => exact .nil
  | append_singleton members m ih =>
      rw [sortMembers_concat]
      exact ih.insertMember m.1 m.2

theorem mem_sortMembers {m : String × Value} (hm : m ∈ sortMembers members) : m ∈ members := by
  induction members using List.reverseRecOn with
  | nil => exact hm
  | append_singleton members n ih =>
      rw [sortMembers_concat] at hm
      rcases mem_insertMember hm with rfl | hm
      · exact List.mem_append_right members (List.mem_singleton_self _)
      · exact List.mem_append_left [n] (ih hm)

/-- A key stands for the last member that has it. -/
theorem lookup_sortMembers (key : String) (members : List (String × Value)) :
    (sortMembers members).lookup key = members.reverse.lookup key := by
  induction members using List.reverseRecOn with
  | nil => rfl
  | append_singleton members m ih =>
      rw [sortMembers_concat, lookup_insertMember, ih, List.reverse_append,
        List.reverse_singleton, List.singleton_append, lookup_member]

/-- Without repeated keys the direction does not matter. -/
theorem lookup_reverse (hkeys : (members.map Prod.fst).Nodup) (key : String) :
    members.reverse.lookup key = members.lookup key := by
  induction members with
  | nil => rfl
  | cons m members ih =>
      obtain ⟨hfresh, hrest⟩ := List.nodup_cons.1 hkeys
      rw [List.reverse_cons, List.lookup_append, ih hrest, lookup_member, lookup_member]
      split
      next hkey =>
        have hnone : members.lookup key = none := by
          cases hlookup : members.lookup key with
          | none => rfl
          | some value =>
              exact absurd (hkey ▸ List.mem_map_of_mem (mem_of_lookup hlookup)) hfresh
        rw [hnone]
        rfl
      next => exact Option.or_none

theorem Ascending.sortMembers_eq (h : Ascending members) : sortMembers members = members := by
  induction members using List.reverseRecOn with
  | nil => rfl
  | append_singleton members m ih =>
      obtain ⟨hfirst, -, hlast⟩ := List.pairwise_append.1 h
      rw [sortMembers_concat, ih hfirst]
      exact insertMember_of_last fun n hn => hlast n hn m (List.mem_singleton_self m)

theorem Ascending.nodup_keys (h : Ascending members) : (members.map Prod.fst).Nodup := by
  refine (List.pairwise_map.2 h).imp ?_
  rintro a b hab rfl
  exact String.lt_irrefl a hab

theorem insertMember_map (f : Value → Value) (key : String) (value : Value)
    (members : List (String × Value)) :
    insertMember key (f value) (members.map fun m => (m.1, f m.2)) =
      (insertMember key value members).map fun m => (m.1, f m.2) := by
  induction members with
  | nil => rfl
  | cons n members ih =>
      rw [List.map_cons, insertMember, insertMember]
      split
      next => rfl
      next =>
        split
        next => rfl
        next => rw [ih, List.map_cons]

theorem sortMembers_map (f : Value → Value) (members : List (String × Value)) :
    sortMembers (members.map fun m => (m.1, f m.2)) =
      (sortMembers members).map fun m => (m.1, f m.2) := by
  induction members using List.reverseRecOn with
  | nil => rfl
  | append_singleton members m ih =>
      rw [List.map_append, List.map_singleton, sortMembers_concat, ih, insertMember_map,
        sortMembers_concat]

/-! ## Values -/

/-- A property of values that holds of a container when it holds of what is in it. -/
theorem Value.induction {motive : Value → Prop} (null : motive .null)
    (bool : ∀ b, motive (.bool b)) (number : ∀ n, motive (.number n))
    (string : ∀ text, motive (.string text))
    (array : ∀ items, (∀ v ∈ items, motive v) → motive (.array items))
    (object : ∀ members, (∀ m ∈ members, motive (Prod.snd m)) → motive (.object members))
    (v : Value) : motive v :=
  @Value.rec motive (fun items => ∀ v ∈ items, motive v) (fun members => ∀ m ∈ members, motive m.2)
    (fun m => motive m.2) null bool number string array object (List.forall_mem_nil _)
    (fun _ _ hitem hitems => List.forall_mem_cons.2 ⟨hitem, hitems⟩) (List.forall_mem_nil _)
    (fun _ _ hmember hmembers => List.forall_mem_cons.2 ⟨hmember, hmembers⟩)
    (fun _ _ hvalue => hvalue) v

theorem Value.canonicalItems_eq_map (items : List Value) :
    canonicalItems items = items.map canonical := by
  induction items with
  | nil => rfl
  | cons v items ih => rw [canonicalItems, ih, List.map_cons]

theorem Value.canonicalMembers_eq_map (members : List (String × Value)) :
    canonicalMembers members = members.map fun m => (m.1, m.2.canonical) := by
  induction members with
  | nil => rfl
  | cons m members ih =>
      obtain ⟨key, value⟩ := m
      rw [canonicalMembers, ih, List.map_cons]

theorem Value.canonical_array (items : List Value) :
    (Value.array items).canonical = .array (items.map canonical) := by
  rw [canonical, canonicalItems_eq_map]

theorem Value.canonical_object (members : List (String × Value)) :
    (Value.object members).canonical =
      .object ((sortMembers members).map fun m => (m.1, m.2.canonical)) := by
  rw [canonical, canonicalMembers_eq_map, sortMembers_map]

@[simp] theorem Value.canonical_canonical (v : Value) : v.canonical.canonical = v.canonical := by
  induction v using Value.induction with
  | null => rfl
  | bool b => rfl
  | number n => rfl
  | string text => rfl
  | array items ih =>
      rw [canonical_array, canonical_array, List.map_map]
      exact congrArg Value.array (List.map_congr_left ih)
  | object members ih =>
      rw [canonical_object, canonical_object, sortMembers_map,
        (ascending_sortMembers members).sortMembers_eq, List.map_map]
      refine congrArg Value.object (List.map_congr_left fun m hm => ?_)
      exact congrArg (Prod.mk m.1) (ih m (mem_sortMembers hm))

theorem Value.canonical_eq_null_iff {v : Value} : v.canonical = .null ↔ v = .null := by
  cases v <;> simp [canonical]

/-- Without repeated keys a key stands for its member in an object without order, too. -/
theorem Value.get?_canonical (hkeys : (members.map Prod.fst).Nodup) (key : String) :
    (Value.object members).canonical.get? key = (members.lookup key).map canonical := by
  rw [canonical_object, get?, lookup_map, lookup_sortMembers, lookup_reverse hkeys]

/-! ## Depth and whole numbers -/

mutual

/-- How many containers lie inside one another, the value itself among them. -/
def Value.depth : Value → Nat
  | .array items => depthOfItems items + 1
  | .object members => depthOfMembers members + 1
  | _ => 0

def Value.depthOfItems : List Value → Nat
  | [] => 0
  | item :: items => max item.depth (depthOfItems items)

def Value.depthOfMembers : List (String × Value) → Nat
  | [] => 0
  | (_, value) :: members => max value.depth (depthOfMembers members)

end

/-- Every number in the value is an integer, none is a double. -/
inductive Value.Whole : Value → Prop where
  | null : Whole .null
  | bool {b : Bool} : Whole (.bool b)
  | number {n : Number} (h : n.int?.isSome) : Whole (.number n)
  | string {text : String} : Whole (.string text)
  | array {items : List Value} (h : ∀ v ∈ items, Whole v) : Whole (.array items)
  | object {members : List (String × Value)} (h : ∀ m ∈ members, Whole (Prod.snd m)) :
    Whole (.object members)

variable {n : Nat} {items : List Value} {v : Value}

theorem Value.depth_array_le_iff :
    (Value.array items).depth ≤ n + 1 ↔ ∀ v ∈ items, v.depth ≤ n := by
  rw [depth, Nat.add_le_add_iff_right]
  induction items with
  | nil => simp [depthOfItems]
  | cons v items ih => rw [depthOfItems, Nat.max_le, ih, List.forall_mem_cons]

theorem Value.depth_object_le_iff :
    (Value.object members).depth ≤ n + 1 ↔ ∀ m ∈ members, m.2.depth ≤ n := by
  rw [depth, Nat.add_le_add_iff_right]
  induction members with
  | nil => simp [depthOfMembers]
  | cons m members ih => rw [depthOfMembers, Nat.max_le, ih, List.forall_mem_cons]

/-- A reader that may open a list may open what is in it. -/
theorem Value.exists_of_depth_array_lt (h : (Value.array items).depth < n) :
    ∃ inner, n = inner + 2 ∧ ∀ v ∈ items, v.depth < inner + 1 := by
  have hpositive : 0 < (Value.array items).depth := Nat.succ_pos _
  obtain ⟨inner, rfl⟩ : ∃ inner, n = inner + 2 := ⟨n - 2, by omega⟩
  have hinner := depth_array_le_iff.1 (Nat.le_of_lt_succ h)
  exact ⟨inner, rfl, fun v hv => Nat.lt_succ_of_le (hinner v hv)⟩

theorem Value.exists_of_depth_object_lt (h : (Value.object members).depth < n) :
    ∃ inner, n = inner + 2 ∧ ∀ m ∈ members, m.2.depth < inner + 1 := by
  have hpositive : 0 < (Value.object members).depth := Nat.succ_pos _
  obtain ⟨inner, rfl⟩ : ∃ inner, n = inner + 2 := ⟨n - 2, by omega⟩
  have hinner := depth_object_le_iff.1 (Nat.le_of_lt_succ h)
  exact ⟨inner, rfl, fun m hm => Nat.lt_succ_of_le (hinner m hm)⟩

theorem Value.depth_canonical_le (h : v.depth ≤ n) : v.canonical.depth ≤ n := by
  induction v using Value.induction generalizing n with
  | null => exact h
  | bool b => exact h
  | number number => exact h
  | string text => exact h
  | array items ih =>
      cases n with
      | zero => cases h
      | succ n =>
          rw [depth_array_le_iff] at h
          rw [canonical_array, depth_array_le_iff, List.forall_mem_map]
          exact fun v hv => ih v hv (h v hv)
  | object members ih =>
      cases n with
      | zero => cases h
      | succ n =>
          rw [depth_object_le_iff] at h
          rw [canonical_object, depth_object_le_iff, List.forall_mem_map]
          exact fun m hm => ih m (mem_sortMembers hm) (h m (mem_sortMembers hm))

theorem Value.Whole.canonical (h : v.Whole) : v.canonical.Whole := by
  induction h with
  | null => exact .null
  | bool => exact .bool
  | number h => exact .number h
  | string => exact .string
  | array h ih =>
      rw [canonical_array]
      exact .array (List.forall_mem_map.2 ih)
  | object h ih =>
      rw [canonical_object]
      exact .object (List.forall_mem_map.2 fun m hm => ih m (mem_sortMembers hm))

end GrowthFault.Json
