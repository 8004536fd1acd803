/-!
# Tables by address

A table holds at most one entry for an address.  It serves as a memory (blocks by address) and
as a ledger (sizes by address); `get?` is its view, and each operation has one equation for it.
-/

namespace GrowthFault

abbrev Address := Nat

abbrev Pointer := Option Address

structure Table (β : Type) where
  entries : List (Address × β)
  nodup : (entries.map Prod.fst).Nodup

namespace Table

variable {β : Type}

def empty : Table β := ⟨[], List.nodup_nil⟩

instance : Inhabited (Table β) := ⟨empty⟩

def get? (t : Table β) (a : Address) : Option β :=
  t.entries.lookup a

def addresses (t : Table β) : List Address :=
  t.entries.map Prod.fst

def size (t : Table β) : Nat := t.entries.length

def erase (t : Table β) (a : Address) : Table β where
  entries := t.entries.filter fun e => e.1 != a
  nodup := t.nodup.sublist (List.filter_sublist.map Prod.fst)

/-- Enter a value for an address, over an older one. -/
def insert (t : Table β) (a : Address) (b : β) : Table β where
  entries := (a, b) :: (t.erase a).entries
  nodup := by
    simp only [List.map_cons, List.nodup_cons]
    exact ⟨by simp [erase], (t.erase a).nodup⟩

@[ext] theorem ext {t u : Table β} (h : t.entries = u.entries) : t = u := by
  cases t; cases u; cases h; rfl

@[simp] theorem get?_empty (a : Address) : (empty : Table β).get? a = none := rfl

theorem lookup_entry (a : Address) (e : Address × β) (es : List (Address × β)) :
    (e :: es).lookup a = if a = e.1 then some e.2 else es.lookup a := by
  obtain ⟨k, b⟩ := e
  by_cases h : a = k
  · simp [h]
  · have : (a == k) = false := by simpa using h
    simp [List.lookup_cons, h, this]

theorem lookup_filter_ne (es : List (Address × β)) (a b : Address) :
    (es.filter fun e => e.1 != a).lookup b = if b = a then none else es.lookup b := by
  induction es with
  | nil => simp
  | cons e es ih =>
    by_cases h : e.1 = a
    · rw [List.filter_cons_of_neg (by simpa using h), ih, lookup_entry, h]
      by_cases hb : b = a <;> simp [hb]
    · rw [List.filter_cons_of_pos (by simpa using h), lookup_entry, lookup_entry, ih]
      by_cases hb : b = e.1
      · simp [hb, h]
      · simp [hb]

theorem get?_erase (t : Table β) (a b : Address) :
    (t.erase a).get? b = if b = a then none else t.get? b :=
  lookup_filter_ne t.entries a b

theorem get?_insert (t : Table β) (a : Address) (x : β) (b : Address) :
    (t.insert a x).get? b = if b = a then some x else t.get? b := by
  have h : (t.insert a x).get? b = if b = a then some x else (t.erase a).get? b :=
    lookup_entry b (a, x) _
  rw [h, get?_erase]
  by_cases hb : b = a <;> simp [hb]

theorem mem_addresses_iff (t : Table β) (a : Address) :
    a ∈ t.addresses ↔ (t.get? a).isSome := by
  unfold addresses get?
  induction t.entries with
  | nil => simp
  | cons e es ih =>
    rw [lookup_entry, List.map_cons, List.mem_cons, ih]
    by_cases h : a = e.1 <;> simp [h]

theorem eq_empty {t : Table β} (h : ∀ a, t.get? a = none) : t = empty := by
  have hnone : t.addresses = [] := by
    refine List.eq_nil_iff_forall_not_mem.2 ?_
    intro a ha
    have hsome := (t.mem_addresses_iff a).1 ha
    simp [h a] at hsome
  exact ext (List.map_eq_nil_iff.1 hnone)

end Table

end GrowthFault
