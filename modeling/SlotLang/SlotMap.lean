/-!
# Sparse tables of numbered slots

A `SlotMap` holds values under 32-bit numbers, sorted by number, each number at most once. Two maps
with the same look-ups are the same map, so what a run leaves behind can be compared by equality.
-/

namespace SlotLang

/-- A finite table from slot numbers to values. -/
structure SlotMap (α : Type) where
  entries : List (UInt32 × α)
  sorted : entries.Pairwise (fun a b => a.1 < b.1)

namespace SlotMap

variable {α : Type}

def empty : SlotMap α :=
  ⟨[], .nil⟩

instance : Inhabited (SlotMap α) :=
  ⟨empty⟩

def insertEntry (key : UInt32) (value : α) : List (UInt32 × α) → List (UInt32 × α)
  | [] => [(key, value)]
  | (k, v) :: rest =>
    if key < k then (key, value) :: (k, v) :: rest
    else if key = k then (key, value) :: rest
    else (k, v) :: insertEntry key value rest

theorem mem_insertEntry {key : UInt32} {value : α} {entries : List (UInt32 × α)}
    {e : UInt32 × α} (h : e ∈ insertEntry key value entries) :
    e = (key, value) ∨ e ∈ entries := by
  induction entries with
  | nil => simpa [insertEntry] using h
  | cons head rest ih =>
    obtain ⟨k, v⟩ := head
    unfold insertEntry at h
    split at h
    · simpa using h
    · split at h
      · rcases List.mem_cons.1 h with h | h
        · exact .inl h
        · exact .inr (List.mem_cons_of_mem _ h)
      · rcases List.mem_cons.1 h with h | h
        · exact .inr (h ▸ List.mem_cons_self)
        · exact (ih h).imp id (List.mem_cons_of_mem _)

theorem pairwise_insertEntry (key : UInt32) (value : α) {entries : List (UInt32 × α)}
    (h : entries.Pairwise (fun a b => a.1 < b.1)) :
    (insertEntry key value entries).Pairwise (fun a b => a.1 < b.1) := by
  induction entries with
  | nil => simp [insertEntry]
  | cons head rest ih =>
    obtain ⟨k, v⟩ := head
    obtain ⟨hhead, hrest⟩ := List.pairwise_cons.1 h
    unfold insertEntry
    split
    · next hlt =>
      refine List.pairwise_cons.2 ⟨fun e he => ?_, h⟩
      rcases List.mem_cons.1 he with he | he
      · exact he ▸ hlt
      · exact UInt32.lt_trans hlt (hhead e he)
    · split
      · next heq =>
        subst heq
        exact List.pairwise_cons.2 ⟨hhead, hrest⟩
      · next hlt heq =>
        refine List.pairwise_cons.2 ⟨fun e he => ?_, ih hrest⟩
        rcases mem_insertEntry he with he | he
        · subst he
          exact UInt32.lt_of_le_of_ne (UInt32.not_lt.1 hlt) fun e => heq e.symm
        · exact hhead e he

def get? (m : SlotMap α) (key : UInt32) : Option α :=
  m.entries.lookup key

def insert (m : SlotMap α) (key : UInt32) (value : α) : SlotMap α where
  entries := insertEntry key value m.entries
  sorted := pairwise_insertEntry key value m.sorted

def size (m : SlotMap α) : Nat :=
  m.entries.length

def toList (m : SlotMap α) : List (UInt32 × α) :=
  m.entries

end SlotMap

end SlotLang
