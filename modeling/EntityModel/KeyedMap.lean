/-!
# Keyed maps

A finite map from strings, kept as its entries in increasing order of the keys. The order is part
of the type, so two maps that hold the same entries are equal and are written the same way.
-/

namespace EntityModel

/-- Finite maps from strings; the entries stand in strictly increasing order of their keys. -/
structure KeyedMap (α : Type) where
  entries : List (String × α)
  sorted : entries.Pairwise (fun a b => a.1 < b.1)
  deriving DecidableEq

namespace KeyedMap

variable {α : Type}

def empty : KeyedMap α := ⟨[], List.Pairwise.nil⟩

instance : Inhabited (KeyedMap α) := ⟨empty⟩

def keys (m : KeyedMap α) : List String := m.entries.map (·.1)

def get? (m : KeyedMap α) (key : String) : Option α :=
  (m.entries.find? (·.1 == key)).map (·.2)

/-- Puts a value at its place in an ordered list, in the place of an earlier value of its key. -/
def insertEntry (key : String) (value : α) : List (String × α) → List (String × α)
  | [] => [(key, value)]
  | e :: rest =>
    if key < e.1 then (key, value) :: e :: rest
    else if key = e.1 then (key, value) :: rest
    else e :: insertEntry key value rest

theorem mem_insertEntry {key : String} {value : α} {e : String × α} :
    ∀ {l : List (String × α)}, e ∈ insertEntry key value l → e = (key, value) ∨ e ∈ l
  | [], h => by simp_all [insertEntry]
  | d :: rest, h => by
    unfold insertEntry at h
    split at h
    · simpa using h
    · split at h
      · rcases List.mem_cons.1 h with h | h
        · exact .inl h
        · exact .inr (List.mem_cons_of_mem _ h)
      · rcases List.mem_cons.1 h with h | h
        · exact .inr (h ▸ List.mem_cons_self)
        · exact (mem_insertEntry h).imp_right (List.mem_cons_of_mem _)

theorem insertEntry_sorted (key : String) (value : α) :
    ∀ {l : List (String × α)}, l.Pairwise (fun a b => a.1 < b.1) →
      (insertEntry key value l).Pairwise (fun a b => a.1 < b.1)
  | [], _ => by simp [insertEntry]
  | d :: rest, h => by
    obtain ⟨first, later⟩ := List.pairwise_cons.1 h
    unfold insertEntry
    split
    · next lt =>
      refine List.pairwise_cons.2 ⟨fun e he => ?_, h⟩
      rcases List.mem_cons.1 he with he | he
      · exact he ▸ lt
      · exact String.lt_trans lt (first e he)
    · next notLt =>
      split
      · next same => exact List.pairwise_cons.2 ⟨fun e he => same ▸ first e he, later⟩
      · next different =>
        refine List.pairwise_cons.2 ⟨fun e he => ?_, insertEntry_sorted key value later⟩
        rcases mem_insertEntry he with rfl | he
        · grind
        · exact first e he

/-- The map with `value` at `key`, whether or not the key was there. -/
def insert (m : KeyedMap α) (key : String) (value : α) : KeyedMap α :=
  ⟨insertEntry key value m.entries, insertEntry_sorted key value m.sorted⟩

/-- The map of a list of entries; of several values for one key the last one counts. -/
def ofList (l : List (String × α)) : KeyedMap α :=
  l.foldl (fun m e => m.insert e.1 e.2) empty

end KeyedMap

end EntityModel
