import PatternAlgebra.Text.Basic

/-!
# Records of captures

A record holds texts under keys, each key once, in ascending order of the keys. Keys are compared
unit by unit, so `10` stands before `2`.
-/

namespace PatternAlgebra

/-- Texts under keys. -/
structure Record where
  entries : List (Text × Text)
  sorted : entries.Pairwise (fun a b => a.1 < b.1)
  deriving DecidableEq

namespace Record

def empty : Record := ⟨[], .nil⟩

/-- The text under a key. -/
def get? (r : Record) (key : Text) : Option Text := r.entries.lookup key

/-- Puts a text under a key in a sorted list, in place of one that is there. -/
def putEntry (key value : Text) : List (Text × Text) → List (Text × Text)
  | [] => [(key, value)]
  | (k, v) :: rest =>
    if k = key then (key, value) :: rest
    else if key < k then (key, value) :: (k, v) :: rest
    else (k, v) :: putEntry key value rest

theorem fst_of_mem_putEntry {key value : Text} {entries : List (Text × Text)} {e : Text × Text}
    (h : e ∈ putEntry key value entries) : e.1 = key ∨ e ∈ entries := by
  induction entries with
  | nil => simp_all [putEntry]
  | cons head rest ih =>
    simp only [putEntry] at h
    split at h
    · rcases List.mem_cons.1 h with rfl | h
      · exact .inl rfl
      · exact .inr (List.mem_cons_of_mem _ h)
    · split at h
      · rcases List.mem_cons.1 h with rfl | h
        · exact .inl rfl
        · exact .inr h
      · rcases List.mem_cons.1 h with rfl | h
        · exact .inr List.mem_cons_self
        · exact (ih h).imp_right (List.mem_cons_of_mem _)

theorem sorted_putEntry (key value : Text) {entries : List (Text × Text)}
    (h : entries.Pairwise (fun a b => a.1 < b.1)) :
    (putEntry key value entries).Pairwise (fun a b => a.1 < b.1) := by
  induction entries with
  | nil => simp [putEntry]
  | cons head rest ih =>
    obtain ⟨hhead, hrest⟩ := List.pairwise_cons.1 h
    simp only [putEntry]
    split
    next heq => exact List.pairwise_cons.2 ⟨fun e he => heq ▸ hhead e he, hrest⟩
    next hne =>
      split
      next hlt =>
        refine List.pairwise_cons.2 ⟨fun e he => ?_, h⟩
        rcases List.mem_cons.1 he with rfl | he
        · exact hlt
        · exact List.lt_trans hlt (hhead e he)
      next hnlt =>
        refine List.pairwise_cons.2 ⟨fun e he => ?_, ih hrest⟩
        rcases fst_of_mem_putEntry he with hkey | he
        · rw [hkey]
          by_cases hlt : head.1 < key
          · exact hlt
          · exact absurd (List.le_antisymm hnlt hlt) hne
        · exact hhead e he

/-- Puts a text under a key, in place of one that is there. -/
def put (r : Record) (key value : Text) : Record :=
  ⟨putEntry key value r.entries, sorted_putEntry key value r.sorted⟩

/-- Puts texts under their keys, a later one in place of an earlier. -/
def putAll (r : Record) (entries : List (Text × Text)) : Record :=
  entries.foldl (fun r entry => r.put entry.1 entry.2) r

theorem lookup_cons_eq (e : Text × Text) (entries : List (Text × Text)) (key : Text) :
    (e :: entries).lookup key = if key = e.1 then some e.2 else entries.lookup key := by
  obtain ⟨k, v⟩ := e
  by_cases h : key = k
  · simp [h]
  · rw [List.lookup_cons, beq_false_of_ne h, if_neg h]

theorem lookup_putEntry (key value other : Text) (entries : List (Text × Text)) :
    (putEntry key value entries).lookup other =
      if other = key then some value else entries.lookup other := by
  induction entries with
  | nil => simp only [putEntry, lookup_cons_eq]
  | cons head rest ih =>
    simp only [putEntry]
    split
    next hk =>
      simp only [lookup_cons_eq, hk]
      split <;> rfl
    next hk =>
      split
      · exact lookup_cons_eq (key, value) (head :: rest) other
      · rw [lookup_cons_eq, lookup_cons_eq, ih]
        by_cases hh : other = head.1
        · rw [if_pos hh, if_neg (fun h => hk (hh.symm.trans h)), if_pos hh]
        · rw [if_neg hh, if_neg hh]

theorem get?_put (r : Record) (key value other : Text) :
    (r.put key value).get? other = if other = key then some value else r.get? other :=
  lookup_putEntry key value other r.entries

end Record

end PatternAlgebra
