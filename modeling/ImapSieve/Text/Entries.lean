import Mathlib.Data.List.Basic

/-!
# Maps with Joined Values

A map as an association list without duplicate keys. `upsert` is the update of an entry that is
changed when it is there and made when it is not; `collect` gathers named values that way.

- `lookup_collect`: what a key has is its values, joined in order.
- `nodup_collect`: no key comes twice.
-/

namespace Text

variable {κ ν : Type} [DecidableEq κ]

/-! ## Section 1: One entry -/

/-- `map.entry(k).and_modify(modify).or_insert(fresh)` -/
def upsert (k : κ) (modify : ν → ν) (fresh : ν) : List (κ × ν) → List (κ × ν)
  | [] => [(k, fresh)]
  | (k', v) :: rest =>
      if k' = k then (k', modify v) :: rest else (k', v) :: upsert k modify fresh rest

theorem lookup_upsert_self (k : κ) (modify : ν → ν) (fresh : ν) (m : List (κ × ν)) :
    (upsert k modify fresh m).lookup k = some ((m.lookup k).elim fresh modify) := by
  induction m with
  | nil => simp [upsert]
  | cons entry rest ih =>
    obtain ⟨k', v⟩ := entry
    rw [upsert]
    split
    · rename_i heq
      simp [heq]
    · rename_i hne
      have hbeq : (k == k') = false := beq_eq_false_iff_ne.mpr fun heq => hne heq.symm
      rw [List.lookup_cons, hbeq, List.lookup_cons, hbeq]
      exact ih

theorem lookup_upsert_of_ne {k key : κ} (hne : key ≠ k) (modify : ν → ν) (fresh : ν)
    (m : List (κ × ν)) : (upsert k modify fresh m).lookup key = m.lookup key := by
  induction m with
  | nil => simp [upsert, List.lookup_cons, beq_eq_false_iff_ne.mpr hne]
  | cons entry rest ih =>
    obtain ⟨k', v⟩ := entry
    rw [upsert]
    split
    · rename_i heq
      rw [heq, List.lookup_cons, List.lookup_cons, beq_eq_false_iff_ne.mpr hne]
    · rw [List.lookup_cons, List.lookup_cons, ih]

theorem mem_keys_upsert {k key : κ} {modify : ν → ν} {fresh : ν} {m : List (κ × ν)} :
    key ∈ (upsert k modify fresh m).map Prod.fst ↔ key = k ∨ key ∈ m.map Prod.fst := by
  induction m with
  | nil => simp [upsert]
  | cons entry rest ih =>
    obtain ⟨k', v⟩ := entry
    rw [upsert]
    split
    · rename_i heq
      simp [heq]
    · rw [List.map_cons, List.mem_cons, ih, List.map_cons, List.mem_cons]
      exact or_left_comm

theorem nodup_upsert {k : κ} {modify : ν → ν} {fresh : ν} {m : List (κ × ν)}
    (h : (m.map Prod.fst).Nodup) : ((upsert k modify fresh m).map Prod.fst).Nodup := by
  induction m with
  | nil => simp [upsert]
  | cons entry rest ih =>
    obtain ⟨k', v⟩ := entry
    obtain ⟨hnotMem, hrest⟩ := List.nodup_cons.mp h
    rw [upsert]
    split
    · exact h
    · rename_i hne
      refine List.nodup_cons.mpr ⟨fun hmem => ?_, ih hrest⟩
      rcases mem_keys_upsert.mp hmem with heq | hmem
      · exact hne heq
      · exact hnotMem hmem

/-! ## Section 2: Many entries -/

/-- Gather named values in a map, joining the values of one name. -/
def collect (join : ν → ν → ν) (m fields : List (κ × ν)) : List (κ × ν) :=
  fields.foldl (fun m field => upsert field.1 (join · field.2) field.2 m) m

/-- The values under a name, in order. -/
def valuesOf (k : κ) (fields : List (κ × ν)) : List ν :=
  (fields.filter fun field => field.1 = k).map Prod.snd

/-- The values in one, if there are any. -/
def joined (join : ν → ν → ν) : List ν → Option ν
  | [] => none
  | v :: rest => some (rest.foldl join v)

variable {join : ν → ν → ν} {k : κ} {m fields : List (κ × ν)}

theorem valuesOf_cons_self (v : ν) : valuesOf k ((k, v) :: fields) = v :: valuesOf k fields := by
  rw [valuesOf, List.filter_cons_of_pos (by simp), List.map_cons, valuesOf]

theorem valuesOf_cons_of_ne {key : κ} (h : key ≠ k) (v : ν) :
    valuesOf k ((key, v) :: fields) = valuesOf k fields := by
  rw [valuesOf, List.filter_cons_of_neg (by simpa using h), valuesOf]

/-- Further values are joined to what the map has under the key. -/
theorem lookup_collect_from (join : ν → ν → ν) (k : κ) (m fields : List (κ × ν)) :
    (collect join m fields).lookup k =
      joined join ((m.lookup k).toList ++ valuesOf k fields) := by
  induction fields generalizing m with
  | nil => cases hlook : m.lookup k <;> simp [collect, valuesOf, joined, hlook]
  | cons field rest ih =>
    obtain ⟨key, v⟩ := field
    change (collect join (upsert key (join · v) v m) rest).lookup k = _
    rw [ih]
    by_cases hkey : key = k
    · subst hkey
      rw [lookup_upsert_self, valuesOf_cons_self]
      cases m.lookup key <;> rfl
    · rw [lookup_upsert_of_ne (Ne.symm hkey), valuesOf_cons_of_ne hkey]

/-- What a key has is its values, joined in order. -/
theorem lookup_collect (join : ν → ν → ν) (k : κ) (fields : List (κ × ν)) :
    (collect join [] fields).lookup k = joined join (valuesOf k fields) :=
  lookup_collect_from join k [] fields

theorem mem_keys_collect :
    k ∈ (collect join m fields).map Prod.fst ↔ k ∈ m.map Prod.fst ∨ k ∈ fields.map Prod.fst := by
  induction fields generalizing m with
  | nil => simp [collect]
  | cons field rest ih =>
    change k ∈ (collect join (upsert field.1 (join · field.2) field.2 m) rest).map Prod.fst ↔ _
    rw [ih, mem_keys_upsert, List.map_cons, List.mem_cons, or_assoc, or_left_comm]

theorem nodup_collect (h : (m.map Prod.fst).Nodup) :
    ((collect join m fields).map Prod.fst).Nodup := by
  induction fields generalizing m with
  | nil => exact h
  | cons field rest ih => exact ih (nodup_upsert h)

end Text
