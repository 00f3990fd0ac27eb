import Mathlib

/-!
# Ordered maps

A map with ordered keys is the standard library's extensional tree map.  This
module adds the entry with the greatest key and the removal of a list of keys.
-/

namespace Utp
namespace Foundation

open Std (ExtTreeMap)

section OrderedMap

variable {κ ν : Type} [Ord κ] [Std.TransOrd κ] [Std.LawfulEqOrd κ]

theorem getElem?_insert_eq [DecidableEq κ] (m : ExtTreeMap κ ν) (k a : κ) (v : ν) :
    (m.insert k v)[a]? = if k = a then some v else m[a]? := by
  simp [ExtTreeMap.getElem?_insert]

theorem getElem?_erase_eq [DecidableEq κ] (m : ExtTreeMap κ ν) (k a : κ) :
    (m.erase k)[a]? = if k = a then none else m[a]? := by
  simp [ExtTreeMap.getElem?_erase]

omit [Std.LawfulEqOrd κ] in
theorem mem_iff_getElem? {m : ExtTreeMap κ ν} {k : κ} :
    k ∈ m <-> exists v, m[k]? = some v := by
  rw [ExtTreeMap.mem_iff_isSome_getElem?, Option.isSome_iff_exists]

theorem mem_of_mem_toList {m : ExtTreeMap κ ν} {e : κ × ν} (he : e ∈ m.toList) :
    e.1 ∈ m :=
  mem_iff_getElem?.mpr ⟨e.2, ExtTreeMap.mem_toList_iff_getElem?_eq_some.mp he⟩

theorem mem_keys_toList {m : ExtTreeMap κ ν} {k : κ} :
    k ∈ m.toList.map Prod.fst <-> k ∈ m := by
  constructor
  · intro h
    rcases List.mem_map.mp h with ⟨e, he, rfl⟩
    exact mem_of_mem_toList he
  · intro h
    rcases mem_iff_getElem?.mp h with ⟨v, hv⟩
    exact List.mem_map.mpr ⟨(k, v),
      ExtTreeMap.mem_toList_iff_getElem?_eq_some.mpr hv, rfl⟩

/-- The entry with the greatest key. -/
def lastEntry (m : ExtTreeMap κ ν) : Option (κ × ν) := m.toList.getLast?

omit [Std.LawfulEqOrd κ] in
theorem lastEntry_eq_none {m : ExtTreeMap κ ν} :
    lastEntry m = none <-> m = ∅ := by
  unfold lastEntry
  rw [List.getLast?_eq_none_iff, ExtTreeMap.toList_eq_nil_iff]

theorem lastEntry_mem {m : ExtTreeMap κ ν} {k : κ} {v : ν}
    (h : lastEntry m = some (k, v)) : m[k]? = some v :=
  ExtTreeMap.mem_toList_iff_getElem?_eq_some.mp (List.mem_of_getLast? h)

theorem mem_of_lastEntry {m : ExtTreeMap κ ν} {k : κ} {v : ν}
    (h : lastEntry m = some (k, v)) : k ∈ m :=
  mem_iff_getElem?.mpr ⟨v, lastEntry_mem h⟩

omit [Std.LawfulEqOrd κ] in
theorem ne_empty_of_lastEntry {m : ExtTreeMap κ ν} {k : κ} {v : ν}
    (h : lastEntry m = some (k, v)) : m ≠ ∅ := by
  intro hempty
  cases h.symm.trans (lastEntry_eq_none.mpr hempty)

omit [Std.LawfulEqOrd κ] in
theorem lastEntry_exists {m : ExtTreeMap κ ν} (h : m ≠ ∅) :
    exists k v, lastEntry m = some (k, v) := by
  cases hlast : lastEntry m with
  | none => exact absurd (lastEntry_eq_none.mp hlast) h
  | some entry => exact ⟨entry.1, entry.2, rfl⟩

theorem ne_empty_iff {m : ExtTreeMap κ ν} : m ≠ ∅ <-> exists k, k ∈ m := by
  constructor
  · intro hne
    rcases lastEntry_exists hne with ⟨k, v, hlast⟩
    exact ⟨k, mem_of_lastEntry hlast⟩
  · intro hmem hempty
    rcases hmem with ⟨k, hk⟩
    rw [hempty] at hk
    simp at hk

theorem compare_lastEntry {m : ExtTreeMap κ ν} {last k : κ} {w v : ν}
    (h : lastEntry m = some (last, w)) (hk : m[k]? = some v) :
    compare k last = .lt ∨ k = last := by
  rcases List.getLast?_eq_some_iff.mp h with ⟨front, hfront⟩
  have hmem := ExtTreeMap.mem_toList_iff_getElem?_eq_some.mpr hk
  have hsorted := ExtTreeMap.ordered_keys_toList (t := m)
  rw [hfront] at hmem hsorted
  rcases List.mem_append.mp hmem with hin | hin
  · exact Or.inl
      ((List.pairwise_append.mp hsorted).2.2 _ hin (last, w) (List.mem_singleton_self _))
  · cases List.mem_singleton.mp hin
    exact Or.inr rfl

def eraseAll (m : ExtTreeMap κ ν) (ks : List κ) : ExtTreeMap κ ν :=
  ks.foldl (fun m k => m.erase k) m

theorem getElem?_eraseAll [DecidableEq κ] (m : ExtTreeMap κ ν) (ks : List κ) (a : κ) :
    (eraseAll m ks)[a]? = if a ∈ ks then none else m[a]? := by
  induction ks generalizing m with
  | nil =>
      simp [eraseAll]
  | cons k ks ih =>
      show (eraseAll (m.erase k) ks)[a]? = _
      rw [ih, getElem?_erase_eq]
      by_cases hks : a ∈ ks
      · simp [hks]
      · by_cases hk : k = a
        · simp [hk]
        · simp [hks, hk, Ne.symm hk]

theorem erase_kept [DecidableEq κ] {m : ExtTreeMap κ ν} {k a : κ} {v : ν}
    (h : (m.erase k)[a]? = some v) : m[a]? = some v := by
  rw [getElem?_erase_eq] at h
  split at h
  · cases h
  · exact h

theorem eraseAll_kept [DecidableEq κ] {m : ExtTreeMap κ ν} {ks : List κ} {a : κ}
    {v : ν} (h : (eraseAll m ks)[a]? = some v) : m[a]? = some v := by
  rw [getElem?_eraseAll] at h
  split at h
  · cases h
  · exact h

theorem mem_of_mem_eraseAll [DecidableEq κ] {m : ExtTreeMap κ ν} {ks : List κ} {k : κ}
    (h : k ∈ eraseAll m ks) : k ∈ m := by
  rcases mem_iff_getElem?.mp h with ⟨v, hv⟩
  exact mem_iff_getElem?.mpr ⟨v, eraseAll_kept hv⟩

end OrderedMap

/-!
## Keys that are sixteen-bit words
-/

section WordKeys

variable {ν : Type}

theorem compare_eq_lt_iff_toNat {a b : UInt16} :
    compare a b = .lt <-> a.toNat < b.toNat := by
  rw [Std.compare_eq_lt, UInt16.lt_iff_toNat_lt]

theorem pairwise_toList (m : ExtTreeMap UInt16 ν) :
    m.toList.Pairwise fun a b => a.1.toNat < b.1.toNat :=
  ExtTreeMap.ordered_keys_toList.imp fun h => compare_eq_lt_iff_toNat.mp h

theorem toNat_le_lastEntry {m : ExtTreeMap UInt16 ν} {last k : UInt16} {w v : ν}
    (h : lastEntry m = some (last, w)) (hk : m[k]? = some v) :
    k.toNat <= last.toNat := by
  rcases compare_lastEntry h hk with hlt | rfl
  · exact Nat.le_of_lt (compare_eq_lt_iff_toNat.mp hlt)
  · exact Nat.le_refl _

theorem le_lastEntry {m : ExtTreeMap UInt16 ν} {last k : UInt16} {w : ν}
    (h : lastEntry m = some (last, w)) (hk : k ∈ m) : k.toNat <= last.toNat := by
  rcases mem_iff_getElem?.mp hk with ⟨v, hv⟩
  exact toNat_le_lastEntry h hv

theorem size_le (m : ExtTreeMap UInt16 ν) : m.size <= 65536 := by
  have hnodup : (m.toList.map fun e => e.1.toNat).Nodup :=
    (List.pairwise_map.mpr (pairwise_toList m)).imp fun h => Nat.ne_of_lt h
  have hrange : (m.toList.map fun e => e.1.toNat) ⊆ List.range 65536 := by
    intro n hn
    rcases List.mem_map.mp hn with ⟨e, -, rfl⟩
    exact List.mem_range.mpr e.1.toNat_lt
  have hle := (hnodup.subperm hrange).length_le
  rw [List.length_map, ExtTreeMap.length_toList, List.length_range] at hle
  exact hle

end WordKeys

end Foundation
end Utp
