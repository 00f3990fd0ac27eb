import Utp.Foundation.OrderedMap

/-!
# Renaming the keys of a map

A one-to-one renaming of the keys, together with a change of the values, takes a
map to a map.  Lookups, insertions, and removals commute with it; the order of
the entries does where the renaming keeps the order of the keys.
-/

namespace Utp
namespace Foundation

open Std (ExtTreeMap)

section Rekey

variable {κ κ' ν ν' : Type} [Ord κ] [Std.TransOrd κ] [Std.LawfulEqOrd κ]
  [Ord κ'] [Std.TransOrd κ'] [Std.LawfulEqOrd κ']

/-- The map with every key renamed by `f` and every value changed by `g`. -/
def rekey (f : κ ≃ κ') (g : ν -> ν') (m : ExtTreeMap κ ν) : ExtTreeMap κ' ν' :=
  ExtTreeMap.ofList (m.toList.map fun e => (f e.1, g e.2)) compare

variable (f : κ ≃ κ') (g : ν -> ν') (m : ExtTreeMap κ ν)

omit [Std.TransOrd κ'] in
theorem distinct_rekeyed :
    (m.toList.map fun e => (f e.1, g e.2)).Pairwise
      fun a b => ¬ compare a.1 b.1 = .eq := by
  rw [List.pairwise_map]
  refine ExtTreeMap.distinct_keys_toList.imp ?_
  intro a b hne heq
  have hkeys := f.injective (Std.LawfulEqOrd.eq_of_compare heq)
  rw [hkeys, Std.ReflOrd.compare_self] at hne
  exact hne rfl

theorem getElem?_rekey (k : κ') : (rekey f g m)[k]? = m[f.symm k]?.map g := by
  cases hk : m[f.symm k]? with
  | some v =>
      have hentry : (f (f.symm k), g v) ∈ m.toList.map fun e => (f e.1, g e.2) :=
        List.mem_map.mpr
          ⟨(f.symm k, v), ExtTreeMap.mem_toList_iff_getElem?_eq_some.mpr hk, rfl⟩
      rw [f.apply_symm_apply] at hentry
      exact ExtTreeMap.getElem?_ofList_of_mem Std.ReflOrd.compare_self
        (distinct_rekeyed f g m) hentry
  | none =>
      classical
      refine ExtTreeMap.getElem?_ofList_of_contains_eq_false ?_
      rw [List.contains_eq_mem, decide_eq_false_iff_not, List.map_map]
      intro hmem
      rcases List.mem_map.mp hmem with ⟨⟨a, v⟩, hentry, ha⟩
      have hsome := ExtTreeMap.mem_toList_iff_getElem?_eq_some.mp hentry
      have hsame : f.symm k = a := f.symm_apply_eq.mpr ha.symm
      rw [hsame, hsome] at hk
      cases hk

theorem toList_rekey
    (hmono : forall a b, a ∈ m -> b ∈ m -> compare (f a) (f b) = compare a b) :
    (rekey f g m).toList = m.toList.map fun e => (f e.1, g e.2) := by
  have hsorted : (m.toList.map fun e => (f e.1, g e.2)).Pairwise
      fun a b => compare a.1 b.1 = .lt := by
    rw [List.pairwise_map]
    refine ExtTreeMap.ordered_keys_toList.imp_of_mem ?_
    intro a b ha hb hlt
    rw [hmono a.1 b.1 (mem_of_mem_toList ha) (mem_of_mem_toList hb), hlt]
  -- two sorted lists with the same entries are equal
  have : Std.Irrefl fun a b : κ' × ν' => compare a.1 b.1 = .lt :=
    ⟨fun a h => by simp at h⟩
  have : Std.Antisymm fun a b : κ' × ν' => compare a.1 b.1 = .lt :=
    ⟨fun a b h h' => absurd h' (Std.OrientedCmp.not_lt_of_lt h)⟩
  refine ExtTreeMap.ordered_keys_toList.eq_of_mem_iff hsorted ?_
  intro entry
  rcases entry with ⟨k, w⟩
  rw [ExtTreeMap.mem_toList_iff_getElem?_eq_some, getElem?_rekey,
    Option.map_eq_some_iff]
  constructor
  · intro hcase
    rcases hcase with ⟨v, hv, rfl⟩
    exact List.mem_map.mpr ⟨(f.symm k, v),
      ExtTreeMap.mem_toList_iff_getElem?_eq_some.mpr hv, by simp⟩
  · intro hentry
    rcases List.mem_map.mp hentry with ⟨⟨a, v⟩, ha, heq⟩
    cases heq
    exact ⟨v, by simpa using ExtTreeMap.mem_toList_iff_getElem?_eq_some.mp ha, rfl⟩

theorem lastEntry_rekey
    (hmono : forall a b, a ∈ m -> b ∈ m -> compare (f a) (f b) = compare a b) :
    lastEntry (rekey f g m) = (lastEntry m).map fun e => (f e.1, g e.2) := by
  rw [lastEntry, toList_rekey f g m hmono, List.getLast?_map]
  rfl

variable [DecidableEq κ] [DecidableEq κ']

theorem rekey_insert (k : κ) (v : ν) :
    rekey f g (m.insert k v) = (rekey f g m).insert (f k) (g v) := by
  apply ExtTreeMap.ext_getElem?
  intro a
  rw [getElem?_rekey, getElem?_insert_eq, getElem?_insert_eq, getElem?_rekey]
  simp only [f.eq_symm_apply]
  split <;> rfl

theorem rekey_erase (k : κ) :
    rekey f g (m.erase k) = (rekey f g m).erase (f k) := by
  apply ExtTreeMap.ext_getElem?
  intro a
  rw [getElem?_rekey, getElem?_erase_eq, getElem?_erase_eq, getElem?_rekey]
  simp only [f.eq_symm_apply]
  split <;> rfl

theorem rekey_eraseAll (ks : List κ) :
    rekey f g (eraseAll m ks) = eraseAll (rekey f g m) (ks.map f) := by
  induction ks generalizing m with
  | nil => rfl
  | cons k ks ih =>
      show rekey f g (eraseAll (m.erase k) ks) = eraseAll ((rekey f g m).erase (f k)) _
      rw [ih, rekey_erase]

end Rekey

end Foundation
end Utp
