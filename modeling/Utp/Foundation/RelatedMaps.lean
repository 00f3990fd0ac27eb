import Utp.Foundation.OrderedMap

/-!
# Related maps

Two ordered maps with the same keys and related values.  The operations keep the
relation, and iterating over the two gives related lists.
-/

namespace Utp
namespace Foundation

open Std (ExtTreeMap)

section RelatedMaps

variable {α β : Type} {rel : α -> β -> Prop} {m : ExtTreeMap UInt16 α}
  {m' : ExtTreeMap UInt16 β}

/-- The same keys, with related values. -/
def RelatedMaps (rel : α -> β -> Prop) (m : ExtTreeMap UInt16 α)
    (m' : ExtTreeMap UInt16 β) : Prop :=
  forall k : UInt16, Option.Rel rel m[k]? m'[k]?

namespace RelatedMaps

theorem empty : RelatedMaps rel (∅ : ExtTreeMap UInt16 α) (∅ : ExtTreeMap UInt16 β) := by
  intro k
  simp only [ExtTreeMap.getElem?_empty]
  exact .none

theorem insert (h : RelatedMaps rel m m') (k : UInt16) {v : α} {v' : β} (hv : rel v v') :
    RelatedMaps rel (m.insert k v) (m'.insert k v') := by
  intro a
  rw [getElem?_insert_eq, getElem?_insert_eq]
  split
  · exact .some hv
  · exact h a

theorem eraseAll (h : RelatedMaps rel m m') (ks : List UInt16) :
    RelatedMaps rel (Foundation.eraseAll m ks) (Foundation.eraseAll m' ks) := by
  intro a
  rw [getElem?_eraseAll, getElem?_eraseAll]
  split
  · exact .none
  · exact h a

theorem of_getElem? (h : RelatedMaps rel m m') {k : UInt16} {v : α} {v' : β}
    (hv : m[k]? = some v) (hv' : m'[k]? = some v') : rel v v' := by
  have hk := h k
  rw [hv, hv'] at hk
  cases hk with
  | some hrel => exact hrel

theorem mem_iff (h : RelatedMaps rel m m') (k : UInt16) : k ∈ m <-> k ∈ m' := by
  rw [ExtTreeMap.mem_iff_isSome_getElem?, ExtTreeMap.mem_iff_isSome_getElem?]
  have hk := h k
  generalize m[k]? = v at hk
  generalize m'[k]? = v' at hk
  cases hk <;> simp

theorem empty_iff (h : RelatedMaps rel m m') : m = ∅ <-> m' = ∅ := by
  rw [← not_iff_not]
  change m ≠ ∅ <-> m' ≠ ∅
  simp only [ne_empty_iff, h.mem_iff]

theorem keys_toList (h : RelatedMaps rel m m') :
    m.toList.map Prod.fst = m'.toList.map Prod.fst := by
  have hsorted : forall {γ : Type} (n : ExtTreeMap UInt16 γ),
      (n.toList.map Prod.fst).Pairwise fun a b => a.toNat < b.toNat := fun n =>
    List.pairwise_map.mpr (pairwise_toList n)
  have hnat : (m.toList.map Prod.fst).map UInt16.toNat =
      (m'.toList.map Prod.fst).map UInt16.toNat := by
    refine List.Pairwise.eq_of_mem_iff (r := (· < ·)) ?_ ?_ ?_
    · exact List.pairwise_map.mpr (hsorted m)
    · exact List.pairwise_map.mpr (hsorted m')
    · intro n
      simp only [List.mem_map (f := UInt16.toNat), mem_keys_toList, h.mem_iff]
  exact List.map_injective_iff.mpr (fun a b => UInt16.toNat.inj) hnat

theorem forall₂_of_keys {l : List (UInt16 × α)} {l' : List (UInt16 × β)}
    (hkeys : l.map Prod.fst = l'.map Prod.fst)
    (hvalues : forall k v v', (k, v) ∈ l -> (k, v') ∈ l' -> rel v v') :
    List.Forall₂ (fun e e' => e.1 = e'.1 ∧ rel e.2 e'.2) l l' := by
  induction l generalizing l' with
  | nil =>
      rw [List.map_eq_nil_iff.mp hkeys.symm]
      exact .nil
  | cons e l ih =>
      cases l' with
      | nil => cases hkeys
      | cons e' l' =>
          rcases List.cons_eq_cons.mp hkeys with ⟨hkey, hkeys⟩
          have hkey : e.1 = e'.1 := hkey
          refine .cons ⟨hkey, ?_⟩ (ih hkeys fun k v v' hv hv' =>
            hvalues k v v' (List.mem_cons_of_mem _ hv) (List.mem_cons_of_mem _ hv'))
          refine hvalues e.1 e.2 e'.2 (List.mem_cons_self ..) ?_
          rw [hkey]
          exact List.mem_cons_self ..

theorem toList (h : RelatedMaps rel m m') :
    List.Forall₂ (fun e e' => e.1 = e'.1 ∧ rel e.2 e'.2) m.toList m'.toList := by
  refine forall₂_of_keys h.keys_toList fun k v v' hv hv' => ?_
  exact h.of_getElem? (ExtTreeMap.mem_toList_iff_getElem?_eq_some.mp hv)
    (ExtTreeMap.mem_toList_iff_getElem?_eq_some.mp hv')

end RelatedMaps

end RelatedMaps

end Foundation
end Utp
