import Mathlib

/-!
# Numbered items in order

A sender numbers what it creates, and a receiver delivers items with increasing
numbers.  If every delivered item carries a created one under its own number, then
the receiver has delivered some of the created items, each once and in order.
-/

namespace Utp
namespace Foundation

section Ascending

variable {α : Type} {num : α -> Nat} {bound bound' : Nat} {items front back : List α}

/-- The numbers of the items increase and stay below the bound. -/
structure Ascending (num : α -> Nat) (bound : Nat) (items : List α) : Prop where
  increasing : items.Pairwise fun x y => num x < num y
  below : forall x, x ∈ items -> num x < bound

namespace Ascending

theorem nil (num : α -> Nat) (bound : Nat) : Ascending num bound [] where
  increasing := List.Pairwise.nil
  below x hx := by cases hx

theorem mono (h : Ascending num bound items) (hle : bound <= bound') :
    Ascending num bound' items where
  increasing := h.increasing
  below x hx := Nat.lt_of_lt_of_le (h.below x hx) hle

theorem sublist (h : Ascending num bound items) (hsub : front.Sublist items) :
    Ascending num bound front where
  increasing := h.increasing.sublist hsub
  below x hx := h.below x (hsub.subset hx)

theorem append (h : Ascending num bound front) (hback : Ascending num bound' back)
    (hle : bound <= bound') (habove : forall x, x ∈ back -> bound <= num x) :
    Ascending num bound' (front ++ back) where
  increasing := by
    rw [List.pairwise_append]
    refine ⟨h.increasing, hback.increasing, ?_⟩
    intro x hx y hy
    exact Nat.lt_of_lt_of_le (h.below x hx) (habove y hy)
  below x hx := by
    rcases List.mem_append.mp hx with hfront | hlast
    · exact Nat.lt_of_lt_of_le (h.below x hfront) hle
    · exact hback.below x hlast

theorem of_consecutive {start : Nat}
    (hnum : forall i x, items[i]? = some x -> num x = start + i) :
    Ascending num (start + items.length) items where
  increasing := by
    rw [List.pairwise_iff_getElem]
    intro i j hi hj hij
    rw [hnum i _ (List.getElem?_eq_getElem hi), hnum j _ (List.getElem?_eq_getElem hj)]
    omega
  below x hx := by
    rcases List.mem_iff_getElem?.mp hx with ⟨i, hi⟩
    have hlt := (List.getElem?_eq_some_iff.mp hi).1
    rw [hnum i x hi]
    omega

theorem append_consecutive {start : Nat} (h : Ascending num bound front)
    (hle : bound <= start) (hnum : forall i x, back[i]? = some x -> num x = start + i) :
    Ascending num (start + back.length) (front ++ back) := by
  refine h.append (of_consecutive hnum) (Nat.le_trans hle (Nat.le_add_right _ _)) ?_
  intro x hx
  rcases List.mem_iff_getElem?.mp hx with ⟨i, hi⟩
  rw [hnum i x hi]
  omega

end Ascending

end Ascending

section Carried

variable {α β : Type} {num : α -> Nat} {num' : β -> Nat} {carries : β -> α -> Prop}
  {created : List α} {delivered : List β}

/-- Increasing items that all carry a created item of their number carry the items
of a sublist. -/
theorem sublistForall₂_of_carried
    (hcreated : created.Pairwise fun x y => num x < num y)
    (hdelivered : delivered.Pairwise fun x y => num' x < num' y)
    (hcarried : forall d, d ∈ delivered ->
      exists c, c ∈ created ∧ num' d = num c ∧ carries d c) :
    List.SublistForall₂ carries delivered created := by
  induction created generalizing delivered with
  | nil =>
      cases delivered with
      | nil => exact .nil
      | cons d delivered =>
          rcases hcarried d (List.mem_cons_self ..) with ⟨c, hc, -⟩
          cases hc
  | cons c created ih =>
      rw [List.pairwise_cons] at hcreated
      cases delivered with
      | nil => exact .nil
      | cons d delivered =>
          rw [List.pairwise_cons] at hdelivered
          -- what is carried behind an item of a larger number is not `c`
          have hlater : forall e, e ∈ d :: delivered -> num c < num' e ->
              exists c', c' ∈ created ∧ num' e = num c' ∧ carries e c' := by
            intro e he hlt
            rcases hcarried e he with ⟨c', hc', hnum, hcarries⟩
            rcases List.mem_cons.mp hc' with rfl | hc'
            · omega
            · exact ⟨c', hc', hnum, hcarries⟩
          rcases hcarried d (List.mem_cons_self ..) with ⟨c', hc', hnum, hcarries⟩
          rcases List.mem_cons.mp hc' with rfl | hc'
          · refine .cons hcarries (ih hcreated.2 hdelivered.2 ?_)
            intro e he
            have hlt := hdelivered.1 e he
            exact hlater e (List.mem_cons_of_mem _ he) (by omega)
          · have hfirst := hcreated.1 c' hc'
            refine .cons_right (ih hcreated.2 (List.pairwise_cons.mpr hdelivered) ?_)
            intro e he
            rcases List.mem_cons.mp he with rfl | hrest
            · exact ⟨c', hc', hnum, hcarries⟩
            · have hlt := hdelivered.1 e hrest
              exact hlater e he (by omega)

end Carried

end Foundation
end Utp
