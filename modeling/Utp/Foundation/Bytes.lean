import Mathlib

/-!
# Byte strings

General facts about lists used as byte buffers: big-endian numbers, overwriting
a range in place, reading a range back, and cutting a buffer into chunks.
-/

namespace Utp
namespace Foundation

/-!
## Big-endian numbers
-/

/-- The number whose base-256 digits, most significant first, are the bytes. -/
def ofBE (bs : List UInt8) : Nat :=
  bs.foldl (fun acc b => acc * 256 + b.toNat) 0

/-- The `width` low base-256 digits of a number, most significant first. -/
def toBE : Nat -> Nat -> List UInt8
  | 0, _ => []
  | width + 1, n => toBE width (n / 256) ++ [UInt8.ofNat n]

@[simp] theorem length_toBE (width n : Nat) : (toBE width n).length = width := by
  induction width generalizing n with
  | zero => rfl
  | succ width ih =>
      simp [toBE, ih]

theorem ofBE_append_singleton (bs : List UInt8) (b : UInt8) :
    ofBE (bs ++ [b]) = ofBE bs * 256 + b.toNat := by
  simp [ofBE]

theorem ofBE_toBE (width n : Nat) : ofBE (toBE width n) = n % 256 ^ width := by
  induction width generalizing n with
  | zero =>
      simp [toBE, ofBE, Nat.mod_one]
  | succ width ih =>
      have hdigit : (UInt8.ofNat n).toNat = n % 256 := by simp
      rw [toBE, ofBE_append_singleton, ih, hdigit, Nat.pow_succ', Nat.mod_mul]
      omega

theorem toBE_ofBE (bs : List UInt8) : toBE bs.length (ofBE bs) = bs := by
  induction bs using List.reverseRecOn with
  | nil => rfl
  | append_singleton bs b ih =>
      have hb := b.toNat_lt
      have hdiv : (ofBE bs * 256 + b.toNat) / 256 = ofBE bs := by omega
      have hlow : UInt8.ofNat (ofBE bs * 256 + b.toNat) = b := by
        apply UInt8.toNat_inj.mp
        rw [UInt8.toNat_ofNat']
        omega
      rw [List.length_append, List.length_singleton, ofBE_append_singleton, toBE, hdiv,
        hlow, ih]

/-!
## Overwriting and reading a range
-/

section Ranges

variable {α : Type}

/-- Replace the entries from `offset` on by `new`, keeping the length. -/
def overwrite (offset : Nat) (new bs : List α) : List α :=
  bs.take offset ++ new ++ bs.drop (offset + new.length)

def readRange (offset width : Nat) (bs : List α) : List α :=
  (bs.drop offset).take width

theorem getElem?_overwrite {offset : Nat} {new bs : List α}
    (hfit : offset + new.length <= bs.length) (i : Nat) :
    (overwrite offset new bs)[i]? =
      if offset <= i ∧ i < offset + new.length then new[i - offset]?
      else bs[i]? := by
  unfold overwrite
  rw [List.append_assoc, List.getElem?_append, List.getElem?_append]
  simp only [List.length_take, List.getElem?_take, List.getElem?_drop]
  have hmin : min offset bs.length = offset := by omega
  rw [hmin]
  by_cases hlow : i < offset
  · simp [hlow, Nat.not_le.mpr hlow]
  · by_cases hmid : i < offset + new.length
    · rw [if_neg hlow, if_pos (by omega), if_pos ⟨by omega, hmid⟩]
    · rw [if_neg hlow, if_neg (by omega), if_neg (by omega)]
      congr 1
      omega

theorem length_overwrite {offset : Nat} {new bs : List α}
    (hfit : offset + new.length <= bs.length) :
    (overwrite offset new bs).length = bs.length := by
  simp [overwrite]
  omega

theorem getElem?_readRange (offset width : Nat) (bs : List α) (i : Nat) :
    (readRange offset width bs)[i]? = if i < width then bs[offset + i]? else none := by
  simp [readRange, List.getElem?_take, List.getElem?_drop]

theorem length_readRange {offset width : Nat} {bs : List α}
    (hfit : offset + width <= bs.length) :
    (readRange offset width bs).length = width := by
  rw [readRange, List.length_take, List.length_drop]
  omega

theorem readRange_overwrite_self {offset : Nat} {new bs : List α}
    (hfit : offset + new.length <= bs.length) :
    readRange offset new.length (overwrite offset new bs) = new := by
  apply List.ext_getElem?
  intro i
  rw [getElem?_readRange]
  split
  · rename_i hi
    rw [getElem?_overwrite hfit, if_pos (by omega), Nat.add_sub_cancel_left]
  · rename_i hi
    exact (List.getElem?_eq_none (by omega)).symm

theorem readRange_overwrite_of_disjoint {offset o w : Nat} {new bs : List α}
    (hfit : offset + new.length <= bs.length)
    (hdisjoint : o + w <= offset ∨ offset + new.length <= o) :
    readRange o w (overwrite offset new bs) = readRange o w bs := by
  apply List.ext_getElem?
  intro i
  rw [getElem?_readRange, getElem?_readRange]
  split
  · rw [getElem?_overwrite hfit, if_neg (by omega)]
  · rfl

theorem overwrite_overwrite_self {offset : Nat} {new old bs : List α}
    (hlen : new.length = old.length) (hfit : offset + old.length <= bs.length) :
    overwrite offset new (overwrite offset old bs) = overwrite offset new bs := by
  apply List.ext_getElem?
  intro i
  have hlength := length_overwrite hfit
  rw [getElem?_overwrite (by omega), getElem?_overwrite hfit,
    getElem?_overwrite (by omega)]
  split
  · rfl
  · rw [if_neg (by omega)]

theorem overwrite_comm {o₁ o₂ : Nat} {new₁ new₂ bs : List α}
    (hfit₁ : o₁ + new₁.length <= bs.length)
    (hfit₂ : o₂ + new₂.length <= bs.length)
    (hdisjoint : o₁ + new₁.length <= o₂ ∨ o₂ + new₂.length <= o₁) :
    overwrite o₁ new₁ (overwrite o₂ new₂ bs) =
      overwrite o₂ new₂ (overwrite o₁ new₁ bs) := by
  apply List.ext_getElem?
  intro i
  have hlength₁ := length_overwrite hfit₁
  have hlength₂ := length_overwrite hfit₂
  rw [getElem?_overwrite (by omega), getElem?_overwrite hfit₂,
    getElem?_overwrite (by omega), getElem?_overwrite hfit₁]
  split
  · rw [if_neg (by omega)]
  · rfl

theorem overwrite_append {offset : Nat} {new front back : List α}
    (hfit : offset + new.length <= front.length) :
    overwrite offset new (front ++ back) = overwrite offset new front ++ back := by
  unfold overwrite
  rw [List.take_append_of_le_length (by omega), List.drop_append_of_le_length hfit]
  simp only [List.append_assoc]

theorem overwrite_take {offset n : Nat} {new bs : List α}
    (hfit : offset + new.length <= n) (hn : n <= bs.length) :
    (overwrite offset new bs).take n = overwrite offset new (bs.take n) := by
  have hlength : (bs.take n).length = n := by
    rw [List.length_take]
    omega
  conv => lhs; rw [← List.take_append_drop n bs]
  rw [overwrite_append (by omega), List.take_append_of_le_length, List.take_of_length_le]
  all_goals rw [length_overwrite (by omega)]; omega

theorem overwrite_set {offset i : Nat} {new bs : List α} {b : α} (hi : i < offset)
    (hfit : offset + new.length <= bs.length) :
    (overwrite offset new bs).set i b = overwrite offset new (bs.set i b) := by
  unfold overwrite
  rw [List.append_assoc, List.append_assoc, List.set_append_left _ _ (by
    rw [List.length_take]
    omega), List.take_set, List.drop_set_of_lt (by omega)]

end Ranges

/-!
## Chunks
-/

section Chunks

variable {α : Type}

def chunks (size : Nat) (hsize : 0 < size) : List α -> List (List α)
  | [] => []
  | x :: xs =>
      (x :: xs).take size :: chunks size hsize ((x :: xs).drop size)
  termination_by xs => xs.length
  decreasing_by
    simp only [List.length_drop, List.length_cons]
    omega

@[simp] theorem chunks_nil (size : Nat) (hsize : 0 < size) :
    chunks size hsize ([] : List α) = [] := by
  simp [chunks]

theorem chunks_of_ne_nil {size : Nat} (hsize : 0 < size) {xs : List α}
    (hxs : xs ≠ []) :
    chunks size hsize xs = xs.take size :: chunks size hsize (xs.drop size) := by
  cases xs with
  | nil => exact absurd rfl hxs
  | cons x xs => rw [chunks]

theorem chunks_flatten (size : Nat) (hsize : 0 < size) (xs : List α) :
    (chunks size hsize xs).flatten = xs := by
  induction xs using chunks.induct size hsize with
  | case1 =>
      simp
  | case2 x xs ih =>
      rw [chunks_of_ne_nil hsize (by simp), List.flatten_cons, ih,
        List.take_append_drop]

theorem chunks_eq_nil_iff {size : Nat} (hsize : 0 < size) {xs : List α} :
    chunks size hsize xs = [] <-> xs = [] := by
  constructor
  · intro h
    cases xs with
    | nil => rfl
    | cons x xs =>
        rw [chunks_of_ne_nil hsize (by simp)] at h
        cases h
  · intro heq
    rcases heq with rfl
    simp

theorem length_le_of_mem_chunks {size : Nat} {hsize : 0 < size} {xs c : List α}
    (hc : c ∈ chunks size hsize xs) : c.length <= size := by
  induction xs using chunks.induct size hsize with
  | case1 =>
      rw [chunks_nil] at hc
      cases hc
  | case2 x xs ih =>
      rw [chunks_of_ne_nil hsize (by simp)] at hc
      rcases List.mem_cons.mp hc with rfl | hlater
      · exact List.length_take_le ..
      · exact ih hlater

theorem length_chunks (size : Nat) (hsize : 0 < size) (xs : List α) :
    (chunks size hsize xs).length = (xs.length + size - 1) / size := by
  induction xs using chunks.induct size hsize with
  | case1 =>
      rw [chunks_nil, List.length_nil, List.length_nil, Nat.div_eq_of_lt (by omega)]
  | case2 x xs ih =>
      have hpos : 0 < (x :: xs).length := Nat.zero_lt_succ _
      rw [chunks_of_ne_nil hsize (by simp), List.length_cons]
      by_cases hfull : size <= (x :: xs).length
      · have hrest : (x :: xs).length - size + size - 1 = (x :: xs).length - 1 := by omega
        have hall : (x :: xs).length + size - 1 = (x :: xs).length - 1 + size := by omega
        rw [ih, List.length_drop, hrest, hall, Nat.add_div_right _ hsize]
      · rw [List.drop_eq_nil_of_le (by omega), chunks_nil, List.length_nil]
        exact (Nat.div_eq_of_lt_le (by omega) (by omega)).symm

end Chunks

end Foundation
end Utp
