import Utp.Foundation.Transition

/-!
# Numbers that climb one by one

What arrives in order on a channel that loses nothing: a list of numbers in which
none is more than one above the highest so far.  Whoever follows the list with a
counter that takes steps of one meets the number it waits for in time.
-/

namespace Utp
namespace Foundation

/-- No number of the list is more than one above the start and everything in front of
it, and `n` is the highest of them all. -/
inductive Climbs : Nat -> List Nat -> Nat -> Prop where
  | nil (m : Nat) : Climbs m [] m
  | cons {m n x : Nat} {xs : List Nat} :
      x <= m + 1 -> Climbs (max m x) xs n -> Climbs m (x :: xs) n

namespace Climbs

variable {m n k x : Nat} {xs ys : List Nat}

theorem le (h : Climbs m xs n) : m <= n := by
  induction h with
  | nil => exact Nat.le_refl _
  | cons _ _ ih => exact Nat.le_trans (Nat.le_max_left ..) ih

theorem head_le (h : Climbs m (x :: xs) n) : x <= m + 1 := by
  cases h with
  | cons hx _ => exact hx

theorem tail (h : Climbs m (x :: xs) n) : Climbs (max m x) xs n := by
  cases h with
  | cons _ hxs => exact hxs

theorem mem_le (h : Climbs m xs n) (hx : x ∈ xs) : x <= n := by
  induction h with
  | nil => cases hx
  | cons _ hrest ih =>
      rcases List.mem_cons.mp hx with rfl | hx
      · exact Nat.le_trans (Nat.le_max_right ..) hrest.le
      · exact ih hx

theorem append (h : Climbs m xs n) (hys : Climbs n ys k) : Climbs m (xs ++ ys) k := by
  induction h with
  | nil => exact hys
  | cons hx _ ih => exact .cons hx (ih hys)

theorem snoc (h : Climbs m xs n) (hx : x <= n + 1) : Climbs m (xs ++ [x]) (max n x) :=
  h.append (.cons hx (.nil _))

theorem pairwise_snoc (h : Climbs m xs n) (hsorted : (m :: xs).Pairwise (· <= ·))
    (hx : n <= x) : (m :: (xs ++ [x])).Pairwise (· <= ·) := by
  rw [← List.cons_append]
  refine List.pairwise_append.mpr ⟨hsorted, List.pairwise_singleton .., ?_⟩
  intro y hy z hz
  cases List.mem_singleton.mp hz
  rcases List.mem_cons.mp hy with rfl | hy
  · exact Nat.le_trans h.le hx
  · exact Nat.le_trans (h.mem_le hy) hx

theorem eq_of_nil (h : Climbs m [] n) : m = n := by
  cases h with
  | nil => rfl

theorem of_sorted (hsorted : xs.Pairwise (· < ·))
    (hall : forall v, m < v -> v <= n -> v ∈ xs) (hle : forall v, v ∈ xs -> v <= n)
    (hm : m <= n) : Climbs m xs n := by
  induction xs generalizing m with
  | nil =>
      have hlevel : m = n := by
        by_contra hne
        cases hall (m + 1) (Nat.lt_succ_self m) (by omega)
      rw [hlevel]
      exact .nil n
  | cons x xs ih =>
      rcases List.pairwise_cons.mp hsorted with ⟨hfirst, hrest⟩
      have hx := hle x (List.mem_cons_self ..)
      have hnext : x <= m + 1 := by
        by_contra hgap
        rcases List.mem_cons.mp
          (hall (m + 1) (Nat.lt_succ_self m) (by omega)) with heq | hin
        · omega
        · have hlt := hfirst (m + 1) hin
          omega
      refine .cons hnext (ih hrest ?_ (fun v hv => hle v (List.mem_cons_of_mem _ hv)) ?_)
      · intro v hv hvn
        rcases List.mem_cons.mp (hall v (by omega) hvn) with rfl | hin
        · omega
        · exact hin
      · omega

end Climbs

/-!
## Waiting for a number
-/

/-- How many numbers are in front of the first one above `m`. -/
def ahead (m : Nat) (xs : List Nat) : Nat :=
  (xs.takeWhile fun x => x <= m).length

section Ahead

variable {m x : Nat} {xs : List Nat}

theorem ahead_le_length (m : Nat) (xs : List Nat) : ahead m xs <= xs.length :=
  (List.takeWhile_prefix _).length_le

theorem ahead_cons (h : x <= m) : ahead m (x :: xs) = ahead m xs + 1 := by
  simp [ahead, h]

theorem ahead_snoc (h : m < x) : ahead m (xs ++ [x]) = ahead m xs := by
  induction xs with
  | nil => simp [ahead, h]
  | cons y xs ih =>
      rw [List.cons_append]
      by_cases hy : y <= m
      · rw [ahead_cons hy, ahead_cons hy, ih]
      · simp [ahead, hy]

end Ahead

/-!
## Budgets
-/

/-- Rounds of work, each bounded by the number of messages: fewer rounds left, or less
to wait for in the present one, and no more messages, is less altogether. -/
def budget (rounds messages waits : Nat) : Nat :=
  rounds * (2 * messages + 1) + waits

theorem budget_lt {rounds rounds' messages messages' waits waits' : Nat}
    (hmessages : messages' <= messages) (hwaits : waits' <= 2 * messages')
    (hless : rounds' < rounds ∨ (rounds' = rounds ∧ waits' < waits)) :
    budget rounds' messages' waits' < budget rounds messages waits := by
  have hscale : 2 * messages' + 1 <= 2 * messages + 1 := by omega
  unfold budget
  rcases hless with hlt | ⟨rfl, hlt⟩
  · calc rounds' * (2 * messages' + 1) + waits'
        < rounds' * (2 * messages' + 1) + (2 * messages' + 1) := by omega
      _ = (rounds' + 1) * (2 * messages' + 1) := (Nat.succ_mul ..).symm
      _ <= rounds * (2 * messages + 1) := Nat.mul_le_mul hlt hscale
      _ <= rounds * (2 * messages + 1) + waits := Nat.le_add_right ..
  · exact Nat.add_lt_add_of_le_of_lt (Nat.mul_le_mul_left _ hscale) hlt

/-!
## Two queues

A receiver that has everything up to `reached` answers each number it is handed with
what it has then; a sender that knows of everything up to `mark` follows the answers and
repeats itself at most once for each of them.  Both follow in steps of one.
-/

section Exchange

variable {mark reached last x : Nat} {data acks again : List Nat}

/-- While the receiver is at the mark it waits for a number, and otherwise the sender
waits for an answer. -/
def waiting (mark reached : Nat) (data acks : List Nat) : Nat :=
  if reached = mark then 2 * ahead mark data + acks.length
  else 2 * ahead mark acks + data.length

/-- The mark has to be moved up to `last`, and the receiver moves first. -/
def exchange (mark reached last : Nat) (data acks : List Nat) : Nat :=
  budget (2 * (last - mark) + if reached = mark then 1 else 0)
    (data.length + acks.length) (waiting mark reached data acks)

theorem waiting_le (mark reached : Nat) (data acks : List Nat) :
    waiting mark reached data acks <= 2 * (data.length + acks.length) := by
  have hdata := ahead_le_length mark data
  have hacks := ahead_le_length mark acks
  unfold waiting
  split <;> omega

theorem exchange_data_lt (hle : mark <= reached) :
    exchange mark (max reached x) last data (acks ++ [max reached x]) <
      exchange mark reached last (x :: data) acks := by
  refine budget_lt ?_ (waiting_le ..) ?_
  · rw [List.length_append, List.length_singleton, List.length_cons]
    omega
  · by_cases hlevel : reached = mark
    · by_cases hold : x <= mark
      · -- The receiver stays at the mark, and has one number less to wait for.
        have hsame : max reached x = mark := by omega
        refine Or.inr ⟨by rw [hsame, if_pos rfl, if_pos hlevel], ?_⟩
        rw [waiting, waiting, if_pos hsame, if_pos hlevel, ahead_cons hold,
          List.length_append, List.length_singleton]
        omega
      · refine Or.inl ?_
        rw [if_neg (by omega), if_pos hlevel]
        omega
    · -- The answer is above the mark, so nobody waits for it to be taken away.
      have hbehind : mark < max reached x := by omega
      refine Or.inr ⟨by rw [if_neg (by omega), if_neg hlevel], ?_⟩
      rw [waiting, waiting, if_neg (by omega), if_neg hlevel, ahead_snoc hbehind,
        List.length_cons]
      omega

theorem exchange_ack_lt (hlow : mark <= x) (hhigh : x <= mark + 1) (hle : x <= reached)
    (hlast : reached <= last) (hagain : again.length <= 1)
    (hnew : forall y, y ∈ again -> x < y) :
    exchange x reached last (data ++ again) acks <
      exchange mark reached last data (x :: acks) := by
  refine budget_lt ?_ (waiting_le ..) ?_
  · rw [List.length_append, List.length_cons]
    omega
  · by_cases hmoves : x = mark
    · rw [hmoves] at hnew ⊢
      refine Or.inr ⟨rfl, ?_⟩
      by_cases hlevel : reached = mark
      · have hahead : ahead mark (data ++ again) = ahead mark data := by
          cases again with
          | nil => rw [List.append_nil]
          | cons y rest =>
              have hrest : rest = [] := List.length_eq_zero_iff.mp (by
                rw [List.length_cons] at hagain
                omega)
              rw [hrest]
              exact ahead_snoc (hnew y (List.mem_cons_self ..))
        rw [waiting, waiting, if_pos hlevel, if_pos hlevel, hahead, List.length_cons]
        omega
      · rw [waiting, waiting, if_neg hlevel, if_neg hlevel, ahead_cons (Nat.le_refl mark),
          List.length_append]
        omega
    · refine Or.inl ?_
      rw [if_neg (show ¬ reached = mark by omega)]
      split <;> omega

theorem exchange_le (mark reached last : Nat) (data acks : List Nat) :
    exchange mark reached last data acks <=
      (2 * (last - mark) + 2) * (2 * (data.length + acks.length) + 1) := by
  have hwaits := waiting_le mark reached data acks
  have hrounds : (2 * (last - mark) + if reached = mark then 1 else 0) <=
      2 * (last - mark) + 1 := by
    split <;> omega
  unfold exchange budget
  calc _ <= (2 * (last - mark) + 1) * (2 * (data.length + acks.length) + 1) +
        (2 * (data.length + acks.length) + 1) :=
        Nat.add_le_add (Nat.mul_le_mul_right _ hrounds) (by omega)
    _ = _ := (Nat.succ_mul ..).symm

end Exchange

end Foundation
end Utp
