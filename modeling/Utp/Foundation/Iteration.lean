import Utp.Foundation.Checked

/-!
# Iterators

An iterator is a state with a `next` operation, which may abort, and which
otherwise returns an item or nothing together with the state behind the call.
What is left of an iterator is the list of the items it still returns before it
returns nothing for ever.
-/

namespace Utp
namespace Foundation

section Iteration

variable {σ α ε : Type} {next : σ -> Except ε (Option α × σ)}

/-- Call `next` the given number of times, also behind the last item. -/
def nextCalls (next : σ -> Except ε (Option α × σ)) :
    Nat -> σ -> Except ε (List (Option α) × σ)
  | 0, s => .ok ([], s)
  | k + 1, s => do
      let (x, s') <- next s
      let (xs, t) <- nextCalls next k s'
      return (x :: xs, t)

theorem nextCalls_succ_eq_ok {s t : σ} {results : List (Option α)} {k : Nat} :
    nextCalls next (k + 1) s = .ok (results, t) <->
      exists x s' rest, next s = .ok (x, s') ∧
        nextCalls next k s' = .ok (rest, t) ∧ results = x :: rest := by
  rw [nextCalls, bind_eq_ok]
  constructor
  · intro h
    rcases h with ⟨⟨x, s'⟩, hfirst, h⟩
    rcases bind_eq_ok.mp h with ⟨⟨rest, t'⟩, hrest, h⟩
    cases h
    exact ⟨x, s', rest, hfirst, hrest, rfl⟩
  · intro h
    rcases h with ⟨x, s', rest, hfirst, hrest, rfl⟩
    exact ⟨(x, s'), hfirst, bind_eq_ok.mpr ⟨(rest, t), hrest, rfl⟩⟩

theorem nextCalls_invariant {inv : σ -> Prop}
    (hnext : forall s x s', inv s -> next s = .ok (x, s') -> inv s')
    {s t : σ} {results : List (Option α)} {k : Nat} (hs : inv s)
    (h : nextCalls next k s = .ok (results, t)) : inv t := by
  induction k generalizing s results with
  | zero =>
      cases h
      exact hs
  | succ k ih =>
      rcases nextCalls_succ_eq_ok.mp h with ⟨x, s', rest, hfirst, hrest, -⟩
      exact ih (hnext s x s' hs hfirst) hrest

/-!
## What is left
-/

/-- The iterator returns the items of the list, and then nothing for ever. -/
inductive Yields (next : σ -> Except ε (Option α × σ)) : σ -> List α -> Prop where
  | done {s : σ} : next s = .ok (none, s) -> Yields next s []
  | item {s s' : σ} {x : α} {xs : List α} :
      next s = .ok (some x, s') -> Yields next s' xs -> Yields next s (x :: xs)

theorem Yields.unique {s : σ} {xs ys : List α} (hxs : Yields next s xs)
    (hys : Yields next s ys) : xs = ys := by
  induction hxs generalizing ys with
  | done hend =>
      cases hys with
      | done => rfl
      | item hnext => cases hend.symm.trans hnext
  | item hnext _ ih =>
      cases hys with
      | done hend => cases hend.symm.trans hnext
      | item hnext' hrest =>
          cases hnext.symm.trans hnext'
          rw [ih hrest]

theorem Yields.afterCalls {s : σ} {xs : List α} (h : Yields next s xs) (k : Nat) :
    exists results t, nextCalls next k s = .ok (results, t) ∧
      Yields next t (xs.drop k) := by
  induction k generalizing s xs with
  | zero => exact ⟨[], s, rfl, h⟩
  | succ k ih =>
      cases h with
      | done hend =>
          rcases ih (Yields.done hend) with ⟨results, t, hcalls, hleft⟩
          rw [List.drop_nil] at hleft ⊢
          exact ⟨none :: results, t,
            nextCalls_succ_eq_ok.mpr ⟨none, s, results, hend, hcalls, rfl⟩, hleft⟩
      | item hnext hrest =>
          rcases ih hrest with ⟨results, t, hcalls, hleft⟩
          exact ⟨some _ :: results, t,
            nextCalls_succ_eq_ok.mpr ⟨_, _, results, hnext, hcalls, rfl⟩, hleft⟩

theorem yields_of_position {state : Nat -> σ} {xs : List α}
    (hitem : forall i x, xs[i]? = some x -> next (state i) = .ok (some x, state (i + 1)))
    (hend : next (state xs.length) = .ok (none, state xs.length)) {i : Nat}
    (hi : i <= xs.length) : Yields next (state i) (xs.drop i) := by
  induction hi using Nat.decreasingInduction with
  | self =>
      rw [List.drop_length]
      exact Yields.done hend
  | of_succ i hlt ih =>
      rw [List.drop_eq_getElem_cons hlt]
      exact Yields.item (hitem i _ (List.getElem?_eq_getElem hlt)) ih

/-!
## Size
-/

/-- The hint gives the number of items left, as lower and as upper bound. -/
def ExactSize (next : σ -> Except ε (Option α × σ)) (hint : σ -> Nat × Option Nat)
    (s : σ) : Prop :=
  exists xs, Yields next s xs ∧ hint s = (xs.length, some xs.length)

theorem Yields.exactSize_iff {hint : σ -> Nat × Option Nat} {s : σ} {xs : List α}
    (h : Yields next s xs) :
    ExactSize next hint s <-> hint s = (xs.length, some xs.length) := by
  constructor
  · intro hexact
    rcases hexact with ⟨ys, hys, hhint⟩
    rw [h.unique hys]
    exact hhint
  · intro hhint
    exact ⟨xs, h, hhint⟩

end Iteration

end Foundation
end Utp
