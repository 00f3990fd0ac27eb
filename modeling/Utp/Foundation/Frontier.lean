import Mathlib

/-!
# Frontiers

Numbers are received in any order.  The frontier behind a start is the end of
the run of received numbers that begins there: everything up to it is there, and
the next number is missing.
-/

namespace Utp
namespace Foundation

/-- Every number behind `start` up to `frontier` is received, and the one behind
`frontier` is not. -/
structure IsFrontier (received : Set Nat) (start frontier : Nat) : Prop where
  le : start <= frontier
  filled : forall n, start < n -> n <= frontier -> n ∈ received
  missing : frontier + 1 ∉ received

namespace IsFrontier

variable {received : Set Nat} {start frontier other n : Nat}

theorem empty (start : Nat) : IsFrontier ∅ start start where
  le := Nat.le_refl _
  filled n hlow hhigh := by omega
  missing := Set.notMem_empty _

theorem le_of_filled (h : IsFrontier received start frontier)
    (hfilled : forall n, start < n -> n <= other -> n ∈ received) :
    other <= frontier := by
  by_contra hlt
  have hle := h.le
  exact h.missing (hfilled _ (by omega) (by omega))

theorem unique (h : IsFrontier received start frontier)
    (h' : IsFrontier received start other) : frontier = other :=
  Nat.le_antisymm (h'.le_of_filled h.filled) (h.le_of_filled h'.filled)

theorem isGreatest (h : IsFrontier received start frontier) :
    IsGreatest {k | forall n, start < n -> n <= start + k -> n ∈ received}
      (frontier - start) := by
  have hle := h.le
  constructor
  · intro n hlow hhigh
    exact h.filled n hlow (by omega)
  · intro k hk
    have hbound := h.le_of_filled hk
    omega

theorem insert_of_ne (h : IsFrontier received start frontier) (hne : n ≠ frontier + 1) :
    IsFrontier (insert n received) start frontier where
  le := h.le
  filled m hlow hhigh := Set.mem_insert_of_mem n (h.filled m hlow hhigh)
  missing hmem := by
    rcases hmem with heq | hmem
    · exact hne heq.symm
    · exact h.missing hmem

theorem insert_next (h : IsFrontier received start frontier) (hlt : frontier < other)
    (hfilled : forall n, frontier + 1 < n -> n <= other -> n ∈ received)
    (hmissing : other + 1 ∉ received) :
    IsFrontier (insert (frontier + 1) received) start other where
  le := Nat.le_trans h.le (Nat.le_of_lt hlt)
  filled m hlow hhigh := by
    by_cases hold : m <= frontier
    · exact Set.mem_insert_of_mem _ (h.filled m hlow hold)
    · by_cases hnext : m = frontier + 1
      · rw [hnext]
        exact Set.mem_insert _ _
      · exact Set.mem_insert_of_mem _ (hfilled m (by omega) hhigh)
  missing hmem := by
    rcases hmem with heq | hmem
    · omega
    · exact hmissing hmem

end IsFrontier

end Foundation
end Utp
