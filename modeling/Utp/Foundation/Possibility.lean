import Utp.Foundation.Transition

/-!
# What can still happen

Invariants say what no run does.  The rules below say what some run still does:
a property is possible in a state if some actions lead from there to a state
that has it.
-/

namespace Utp
namespace Foundation

section Possible

variable {σ ι : Type}

/-- Some actions lead to a state with the property. -/
def Possible (step : σ -> ι -> Option σ) (goal : σ -> Prop) (s : σ) : Prop :=
  exists actions s', run step s actions = some s' ∧ goal s'

variable {step : σ -> ι -> Option σ} {goal other : σ -> Prop} {s s' : σ}

theorem Possible.here (h : goal s) : Possible step goal s :=
  ⟨[], s, rfl, h⟩

theorem Possible.after {a : ι} (ha : step s a = some s') (h : Possible step goal s') :
    Possible step goal s := by
  rcases h with ⟨actions, t, hrun, ht⟩
  exact ⟨a :: actions, t, run_cons_eq_some.mpr ⟨s', ha, hrun⟩, ht⟩

theorem Possible.trans (h : Possible step other s)
    (hnext : forall t, other t -> Possible step goal t) : Possible step goal s := by
  rcases h with ⟨actions, t, hrun, ht⟩
  induction actions generalizing s with
  | nil =>
      cases hrun
      exact hnext _ ht
  | cons a actions ih =>
      rcases run_cons_eq_some.mp hrun with ⟨s', ha, hrest⟩
      exact .after ha (ih hrest)

theorem Possible.mono (h : Possible step other s) (himp : forall t, other t -> goal t) :
    Possible step goal s :=
  h.trans fun t ht => .here (himp t ht)

theorem not_possible_of_trap (trap : σ -> Prop)
    (hstep : forall s a s', trap s -> step s a = some s' -> trap s')
    (hout : forall s, trap s -> ¬ goal s) (hs : trap s) : ¬ Possible step goal s := by
  intro h
  rcases h with ⟨actions, t, hrun, ht⟩
  exact hout t (run_invariant hstep hs hrun) ht

/-- A property is possible if every state without it can make a measure smaller. -/
theorem possible_of_measure {inv : σ -> Prop} (measure : σ -> Nat)
    (hprogress : forall s, inv s -> ¬ goal s ->
      Possible step (fun t => inv t ∧ measure t < measure s) s)
    (hs : inv s) : Possible step (fun t => inv t ∧ goal t) s := by
  have hbound : forall n s, inv s -> measure s <= n ->
      Possible step (fun t => inv t ∧ goal t) s := by
    intro n
    induction n with
    | zero =>
        intro s hs hn
        by_cases hgoal : goal s
        · exact .here ⟨hs, hgoal⟩
        · exact (hprogress s hs hgoal).trans fun t ht => by omega
    | succ n ih =>
        intro s hs hn
        by_cases hgoal : goal s
        · exact .here ⟨hs, hgoal⟩
        · exact (hprogress s hs hgoal).trans fun t ht => ih t ht.1 (by omega)
  exact hbound (measure s) s hs (Nat.le_refl _)

theorem length_le_measure {inv : σ -> Prop} {counted : ι -> Prop} (measure : σ -> Nat)
    (hstep : forall s a s', inv s -> counted a -> step s a = some s' ->
      inv s' ∧ measure s' < measure s)
    {actions : List ι} (hcounted : forall a, a ∈ actions -> counted a) (hs : inv s)
    (hrun : run step s actions = some s') : actions.length <= measure s := by
  induction actions generalizing s with
  | nil => exact Nat.zero_le _
  | cons a actions ih =>
      rcases run_cons_eq_some.mp hrun with ⟨next, ha, hrest⟩
      rcases hstep s a next hs (hcounted a (List.mem_cons_self ..)) ha with ⟨hnext, hlt⟩
      have hlength := ih (fun b hb => hcounted b (List.mem_cons_of_mem _ hb)) hnext hrest
      rw [List.length_cons]
      omega

theorem Possible.simulated {τ κ : Type} {other : τ -> κ -> Option τ}
    {rel : σ -> τ -> Prop}
    (hsim : forall s a s' t, rel s t -> step s a = some s' ->
      exists b t', other t b = some t' ∧ rel s' t')
    {t : τ} (hst : rel s t) (h : Possible step goal s) :
    Possible other (fun t' => exists s', rel s' t' ∧ goal s') t := by
  rcases h with ⟨actions, s', hrun, hgoal⟩
  induction actions generalizing s t with
  | nil =>
      cases hrun
      exact .here ⟨s', hst, hgoal⟩
  | cons a actions ih =>
      rcases run_cons_eq_some.mp hrun with ⟨next, ha, hrest⟩
      rcases hsim s a next t hst ha with ⟨b, t', hb, hnext⟩
      exact .after hb (ih hnext hrest)

end Possible

/-!
## Losses

Beside its own actions, a system may lose something at any time.
-/

section Lossy

variable {σ ι κ : Type} {step : σ -> ι -> Option σ} {lose : σ -> κ -> σ}
  {inv goal : σ -> Prop} {s s' : σ}

def lossy (step : σ -> ι -> Option σ) (lose : σ -> κ -> σ) (s : σ) : ι ⊕ κ -> Option σ
  | .inl a => step s a
  | .inr l => some (lose s l)

theorem lossy_preserves (hstep : forall s a s', inv s -> step s a = some s' -> inv s')
    (hlose : forall s l, inv s -> inv (lose s l)) (s : σ) (a : ι ⊕ κ) (s' : σ)
    (hs : inv s) (ha : lossy step lose s a = some s') : inv s' := by
  cases a with
  | inl a => exact hstep s a s' hs ha
  | inr l =>
      cases ha
      exact hlose s l hs

/-- Nothing needs to be lost. -/
theorem Possible.lossy (h : Possible step goal s) :
    Possible (lossy step lose) goal s := by
  have hsim : forall s a s' t, s = t -> step s a = some s' ->
      exists b t', Foundation.lossy step lose t b = some t' ∧ s' = t' := by
    intro s a s' t hst ha
    subst hst
    exact ⟨.inl a, s', ha, rfl⟩
  refine (h.simulated hsim rfl).mono fun t ht => ?_
  rcases ht with ⟨t', rfl, hgoal⟩
  exact hgoal

end Lossy

end Foundation
end Utp
