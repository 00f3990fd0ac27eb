import Mathlib

/-!
# Runs of a transition function

A system is given by a partial step function: the state and an action determine
the next state, or the action is not possible.  A run is a list of actions that
are all possible in turn.  Properties of runs follow from properties of single
steps by the rules below.
-/

namespace Utp
namespace Foundation

section Transition

variable {σ ι τ : Type}

/-- Take the actions of the list one after the other. -/
def run (step : σ -> ι -> Option σ) : σ -> List ι -> Option σ
  | s, [] => some s
  | s, a :: as =>
      match step s a with
      | none => none
      | some s' => run step s' as

variable {step : σ -> ι -> Option σ}

theorem run_cons_eq_some {s t : σ} {a : ι} {as : List ι} :
    run step s (a :: as) = some t <->
      exists s', step s a = some s' ∧ run step s' as = some t := by
  cases h : step s a with
  | none => simp [run, h]
  | some s' => simp [run, h]

theorem run_invariant {inv : σ -> Prop}
    (hstep : forall s a s', inv s -> step s a = some s' -> inv s')
    {s t : σ} {as : List ι} (hs : inv s) (hrun : run step s as = some t) :
    inv t := by
  induction as generalizing s with
  | nil =>
      cases hrun
      exact hs
  | cons a as ih =>
      rcases run_cons_eq_some.mp hrun with ⟨s', ha, hrest⟩
      exact ih (hstep s a s' hs ha) hrest

/-- If each step is matched by steps of an abstract relation, so is each run. -/
theorem run_simulation {rel : σ -> τ -> Prop} {astep : τ -> τ -> Prop}
    (hstep : forall s a s' c, rel s c -> step s a = some s' ->
      exists c', Relation.ReflTransGen astep c c' ∧ rel s' c')
    {s t : σ} {as : List ι} {c : τ} (hs : rel s c)
    (hrun : run step s as = some t) :
    exists c', Relation.ReflTransGen astep c c' ∧ rel t c' := by
  induction as generalizing s c with
  | nil =>
      cases hrun
      exact ⟨c, Relation.ReflTransGen.refl, hs⟩
  | cons a as ih =>
      rcases run_cons_eq_some.mp hrun with ⟨s', ha, hrest⟩
      rcases hstep s a s' c hs ha with ⟨c', hc, hs'⟩
      rcases ih hs' hrest with ⟨c'', hc', ht⟩
      exact ⟨c'', hc.trans hc', ht⟩

theorem reflTransGen_invariant {astep : τ -> τ -> Prop} {inv : τ -> Prop}
    (hstep : forall c c', inv c -> astep c c' -> inv c') {c c' : τ}
    (hc : inv c) (h : Relation.ReflTransGen astep c c') : inv c' := by
  induction h with
  | refl => exact hc
  | tail _ hlast ih => exact hstep _ _ ih hlast

end Transition

/-!
## Histories

A history is a list of steps of any kind, each of which knows the state before
and the state after it.
-/

section History

variable {α σ : Type} {before after : α -> σ}

/-- Every step starts where the one before it ended, and the first one at `s`. -/
def Linked (before after : α -> σ) : σ -> List α -> Prop
  | _, [] => True
  | s, c :: cs => before c = s ∧ Linked before after (after c) cs

variable {s : σ} {cs : List α}

theorem Linked.from_start (rel : σ -> σ -> Prop) (hrefl : forall s, rel s s)
    (htrans : forall s t u, rel s t -> rel t u -> rel s u)
    (hstep : forall c, c ∈ cs -> rel (before c) (after c))
    (h : Linked before after s cs) :
    forall c, c ∈ cs -> rel s (before c) ∧ rel s (after c) := by
  induction cs generalizing s with
  | nil =>
      intro c hc
      cases hc
  | cons c cs ih =>
      rcases h with ⟨rfl, hlater⟩
      have hfirst := hstep c (List.mem_cons_self ..)
      have hrest := ih (fun d hd => hstep d (List.mem_cons_of_mem _ hd)) hlater
      intro d hd
      rcases List.mem_cons.mp hd with rfl | hd
      · exact ⟨hrefl _, hfirst⟩
      · rcases hrest d hd with ⟨hbefore, hafter⟩
        exact ⟨htrans _ _ _ hfirst hbefore, htrans _ _ _ hfirst hafter⟩

theorem Linked.states (rel : σ -> σ -> Prop) (hrefl : forall s, rel s s)
    (htrans : forall s t u, rel s t -> rel t u -> rel s u)
    (hstep : forall c, c ∈ cs -> rel (before c) (after c))
    (h : Linked before after s cs) : (s :: cs.map after).Pairwise rel := by
  induction cs generalizing s with
  | nil => exact List.pairwise_singleton rel s
  | cons c cs ih =>
      have hstart := h.from_start rel hrefl htrans hstep
      rw [List.pairwise_cons]
      constructor
      · intro t ht
        rcases List.mem_map.mp ht with ⟨d, hd, rfl⟩
        exact (hstart d hd).2
      · exact ih (fun d hd => hstep d (List.mem_cons_of_mem _ hd)) h.2

theorem Linked.steps (rel : σ -> σ -> Prop) (hrefl : forall s, rel s s)
    (htrans : forall s t u, rel s t -> rel t u -> rel s u)
    (hstep : forall c, c ∈ cs -> rel (before c) (after c))
    (h : Linked before after s cs) :
    cs.Pairwise fun c d => rel (after c) (before d) := by
  induction cs generalizing s with
  | nil => exact List.Pairwise.nil
  | cons c cs ih =>
      have hlater := fun d hd => hstep d (List.mem_cons_of_mem c hd)
      rw [List.pairwise_cons]
      constructor
      · intro d hd
        exact (h.2.from_start rel hrefl htrans hlater d hd).1
      · exact ih hlater h.2

theorem Linked.invariant (inv : σ -> Prop) (hs : inv s)
    (hstep : forall c, c ∈ cs -> inv (before c) -> inv (after c))
    (h : Linked before after s cs) : forall c, c ∈ cs -> inv (before c) := by
  intro c hc
  exact (h.from_start (fun s t => inv s -> inv t) (fun _ h => h)
    (fun _ _ _ hst htu h => htu (hst h)) hstep c hc).1 hs

end History

end Foundation
end Utp
