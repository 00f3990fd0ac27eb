import Utp.Foundation.Transition

/-!
# Selective-repeat transport

The purpose of a sliding-window protocol with selective acknowledgements, over
an arbitrary type of items.  The sender numbers the items it is given, keeps the
ones it may have to send again, and drops an item only on an acknowledgement.
The receiver outputs items in order and buffers the ones that arrive early.  The
wire and the set of acknowledgements only grow, so every loss, duplication, and
reordering of messages is a run.
-/

namespace Utp
namespace Foundation
namespace SelectiveRepeat

variable {α : Type}

/-- Everything below `upTo` has been output, the numbers in `also` are held. -/
structure Ack where
  upTo : Nat
  also : Set Nat

structure Config (α : Type) where
  written : List α
  outstanding : Set Nat
  mark : Nat
  wire : Set (Nat × α)
  output : List α
  buffer : Set (Nat × α)
  acks : Set Ack

def Config.initial : Config α where
  written := []
  outstanding := ∅
  mark := 0
  wire := ∅
  output := []
  buffer := ∅
  acks := ∅

/-- The receiver has the item with this number. -/
def Config.Held (c : Config α) (i : Nat) : Prop :=
  i < c.output.length ∨ exists x, (i, x) ∈ c.buffer

inductive Step : Config α -> Config α -> Prop where
  | write (c : Config α) (items : List α) :
      Step c { c with
        written := c.written ++ items
        outstanding := c.outstanding ∪
          {i | c.written.length <= i ∧ i < c.written.length + items.length} }
  | transmit (c : Config α) {i : Nat} {x : α} :
      i ∈ c.outstanding -> c.written[i]? = some x ->
      Step c { c with wire := insert (i, x) c.wire }
  | store (c : Config α) {i : Nat} {x : α} :
      (i, x) ∈ c.wire ->
      Step c { c with buffer := insert (i, x) c.buffer }
  /-- The receiver outputs the next item as it arrives. -/
  | accept (c : Config α) {x : α} :
      (c.output.length, x) ∈ c.wire ->
      Step c { c with output := c.output ++ [x] }
  /-- The receiver outputs the next item from its buffer. -/
  | flush (c : Config α) {x : α} :
      (c.output.length, x) ∈ c.buffer ->
      Step c { c with
        output := c.output ++ [x]
        buffer := {e ∈ c.buffer | e.1 ≠ c.output.length} }
  | acknowledge (c : Config α) (also : Set Nat) :
      (forall i, i ∈ also -> exists x, (i, x) ∈ c.buffer) ->
      Step c { c with acks := insert ⟨c.output.length, also⟩ c.acks }
  | release (c : Config α) {a : Ack} (dropped : Set Nat) :
      a ∈ c.acks ->
      (forall i, i ∈ dropped -> i < a.upTo ∨ i ∈ a.also) ->
      Step c { c with outstanding := c.outstanding \ dropped }
  /-- The sender moves its mark to an acknowledgement and drops all below. -/
  | advance (c : Config α) {a : Ack} :
      a ∈ c.acks ->
      Step c { c with
        mark := a.upTo
        outstanding := c.outstanding \ {i | i < a.upTo} }

structure Invariant (c : Config α) : Prop where
  wire_written : forall {i x}, (i, x) ∈ c.wire -> c.written[i]? = some x
  buffer_written : forall {i x}, (i, x) ∈ c.buffer -> c.written[i]? = some x
  output_eq : c.output = c.written.take c.output.length
  acks_sound : forall {a : Ack}, a ∈ c.acks ->
    a.upTo <= c.output.length ∧ forall i, i ∈ a.also -> c.Held i
  nothing_lost : forall i, i < c.written.length -> i ∈ c.outstanding ∨ c.Held i
  mark_le : c.mark <= c.output.length
  outstanding_ge : forall i, i ∈ c.outstanding -> c.mark <= i

theorem invariant_initial : Invariant (Config.initial : Config α) where
  wire_written h := absurd h (Set.notMem_empty _)
  buffer_written h := absurd h (Set.notMem_empty _)
  output_eq := rfl
  acks_sound h := absurd h (Set.notMem_empty _)
  nothing_lost _ h := absurd h (Nat.not_lt_zero _)
  mark_le := Nat.le_refl _
  outstanding_ge _ h := absurd h (Set.notMem_empty _)

theorem Invariant.output_length_le {c : Config α} (h : Invariant c) :
    c.output.length <= c.written.length := by
  have hlength := congrArg List.length h.output_eq
  rw [List.length_take] at hlength
  omega

theorem output_snoc {c : Config α} {x : α} (h : Invariant c)
    (hx : c.written[c.output.length]? = some x) :
    c.output ++ [x] = c.written.take (c.output ++ [x]).length := by
  rw [List.length_append, List.length_singleton, List.take_add_one, hx,
    ← h.output_eq]
  rfl

theorem Config.Held.mono {c c' : Config α} {i : Nat} (h : c.Held i)
    (hout : c.output.length <= c'.output.length)
    (hbuf : forall x, (i, x) ∈ c.buffer ->
      (i, x) ∈ c'.buffer ∨ i < c'.output.length) :
    c'.Held i := by
  rcases h with hlt | ⟨x, hx⟩
  · exact Or.inl (Nat.lt_of_lt_of_le hlt hout)
  · rcases hbuf x hx with hx' | hlt
    · exact Or.inr ⟨x, hx'⟩
    · exact Or.inl hlt

theorem Invariant.deliver {c c' : Config α} {x : α} (h : Invariant c)
    (hx : c.written[c.output.length]? = some x)
    (hsender : c'.written = c.written ∧ c'.outstanding = c.outstanding ∧
      c'.mark = c.mark ∧ c'.wire = c.wire ∧ c'.acks = c.acks)
    (hout : c'.output = c.output ++ [x])
    (hsub : c'.buffer ⊆ c.buffer)
    (hbuf : forall i y, (i, y) ∈ c.buffer ->
      (i, y) ∈ c'.buffer ∨ i = c.output.length) :
    Invariant c' := by
  rcases hsender with ⟨hwritten, houtstanding, hmark, hwire, hacks⟩
  have hlength : c'.output.length = c.output.length + 1 := by
    rw [hout, List.length_append, List.length_singleton]
  have hheld : forall i, c.Held i -> c'.Held i := by
    intro i hi
    refine hi.mono (by omega) ?_
    intro y hy
    rcases hbuf i y hy with hin | rfl
    · exact Or.inl hin
    · exact Or.inr (by omega)
  refine ⟨?_, ?_, ?_, ?_, ?_, ?_, ?_⟩
  · intro i y hi
    rw [hwritten]
    exact h.wire_written (hwire ▸ hi)
  · intro i y hi
    rw [hwritten]
    exact h.buffer_written (hsub hi)
  · rw [hout, hwritten]
    exact output_snoc h hx
  · intro a ha
    have hsound := h.acks_sound (hacks ▸ ha)
    exact ⟨by omega, fun i hi => hheld i (hsound.2 i hi)⟩
  · intro i hi
    rw [houtstanding]
    rw [hwritten] at hi
    exact (h.nothing_lost i hi).imp_right (hheld i)
  · have := h.mark_le
    omega
  · intro i hi
    rw [hmark]
    exact h.outstanding_ge i (houtstanding ▸ hi)

theorem Invariant.drop {c : Config α} (h : Invariant c) {dropped : Set Nat}
    (hheld : forall i, i ∈ dropped -> c.Held i) :
    forall i, i < c.written.length -> i ∈ c.outstanding \ dropped ∨ c.Held i := by
  intro i hi
  by_cases hdropped : i ∈ dropped
  · exact Or.inr (hheld i hdropped)
  · exact (h.nothing_lost i hi).imp_left fun hin => ⟨hin, hdropped⟩

theorem Invariant.write {c : Config α} (h : Invariant c) (items : List α) :
    Invariant
      { c with
        written := c.written ++ items
        outstanding := c.outstanding ∪
          {i | c.written.length <= i ∧ i < c.written.length + items.length} } := by
  have happend : forall {i : Nat} {x : α}, c.written[i]? = some x ->
      (c.written ++ items)[i]? = some x := by
    intro i x hx
    rw [List.getElem?_append_left (List.getElem?_eq_some_iff.mp hx).1, hx]
  exact
    { wire_written := fun hx => happend (h.wire_written hx)
      buffer_written := fun hx => happend (h.buffer_written hx)
      output_eq := by
        show c.output = (c.written ++ items).take c.output.length
        rw [List.take_append_of_le_length h.output_length_le]
        exact h.output_eq
      acks_sound := h.acks_sound
      nothing_lost := by
        intro i hi
        by_cases hold : i < c.written.length
        · exact (h.nothing_lost i hold).imp_left Or.inl
        · refine Or.inl (Or.inr ⟨by omega, ?_⟩)
          simpa [List.length_append] using hi
      mark_le := h.mark_le
      outstanding_ge := by
        intro i hi
        rcases hi with hi | ⟨hge, _⟩
        · exact h.outstanding_ge i hi
        · exact Nat.le_trans h.mark_le
            (Nat.le_trans h.output_length_le hge) }

theorem Invariant.store {c : Config α} (h : Invariant c) {i : Nat} {x : α}
    (hi : (i, x) ∈ c.wire) : Invariant { c with buffer := insert (i, x) c.buffer } := by
  have hmono : forall j, c.Held j ->
      Config.Held { c with buffer := insert (i, x) c.buffer } j :=
    fun j hj => hj.mono (Nat.le_refl _) fun y hy => Or.inl (Or.inr hy)
  exact
    { wire_written := h.wire_written
      buffer_written := by
        intro j y hj
        rcases hj with hj | hj
        · cases hj
          exact h.wire_written hi
        · exact h.buffer_written hj
      output_eq := h.output_eq
      acks_sound := fun ha =>
        ⟨(h.acks_sound ha).1, fun j hj => hmono j ((h.acks_sound ha).2 j hj)⟩
      nothing_lost := fun j hj => (h.nothing_lost j hj).imp_right (hmono j)
      mark_le := h.mark_le
      outstanding_ge := h.outstanding_ge }

theorem invariant_step {c c' : Config α} (h : Invariant c) (hstep : Step c c') :
    Invariant c' := by
  cases hstep with
  | write items => exact h.write items
  | transmit hi hx =>
      refine { h with wire_written := ?_ }
      intro j y hj
      rcases hj with hj | hj
      · cases hj
        exact hx
      · exact h.wire_written hj
  | store hi => exact h.store hi
  | accept hx =>
      exact h.deliver (h.wire_written hx) ⟨rfl, rfl, rfl, rfl, rfl⟩ rfl
        (Set.Subset.refl _) fun i y hy => Or.inl hy
  | flush hx =>
      refine h.deliver (h.buffer_written hx) ⟨rfl, rfl, rfl, rfl, rfl⟩ rfl
        (fun _ he => he.1) ?_
      intro i y hy
      by_cases hi : i = c.output.length
      · exact Or.inr hi
      · exact Or.inl ⟨hy, hi⟩
  | acknowledge also halso =>
      refine { h with acks_sound := ?_ }
      intro a ha
      rcases ha with rfl | ha
      · exact ⟨Nat.le_refl _, fun i hi => Or.inr (halso i hi)⟩
      · exact h.acks_sound ha
  | release dropped ha hdropped =>
      have hsound := h.acks_sound ha
      refine { h with nothing_lost := ?_, outstanding_ge := ?_ }
      · apply h.drop
        intro i hi
        rcases hdropped i hi with hlt | halso
        · exact Or.inl (Nat.lt_of_lt_of_le hlt hsound.1)
        · exact hsound.2 i halso
      · exact fun i hi => h.outstanding_ge i hi.1
  | advance ha =>
      have hsound := h.acks_sound ha
      refine { h with nothing_lost := ?_, mark_le := hsound.1,
                      outstanding_ge := ?_ }
      · apply h.drop
        intro i hi
        exact Or.inl (Nat.lt_of_lt_of_le hi hsound.1)
      · exact fun i hi => Nat.not_lt.mp hi.2

theorem Invariant.steps {c c' : Config α} (h : Invariant c)
    (hsteps : Relation.ReflTransGen Step c c') : Invariant c' := by
  have hstep : forall c c' : Config α, Invariant c -> Step c c' -> Invariant c' :=
    fun _ _ => invariant_step
  exact reflTransGen_invariant hstep h hsteps

/-!
## Rounds

A message of the protocol causes several steps at once: the sender sends its
whole window, and the receiver outputs everything that became deliverable.
-/

theorem transmit_all {c : Config α} {items : List α}
    (h : forall x, x ∈ items ->
      exists i, i ∈ c.outstanding ∧ c.written[i]? = some x) :
    exists wire, Relation.ReflTransGen Step c { c with wire := wire } ∧
      c.wire ⊆ wire ∧ forall x, x ∈ items -> exists i, (i, x) ∈ wire := by
  induction items with
  | nil =>
      exact ⟨c.wire, Relation.ReflTransGen.refl, Set.Subset.refl _, by simp⟩
  | cons x items ih =>
      rcases ih fun y hy => h y (List.mem_cons_of_mem _ hy) with
        ⟨wire, hsteps, hsub, hitems⟩
      rcases h x (List.mem_cons_self ..) with ⟨i, hi, hx⟩
      refine ⟨insert (i, x) wire, hsteps.tail (Step.transmit _ hi hx), ?_, ?_⟩
      · exact hsub.trans (Set.subset_insert _ _)
      · intro y hy
        rcases List.mem_cons.mp hy with rfl | hy
        · exact ⟨i, Set.mem_insert _ _⟩
        · rcases hitems y hy with ⟨j, hj⟩
          exact ⟨j, Set.mem_insert_of_mem _ hj⟩

theorem flush_all (c : Config α) (items : List α)
    (h : forall j x, items[j]? = some x -> (c.output.length + j, x) ∈ c.buffer) :
    Relation.ReflTransGen Step c
      { c with
        output := c.output ++ items
        buffer := {e ∈ c.buffer |
          e.1 < c.output.length ∨ c.output.length + items.length <= e.1} } := by
  induction items generalizing c with
  | nil =>
      have hall : {e ∈ c.buffer | e.1 < c.output.length ∨
          c.output.length + ([] : List α).length <= e.1} = c.buffer := by
        apply Set.ext
        intro e
        simp only [List.length_nil, Set.mem_ofPred_eq, and_iff_left_iff_imp]
        omega
      rw [hall, List.append_nil]
  | cons x items ih =>
      have hfirst : Step c _ := Step.flush c (h 0 x rfl)
      have hlength : (c.output ++ [x]).length = c.output.length + 1 := by simp
      have hrest := ih
        { c with
          output := c.output ++ [x]
          buffer := {e ∈ c.buffer | e.1 ≠ c.output.length} } (by
            intro j y hj
            refine ⟨?_, ?_⟩
            · have hnext := h (j + 1) y hj
              simp only [hlength]
              rwa [Nat.add_assoc, Nat.add_comm 1]
            · simp only [hlength]
              omega)
      have hbuffer : {e ∈ {e ∈ c.buffer | e.1 ≠ c.output.length} |
          e.1 < (c.output ++ [x]).length ∨
            (c.output ++ [x]).length + items.length <= e.1} =
          {e ∈ c.buffer | e.1 < c.output.length ∨
            c.output.length + (x :: items).length <= e.1} := by
        apply Set.ext
        intro e
        simp only [hlength, List.length_cons, Set.mem_ofPred_eq, and_assoc]
        refine and_congr_right fun _ => ?_
        omega
      simp only [hbuffer, List.append_assoc, List.singleton_append] at hrest
      exact Relation.ReflTransGen.head hfirst hrest

end SelectiveRepeat
end Foundation
end Utp
