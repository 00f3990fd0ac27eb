import Mathlib

/-!
# Checked machine arithmetic

A computation that may abort is a value of `Except Panic`.  Sixteen-bit
addition and subtraction abort when the mathematical result does not fit, which
is what a build with overflow checks does.  Each operation is characterized by
one equivalence over the natural numbers, so later proofs never unfold it.
-/

namespace Utp
namespace Foundation

/-- The ways a call can abort instead of returning. -/
inductive Panic where
  | addOverflow
  | subOverflow
  | unwrapNone
  | assertFailed
  | indexOutOfRange
  deriving DecidableEq, Repr

theorem bind_eq_ok {ε α β : Type} {x : Except ε α} {f : α -> Except ε β} {b : β} :
    x >>= f = Except.ok b <-> exists a, x = Except.ok a ∧ f a = Except.ok b := by
  cases x with
  | error e =>
      simp [Bind.bind, Except.bind]
  | ok a =>
      simp [Bind.bind, Except.bind]

theorem map_eq_ok {ε α β : Type} {x : Except ε α} {f : α -> β} {b : β} :
    x.map f = Except.ok b <-> exists a, x = Except.ok a ∧ f a = b := by
  cases x <;> simp [Except.map]

/-- If the first computations agree up to `f` and the second ones up to `g`, so
do the sequences. -/
theorem bind_renamed {ε α α' β β' : Type} {x : Except ε α} {y : Except ε α'}
    {k : α -> Except ε β} {k' : α' -> Except ε β'} {f : α -> α'} {g : β -> β'}
    (hx : y = x.map f) (hk : forall a, x = .ok a -> k' (f a) = (k a).map g) :
    y >>= k' = (x >>= k).map g := by
  rw [hx]
  cases x with
  | error e => rfl
  | ok a => exact hk a rfl

theorem toOption_eq_some {ε α : Type} {x : Except ε α} {a : α} :
    x.toOption = some a <-> x = .ok a := by
  cases x <;> simp [Except.toOption]

/-!
## Sixteen-bit words
-/

/-- Addition that aborts on overflow. -/
def addU16 (a b : UInt16) : Except Panic UInt16 :=
  if a.toNat + b.toNat < 65536 then .ok (a + b) else .error .addOverflow

def subU16 (a b : UInt16) : Except Panic UInt16 :=
  if b.toNat <= a.toNat then .ok (a - b) else .error .subOverflow

theorem addU16_eq_ok {a b c : UInt16} :
    addU16 a b = .ok c <-> c.toNat = a.toNat + b.toNat := by
  unfold addU16
  have hc := c.toNat_lt
  split
  · rename_i hfit
    constructor
    · intro h
      cases h
      rw [UInt16.toNat_add]
      omega
    · intro h
      congr 1
      apply UInt16.toNat_inj.mp
      rw [UInt16.toNat_add]
      omega
  · constructor
    · intro h
      cases h
    · intro h
      omega

theorem subU16_eq_ok {a b c : UInt16} :
    subU16 a b = .ok c <-> a.toNat = b.toNat + c.toNat := by
  unfold subU16
  have ha := a.toNat_lt
  split
  · rename_i hle
    constructor
    · intro h
      cases h
      rw [UInt16.toNat_sub]
      omega
    · intro h
      congr 1
      apply UInt16.toNat_inj.mp
      rw [UInt16.toNat_sub]
      omega
  · constructor
    · intro h
      cases h
    · intro h
      omega

theorem addU16_isOk {a b : UInt16} :
    (exists c, addU16 a b = .ok c) <-> a.toNat + b.toNat < 65536 := by
  constructor
  · intro hcase
    rcases hcase with ⟨c, hc⟩
    have := addU16_eq_ok.mp hc
    have := c.toNat_lt
    omega
  · intro h
    exact ⟨a + b, if_pos h⟩

theorem addOne_eq_ok {a c : UInt16} :
    addU16 a 1 = .ok c <-> c.toNat = a.toNat + 1 :=
  addU16_eq_ok

theorem addOne_isOk {a : UInt16} :
    (exists c, addU16 a 1 = .ok c) <-> a.toNat < 65535 := by
  rw [addU16_isOk, show (1 : UInt16).toNat = 1 from rfl]
  omega

theorem addOne_eq {a c : UInt16} (h : addU16 a 1 = .ok c) : c = a + 1 := by
  have hfit := addU16_isOk.mp ⟨c, h⟩
  rw [addU16, if_pos hfit] at h
  exact (Except.ok.inj h).symm

/-!
## Thirty-two-bit words
-/

def addU32 (a b : UInt32) : Except Panic UInt32 :=
  if a.toNat + b.toNat < 2 ^ 32 then .ok (a + b) else .error .addOverflow

theorem addU32_eq_ok {a b c : UInt32} :
    addU32 a b = .ok c <-> c.toNat = a.toNat + b.toNat := by
  unfold addU32
  have hc := c.toNat_lt
  split
  · rename_i hfit
    have hsum : (a + b).toNat = a.toNat + b.toNat := by
      rw [UInt32.toNat_add, Nat.mod_eq_of_lt hfit]
    constructor
    · intro h
      cases h
      exact hsum
    · intro h
      exact congrArg Except.ok (UInt32.toNat_inj.mp (hsum.trans h.symm))
  · constructor
    · intro h
      cases h
    · intro h
      omega

/-!
## Indexing

Reading one entry, reading a range, and inserting in the middle of a vector
abort when an index lies outside it.
-/

section Indexing

variable {α : Type}

def entryAt (bs : List α) (index : Nat) : Except Panic α :=
  match bs[index]? with
  | some b => .ok b
  | none => .error .indexOutOfRange

/-- The entries from `start` up to, but not including, `stop`. -/
def slice (bs : List α) (start stop : Nat) : Except Panic (List α) :=
  if start <= stop ∧ stop <= bs.length then
    .ok ((bs.drop start).take (stop - start))
  else
    .error .indexOutOfRange

def insertAt (bs : List α) (index : Nat) (b : α) : Except Panic (List α) :=
  if index <= bs.length then .ok (bs.insertIdx index b)
  else .error .indexOutOfRange

theorem entryAt_eq_ok {bs : List α} {index : Nat} {b : α} :
    entryAt bs index = .ok b <-> bs[index]? = some b := by
  unfold entryAt
  cases bs[index]? <;> simp

theorem slice_eq_ok {bs part : List α} {start stop : Nat} :
    slice bs start stop = .ok part <->
      (start <= stop ∧ stop <= bs.length) ∧
        (bs.drop start).take (stop - start) = part := by
  unfold slice
  split <;> simp_all

theorem insertAt_eq_ok {bs out : List α} {index : Nat} {b : α} :
    insertAt bs index b = .ok out <->
      index <= bs.length ∧ bs.insertIdx index b = out := by
  unfold insertAt
  split <;> simp_all

theorem drop_of_drop {bs other : List α} {index start : Nat} (hle : index <= start)
    (h : other.drop index = bs.drop index) : other.drop start = bs.drop start := by
  rw [← Nat.add_sub_cancel' hle, ← List.drop_drop, ← List.drop_drop, h]

theorem entryAt_of_drop {bs other : List α} {index i : Nat} (hle : index <= i)
    (h : other.drop index = bs.drop index) : entryAt other i = entryAt bs i := by
  have hget := congrArg (fun entries => entries[0]?) (drop_of_drop hle h)
  simp only [List.getElem?_drop, Nat.add_zero] at hget
  rw [entryAt, entryAt, hget]

theorem slice_of_drop {bs other : List α} {index start stop : Nat}
    (hle : index <= start) (hlength : other.length = bs.length)
    (h : other.drop index = bs.drop index) :
    slice other start stop = slice bs start stop := by
  rw [slice, slice, hlength, drop_of_drop hle h]

theorem insertAt_append (front back : List α) (b : α) :
    insertAt (front ++ back) front.length b = .ok (front ++ b :: back) := by
  rw [insertAt_eq_ok]
  refine ⟨by simp, ?_⟩
  induction front with
  | nil => rfl
  | cons x front ih => simp [ih]

end Indexing

end Foundation
end Utp
