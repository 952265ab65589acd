import CompositorClient.Stream.Sequence
import Mathlib.Algebra.Group.Nat.Defs
import Mathlib.Data.List.Nodup
import Mathlib.Data.List.Range
import Mathlib.Tactic.Common

/-! The numbers that queries draw: they count up from one and begin again when the words have
run out, leaving zero out. -/

namespace CompositorClient

namespace Sequence

/-- What draw `i` gives, the first being draw zero. -/
def nth (i : Nat) : UInt32 := UInt32.ofNat (i % (2 ^ 32 - 1) + 1)

theorem toNat_nth (i : Nat) : (nth i).toNat = i % (2 ^ 32 - 1) + 1 := by
  have hlt : i % (2 ^ 32 - 1) < 2 ^ 32 - 1 := Nat.mod_lt _ (by decide)
  rw [nth, UInt32.toNat_ofNat', Nat.mod_eq_of_lt (by omega)]

theorem nth_ne_zero (i : Nat) : nth i ≠ 0 := by
  intro h
  have hnat := congrArg UInt32.toNat h
  rw [toNat_nth] at hnat
  cases hnat

theorem nth_injOn {i j : Nat} (hi : i < 2 ^ 32 - 1) (hj : j < 2 ^ 32 - 1) (h : nth i = nth j) :
    i = j := by
  have hnat := congrArg UInt32.toNat h
  rw [toNat_nth, toNat_nth, Nat.mod_eq_of_lt hi, Nat.mod_eq_of_lt hj] at hnat
  omega

theorem next_snd (q : Sequence) : q.next.2 = ⟨q.next.1 + 1⟩ := by
  by_cases h : q.stored = 0
  · obtain ⟨n⟩ := q
    subst h
    rw [next_zero]
    rfl
  · rw [next_of_ne_zero h]

theorem next_nth_succ (i : Nat) : (next ⟨nth i + 1⟩).1 = nth (i + 1) := by
  have hsum : (nth i + 1).toNat = (i % (2 ^ 32 - 1) + 2) % 2 ^ 32 := by
    rw [UInt32.toNat_add, toNat_nth, UInt32.toNat_one]
  apply UInt32.toNat_inj.mp
  rw [toNat_nth]
  by_cases hlast : nth i + 1 = 0
  · -- the counter has come round to zero, which the draw leaves out
    rw [hlast] at hsum ⊢
    rw [next_zero]
    have hzero : (i % (2 ^ 32 - 1) + 2) % 2 ^ 32 = 0 := hsum.symm
    have hone : (i + 1) % (2 ^ 32 - 1) = 0 := by omega
    rw [hone]
    rfl
  · rw [next_of_ne_zero (s := ⟨nth i + 1⟩) hlast]
    have hpos : (nth i + 1).toNat ≠ 0 := fun h => hlast (UInt32.toNat_inj.mp h)
    dsimp only
    omega

/-- `numbers` have been drawn, and the counter stands behind the last of them. -/
structure Issued (numbers : List UInt32) (q : Sequence) : Prop where
  perm : numbers.Perm ((List.range numbers.length).map nth)
  next : q.next.1 = nth numbers.length

namespace Issued

variable {numbers others : List UInt32} {q : Sequence}

theorem start : Issued [] {} where
  perm := .nil
  next := congrArg Prod.fst (next_of_ne_zero (by decide))

theorem draw (h : Issued numbers q) : Issued (numbers ++ [q.next.1]) q.next.2 where
  perm := by
    rw [List.length_append, List.length_singleton, List.range_succ, List.map_append, h.next]
    exact h.perm.append_right _
  next := by
    rw [next_snd, h.next, next_nth_succ, List.length_append, List.length_singleton]

theorem of_perm (h : Issued numbers q) (hperm : others.Perm numbers) : Issued others q where
  perm := by
    rw [hperm.length_eq]
    exact hperm.trans h.perm
  next := by
    rw [hperm.length_eq]
    exact h.next

theorem ne_zero (h : Issued numbers q) {n : UInt32} (hn : n ∈ numbers) : n ≠ 0 := by
  obtain ⟨i, -, rfl⟩ := List.mem_map.mp (h.perm.mem_iff.mp hn)
  exact nth_ne_zero i

theorem nodup (h : Issued numbers q) (room : numbers.length < 2 ^ 32) : numbers.Nodup := by
  rw [h.perm.nodup_iff]
  refine List.nodup_range.map_on fun i hi j hj heq => ?_
  rw [List.mem_range] at hi hj
  exact nth_injOn (by omega) (by omega) heq

end Issued
end Sequence
end CompositorClient
