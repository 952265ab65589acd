/-! Sequence numbers for queries.  They run through all words but zero, which marks frames
that expect no answer. -/

namespace CompositorClient

/-- `stored` is what the next draw tries first. -/
structure Sequence where
  stored : UInt32 := 1
  deriving DecidableEq

namespace Sequence

/-- Draws until the number is not zero. -/
def next (s : Sequence) : UInt32 × Sequence :=
  if s.stored = 0 then next ⟨s.stored + 1⟩ else (s.stored, ⟨s.stored + 1⟩)
termination_by if s.stored = 0 then 1 else 0
decreasing_by simp_all

theorem next_of_ne_zero {s : Sequence} (h : s.stored ≠ 0) :
    s.next = (s.stored, ⟨s.stored + 1⟩) := by
  rw [next, if_neg h]

theorem next_zero : next ⟨0⟩ = (1, ⟨2⟩) := by
  rw [next, if_pos rfl, next_of_ne_zero (by decide)]
  rfl

theorem next_ne_zero (s : Sequence) : s.next.1 ≠ 0 := by
  by_cases h : s.stored = 0
  · obtain ⟨n⟩ := s
    subst h
    simp [next_zero]
  · simpa [next_of_ne_zero h] using h

end Sequence
end CompositorClient
