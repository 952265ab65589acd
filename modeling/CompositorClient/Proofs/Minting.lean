import CompositorClient.Client.WindowTable
import CompositorClient.Proofs.Numbers

/-! The two mints of a client, one for the numbers of queries and one for the ids of windows. They
leave zero out in different ways, one by drawing again and one by putting one in its place, and yet
hand out the same words in the same order, all of them before any comes back. -/

namespace CompositorClient

/-- What call `i` of a mint gives, the first being call zero. -/
def minted {σ : Type} (mint : σ → UInt32 × σ) (s : σ) : Nat → UInt32
  | 0 => (mint s).1
  | i + 1 => minted mint (mint s).2 i

/-- A mint that hands out the next number of the cycle and moves on by one keeps to the cycle. -/
theorem minted_eq_nth {σ : Type} {mint : σ → UInt32 × σ} {Stands : σ → Nat → Prop}
    (step : ∀ s k, Stands s k → (mint s).1 = Sequence.nth k ∧ Stands (mint s).2 (k + 1))
    {s : σ} {k : Nat} (h : Stands s k) (i : Nat) : minted mint s i = Sequence.nth (k + i) := by
  induction i generalizing s k with
  | zero => exact (step s k h).1
  | succ i ih =>
    rw [minted, ih (step s k h).2]
    congr 1
    omega

namespace Sequence

/-- One turn of a draw: the stored word is taken and the one after it left.  Zero is no number. -/
def attempt (q : Sequence) : Option UInt32 × Sequence :=
  (if q.stored = 0 then none else some q.stored, ⟨q.stored + 1⟩)

def nextWithin : Nat → Sequence → Option (UInt32 × Sequence)
  | 0, _ => none
  | turns + 1, q =>
    match q.attempt with
    | (some n, q) => some (n, q)
    | (none, q) => nextWithin turns q

theorem nextWithin_succ_of_ne_zero {q : Sequence} (h : q.stored ≠ 0) (turns : Nat) :
    nextWithin (turns + 1) q = some q.next := by
  simp [nextWithin, attempt, h, next_of_ne_zero h]

theorem nextWithin_two (q : Sequence) : nextWithin 2 q = some q.next := by
  by_cases h : q.stored = 0
  -- The first turn takes the zero and leaves one.
  · obtain ⟨n⟩ := q
    subst h
    rw [next_zero]
    rfl
  · exact nextWithin_succ_of_ne_zero h 1

theorem next_of_next_eq_nth (q : Sequence) (k : Nat) (h : q.next.1 = nth k) :
    q.next.1 = nth k ∧ q.next.2.next.1 = nth (k + 1) := by
  refine ⟨h, ?_⟩
  rw [next_snd, h, next_nth_succ]

theorem minted_next (i : Nat) : minted next {} i = nth i := by
  have hfirst : (next {}).1 = nth 0 := congrArg Prod.fst (next_of_ne_zero (by decide))
  simpa using minted_eq_nth next_of_next_eq_nth hfirst i

/-- The cycle is as long as it can be. -/
theorem nth_ne_nth {k i j : Nat} (hi : i < 2 ^ 32 - 1) (hj : j < 2 ^ 32 - 1) (h : i ≠ j) :
    nth (k + i) ≠ nth (k + j) := by
  intro heq
  have hnat := congrArg UInt32.toNat heq
  rw [toNat_nth, toNat_nth] at hnat
  omega

end Sequence

namespace WindowTable

inductive Use
  | allocate
  | insert (id : WindowId) (g : Geometry)
  | erase (id : WindowId)
  | move (id : WindowId) (x y : Int32)
  | resize (id : WindowId) (width height : UInt32)
  deriving DecidableEq

def act (t : WindowTable) : Use → WindowTable
  | .allocate => t.allocate.2
  | .insert id g => t.insert id g
  | .erase id => t.erase id
  | .move id x y => t.move id x y
  | .resize id width height => t.resize id width height

def mintedAmid (t : WindowTable) : List Use → List WindowId
  | [] => []
  | use :: uses =>
    (if use = .allocate then [t.allocate.1] else []) ++ (t.act use).mintedAmid uses

theorem toNat_following (id : WindowId) : (following id).toNat = max (id + 1).toNat 1 := by
  unfold following
  split
  · next h => simp [h]
  · next h =>
    have hpos : (id + 1).toNat ≠ 0 := fun hz => h (UInt32.toNat_inj.mp hz)
    omega

theorem following_nth (k : Nat) : following (Sequence.nth k) = Sequence.nth (k + 1) := by
  apply UInt32.toNat_inj.mp
  rw [toNat_following, UInt32.toNat_add, Sequence.toNat_nth, Sequence.toNat_nth, UInt32.toNat_one]
  omega

theorem allocate_of_nextId_eq_nth (t : WindowTable) (k : Nat) (h : t.nextId = Sequence.nth k) :
    t.allocate.1 = Sequence.nth k ∧ t.allocate.2.nextId = Sequence.nth (k + 1) :=
  ⟨h, by rw [← following_nth, ← h]; rfl⟩

theorem minted_allocate (i : Nat) : minted allocate empty i = Sequence.nth i := by
  have hfirst : empty.nextId = Sequence.nth 0 := rfl
  simpa using minted_eq_nth allocate_of_nextId_eq_nth hfirst i

theorem nextId_act_of_ne {use : Use} (h : use ≠ .allocate) (t : WindowTable) :
    (t.act use).nextId = t.nextId := by
  cases use with
  | allocate => exact absurd rfl h
  | insert | erase | move | resize => rfl

theorem mintedAmid_eq {t : WindowTable} {k : Nat} (h : t.nextId = Sequence.nth k)
    (uses : List Use) :
    t.mintedAmid uses = (List.range' k (uses.count .allocate)).map Sequence.nth := by
  induction uses generalizing t k with
  | nil => rfl
  | cons use uses ih =>
    by_cases huse : use = .allocate
    · subst huse
      obtain ⟨hid, hnext⟩ := allocate_of_nextId_eq_nth t k h
      rw [mintedAmid, if_pos rfl, act, ih hnext, hid, List.count_cons_self, List.range'_succ]
      rfl
    · have hnext : (t.act use).nextId = Sequence.nth k := by rw [nextId_act_of_ne huse, h]
      rw [mintedAmid, if_neg huse, ih hnext, List.count_cons_of_ne huse, List.nil_append]

end WindowTable

/-- New mints hand out the words from one up and begin again behind the last, never zero; whatever
else is done to the table of windows makes no difference to its ids. Every stretch of the cycle
shorter than all of it has no word twice, and no draw of a query's number takes a third turn. -/
theorem mints_keep_to_one_cycle :
    (∀ n, 1 ≤ n →
      (minted Sequence.next {} (n - 1)).toNat = (n - 1) % (2 ^ 32 - 1) + 1 ∧
      (minted WindowTable.allocate .empty (n - 1)).toNat = (n - 1) % (2 ^ 32 - 1) + 1) ∧
    (∀ uses : List WindowTable.Use, WindowTable.empty.mintedAmid uses =
      (List.range (uses.count .allocate)).map (minted WindowTable.allocate .empty)) ∧
    (∀ i, minted Sequence.next {} i ≠ 0 ∧ minted WindowTable.allocate .empty i ≠ 0) ∧
    (∀ k i j, i < 2 ^ 32 - 1 → j < 2 ^ 32 - 1 → i ≠ j →
      minted Sequence.next {} (k + i) ≠ minted Sequence.next {} (k + j) ∧
      minted WindowTable.allocate .empty (k + i) ≠ minted WindowTable.allocate .empty (k + j)) ∧
    ∀ q : Sequence, q.nextWithin 2 = some q.next := by
  simp only [Sequence.minted_next, WindowTable.minted_allocate]
  refine ⟨fun n _ => ⟨Sequence.toNat_nth _, Sequence.toNat_nth _⟩, fun uses => ?_, fun i => ?_,
    fun k i j hi hj hij => ?_, Sequence.nextWithin_two⟩
  · rw [WindowTable.mintedAmid_eq (k := 0) rfl, List.range_eq_range']
    exact List.map_congr_left fun i _ => (WindowTable.minted_allocate i).symm
  · exact ⟨Sequence.nth_ne_zero i, Sequence.nth_ne_zero i⟩
  · exact ⟨Sequence.nth_ne_nth hi hj hij, Sequence.nth_ne_nth hi hj hij⟩

end CompositorClient
