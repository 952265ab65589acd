import CompositorClient.Proofs.Layout
import CompositorClient.Stream.Buffer

/-! The frame buffer does what a plain splitter does with the whole byte string, however the
bytes come in and in whatever order frames are asked for. -/

namespace CompositorClient

namespace Header

theorem exact_fields : ∀ f ∈ Record.header, f.Exact := by
  simp [Field.Exact]

theorem encode_read {bs : List UInt8} (h : size ≤ bs.length) : (read bs).encode = bs.take size := by
  rw [read, encode, fields_ofFields]
  exact Record.encode_decode exact_fields h

end Header

namespace FrameBuffer

/-- What stands at the front of a byte string: a frame that is all there, or a length below the
header's own. -/
def first (bs : List UInt8) : Option Item :=
  if bs.length < Header.size then none
  else
    let header := Header.read (bs.take Header.size)
    let length := header.length.toNat
    if length < Header.size then some (.error (.malformedFrame header.length))
    else if bs.length < length then none
    else some (.ok ⟨header, (bs.take length).drop Header.size⟩)

structure Fits (f : Frame) (bs : List UInt8) : Prop where
  length_eq : f.header.length.toNat = Header.size + f.payload.length
  length_le : f.header.length.toNat ≤ bs.length
  encode_eq : f.encode = bs.take f.header.length.toNat

theorem fits_of_first {bs : List UInt8} {f : Frame} (h : first bs = some (.ok f)) : Fits f bs := by
  unfold first at h
  split at h
  · cases h
  · next h16 =>
    dsimp only at h
    split at h
    · cases h
    · next hlow =>
      split at h
      · cases h
      · next hlen =>
        cases h
        have hheader : Header.size ≤ (bs.take Header.size).length := by
          rw [List.length_take]
          omega
        have htake : bs.take Header.size =
            (bs.take (Header.read (bs.take Header.size)).length.toNat).take Header.size := by
          rw [List.take_take, Nat.min_eq_left (by omega)]
        refine ⟨?_, by dsimp only; omega, ?_⟩
        · simp only [List.length_drop, List.length_take]
          omega
        · rw [Frame.encode]
          dsimp only
          rw [Header.encode_read hheader, List.take_take, Nat.min_self]
          nth_rewrite 1 [htake]
          exact List.take_append_drop _ _

/-- What has been seen stays as it is when more bytes come. -/
theorem first_append {bs : List UInt8} {i : Item} (h : first bs = some i) (t : List UInt8) :
    first (bs ++ t) = some i := by
  unfold first at h ⊢
  split at h
  · cases h
  · next h16 =>
    have htake : (bs ++ t).take Header.size = bs.take Header.size :=
      List.take_append_of_le_length (by omega)
    have hlen : (bs ++ t).length = bs.length + t.length := List.length_append
    rw [if_neg (by omega), htake]
    dsimp only at h ⊢
    split at h
    · next hlow => rw [if_pos hlow, h]
    · next hlow =>
      split at h
      · cases h
      · next hle =>
        rw [if_neg hlow, if_neg (by omega), List.take_append_of_le_length (by omega), h]

theorem length_sub_lt_of_first {bs : List UInt8} {f : Frame} (h : first bs = some (.ok f)) :
    bs.length - f.header.length.toNat < bs.length := by
  have hl := (fits_of_first h).length_eq
  have hb := (fits_of_first h).length_le
  simp only [Header.size] at hl
  omega

/-- Cuts a byte string into frames from the front, up to an incomplete frame or an error. -/
def split (bs : List UInt8) : List Item :=
  match h : first bs with
  | none => []
  | some (.error e) => [.error e]
  | some (.ok f) =>
    have : bs.length - f.header.length.toNat < bs.length := length_sub_lt_of_first h
    .ok f :: split (bs.drop f.header.length.toNat)
termination_by bs.length

theorem split_of_none {bs : List UInt8} (h : first bs = none) : split bs = [] := by
  rw [split]
  split <;> simp_all

theorem split_of_error {bs : List UInt8} {e : ProtocolError} (h : first bs = some (.error e)) :
    split bs = [.error e] := by
  rw [split]
  split <;> simp_all

theorem split_of_ok {bs : List UInt8} {f : Frame} (h : first bs = some (.ok f)) :
    split bs = .ok f :: split (bs.drop f.header.length.toNat) := by
  rw [split]
  split <;> simp_all

theorem slice_eq (b : FrameBuffer) (start stop : Nat) :
    b.slice start stop = (b.pending.take stop).drop start := by
  rw [slice, pending, Array.toList_extract, List.extract, List.drop_take, List.drop_drop]
  congr 1
  omega

theorem next_eq_first {b : FrameBuffer} (h : b.fault = none) :
    b.next = (first b.pending, match first b.pending with
      | none => b
      | some (.error e) => { b with fault := some e }
      | some (.ok f) => { b with taken := b.taken + f.header.length.toNat }) := by
  unfold next first
  rw [h]
  dsimp only
  rw [length_pending, slice_eq, slice_eq, List.drop_zero]
  split
  · rfl
  · split
    · rfl
    · split <;> rfl

theorem next_of_fault {b : FrameBuffer} {e : ProtocolError} (h : b.fault = some e) :
    b.next = (some (.error e), b) := by
  rw [next, h]

theorem pending_compact (b : FrameBuffer) : b.compact.pending = b.pending := by
  unfold compact
  split
  · next h => simp [pending, h]
  · split
    · simp only [pending, List.drop_zero, Array.toList_extract, List.extract]
      exact List.take_of_length_le (by simp)
    · rfl

theorem taken_compact_le {b : FrameBuffer} (h : b.taken ≤ b.held.size) :
    b.compact.taken ≤ b.compact.held.size := by
  unfold compact
  split
  · exact Nat.zero_le _
  · split
    · exact Nat.zero_le _
    · exact h

theorem pending_feed {b : FrameBuffer} (h : b.fault = none) (hle : b.taken ≤ b.held.size)
    (bs : List UInt8) : (b.feed bs).pending = b.pending ++ bs := by
  have hc : b.compact.taken ≤ b.compact.held.toList.length := taken_compact_le hle
  rw [feed, h, if_neg (by simp), pending]
  dsimp only
  rw [Array.toList_append, List.drop_append_of_le_length hc, ← pending, pending_compact]

theorem pending_taken (b : FrameBuffer) (n : Nat) :
    FrameBuffer.pending { b with taken := b.taken + n } = b.pending.drop n := by
  rw [pending, pending, List.drop_drop]

theorem fault_compact (b : FrameBuffer) : b.compact.fault = b.fault := by
  unfold compact
  split
  · rfl
  · split <;> rfl

theorem fault_feed (b : FrameBuffer) (bs : List UInt8) : (b.feed bs).fault = b.fault := by
  unfold feed
  split
  · rfl
  · exact fault_compact b

theorem taken_feed_le {b : FrameBuffer} (h : b.taken ≤ b.held.size) (bs : List UInt8) :
    (b.feed bs).taken ≤ (b.feed bs).held.size := by
  unfold feed
  split
  · exact h
  · have hc := taken_compact_le h
    simp only [Array.size_append]
    omega

theorem feed_of_fault {b : FrameBuffer} {e : ProtocolError} (h : b.fault = some e)
    (bs : List UInt8) : b.feed bs = b := by
  rw [feed, h, if_pos (by simp)]

theorem next_of_none {b : FrameBuffer} (h : b.next.1 = none) : b.next.2 = b := by
  cases hf : b.fault with
  | some e =>
    rw [next_of_fault hf]
  | none =>
    rw [next_eq_first hf] at h ⊢
    dsimp only at h ⊢
    rw [h]

/-- A drain is a take that asks for more items than can be there. -/
theorem drain_eq_take {b : FrameBuffer} {n : Nat} (h : b.buffered < n) : b.drain = b.take n := by
  induction n generalizing b with
  | zero => omega
  | succ n ih =>
    rw [drain, take]
    split
    · next hnext => rw [hnext]
    · next hnext => rw [hnext]
    · next f b' hnext =>
      have hlt := buffered_lt_of_next_ok hnext
      have hrest : b'.drain = b'.take n := ih (by omega)
      simp only [hnext, hrest]

theorem drain_finished (b : FrameBuffer) :
    b.drain.2.next.1 = none ∨ ∃ e, .error e ∈ b.drain.1 := by
  fun_induction drain b with
  | case1 b b' hnext =>
    have hsame := next_of_none (b := b) (by rw [hnext])
    rw [hnext] at hsame
    dsimp only at hsame ⊢
    rw [hsame, hnext]
    exact .inl rfl
  | case2 b e b' hnext => exact .inr ⟨e, by simp⟩
  | case3 b f b' hnext hlt r ih =>
    rcases ih with hnone | ⟨e, he⟩
    · exact .inl hnone
    · exact .inr ⟨e, List.mem_cons_of_mem _ he⟩

inductive Operation
  | feed (bs : List UInt8)
  | next
  | take (n : Nat)
  | drain

def perform (b : FrameBuffer) : Operation → List Item × FrameBuffer
  | .feed bs => ([], b.feed bs)
  | .next => (b.next.1.toList, b.next.2)
  | .take n => b.take n
  | .drain => b.drain

def run (b : FrameBuffer) : List Operation → List Item × FrameBuffer
  | [] => ([], b)
  | op :: ops =>
    ((b.perform op).1 ++ (run (b.perform op).2 ops).1, (run (b.perform op).2 ops).2)

def Operation.fed : Operation → List UInt8
  | .feed bs => bs
  | _ => []

def fed (ops : List Operation) : List UInt8 := ops.flatMap Operation.fed

def upToError : List Item → List Item
  | [] => []
  | .ok f :: is => .ok f :: upToError is
  | .error e :: _ => [.error e]

def frames (is : List Item) : List Frame := is.filterMap Except.toOption

@[simp] theorem upToError_ok_append (fs : List Frame) (is : List Item) :
    upToError (fs.map .ok ++ is) = fs.map .ok ++ upToError is := by
  induction fs with
  | nil => rfl
  | cons f fs ih => simp [upToError, ih]

@[simp] theorem upToError_ok (fs : List Frame) : upToError (fs.map .ok) = fs.map .ok := by
  simpa [upToError] using upToError_ok_append fs []

@[simp] theorem frames_ok (fs : List Frame) : frames (fs.map .ok) = fs := by
  induction fs with
  | nil => rfl
  | cons f fs ih => simpa [frames, Except.toOption] using ih

theorem run_append (b : FrameBuffer) (xs ys : List Operation) :
    b.run (xs ++ ys) = ((b.run xs).1 ++ ((b.run xs).2.run ys).1, ((b.run xs).2.run ys).2) := by
  induction xs generalizing b with
  | nil => rfl
  | cons op xs ih => simp [run, ih]

/-- What a buffer that was fed `bs` and gave `is` looks like.  The last clause of each case lets
the bytes still to come be cut together with those that are pending. -/
inductive Follows (bs : List UInt8) : List Item → FrameBuffer → Prop
  | flowing (fs : List Frame) (b : FrameBuffer) (sound : b.fault = none)
      (inside : b.taken ≤ b.held.size) (encoded : fs.flatMap Frame.encode ++ b.pending = bs)
      (cut : ∀ t, split (bs ++ t) = fs.map .ok ++ split (b.pending ++ t)) :
      Follows bs (fs.map .ok) b
  | stuck (fs : List Frame) (e : ProtocolError) (n : Nat) (b : FrameBuffer)
      (faulty : b.fault = some e) (cut : ∀ t, split (bs ++ t) = fs.map .ok ++ [.error e]) :
      Follows bs (fs.map .ok ++ .error e :: List.replicate n (.error e)) b

namespace Follows

variable {bs : List UInt8} {is : List Item} {b : FrameBuffer}

theorem start : Follows [] [] FrameBuffer.empty :=
  flowing [] _ rfl (Nat.le_refl _) rfl fun _ => rfl

theorem feed (h : Follows bs is b) (new : List UInt8) : Follows (bs ++ new) is (b.feed new) := by
  cases h with
  | flowing fs _ sound inside encoded cut =>
    have hp := pending_feed sound inside new
    refine flowing fs _ ((fault_feed b new).trans sound) (taken_feed_le inside new) ?_ ?_
    · rw [hp, ← List.append_assoc, encoded]
    · intro t
      rw [hp, List.append_assoc, cut, List.append_assoc]
  | stuck fs e n _ faulty cut =>
    rw [feed_of_fault faulty]
    refine stuck fs e n b faulty fun t => ?_
    rw [List.append_assoc, cut]

theorem next (h : Follows bs is b) : Follows bs (is ++ b.next.1.toList) b.next.2 := by
  cases h with
  | flowing fs _ sound inside encoded cut =>
    rw [next_eq_first sound]
    cases hfirst : first b.pending with
    | none =>
      simpa using flowing fs b sound inside encoded cut
    | some i =>
      cases i with
      | error e =>
        refine stuck fs e 0 _ rfl fun t => ?_
        rw [cut, split_of_error (first_append hfirst t)]
      | ok f =>
        have hf := fits_of_first hfirst
        have hpending : b.pending = f.encode ++ b.pending.drop f.header.length.toNat := by
          rw [hf.encode_eq, List.take_append_drop]
        have hle : f.header.length.toNat ≤ b.held.size - b.taken := by
          have hlength := hf.length_le
          rwa [length_pending, buffered] at hlength
        have hmap : fs.map Except.ok ++ [Except.ok f] =
            ((fs ++ [f]).map Except.ok : List Item) := by simp
        show Follows bs (fs.map .ok ++ [.ok f]) _
        rw [hmap]
        refine flowing (fs ++ [f]) _ sound ?_ ?_ ?_
        · dsimp only
          omega
        · rw [pending_taken, List.flatMap_append, List.append_assoc, ← encoded]
          nth_rewrite 2 [hpending]
          simp
        · intro t
          rw [pending_taken, cut, split_of_ok (first_append hfirst t),
            List.drop_append_of_le_length hf.length_le]
          simp
  | stuck fs e n _ faulty cut =>
    have hlast : fs.map Except.ok ++ Except.error e :: List.replicate n (.error e) ++
        [Except.error e] =
        (fs.map .ok ++ .error e :: List.replicate (n + 1) (.error e) : List Item) := by
      rw [List.replicate_succ']
      simp
    rw [next_of_fault faulty]
    show Follows bs (_ ++ [.error e]) b
    rw [hlast]
    exact stuck fs e (n + 1) b faulty cut

theorem take (h : Follows bs is b) (n : Nat) :
    Follows bs (is ++ (b.take n).1) (b.take n).2 := by
  induction n generalizing is b with
  | zero => simpa [FrameBuffer.take] using h
  | succ n ih =>
    have hnext := h.next
    rw [FrameBuffer.take]
    split
    · next hb =>
      rw [hb] at hnext
      exact hnext
    · next hb =>
      rw [hb] at hnext
      exact hnext
    · next hb =>
      rw [hb] at hnext
      simpa using ih hnext

theorem perform (h : Follows bs is b) (op : Operation) :
    Follows (bs ++ op.fed) (is ++ (b.perform op).1) (b.perform op).2 := by
  cases op with
  | feed new => simpa [FrameBuffer.perform, Operation.fed] using h.feed new
  | next => simpa [FrameBuffer.perform, Operation.fed] using h.next
  | take n => simpa [FrameBuffer.perform, Operation.fed] using h.take n
  | drain =>
    have hd := h.take (b.buffered + 1)
    rw [← drain_eq_take (Nat.lt_succ_self _)] at hd
    simpa [FrameBuffer.perform, Operation.fed] using hd

theorem run (h : Follows bs is b) (ops : List Operation) :
    Follows (bs ++ FrameBuffer.fed ops) (is ++ (b.run ops).1) (b.run ops).2 := by
  induction ops generalizing bs is b with
  | nil => simpa [FrameBuffer.run, FrameBuffer.fed] using h
  | cons op ops ih =>
    simpa [FrameBuffer.run, FrameBuffer.fed] using ih (h.perform op)

/-- What came out, up to the first error, is the front of the split, and what the split has
beyond it can still come out. -/
theorem upToError_append (h : Follows bs is b) : ∃ rest, upToError is ++ rest = split bs ∧
    ((b.next.1 = none ∨ ∃ e, .error e ∈ is) → rest = []) := by
  cases h with
  | flowing fs _ sound inside encoded cut =>
    have hcut := cut []
    rw [List.append_nil, List.append_nil] at hcut
    refine ⟨split b.pending, by rw [upToError_ok, hcut], ?_⟩
    rintro (hnone | ⟨e, he⟩)
    · rw [next_eq_first sound] at hnone
      exact split_of_none hnone
    · simp at he
  | stuck fs e n _ faulty cut =>
    have hcut := cut []
    rw [List.append_nil] at hcut
    exact ⟨[], by rw [upToError_ok_append, hcut, List.append_nil]; rfl, fun _ => rfl⟩

theorem upToError_eq (h : Follows bs is b)
    (hend : b.next.1 = none ∨ ∃ e, .error e ∈ is) : upToError is = split bs := by
  obtain ⟨rest, hrest, hnil⟩ := h.upToError_append
  rw [hnil hend, List.append_nil] at hrest
  exact hrest

theorem frames_encode_append (h : Follows bs is b) (hok : ∀ e, .error e ∉ is) :
    (frames is).flatMap Frame.encode ++ b.pending = bs := by
  cases h with
  | flowing fs _ sound inside encoded cut => rw [frames_ok, encoded]
  | stuck fs e n _ faulty cut =>
    refine absurd ?_ (hok e)
    simp

theorem fault_of_mem (h : Follows bs is b) {e : ProtocolError} (he : .error e ∈ is) :
    b.fault = some e := by
  cases h with
  | flowing fs _ sound inside encoded cut => simp at he
  | stuck fs e' n _ faulty cut =>
    have heq : e = e' := by
      rcases List.mem_append.mp he with hmem | hmem
      · simp at hmem
      · rw [← List.replicate_succ] at hmem
        simpa using List.eq_of_mem_replicate hmem
    rw [faulty, heq]

end Follows

/-- A faulty buffer gives its error to every later call and stays as it is. -/
theorem perform_of_fault {b : FrameBuffer} {e : ProtocolError} (h : b.fault = some e)
    (op : Operation) : (∀ i ∈ (b.perform op).1, i = .error e) ∧ (b.perform op).2 = b := by
  have htake : ∀ n, (∀ i ∈ (b.take n).1, i = .error e) ∧ (b.take n).2 = b := by
    intro n
    cases n with
    | zero => simp [take]
    | succ n => simp [take, next_of_fault h]
  cases op with
  | feed bs => simp [perform, feed_of_fault h]
  | next => simp [perform, next_of_fault h]
  | take n => exact htake n
  | drain =>
    rw [perform, drain_eq_take (Nat.lt_succ_self _)]
    exact htake _

theorem run_of_fault {b : FrameBuffer} {e : ProtocolError} (h : b.fault = some e)
    (ops : List Operation) : (∀ i ∈ (b.run ops).1, i = .error e) ∧ (b.run ops).2 = b := by
  induction ops with
  | nil => simp [run]
  | cons op ops ih =>
    obtain ⟨hop, hb⟩ := perform_of_fault h op
    rw [run, hb]
    refine ⟨fun i hi => ?_, ih.2⟩
    rcases List.mem_append.mp hi with hi | hi
    · exact hop i hi
    · exact ih.1 i hi

/-- However the bytes come in and however items are asked for, what comes out up to the first
error is the front of the split of all that was fed, and the whole of it once the buffer has
nothing more to give.  The frames and the waiting bytes spell what was fed; an error lasts. -/
theorem run_follows_split (ops : List Operation) :
    let is := (empty.run ops).1
    let b := (empty.run ops).2
    upToError is <+: split (fed ops) ∧
    ((b.next.1 = none ∨ ∃ e, .error e ∈ is) → upToError is = split (fed ops)) ∧
    upToError (empty.run (ops ++ [.drain])).1 = split (fed ops) ∧
    ((∀ e, .error e ∉ is) →
      (frames is).flatMap Frame.encode ++ b.pending = fed ops ∧
        b.pending.length = b.buffered) ∧
    ∀ e, .error e ∈ is → ∀ more,
      (∀ i ∈ (b.run more).1, i = .error e) ∧ (b.run more).2.next.1 = some (.error e) ∧
        (b.run more).2.buffered = b.buffered := by
  intro is b
  have h : Follows (fed ops) is b := Follows.start.run ops
  obtain ⟨rest, hrest, -⟩ := h.upToError_append
  refine ⟨⟨rest, hrest⟩, h.upToError_eq, ?_, ?_, ?_⟩
  · have hd : Follows (fed ops) (is ++ b.drain.1) b.drain.2 := by
      simpa [perform, Operation.fed] using h.perform .drain
    have hend : b.drain.2.next.1 = none ∨ ∃ e, .error e ∈ is ++ b.drain.1 := by
      rcases drain_finished b with hnone | ⟨e, he⟩
      · exact .inl hnone
      · exact .inr ⟨e, List.mem_append_right _ he⟩
    rw [run_append]
    simpa [run, perform] using hd.upToError_eq hend
  · intro hok
    exact ⟨h.frames_encode_append hok, length_pending b⟩
  · intro e he more
    have hfault := h.fault_of_mem he
    obtain ⟨hitems, hb⟩ := run_of_fault hfault more
    rw [hb, next_of_fault hfault]
    exact ⟨hitems, rfl, rfl⟩

end FrameBuffer
end CompositorClient
