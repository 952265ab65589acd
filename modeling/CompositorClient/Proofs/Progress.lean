import CompositorClient.Proofs.Splitting

/-! Drains of a frame buffer.  A drain is pulled item by item, and is done once it has come to an
incomplete frame or to an error.  Every frame takes from the buffer the bytes that its header
declares, sixteen at least, so the drain is done before long, whatever lengths the bytes declare.
What has been returned lies inside what is held, and is let go before there is much of it. -/

namespace CompositorClient.FrameBuffer

structure Drain where
  buffer : FrameBuffer
  done : Bool := false

namespace Drain

/-- Pulls an item.  A drain that is done gives none, although a faulty buffer would. -/
def pull (d : Drain) : Option Item × Drain :=
  if d.done then (none, d)
  else
    match d.buffer.next with
    | (some (.ok f), b) => (some (.ok f), ⟨b, false⟩)
    | (item, b) => (item, ⟨b, true⟩)

/-- What the next `n` pulls give, and what becomes of the drain. -/
def pulls : Nat → Drain → List (Option Item) × Drain
  | 0, d => ([], d)
  | n + 1, d => let r := pulls n d.pull.2; (d.pull.1 :: r.1, r.2)

end Drain

/-- From the first buffer the frames come one after another, each as long as its header declares
and each taken from what is buffered; the last buffer is left. -/
inductive Yields : FrameBuffer → List Frame → FrameBuffer → Prop
  | nil {b : FrameBuffer} : Yields b [] b
  | cons {b b' last : FrameBuffer} {f : Frame} {fs : List Frame}
      (next : b.next = (some (.ok f), b'))
      (length_eq : f.header.length.toNat = Header.size + f.payload.length)
      (lowers : b'.buffered + f.header.length.toNat = b.buffered) (rest : Yields b' fs last) :
      Yields b (f :: fs) last

variable {b b' last : FrameBuffer} {f : Frame} {fs : List Frame} {e : ProtocolError}

theorem fault_of_next_ok (h : b.next = (some (.ok f), b')) : b.fault = none := by
  cases hfault : b.fault with
  | none => rfl
  | some e => simp [next_of_fault hfault] at h

theorem length_eq_of_next_ok (h : b.next = (some (.ok f), b')) :
    f.header.length.toNat = Header.size + f.payload.length := by
  have hnext := next_eq_first (fault_of_next_ok h)
  rw [h] at hnext
  exact (fits_of_first (congrArg Prod.fst hnext).symm).length_eq

theorem buffered_add_of_next_ok (h : b.next = (some (.ok f), b')) :
    b'.buffered + f.header.length.toNat = b.buffered := by
  have := buffered_of_next_ok h
  omega

namespace Yields

theorem step (h : b.next = (some (.ok f), b')) (rest : Yields b' fs last) :
    Yields b (f :: fs) last :=
  cons h (length_eq_of_next_ok h) (buffered_add_of_next_ok h) rest

/-- A frame has a header at least. -/
theorem bound (h : Yields b fs last) : 16 * fs.length + last.buffered ≤ b.buffered := by
  induction h with
  | nil => simp
  | cons next length_eq lowers rest ih =>
    simp only [Header.size] at length_eq
    simp only [List.length_cons]
    omega

theorem length_le (h : Yields b fs last) : fs.length ≤ b.buffered / 16 := by
  have := h.bound
  omega

end Yields

/-- A drain gives the frames there are, and then the error that the last buffer gives, if it gives
one. -/
theorem drain_yields (b : FrameBuffer) : ∃ (fs : List Frame) (err : Option ProtocolError)
    (last : FrameBuffer), Yields b fs last ∧ last.next.1 = err.map .error ∧
      b.drain = (fs.map .ok ++ (err.map .error).toList, last.next.2) := by
  fun_induction drain b with
  | case1 b b' hnext => exact ⟨[], none, b, .nil, by simp [hnext]⟩
  | case2 b e b' hnext => exact ⟨[], some e, b, .nil, by simp [hnext]⟩
  | case3 b f b' hnext hlt r ih =>
    obtain ⟨fs, err, last, hyields, hlast, hdrain⟩ := ih
    exact ⟨f :: fs, err, last, .step hnext hyields, hlast, by simp [r, hdrain]⟩

namespace Drain

theorem pulls_of_done {d : Drain} (h : d.done = true) (n : Nat) :
    d.pulls n = (List.replicate n none, d) := by
  induction n with
  | zero => rfl
  | succ n ih => simp [pulls, pull, h, ih, List.replicate_succ]

/-- The pulls give the items one by one, and then nothing for ever. -/
theorem pulls_eq (b : FrameBuffer) (n : Nat) : (pulls n { buffer := b }).1 =
    (b.drain.1.map some).take n ++ List.replicate (n - b.drain.1.length) none := by
  fun_induction drain b generalizing n with
  | case1 b b' hnext => cases n <;> simp [pulls, pull, hnext, pulls_of_done, List.replicate_succ]
  | case2 b e b' hnext => cases n <;> simp [pulls, pull, hnext, pulls_of_done]
  | case3 b f b' hnext hlt r ih => cases n <;> simp [pulls, pull, hnext, r, ih]

theorem pulls_done (b : FrameBuffer) (n : Nat) : b.drain.1.length ≤ n →
    (pulls (n + 1) { buffer := b }).2 = { buffer := b.drain.2, done := true } := by
  fun_induction drain b generalizing n with
  | case1 b b' hnext => simp [pulls, pull, hnext, pulls_of_done]
  | case2 b e b' hnext => simp [pulls, pull, hnext, pulls_of_done]
  | case3 b f b' hnext hlt r ih =>
    intro hlength
    cases n with
    | zero => simp at hlength
    | succ n =>
      have hrest : b'.drain.1.length ≤ n := by simpa [r] using hlength
      rw [pulls, pull]
      simp only [hnext]
      exact ih n hrest

end Drain

theorem taken_next_le (h : b.taken ≤ b.held.size) : b.next.2.taken ≤ b.next.2.held.size := by
  cases hfault : b.fault with
  | some e => simpa [next_of_fault hfault] using h
  | none =>
    rw [next_eq_first hfault]
    cases hfirst : first b.pending with
    | none => exact h
    | some i =>
      cases i with
      | error e => exact h
      | ok f =>
        have hle := (fits_of_first hfirst).length_le
        simp only [length_pending, buffered] at hle ⊢
        omega

theorem taken_take_le (h : b.taken ≤ b.held.size) (n : Nat) :
    (b.take n).2.taken ≤ (b.take n).2.held.size := by
  induction n generalizing b with
  | zero => exact h
  | succ n ih =>
    have hnext := taken_next_le h
    rw [take]
    split
    · next heq => simpa [heq] using hnext
    · next heq => simpa [heq] using hnext
    · next heq =>
      rw [heq] at hnext
      exact ih hnext

theorem taken_perform_le (h : b.taken ≤ b.held.size) (op : Operation) :
    (b.perform op).2.taken ≤ (b.perform op).2.held.size := by
  cases op with
  | feed bs => exact taken_feed_le h bs
  | next => exact taken_next_le h
  | take n => exact taken_take_le h n
  | drain =>
    rw [perform, drain_eq_take (Nat.lt_succ_self _)]
    exact taken_take_le h _

theorem taken_run_le (h : b.taken ≤ b.held.size) (ops : List Operation) :
    (b.run ops).2.taken ≤ (b.run ops).2.held.size := by
  induction ops generalizing b with
  | nil => exact h
  | cons op ops ih => exact ih (taken_perform_le h op)

theorem taken_compact_lt (b : FrameBuffer) : b.compact.taken < compactionLimit := by
  have hpos : 0 < compactionLimit := by decide
  unfold compact
  split
  · exact hpos
  · split
    · exact hpos
    · next hfew => exact Nat.not_le.mp hfew

theorem taken_feed_lt (h : b.fault = none) (bs : List UInt8) :
    (b.feed bs).taken < compactionLimit := by
  simpa [feed, h] using taken_compact_lt b

/-- Whatever a buffer holds, a drain of it gives at most a frame for every sixteen bytes that
wait, then at most one error, and then nothing however often it is pulled.  Each frame is as long
as its header declares, and just so many bytes fewer wait afterwards.  In the course of any calls
what has been returned lies inside what is held, and a feed that is taken leaves less than 65536
returned bytes there. -/
theorem drains_progress_to_an_end (b : FrameBuffer) :
    (∃ (fs : List Frame) (err : Option ProtocolError) (last : FrameBuffer),
      Yields b fs last ∧ fs.length ≤ b.buffered / 16 ∧ last.next.1 = err.map .error ∧
      b.drain = (fs.map .ok ++ (err.map .error).toList, last.next.2)) ∧
    (∀ n, (Drain.pulls n { buffer := b }).1 =
      (b.drain.1.map some).take n ++ List.replicate (n - b.drain.1.length) none) ∧
    (∀ n, b.drain.1.length ≤ n → (Drain.pulls (n + 1) { buffer := b }).2 =
      { buffer := b.drain.2, done := true }) ∧
    (b.taken ≤ b.held.size → ∀ ops, (b.run ops).2.taken ≤ (b.run ops).2.held.size) ∧
    (∀ ops, (empty.run ops).2.taken ≤ (empty.run ops).2.held.size) ∧
    (b.fault = none → ∀ bs, (b.feed bs).taken < 65536) := by
  refine ⟨?_, Drain.pulls_eq b, Drain.pulls_done b, taken_run_le,
    taken_run_le (Nat.le_refl 0), taken_feed_lt⟩
  obtain ⟨fs, err, last, hyields, hlast, hdrain⟩ := drain_yields b
  exact ⟨fs, err, last, hyields, hyields.length_le, hlast, hdrain⟩

end CompositorClient.FrameBuffer
