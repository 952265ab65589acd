import CompositorClient.Stream.Frame

/-! Cuts frames off an inbound byte stream that arrives in arbitrary chunks.  Only the
length field is looked at, so frames of unknown types are cut like any other.  A length
below the header's own size leaves no way to find the next frame; the buffer is then
faulty for good. -/

namespace CompositorClient

/-- The bytes held, of which the first `taken` have been returned as frames. -/
structure FrameBuffer where
  held : Array UInt8 := #[]
  taken : Nat := 0
  fault : Option ProtocolError := none

namespace FrameBuffer

/-- Returned bytes are let go when there are this many. -/
def compactionLimit : Nat := 64 * 1024

def empty : FrameBuffer := {}

/-- How many bytes wait to be returned. -/
def buffered (b : FrameBuffer) : Nat := b.held.size - b.taken

/-- The waiting bytes from `start` up to `stop`. -/
def slice (b : FrameBuffer) (start stop : Nat) : List UInt8 :=
  (b.held.extract (b.taken + start) (b.taken + stop)).toList

def pending (b : FrameBuffer) : List UInt8 := b.held.toList.drop b.taken

@[simp] theorem length_pending (b : FrameBuffer) : b.pending.length = b.buffered := by
  simp [pending, buffered]

def compact (b : FrameBuffer) : FrameBuffer :=
  if b.taken = b.held.size then { b with held := #[], taken := 0 }
  else if compactionLimit ≤ b.taken then
    { b with held := b.held.extract b.taken b.held.size, taken := 0 }
  else b

/-- A faulty buffer takes nothing more. -/
def feed (b : FrameBuffer) (bs : List UInt8) : FrameBuffer :=
  if b.fault.isSome then b
  else { b.compact with held := b.compact.held ++ bs.toArray }

abbrev Item := Except ProtocolError Frame

/-- Cuts off the next frame, if it has arrived in full. -/
def next (b : FrameBuffer) : Option Item × FrameBuffer :=
  match b.fault with
  | some e => (some (.error e), b)
  | none =>
    if b.buffered < Header.size then (none, b)
    else
      let header := Header.read (b.slice 0 Header.size)
      let length := header.length.toNat
      if length < Header.size then
        (some (.error (.malformedFrame header.length)),
          { b with fault := some (.malformedFrame header.length) })
      else if b.buffered < length then (none, b)
      else (some (.ok ⟨header, b.slice Header.size length⟩), { b with taken := b.taken + length })

theorem buffered_of_next_ok {b b' : FrameBuffer} {f : Frame} (h : b.next = (some (.ok f), b')) :
    Header.size ≤ f.header.length.toNat ∧ f.header.length.toNat ≤ b.buffered ∧
      b'.buffered = b.buffered - f.header.length.toNat := by
  unfold next at h
  split at h
  · simp at h
  · split at h
    · simp at h
    · dsimp only at h
      split at h
      · simp at h
      · split at h
        · simp at h
        · simp only [Prod.mk.injEq, Option.some.injEq, Except.ok.injEq] at h
          obtain ⟨rfl, rfl⟩ := h
          simp only [buffered] at *
          omega

theorem buffered_lt_of_next_ok {b b' : FrameBuffer} {f : Frame}
    (h : b.next = (some (.ok f), b')) : b'.buffered < b.buffered := by
  have := buffered_of_next_ok h
  simp only [Header.size] at this
  omega

/-- Pulls items until there are `n`, or a frame is incomplete, or an error has been given. -/
def take : Nat → FrameBuffer → List Item × FrameBuffer
  | 0, b => ([], b)
  | n + 1, b =>
    match b.next with
    | (none, b) => ([], b)
    | (some (.error e), b) => ([.error e], b)
    | (some (.ok f), b) => let r := take n b; (.ok f :: r.1, r.2)

/-- Pulls every item there is. -/
def drain (b : FrameBuffer) : List Item × FrameBuffer :=
  match h : b.next with
  | (none, b') => ([], b')
  | (some (.error e), b') => ([.error e], b')
  | (some (.ok f), b') =>
    have : b'.buffered < b.buffered := buffered_lt_of_next_ok h
    let r := drain b'
    (.ok f :: r.1, r.2)
termination_by b.buffered

end FrameBuffer
end CompositorClient
