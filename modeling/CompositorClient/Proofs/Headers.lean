import CompositorClient.Proofs.Cursor
import CompositorClient.Proofs.Splitting

/-! Headers and the sixteen bytes that spell them.  A header is put behind a buffer field by field
and read with a cursor that checks every field; each undoes the other, so that no two headers are
spelled alike and every sixteen bytes spell one. -/

namespace CompositorClient

namespace Record

def write (buf : List UInt8) : (fs : Record) → fs.Value → List UInt8
  | [], _ => buf
  | f :: fs, v => write (buf ++ f.encode v.1) fs v.2

@[simp] theorem write_eq (buf : List UInt8) (fs : Record) (v : fs.Value) :
    write buf fs v = buf ++ fs.encode v := by
  induction fs generalizing buf with
  | nil => simp [write, encode]
  | cons f fs ih => simp [write, encode, ih]

end Record

namespace Header

def write (buf : List UInt8) (h : Header) : List UInt8 := Record.header.write buf h.fields

/-- Reads a header off the front of `bs`, field by field. -/
def scan (bs : List UInt8) : Except ProtocolError Header := do
  let c ← Cursor.start "FrameHeader" size bs
  let (fields, _) ← c.record Record.header
  return ofFields fields

@[simp] theorem write_eq (buf : List UInt8) (h : Header) : write buf h = buf ++ h.encode := by
  simp [write, encode]

/-- Once there are sixteen bytes, no field is found too short. -/
@[simp] theorem scan_eq (bs : List UInt8) : scan bs = decode bs := by
  by_cases h : bs.length < size
  · simp [scan, decode, Cursor.start_of_lt _ h, h, bind, Except.bind]
  · have hroom : size ≤ bs.length := Nat.not_lt.mp h
    have hstart := Cursor.start_of_le "FrameHeader" hroom
    have hfields : 0 + Record.header.size ≤ bs.length := by
      rw [Nat.zero_add]
      exact hroom
    have hrecord := Cursor.record_of_le (c := { name := "FrameHeader", payload := bs })
      Record.header hfields
    simp [scan, decode, read, hstart, hrecord, h, Cursor.rest, bind, Except.bind, pure, Except.pure]

theorem decode_of_le {bs : List UInt8} (h : size ≤ bs.length) : decode bs = .ok (read bs) := by
  simp [decode, Nat.not_lt.mpr h]

theorem decode_of_lt {bs : List UInt8} (h : bs.length < size) :
    decode bs = .error (.truncatedPayload "FrameHeader" size bs.length) := by
  simp [decode, h]

@[simp] theorem decode_encode_append (h : Header) (rest : List UInt8) :
    decode (h.encode ++ rest) = .ok h := by
  have hfields : Record.header.decode (h.encode ++ rest) = h.fields :=
    Record.decode_encode_append Record.header h.fields rest
  rw [decode_of_le (by simp), read, hfields, ofFields_fields]

theorem decode_eq_ok_iff {bs : List UInt8} {h : Header} : decode bs = .ok h ↔ h.encode <+: bs := by
  constructor
  · intro hdecode
    by_cases hlt : bs.length < size
    · simp [decode_of_lt hlt] at hdecode
    · have hle : size ≤ bs.length := Nat.not_lt.mp hlt
      obtain rfl : read bs = h := by simpa [decode_of_le hle] using hdecode
      rw [encode_read hle]
      exact List.take_prefix size bs
  · rintro ⟨rest, rfl⟩
    exact decode_encode_append h rest

theorem decode_eq_error_iff {bs : List UInt8} {e : ProtocolError} :
    decode bs = .error e ↔
      bs.length < size ∧ e = .truncatedPayload "FrameHeader" size bs.length := by
  by_cases hlt : bs.length < size
  · simp [decode_of_lt hlt, hlt, eq_comm]
  · simp [decode_of_le (Nat.not_lt.mp hlt), hlt]

/-- A header that is appended to a buffer takes sixteen bytes, which are read as that header
whatever follows them. The other way round, sixteen bytes or more are read as the one header that
is written with the first sixteen of them, and only fewer than sixteen cannot be read. -/
theorem headers_spelled_by_sixteen_bytes (h : Header) (buf rest bs : List UInt8) :
    (∃ bytes, write buf h = buf ++ bytes ∧ bytes.length = 16 ∧ scan (bytes ++ rest) = .ok h) ∧
    (16 ≤ bs.length → ∃ k, scan bs = .ok k ∧ write [] k = bs.take 16) ∧
    (scan bs = .ok h ↔ write [] h <+: bs) ∧
    ((∃ e, scan bs = .error e) ↔ bs.length < 16) ∧
    (∀ e, scan bs = .error e → e = .truncatedPayload "FrameHeader" 16 bs.length) ∧
    write buf h = buf ++ h.encode ∧ scan bs = decode bs := by
  refine ⟨⟨h.encode, write_eq buf h, length_encode h, ?_⟩, fun hle => ⟨read bs, ?_, ?_⟩, ?_, ?_,
    fun e he => ?_, write_eq buf h, scan_eq bs⟩
  · rw [scan_eq, decode_encode_append]
  · rw [scan_eq, decode_of_le hle]
  · rw [write_eq, List.nil_append, encode_read hle, size]
  · rw [scan_eq, write_eq, List.nil_append, decode_eq_ok_iff]
  · simp [decode_eq_error_iff, size]
  · rw [scan_eq] at he
    exact (decode_eq_error_iff.mp he).2

end Header
end CompositorClient
