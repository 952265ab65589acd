import CompositorClient.Proofs.Layout
import CompositorClient.Protocol.Payload

/-! Payloads read with a cursor that checks every single step against the end of the bytes.
Once a payload has been found long enough for its fixed fields, and then for the tail they
declare, no other check fails: the cursor reads what the layout reads. -/

namespace CompositorClient

/-- A place in a payload, and the name under which a read past its end is reported. -/
structure Cursor where
  name : String
  payload : List UInt8
  position : Nat := 0

namespace Cursor

def start (name : String) (least : Nat) (payload : List UInt8) :
    Except ProtocolError Cursor :=
  if payload.length < least then .error (.truncatedPayload name least payload.length)
  else .ok { name, payload }

def rest (c : Cursor) : List UInt8 := c.payload.drop c.position

def take (c : Cursor) (n : Nat) : Except ProtocolError (List UInt8 × Cursor) :=
  if c.position + n ≤ c.payload.length then
    .ok (c.rest.take n, { c with position := c.position + n })
  else .error (.truncatedPayload c.name (min (c.position + n) maxSize) c.payload.length)

def field (c : Cursor) (f : Field) : Except ProtocolError (f.Value × Cursor) := do
  let (bs, c) ← c.take f.size
  return (f.decode bs, c)

def record (c : Cursor) : (fs : Record) → Except ProtocolError (fs.Value × Cursor)
  | [] => return ((), c)
  | f :: fs => do
    let (v, c) ← c.field f
    let (vs, c) ← c.record fs
    return ((v, vs), c)

def records (name : String) (fs : Record) : Nat → List UInt8 → Except ProtocolError (List fs.Value)
  | 0, _ => return []
  | n + 1, bs => do
    let c ← start name fs.size (bs.take fs.size)
    let (v, _) ← c.record fs
    let vs ← records name fs n (bs.drop fs.size)
    return v :: vs

def tail (name : String) : (t : Tail) → List UInt8 → Except ProtocolError t.Value
  | .records fs, bs => records name fs (bs.length / fs.size) bs
  | .empty, _ => return ()
  | .text, bs => return Padded.decode bs
  | .bytes, bs => return bs

/-- A size past the largest one counts as the largest. -/
def declared (c : Cursor) : Option Nat → Except ProtocolError (List UInt8)
  | none => return c.rest
  | some n => do
    let (bs, _) ← c.take (min n maxSize)
    return bs

end Cursor

/-- Reads a payload that holds at least `least` bytes: the fields, then the tail they declare,
whose records go by the name `inner`. -/
def Layout.scan (l : Layout) (name inner : String) (least : Nat) (payload : List UInt8) :
    Except ProtocolError l.Value := do
  let c ← Cursor.start name least payload
  let (fields, c) ← c.record l.fields
  let bs ← c.declared (l.extent fields)
  let tail ← Cursor.tail inner l.tail bs
  return (fields, tail)

namespace Cursor

variable {c : Cursor} {n : Nat}

theorem start_of_le (name : String) {least : Nat} {payload : List UInt8}
    (h : least ≤ payload.length) : start name least payload = .ok { name, payload } := by
  simp [start, Nat.not_lt.mpr h]

theorem start_of_lt (name : String) {least : Nat} {payload : List UInt8}
    (h : payload.length < least) :
    start name least payload = .error (.truncatedPayload name least payload.length) := by
  simp [start, h]

theorem take_of_le (h : c.position + n ≤ c.payload.length) :
    c.take n = .ok (c.rest.take n, { c with position := c.position + n }) := by
  simp [take, h]

theorem take_of_lt (h : c.payload.length < c.position + n) :
    c.take n =
      .error (.truncatedPayload c.name (min (c.position + n) maxSize) c.payload.length) := by
  simp [take, Nat.not_le.mpr h]

theorem field_of_le {f : Field} (h : c.position + f.size ≤ c.payload.length) :
    c.field f = .ok (f.decode c.rest, { c with position := c.position + f.size }) := by
  simp [field, take_of_le h, Field.decode_take_size, bind, Except.bind, pure, Except.pure]

theorem record_of_le (fs : Record) (h : c.position + fs.size ≤ c.payload.length) :
    c.record fs = .ok (fs.decode c.rest, { c with position := c.position + fs.size }) := by
  induction fs generalizing c with
  | nil => rfl
  | cons f fs ih =>
    rw [Record.size] at h
    have hfirst := field_of_le (c := c) (f := f) (by omega)
    have hothers := ih (c := { c with position := c.position + f.size }) (by simp; omega)
    simp [record, hfirst, hothers, bind, Except.bind, pure, Except.pure, Record.decode,
      Record.size, rest, List.drop_drop, Nat.add_assoc]

theorem records_of_le (name : String) {fs : Record} {bs : List UInt8}
    (h : n * fs.size ≤ bs.length) : records name fs n bs = .ok (fs.decodeMany n bs) := by
  induction n generalizing bs with
  | zero => rfl
  | succ n ih =>
    rw [Nat.succ_mul] at h
    have hlength : (bs.take fs.size).length = fs.size := List.length_take_of_le (by omega)
    have hstart := start_of_le name (Nat.le_of_eq hlength.symm)
    have hrecord := record_of_le (c := { name, payload := bs.take fs.size }) fs (by simp [hlength])
    have hrest : n * fs.size ≤ (bs.drop fs.size).length := by
      rw [List.length_drop]
      omega
    have hothers := ih hrest
    simp [records, hstart, hrecord, hothers, bind, Except.bind, pure, Except.pure, rest,
      Record.decodeMany, Record.decode_take]

theorem tail_eq (name : String) (t : Tail) (bs : List UInt8) :
    tail name t bs = .ok (t.decode bs) := by
  cases t with
  | records fs => exact records_of_le name (Nat.div_mul_le_self _ _)
  | _ => rfl

end Cursor

namespace Layout

/-- The cursor takes a payload exactly when the layout does, and refuses it for want of as many
bytes. -/
theorem scan_eq (l : Layout) (hsize : l.fields.size ≤ maxSize) (name inner : String)
    {p : List UInt8} (h : p.length < maxSize) :
    l.scan name inner l.fields.size p =
      if l.need p ≤ p.length then .ok (l.read p)
      else .error (.truncatedPayload name (min (l.need p) maxSize) p.length) := by
  by_cases hfields : p.length < l.fields.size
  · have hstart := Cursor.start_of_lt name hfields
    have hneed : l.need p = l.fields.size := if_pos hfields
    simp [scan, hstart, hneed, bind, Except.bind, Nat.not_le.mpr hfields, Nat.min_eq_left hsize]
  · rw [Nat.not_lt] at hfields
    have hstart := Cursor.start_of_le name hfields
    have hrecord := Cursor.record_of_le (c := { name, payload := p }) l.fields
      (by simpa using hfields)
    have hneed : l.need p = l.fields.size + (l.extent (l.fields.decode p)).getD 0 :=
      if_neg (Nat.not_lt.mpr hfields)
    cases hextent : l.extent (l.fields.decode p) with
    | none =>
      have hbytes : l.tailBytes p = p.drop l.fields.size := by simp [tailBytes, hextent]
      simp [scan, hstart, hrecord, hneed, hextent, hfields, hbytes, bind, Except.bind, pure,
        Except.pure, Cursor.rest, Cursor.declared, Cursor.tail_eq, read]
    | some n =>
      have hbytes : l.tailBytes p = (p.drop l.fields.size).take n := by simp [tailBytes, hextent]
      by_cases hroom : l.fields.size + n ≤ p.length
      · have hn : min n maxSize = n := Nat.min_eq_left (by omega)
        have htake := Cursor.take_of_le (c := { name, payload := p, position := l.fields.size })
          hroom
        simp [scan, hstart, hrecord, hneed, hextent, hroom, hbytes, hn, htake, bind, Except.bind,
          pure, Except.pure, Cursor.rest, Cursor.declared, Cursor.tail_eq, read]
      · -- past the largest size the two sums differ, but both count as the largest
        have htake := Cursor.take_of_lt (c := { name, payload := p, position := l.fields.size })
          (n := min n maxSize) (by simp; omega)
        have hmin : min (l.fields.size + min n maxSize) maxSize =
            min (l.fields.size + n) maxSize := by omega
        simp [scan, hstart, hrecord, hneed, hextent, hroom, htake, hmin, bind, Except.bind,
          Cursor.rest, Cursor.declared]

end Layout
end CompositorClient
