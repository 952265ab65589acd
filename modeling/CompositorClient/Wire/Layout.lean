import CompositorClient.Wire.Field

/-! The layout of a payload: a fixed record, then a tail whose length the record declares.
What follows the declared tail is ignored. -/

namespace CompositorClient

/-- What stands behind the fixed fields. -/
inductive Tail
  | empty
  | text
  | bytes
  | records (fields : Record)

namespace Tail

@[reducible] def Value : Tail → Type
  | empty => Unit
  | text => String
  | bytes => List UInt8
  | records fs => List fs.Value

def encode : (t : Tail) → t.Value → List UInt8
  | empty, _ => []
  | text, s => Utf8.encode s ++ [0]
  | bytes, bs => bs
  | records fs, rs => rs.flatMap fs.encode

def decode : (t : Tail) → List UInt8 → t.Value
  | empty, _ => ()
  | text, bs => Padded.decode bs
  | bytes, bs => bs
  | records fs, bs => fs.decodeMany (bs.length / fs.size) bs

def stored : (t : Tail) → t.Value → t.Value
  | empty, v => v
  | text, s => Padded.terminated s
  | bytes, bs => bs
  | records fs, rs => rs.map fs.stored

def agrees : (t : Tail) → t.Value → t.Value → Bool
  | empty, _, _ => true
  | text, x, y => x == y
  | bytes, x, y => x == y
  | records fs, x, y => x.length == y.length && (x.zip y).all fun p => fs.agrees p.1 p.2

end Tail

/-- `extent` is the byte count that the fixed fields declare for the tail; with none, the
tail is all that is left. -/
structure Layout where
  fields : Record
  tail : Tail
  extent : fields.Value → Option Nat

namespace Layout

/-- Fixed fields and nothing behind them. -/
@[reducible] def fixed (fields : Record) : Layout := ⟨fields, .empty, fun _ => some 0⟩

@[reducible] def Value (l : Layout) : Type := l.fields.Value × l.tail.Value

def encode (l : Layout) (v : l.Value) : List UInt8 :=
  l.fields.encode v.1 ++ l.tail.encode v.2

def stored (l : Layout) (v : l.Value) : l.Value :=
  (l.fields.stored v.1, l.tail.stored v.2)

def agrees (l : Layout) (x y : l.Value) : Bool :=
  l.fields.agrees x.1 y.1 && l.tail.agrees x.2 y.2

/-- How many bytes `bs` must hold: the fixed fields first, then what they declare. -/
def need (l : Layout) (bs : List UInt8) : Nat :=
  if bs.length < l.fields.size then l.fields.size
  else l.fields.size + (l.extent (l.fields.decode bs)).getD 0

/-- The bytes of the tail. -/
def tailBytes (l : Layout) (bs : List UInt8) : List UInt8 :=
  match l.extent (l.fields.decode bs) with
  | some n => (bs.drop l.fields.size).take n
  | none => bs.drop l.fields.size

def read (l : Layout) (bs : List UInt8) : l.Value :=
  (l.fields.decode bs, l.tail.decode (l.tailBytes bs))

/-- Fails with the number of bytes needed when `bs` holds fewer. -/
def decode (l : Layout) (bs : List UInt8) : Except Nat l.Value :=
  if l.need bs ≤ bs.length then .ok (l.read bs) else .error (l.need bs)

end Layout
end CompositorClient
