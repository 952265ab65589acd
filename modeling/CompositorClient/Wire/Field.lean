import CompositorClient.Text.Padded
import CompositorClient.Wire.LittleEndian
import CompositorClient.Wire.Single

/-! The kinds of field a payload is made of.  Each kind has one size, one written form and
one reading of the bytes at the front of a string; a record is a list of fields in order. -/

namespace CompositorClient

inductive Field
  | byte | half | word | int | single
  | flag | wideFlag
  | singles (n : Nat)
  | gap (n : Nat)
  | text (capacity : Nat)
  deriving DecidableEq, Repr

namespace Field

@[reducible] def Value : Field → Type
  | byte => UInt8
  | half => UInt16
  | word => UInt32
  | int => Int32
  | single => Single
  | flag => Bool
  | wideFlag => Bool
  | singles n => Vector Single n
  | gap _ => Unit
  | text _ => String

def size : Field → Nat
  | byte => 1
  | half => 2
  | word => 4
  | int => 4
  | single => 4
  | flag => 1
  | wideFlag => 4
  | singles n => 4 * n
  | gap n => n
  | text capacity => capacity

def encode : (f : Field) → f.Value → List UInt8
  | byte, v => [v]
  | half, v => LittleEndian.bytes 2 v.toNat
  | word, v => LittleEndian.bytes 4 v.toNat
  | int, v => LittleEndian.bytes 4 v.toUInt32.toNat
  | single, v => LittleEndian.bytes 4 v.bits.toNat
  | flag, v => [if v then 1 else 0]
  | wideFlag, v => LittleEndian.bytes 4 (if v then 1 else 0)
  | singles _, v => v.toList.flatMap (fun x => LittleEndian.bytes 4 x.bits.toNat)
  | gap n, _ => List.replicate n 0
  | text capacity, s => Padded.encode capacity s

/-- The number spelled by the first `n` bytes. -/
def front (n : Nat) (bs : List UInt8) : Nat :=
  LittleEndian.value (bs.take n)

/-- Reads the front of `bs`, which holds at least `size` bytes.  Every byte or word other
than zero is a set flag, and the bytes of a gap are passed over. -/
def decode : (f : Field) → List UInt8 → f.Value
  | byte, bs => UInt8.ofNat (front 1 bs)
  | half, bs => UInt16.ofNat (front 2 bs)
  | word, bs => UInt32.ofNat (front 4 bs)
  | int, bs => (UInt32.ofNat (front 4 bs)).toInt32
  | single, bs => ⟨UInt32.ofNat (front 4 bs)⟩
  | flag, bs => front 1 bs != 0
  | wideFlag, bs => front 4 bs != 0
  | singles n, bs => Vector.ofFn (n := n) fun i => ⟨UInt32.ofNat (front 4 (bs.drop (4 * i)))⟩
  | gap _, _ => ()
  | text capacity, bs => Padded.decode (bs.take capacity)

/-- What a value becomes when it is written and read back: itself, but for long texts. -/
def stored : (f : Field) → f.Value → f.Value
  | text capacity, s => Padded.stored capacity s
  | byte, v | half, v | word, v | int, v | single, v | flag, v | wideFlag, v => v
  | singles _, v => v
  | gap _, v => v

/-- Equality of values, with numbers compared as numbers. -/
def agrees : (f : Field) → f.Value → f.Value → Bool
  | single, x, y => x.agrees y
  | singles _, x, y => (x.toList.zip y.toList).all fun p => p.1.agrees p.2
  | byte, x, y | half, x, y | word, x, y | int, x, y => x == y
  | flag, x, y | wideFlag, x, y => x == y
  | gap _, _, _ => true
  | text _, x, y => x == y

end Field

abbrev Record := List Field

namespace Record

@[reducible] def Value : Record → Type
  | [] => Unit
  | f :: fs => f.Value × Value fs

def size : Record → Nat
  | [] => 0
  | f :: fs => f.size + size fs

def encode : (fs : Record) → Value fs → List UInt8
  | [], _ => []
  | f :: fs, v => f.encode v.1 ++ encode fs v.2

def decode : (fs : Record) → List UInt8 → Value fs
  | [], _ => ()
  | f :: fs, bs => (f.decode bs, decode fs (bs.drop f.size))

def stored : (fs : Record) → Value fs → Value fs
  | [], v => v
  | f :: fs, v => (f.stored v.1, stored fs v.2)

def agrees : (fs : Record) → Value fs → Value fs → Bool
  | [], _, _ => true
  | f :: fs, x, y => f.agrees x.1 y.1 && agrees fs x.2 y.2

/-- Reads `n` records that follow one another. -/
def decodeMany (fs : Record) : Nat → List UInt8 → List (Value fs)
  | 0, _ => []
  | n + 1, bs => decode fs bs :: decodeMany fs n (bs.drop (size fs))

@[simp] theorem length_decodeMany (fs : Record) (n : Nat) (bs : List UInt8) :
    (decodeMany fs n bs).length = n := by
  induction n generalizing bs <;> simp_all [decodeMany]

end Record
end CompositorClient
