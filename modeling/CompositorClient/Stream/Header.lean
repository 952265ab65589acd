import CompositorClient.Protocol.Error
import CompositorClient.Wire.Field

/-! The sixteen bytes in front of every payload. -/

namespace CompositorClient

structure Header where
  length : UInt32
  type : UInt16
  flags : UInt16 := 0
  sequence : UInt32
  descriptors : Int32 := 0
  deriving DecidableEq

@[reducible] def Record.header : Record := [.word, .half, .half, .word, .int]

namespace Header

def size : Nat := 16

def fields (h : Header) : Record.header.Value :=
  (h.length, h.type, h.flags, h.sequence, h.descriptors, ())

def ofFields : Record.header.Value → Header
  | (length, type, flags, sequence, descriptors, ()) =>
    ⟨length, type, flags, sequence, descriptors⟩

@[simp] theorem ofFields_fields (h : Header) : ofFields h.fields = h := rfl
@[simp] theorem fields_ofFields (v : Record.header.Value) : (ofFields v).fields = v := rfl

def encode (h : Header) : List UInt8 := Record.header.encode h.fields

@[simp] theorem length_encode (h : Header) : h.encode.length = size := rfl

/-- The header spelled by the first bytes, of which there are enough. -/
def read (bs : List UInt8) : Header := ofFields (Record.header.decode bs)

def decode (bs : List UInt8) : Except ProtocolError Header :=
  if bs.length < size then .error (.truncatedPayload "FrameHeader" size bs.length)
  else .ok (read bs)

/-- Zero when the declared length does not even cover the header. -/
def payloadLength (h : Header) : Nat := h.length.toNat - size

end Header
end CompositorClient
