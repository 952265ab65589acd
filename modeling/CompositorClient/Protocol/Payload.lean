import CompositorClient.Protocol.Body
import CompositorClient.Protocol.Error

/-! Payloads: the bytes of a message behind its header. -/

namespace CompositorClient.Message

def encode (m : Message) : List UInt8 :=
  m.type.layout.encode m.body

def decode (t : MessageType) (bs : List UInt8) : Except ProtocolError Message :=
  match t.layout.decode bs with
  | .ok b => .ok (ofBody t b)
  | .error needed => .error (.truncatedPayload t.payloadName (min needed maxSize) bs.length)

/-- The message with each text cut to what its field keeps. -/
def stored (m : Message) : Message :=
  ofBody m.type (m.type.layout.stored m.body)

/-- Equality with single-precision numbers compared as numbers. -/
def agrees (m n : Message) : Bool :=
  if h : n.type = m.type then m.type.layout.agrees m.body (h ▸ n.body) else false

end CompositorClient.Message
