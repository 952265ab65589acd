import CompositorClient.Protocol.Payload
import CompositorClient.Stream.Header

/-! Frames: a header and the payload behind it. -/

namespace CompositorClient

structure Frame where
  header : Header
  payload : List UInt8
  deriving DecidableEq

namespace Frame

def encode (f : Frame) : List UInt8 := f.header.encode ++ f.payload

@[simp] theorem length_encode (f : Frame) : f.encode.length = Header.size + f.payload.length := by
  simp [encode]

/-- The length field counts the header too. -/
def ofMessage (m : Message) (sequence : UInt32) : Frame :=
  let payload := m.encode
  { header :=
      { length := countWord (Header.size + payload.length), type := m.type.code, sequence }
    payload }

def message (f : Frame) : Except ProtocolError Message :=
  match MessageType.ofCode? f.header.type with
  | none => .error (.unknownMessageType f.header.type)
  | some t => Message.decode t f.payload

/-- The kind of reply that a frame of this type carries, if any. -/
def replyKind (f : Frame) : Option ReplyKind :=
  (MessageType.ofCode? f.header.type).bind ReplyKind.ofType?

end Frame
end CompositorClient
