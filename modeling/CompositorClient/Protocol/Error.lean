import CompositorClient.Protocol.MessageType

/-! What can be wrong with inbound bytes. -/

namespace CompositorClient

inductive ProtocolError
  | malformedFrame (length : UInt32)
  | truncatedPayload (kind : String) (needed available : Nat)
  | unknownMessageType (code : UInt16)
  deriving DecidableEq

namespace ProtocolError

def message : ProtocolError → String
  | malformedFrame length =>
    "malformed frame: declared length " ++ toString length.toNat ++ " is below the 16-byte header"
  | truncatedPayload kind needed available =>
    "truncated " ++ kind ++ " payload: need at least " ++ toString needed ++ " bytes, got "
      ++ toString available
  | unknownMessageType code => "unknown message type: " ++ toString code.toNat

end ProtocolError

/-- The largest size that can be asked for; larger demands are reported as this one. -/
def maxSize : Nat := 0xffffffffffffffff

end CompositorClient
