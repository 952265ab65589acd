import CompositorClient.Dispatch.ReplyTable

/-! Why an operation of the client fails. -/

namespace CompositorClient

inductive ConfigError
  | unreadable (path reason : String)
  | malformed (reason : String)
  deriving DecidableEq

def ConfigError.message : ConfigError → String
  | unreadable path reason => "I/O error accessing config at " ++ path ++ ": " ++ reason
  | malformed reason => "failed to parse config TOML: " ++ reason

inductive ClientError
  | unreachable (path reason : String)
  | connectionClosed
  | notConnected
  | protocol (error : ProtocolError)
  | config (error : ConfigError)
  | notAQuery (type : MessageType)
  | unexpectedReply (expected actual : ReplyKind)
  | meshSize (width height : UInt32) (expected actual : Nat)
  deriving DecidableEq

namespace ClientError

def ofReplyError : ReplyError → ClientError
  | .connectionClosed => connectionClosed
  | .undecodable e => protocol e

def message : ClientError → String
  | unreachable path reason => "failed to connect to compositor at " ++ path ++ ": " ++ reason
  | connectionClosed => "connection closed"
  | notConnected => "not connected"
  | protocol e => "protocol error: " ++ e.message
  | config e => "configuration error: " ++ e.message
  | notAQuery t => t.name ++ " is not a query"
  | unexpectedReply expected actual =>
    "expected a " ++ expected.name ++ " reply, got " ++ actual.name
  | meshSize width height expected actual =>
    "mesh of " ++ toString width.toNat ++ "x" ++ toString height.toNat ++ " needs "
      ++ toString expected ++ " vertices, got " ++ toString actual

end ClientError
end CompositorClient
