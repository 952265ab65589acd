import CompositorClient.Dispatch.Dispatcher
import CompositorClient.Error
import CompositorClient.Stream.Buffer
import CompositorClient.Stream.Sequence

/-! A connection to the compositor.  Callers queue frames; a writer task takes them from the
queue to the stream, and a reader task dispatches what the stream brings.  The dispatcher is
shared, so every step that touches it takes and returns it. -/

namespace CompositorClient

/-- What waits to be written. -/
inductive Outbound
  | frame (bytes : List UInt8)
  | shutdown
  deriving DecidableEq

/-- The write half of the stream, as the compositor sees it. -/
structure Transport where
  fault : Option String := none
  written : List UInt8 := []
  shutdowns : Nat := 0

/-- The steps by which a task ends the connection: it asks the writer to stop, refuses
further sends, claims the right to notify, and notifies. -/
inductive Stage
  | signal | refuse | claim | notify
  deriving DecidableEq

inductive Reader
  | waiting
  | cutting
  | ending (stage : Stage) (terminal : Option Event)
  | stopped
  deriving DecidableEq

inductive Writer
  | running
  | ending (stage : Stage) (terminal : Option Event)
  | stopped
  deriving DecidableEq

structure Connection where
  sequence : Sequence := {}
  closed : Bool := false
  notified : Bool := false
  outbox : List Outbound := []
  inbox : FrameBuffer := {}
  reader : Reader := .waiting
  writer : Writer := .running
  transport : Transport := {}

/-- What a step leads to, with the events it emits in order. -/
structure Effect where
  connection : Connection
  dispatcher : Dispatcher
  events : List Event := []

namespace Connection

/-- Starts a connection over a stream, which is announced before anything is read from it. -/
def start (transport : Transport) (d : Dispatcher) : Effect :=
  ⟨{ transport }, d, [.connected]⟩

/-- Nobody takes from the queue of a writer that has stopped. -/
def push (c : Connection) (item : Outbound) : Connection :=
  if c.writer = .stopped then c else { c with outbox := c.outbox ++ [item] }

def enqueue (c : Connection) (bytes : List UInt8) : Except ClientError Connection :=
  if c.closed then .error .connectionClosed
  else if c.writer = .stopped then .error .connectionClosed
  else .ok (c.push (.frame bytes))

/-- Queues a message that expects no answer. -/
def send (c : Connection) (m : Message) : Except ClientError Connection :=
  c.enqueue (Frame.ofMessage m 0).encode

/-- The first check of a query. -/
def expect (c : Connection) (m : Message) : Except ClientError ReplyKind :=
  match m.expectedReply with
  | none => .error (.notAQuery m.type)
  | some kind => if c.closed then .error .connectionClosed else .ok kind

/-- Takes a fresh sequence number and a ticket for the answer. -/
def enroll (c : Connection) (d : Dispatcher) (kind : ReplyKind) :
    UInt32 × Ticket × Connection × Dispatcher :=
  let s := c.sequence.next
  let r := d.register kind s.1
  (s.1, r.1, { c with sequence := s.2 }, r.2)

/-- Queues the query itself; this checks once more that the connection is open. -/
def submit (c : Connection) (m : Message) (sequence : UInt32) : Except ClientError Connection :=
  c.enqueue (Frame.ofMessage m sequence).encode

/-- A query that cannot be queued gives its ticket up. -/
def query (c : Connection) (d : Dispatcher) (m : Message) :
    Except ClientError Ticket × Connection × Dispatcher :=
  match c.expect m with
  | .error e => (.error e, c, d)
  | .ok kind =>
    let (sequence, ticket, c, d) := c.enroll d kind
    match c.submit m sequence with
    | .ok c => (.ok ticket, c, d)
    | .error e => (.error e, c, d.abandon ticket)

/-- Refuses further sends and lets the writer finish what is queued.  The reader goes on. -/
def close (c : Connection) : Connection :=
  if c.closed then c else { c with closed := true }.push .shutdown

end Connection
end CompositorClient
