import CompositorClient.Dispatch.Event
import CompositorClient.Dispatch.ReplyTable
import CompositorClient.Stream.Frame

/-! Sorts inbound frames: replies go to the table of unanswered queries, notices to the
subscribers of their events in the order they subscribed, and all else is ignored. -/

namespace CompositorClient

abbrev SubscriptionId := UInt64

structure Subscriber where
  id : SubscriptionId
  kind : EventKind
  deriving DecidableEq

/-- One event handed to one subscriber. -/
abbrev Call := SubscriptionId × Event

/-- What became of a message. -/
inductive Delivery
  | events (events : List Event) (handlers : Nat)
  | reply (kind : ReplyKind) (resolved : Bool)
  | ignored (type : MessageType)
  deriving DecidableEq

/-- The events emitted in the course of a delivery. -/
def Delivery.emitted : Delivery → List Event
  | events es _ => es
  | _ => []

structure Dispatcher where
  subscribers : List Subscriber := []
  lastId : SubscriptionId := 0
  table : ReplyTable := {}

namespace Dispatcher

def empty : Dispatcher := {}

def subscribe (d : Dispatcher) (kind : EventKind) : SubscriptionId × Dispatcher :=
  let id := d.lastId + 1
  (id, { d with subscribers := d.subscribers ++ [⟨id, kind⟩], lastId := id })

/-- False if there is no such subscription. -/
def unsubscribe (d : Dispatcher) (id : SubscriptionId) : Bool × Dispatcher :=
  (d.subscribers.any (·.id == id),
    { d with subscribers := d.subscribers.filter (·.id != id) })

def listeners (d : Dispatcher) (kind : EventKind) : List SubscriptionId :=
  (d.subscribers.filter (·.kind == kind)).map (·.id)

/-- The calls that emitting events one after another makes. -/
def calls (d : Dispatcher) (events : List Event) : List Call :=
  events.flatMap fun e => (d.listeners e.kind).map fun id => (id, e)

@[simp] theorem calls_nil (d : Dispatcher) : d.calls [] = [] := rfl
@[simp] theorem calls_append (d : Dispatcher) (es fs : List Event) :
    d.calls (es ++ fs) = d.calls es ++ d.calls fs := by
  simp [calls]

def register (d : Dispatcher) (kind : ReplyKind) (sequence : UInt32) : Ticket × Dispatcher :=
  let r := d.table.register kind sequence
  (r.1, { d with table := r.2 })

def abandon (d : Dispatcher) (ticket : Ticket) : Dispatcher :=
  { d with table := d.table.abandon ticket }

def close (d : Dispatcher) : Dispatcher :=
  { d with table := d.table.close.2 }

def isClosed (d : Dispatcher) : Bool := d.table.closed

def dispatch (d : Dispatcher) (m : Message) (sequence : UInt32) : Delivery × Dispatcher :=
  match m with
  | .reply r =>
    let result := d.table.resolve r sequence
    (.reply r.kind result.1, { d with table := result.2 })
  | .notice n => (.events n.events (d.calls n.events).length, d)
  | .command c => (.ignored c.type, d)
  | .query q => (.ignored q.type, d)

/-- A reply that cannot be decoded fails the query it would have answered. -/
def dispatchFrame (d : Dispatcher) (f : Frame) : Except ProtocolError Delivery × Dispatcher :=
  match f.message with
  | .ok m =>
    let r := d.dispatch m f.header.sequence
    (.ok r.1, r.2)
  | .error e =>
    match f.replyKind with
    | none => (.error e, d)
    | some kind =>
      (.error e, { d with table := (d.table.fail kind f.header.sequence (.undecodable e)).2 })

end Dispatcher
end CompositorClient
