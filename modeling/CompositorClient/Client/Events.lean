import CompositorClient.Client.Basic

/-! How events reach the client's subscribers, and how its connections run.  Every event is
handed to its subscribers before the next one is emitted. -/

namespace CompositorClient

/-- What waiting for an event gives. -/
inductive Received
  | event (event : Event)
  | pending
  | ended
  deriving DecidableEq

/-- Takes the event into the queue if the call is for this channel. -/
def Channel.handle (ch : Channel) (call : Call) : Channel :=
  if ch.id = call.1 then { ch with queue := ch.queue ++ [call.2] } else ch

namespace Client

/-- Registers a caller's own handler. -/
def on (c : Client) (kind : EventKind) : SubscriptionId × Client :=
  let r := c.dispatcher.subscribe kind
  (r.1, { c with dispatcher := r.2 })

/-- Opens a channel. -/
def subscribe (c : Client) (kind : EventKind) : SubscriptionId × Client :=
  let r := c.on kind
  (r.1, { r.2 with channels := c.channels ++ [{ id := r.1 }] })

def unsubscribe (c : Client) (id : SubscriptionId) : Bool × Client :=
  let r := c.dispatcher.unsubscribe id
  (r.1, { c with dispatcher := r.2 })

/-- Throws a channel away; its subscription stays. -/
def dropChannel (c : Client) (id : SubscriptionId) : Bool × Client :=
  (c.channels.any (·.id == id), { c with channels := c.channels.filter (·.id != id) })

def setChannel (c : Client) (ch : Channel) : Client :=
  { c with channels := c.channels.map fun old => if old.id = ch.id then ch else old }

/-- An event that has already come, if there is one. -/
def tryReceive (c : Client) (id : SubscriptionId) : Option Event × Client :=
  match c.channels.find? (·.id == id) with
  | some ⟨_, e :: es⟩ => (some e, c.setChannel ⟨id, es⟩)
  | _ => (none, c)

/-- A channel ends when it is empty and its subscription has been removed. -/
def receiveFrom (c : Client) (id : SubscriptionId) : Received × Client :=
  match c.tryReceive id with
  | (some e, c) => (.event e, c)
  | (none, c) => (if c.dispatcher.subscribers.any (·.id == id) then .pending else .ended, c)

/-- Tells the client's own subscription which window is gone. -/
def evict (c : Client) : Event → Client
  | .windowDestroyed id => { c with windows := c.windows.erase id }
  | _ => c

def handle (c : Client) (call : Call) : Client :=
  if call.1 = evictor then c.evict call.2
  else { c with channels := c.channels.map (·.handle call) }

@[simp] theorem dispatcher_handle (c : Client) (call : Call) :
    (c.handle call).dispatcher = c.dispatcher := by
  unfold handle evict
  split
  · split <;> rfl
  · rfl

@[simp] theorem connections_handle (c : Client) (call : Call) :
    (c.handle call).connections = c.connections := by
  unfold handle evict
  split
  · split <;> rfl
  · rfl

/-- Makes the calls for events emitted one after another, and gives them. -/
def emit (c : Client) (events : List Event) : List Call × Client :=
  let calls := c.dispatcher.calls events
  (calls, calls.foldl handle c)

@[simp] theorem emit_nil (c : Client) : c.emit [] = ([], c) := rfl

theorem foldl_handle (c : Client) (calls : List Call) :
    (calls.foldl handle c).dispatcher = c.dispatcher ∧
      (calls.foldl handle c).connections = c.connections := by
  induction calls generalizing c with
  | nil => exact ⟨rfl, rfl⟩
  | cons call calls ih =>
    rw [List.foldl_cons, (ih _).1, (ih _).2, dispatcher_handle, connections_handle]
    exact ⟨rfl, rfl⟩

@[simp] theorem dispatcher_emit (c : Client) (events : List Event) :
    (c.emit events).2.dispatcher = c.dispatcher := (c.foldl_handle _).1

@[simp] theorem connections_emit (c : Client) (events : List Event) :
    (c.emit events).2.connections = c.connections := (c.foldl_handle _).2

/-- Starts a connection over a stream; it becomes the current one. -/
def connect (c : Client) (transport : Transport) : List Call × Client :=
  let e := Connection.start transport c.dispatcher
  { c with connections := c.connections ++ [e.connection], dispatcher := e.dispatcher }.emit
    e.events

/-- Takes over what came of one connection's tasks. -/
def absorb (c : Client) (i : Nat) (e : Effect) : List Call × Client :=
  { c with connections := c.connections.set i e.connection, dispatcher := e.dispatcher }.emit
    e.events

/-- Runs the tasks of one connection until they have nothing left to do. -/
def settleAt (c : Client) (i : Nat) : List Call × Client :=
  match c.connections[i]? with
  | none => ([], c)
  | some conn => c.absorb i (conn.settle c.dispatcher)

def settleEach (c : Client) : List Nat → List Call × Client
  | [] => ([], c)
  | i :: is =>
    let r := c.settleAt i
    let s := r.2.settleEach is
    (r.1 ++ s.1, s.2)

/-- Runs the tasks of every connection. -/
def settle (c : Client) : List Call × Client :=
  c.settleEach (List.range c.connections.length)

/-- Gives the reader of one connection an input. -/
def accept (c : Client) (i : Nat) (input : Input) : Client :=
  { c with connections := c.connections.modify i (·.accept input) }

def setFault (c : Client) (i : Nat) (fault : Option String) : Client :=
  { c with connections := c.connections.modify i fun conn =>
      { conn with transport := { conn.transport with fault } } }

end Client
end CompositorClient
