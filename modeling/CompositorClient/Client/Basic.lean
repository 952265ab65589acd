import CompositorClient.Client.WindowTable
import CompositorClient.Connection.Task

/-! A client of the compositor.  Commands and queries go to the newest connection; the older
ones still run their tasks, and all of them share one dispatcher.  The client's own
subscription, made before any other, strikes destroyed windows from the table. -/

namespace CompositorClient

structure WindowOptions where
  width : UInt32
  height : UInt32
  x : Int32 := 0
  y : Int32 := 0
  layer : Option Int32 := none
  deriving DecidableEq

namespace WindowOptions

/-- What makes a window: a buffer, a place, a size, a layer if one is asked for, and the
window's pointer and keyboard events. -/
def commands (o : WindowOptions) (id : WindowId) : List Command :=
  [.createBuffer ⟨id, o.width, o.height, formatArgb8888, 0⟩,
    .setWindowPosition ⟨id, o.x, o.y⟩, .setWindowSize ⟨id, o.width, o.height⟩]
  ++ (o.layer.map (Command.setWindowLayer id)).toList
  ++ [.registerPointerEvent id, .registerKeyboardEvent id]

def geometry (o : WindowOptions) : Geometry := ⟨o.x, o.y, o.width, o.height⟩

end WindowOptions

/-- A mesh has as many vertices as its grid; nothing else is checked before it is sent. -/
def Command.check : Command → Except ClientError Unit
  | .setWindowMeshTransform m =>
    if m.vertices.length = m.width.toNat * m.height.toNat then .ok ()
    else .error
      (.meshSize m.width m.height (m.width.toNat * m.height.toNat) m.vertices.length)
  | _ => .ok ()

namespace Connection

/-- Queues commands one by one until one is refused.  Before the command at `i`, others do
`disturb i` to the connection. -/
def sendEach (disturb : Nat → Connection → Connection) (i : Nat) (c : Connection) :
    List Command → Except ClientError Unit × Connection
  | [] => (.ok (), c)
  | m :: ms =>
    match (disturb i c).send (.command m) with
    | .error e => (.error e, disturb i c)
    | .ok c => sendEach disturb (i + 1) c ms

end Connection

/-- A subscription whose events wait to be taken. -/
structure Channel where
  id : SubscriptionId
  queue : List Event := []

/-- A query that has been made, with the kind of reply it expects. -/
structure PendingQuery where
  ticket : Ticket
  kind : ReplyKind
  deriving DecidableEq

structure Client where
  dispatcher : Dispatcher
  windows : WindowTable := .empty
  nextImage : ImageId := 1
  connections : List Connection := []
  channels : List Channel := []

namespace Client

/-- The client's own subscription. -/
def evictor : SubscriptionId := (Dispatcher.empty.subscribe .windowDestroyed).1

def new : Client where
  dispatcher := (Dispatcher.empty.subscribe .windowDestroyed).2

def current? (c : Client) : Option Connection := c.connections.getLast?

def setCurrent (c : Client) (conn : Connection) : Client :=
  { c with connections := c.connections.dropLast ++ [conn] }

def isConnected (c : Client) : Bool := c.current?.any fun conn => !conn.closed

def send (c : Client) (m : Message) : Except ClientError Client :=
  match c.current? with
  | none => .error .notConnected
  | some conn => (conn.send m).map c.setCurrent

/-- A command that fails changes nothing. -/
def perform (c : Client) (command : Command) : Except ClientError Client :=
  match command.check with
  | .error e => .error e
  | .ok () =>
    (c.send (.command command)).map fun c => { c with windows := c.windows.record command }

/-- The window enters the table once all its commands are queued; an id that has been minted
is used up in any case. -/
def createWindowAmid (disturb : Nat → Connection → Connection) (c : Client) (o : WindowOptions) :
    Except ClientError WindowId × Client :=
  match c.current? with
  | none => (.error .notConnected, c)
  | some conn =>
    let (id, windows) := c.windows.allocate
    match conn.sendEach disturb 0 (o.commands id) with
    | (.error e, conn) => (.error e, { c with windows }.setCurrent conn)
    | (.ok (), conn) => (.ok id, { c with windows := windows.insert id o.geometry }.setCurrent conn)

def createWindow : Client → WindowOptions → Except ClientError WindowId × Client :=
  createWindowAmid fun _ conn => conn

/-- Image ids count up from one and wrap around. -/
def uploadImage (c : Client) (width height format : UInt32) (data : List UInt8) :
    Except ClientError ImageId × Client :=
  match c.current? with
  | none => (.error .notConnected, c)
  | some conn =>
    let id := c.nextImage
    let c := { c with nextImage := id + 1 }
    match conn.send (.command (.uploadImage ⟨id, width, height, format, data⟩)) with
    | .error e => (.error e, c)
    | .ok conn => (.ok id, c.setCurrent conn)

def close (c : Client) : Client :=
  match c.current? with
  | none => c
  | some conn => c.setCurrent conn.close

def query (c : Client) (q : Query) : Except ClientError PendingQuery × Client :=
  match c.current? with
  | none => (.error .notConnected, c)
  | some conn =>
    let (result, conn, dispatcher) := conn.query c.dispatcher (.query q)
    (result.map (PendingQuery.mk · q.answer), { c with dispatcher }.setCurrent conn)

/-- What a query of `kind` makes of an answer. -/
def result (kind : ReplyKind) : Answer → Except ClientError Reply
  | .error e => .error (.ofReplyError e)
  | .ok r => if r.kind = kind then .ok r else .error (.unexpectedReply kind r.kind)

/-- None while the query is unanswered. -/
def collect (c : Client) (p : PendingQuery) : Option (Except ClientError Reply) × Client :=
  let (answer, table) := c.dispatcher.table.collect p.ticket
  (answer.map (result p.kind), { c with dispatcher := { c.dispatcher with table } })

/-- Gives an unanswered query up. -/
def drop (c : Client) (p : PendingQuery) : Client :=
  { c with dispatcher := c.dispatcher.abandon p.ticket }

end Client
end CompositorClient
