import CompositorClient.Connection.Basic

/-! The reader and the writer task, one step at a time, and their runs until nothing is left
to do.  Either task may end the connection; whichever claims the right to notify first
emits the terminal events. -/

namespace CompositorClient

/-- What one read from the stream brings. -/
inductive Input
  | bytes (bytes : List UInt8)
  | endOfStream
  | failure (text : String)
  | interruption
  deriving DecidableEq

namespace Stage

def rank : Stage → Nat
  | signal => 4
  | refuse => 3
  | claim => 2
  | notify => 1

theorem rank_pos (stage : Stage) : 0 < stage.rank := by
  cases stage <;> decide

theorem rank_le (stage : Stage) : stage.rank ≤ 4 := by
  cases stage <;> decide

end Stage

namespace Connection

/-- One step towards the end, with the stage that follows.  The terminal events and the end of
all unanswered queries are one step, as the dispatcher is locked meanwhile. -/
def endingStep (stage : Stage) (terminal : Option Event) (c : Connection) (d : Dispatcher) :
    Option Stage × Effect :=
  match stage with
  | .signal => (some .refuse, ⟨c.push .shutdown, d, []⟩)
  | .refuse => (some .claim, ⟨{ c with closed := true }, d, []⟩)
  | .claim =>
    if c.notified then (none, ⟨c, d, []⟩)
    else (some .notify, ⟨{ c with notified := true }, d, []⟩)
  | .notify => (none, ⟨c, d.close, terminal.toList ++ [.closed]⟩)

theorem rank_of_endingStep {stage next : Stage} {terminal : Option Event} {c : Connection}
    {d : Dispatcher} (h : (endingStep stage terminal c d).1 = some next) :
    next.rank < stage.rank := by
  cases stage with
  | signal => cases h; decide
  | refuse => cases h; decide
  | claim =>
    simp only [endingStep] at h
    split at h
    · cases h
    · cases h; decide
  | notify => cases h

/-- The reader takes input only while it waits for it. -/
def accept (c : Connection) (input : Input) : Connection :=
  if c.reader = .waiting then
    match input with
    | .bytes bs => { c with inbox := c.inbox.feed bs, reader := .cutting }
    | .endOfStream => { c with reader := .ending .signal none }
    | .failure text => { c with reader := .ending .signal (some (.transportError text)) }
    | .interruption => c
  else c

/-- The events that dispatching a frame emits; a frame that cannot be decoded is skipped. -/
def emitted : Except ProtocolError Delivery → List Event
  | .ok delivery => delivery.emitted
  | .error _ => []

def readerAfter (terminal : Option Event) : Option Stage → Reader
  | none => .stopped
  | some stage => .ending stage terminal

/-- None when the reader waits or has stopped. -/
def readerStep (c : Connection) (d : Dispatcher) : Option Effect :=
  match c.reader with
  | .waiting => none
  | .stopped => none
  | .cutting =>
    match c.inbox.next with
    | (none, inbox) => some ⟨{ c with inbox, reader := .waiting }, d, []⟩
    | (some (.error e), inbox) =>
      some ⟨{ c with inbox, reader := .ending .signal (some (.protocolViolation e)) }, d, []⟩
    | (some (.ok f), inbox) =>
      let r := d.dispatchFrame f
      some ⟨{ c with inbox }, r.2, emitted r.1⟩
  | .ending stage terminal =>
    let r := endingStep stage terminal c d
    some { r.2 with connection := { r.2.connection with reader := readerAfter terminal r.1 } }

/-- What bounds the steps the reader has left. -/
def readerWork (c : Connection) : Nat :=
  match c.reader with
  | .waiting => 0
  | .stopped => 0
  | .cutting => c.inbox.buffered + 5
  | .ending stage _ => stage.rank

theorem readerWork_lt {c : Connection} {d : Dispatcher} {e : Effect}
    (h : c.readerStep d = some e) : e.connection.readerWork < c.readerWork := by
  unfold readerStep at h
  split at h
  · cases h
  · cases h
  · next hr =>
    split at h
    · cases h
      simp [readerWork, hr]
    · cases h
      simp [readerWork, hr, Stage.rank]
    · next hn =>
      cases h
      have := FrameBuffer.buffered_lt_of_next_ok hn
      simp only [readerWork, hr]
      omega
  · next stage terminal hr =>
    cases h
    cases hs : (endingStep stage terminal c d).1 with
    | none =>
      cases stage <;> simp [readerWork, readerAfter, hr, Stage.rank]
    | some next =>
      have := rank_of_endingStep hs
      simpa [readerWork, readerAfter, hr] using this

/-- Runs the reader until it waits or has stopped. -/
def runReader (c : Connection) (d : Dispatcher) : Effect :=
  match h : c.readerStep d with
  | none => ⟨c, d, []⟩
  | some e =>
    have : e.connection.readerWork < c.readerWork := readerWork_lt h
    let r := runReader e.connection e.dispatcher
    { r with events := e.events ++ r.events }
termination_by c.readerWork

def writerAfter (terminal : Option Event) : Option Stage → Writer
  | none => .stopped
  | some stage => .ending stage terminal

/-- A writer that stops leaves nothing in the queue. -/
def setWriter (c : Connection) (w : Writer) : Connection :=
  { c with writer := w, outbox := if w = .stopped then [] else c.outbox }

/-- None when the writer waits or has stopped. -/
def writerStep (c : Connection) (d : Dispatcher) : Option Effect :=
  match c.writer with
  | .stopped => none
  | .running =>
    match c.outbox with
    | [] => none
    | .frame bytes :: rest =>
      match c.transport.fault with
      | none =>
        let transport := { c.transport with written := c.transport.written ++ bytes }
        some ⟨{ c with outbox := rest, transport }, d, []⟩
      | some text =>
        some ⟨{ c with outbox := rest, writer := .ending .refuse (some (.transportError text)) },
          d, []⟩
    | .shutdown :: rest =>
      let transport := { c.transport with shutdowns := c.transport.shutdowns + 1 }
      some ⟨{ c with outbox := rest, transport }.setWriter .stopped, d, []⟩
  | .ending stage terminal =>
    let r := endingStep stage terminal c d
    some { r.2 with connection := r.2.connection.setWriter (writerAfter terminal r.1) }

/-- What bounds the steps the writer has left. -/
def writerWork (c : Connection) : Nat :=
  match c.writer with
  | .stopped => 0
  | .running => c.outbox.length + 4
  | .ending stage _ => stage.rank

theorem writerWork_lt {c : Connection} {d : Dispatcher} {e : Effect}
    (h : c.writerStep d = some e) : e.connection.writerWork < c.writerWork := by
  unfold writerStep at h
  split at h
  · cases h
  · next hw =>
    split at h
    · cases h
    · next ho =>
      split at h
      · cases h
        simp [writerWork, hw, ho]
      · cases h
        simp only [writerWork, hw, ho, Stage.rank, List.length_cons]
        omega
    · cases h
      simp [writerWork, setWriter, hw]
  · next stage terminal hw =>
    cases h
    cases hs : (endingStep stage terminal c d).1 with
    | none => cases stage <;> simp [writerWork, writerAfter, setWriter, hw, Stage.rank]
    | some next =>
      have := rank_of_endingStep hs
      simpa [writerWork, writerAfter, setWriter, hw] using this

/-- Runs the writer until it waits or has stopped. -/
def runWriter (c : Connection) (d : Dispatcher) : Effect :=
  match h : c.writerStep d with
  | none => ⟨c, d, []⟩
  | some e =>
    have : e.connection.writerWork < c.writerWork := writerWork_lt h
    let r := runWriter e.connection e.dispatcher
    { r with events := e.events ++ r.events }
termination_by c.writerWork

/-- Runs both tasks until neither has anything to do. -/
def settle (c : Connection) (d : Dispatcher) : Effect :=
  let r := c.runReader d
  let w := r.connection.runWriter r.dispatcher
  { w with events := r.events ++ w.events }

/-- Gives the reader one input and runs both tasks. -/
def receive (c : Connection) (d : Dispatcher) (input : Input) : Effect :=
  (c.accept input).settle d

end Connection
end CompositorClient
