import CompositorClient.Proofs.Intact
import Mathlib.Data.List.Basic
import Mathlib.Tactic.Common

/-! One connection under every schedule.  A session takes the atomic steps of the two tasks, of
the stream and of any number of callers in any order, and keeps what has happened so far. -/

namespace CompositorClient

inductive Task
  | reader | writer
  deriving DecidableEq

/-- What can happen next.  A call takes several moves, between which others may come: `close`
refuses and pushes, a command pushes, and a query draws a number, registers and pushes. -/
inductive Move
  | step (task : Task)
  | arrive (input : Input)
  | fault (text : Option String)
  | refuse
  | push (item : Outbound)
  | draw
  | register (kind : ReplyKind) (sequence : UInt32)
  | abandon (ticket : Ticket)
  | collect (ticket : Ticket)
  | subscribe (kind : EventKind)
  | unsubscribe (id : SubscriptionId)
  deriving DecidableEq

/-- `reads` is what the stream will bring, `drawn` the numbers that queries hold and have not
registered under yet; the rest is history. -/
structure Session where
  connection : Connection
  dispatcher : Dispatcher
  reads : List Input := []
  drawn : List UInt32 := []
  log : List (ReplyKind × UInt32) := []
  collected : List (Ticket × Answer) := []
  frames : List Frame := []
  events : List Event := []
  calls : List Call := []

namespace Session

def start (transport : Transport) (subscribers : List Subscriber) (lastId : SubscriptionId) :
    Session :=
  let e := Connection.start transport { subscribers, lastId }
  { connection := e.connection, dispatcher := e.dispatcher, events := e.events
    calls := e.dispatcher.calls e.events }

def absorb (s : Session) (e : Effect) : Session :=
  { s with
    connection := e.connection
    dispatcher := e.dispatcher
    events := s.events ++ e.events
    calls := s.calls ++ e.dispatcher.calls e.events }

def incoming (s : Session) : Option Frame :=
  match s.connection.reader, s.connection.inbox.next.1 with
  | .cutting, some (.ok f) => some f
  | _, _ => none

/-- The reader takes what the stream has brought when it waits, and else goes on with its work. -/
def read (s : Session) : Session :=
  match s.connection.reader, s.reads with
  | .waiting, input :: rest => { s with connection := s.connection.accept input, reads := rest }
  | _, _ =>
    match s.connection.readerStep s.dispatcher with
    | none => s
    | some e => { s.absorb e with frames := s.frames ++ s.incoming.toList }

def write (s : Session) : Session :=
  match s.connection.writerStep s.dispatcher with
  | none => s
  | some e => s.absorb e

def setFault (s : Session) (text : Option String) : Session :=
  { s with connection := { s.connection with
      transport := { s.connection.transport with fault := text } } }

def draw (s : Session) : Session :=
  { s with
    connection := { s.connection with sequence := s.connection.sequence.next.2 }
    drawn := s.drawn ++ [s.connection.sequence.next.1] }

/-- Only a number that has been drawn can be registered, and only once. -/
def register (s : Session) (kind : ReplyKind) (sequence : UInt32) : Session :=
  if sequence ∈ s.drawn then
    { s with
      dispatcher := (s.dispatcher.register kind sequence).2
      drawn := s.drawn.erase sequence
      log := s.log ++ [(kind, sequence)] }
  else s

theorem connection_register (s : Session) (kind : ReplyKind) (sequence : UInt32) :
    (s.register kind sequence).connection = s.connection := by
  unfold register
  split <;> rfl

def collect (s : Session) (ticket : Ticket) : Session :=
  let r := s.dispatcher.table.collect ticket
  { s with
    dispatcher := { s.dispatcher with table := r.2 }
    collected := s.collected ++ (r.1.map fun answer => (ticket, answer)).toList }

def move (s : Session) : Move → Session
  | .step .reader => s.read
  | .step .writer => s.write
  | .arrive input => { s with reads := s.reads ++ [input] }
  | .fault text => s.setFault text
  | .refuse => { s with connection := { s.connection with closed := true } }
  | .push item => { s with connection := s.connection.push item }
  | .draw => s.draw
  | .register kind sequence => s.register kind sequence
  | .abandon ticket => { s with dispatcher := s.dispatcher.abandon ticket }
  | .collect ticket => s.collect ticket
  | .subscribe kind => { s with dispatcher := (s.dispatcher.subscribe kind).2 }
  | .unsubscribe id => { s with dispatcher := (s.dispatcher.unsubscribe id).2 }

def run (s : Session) (moves : List Move) : Session := moves.foldl move s

@[simp] theorem run_nil (s : Session) : s.run [] = s := rfl
theorem run_cons (s : Session) (m : Move) (moves : List Move) :
    s.run (m :: moves) = (s.move m).run moves := rfl
@[simp] theorem run_concat (s : Session) (moves : List Move) (m : Move) :
    s.run (moves ++ [m]) = (s.run moves).move m := List.foldl_concat _ _ _ _
theorem run_append (s : Session) (xs ys : List Move) : s.run (xs ++ ys) = (s.run xs).run ys :=
  List.foldl_append

end Session

def Input.end? : Input → Option (Option Event)
  | .endOfStream => some none
  | .failure text => some (some (.transportError text))
  | .bytes _ | .interruption => none

namespace Connection

/-- How far a task has come with ending the connection, and its terminal event. -/
def ending? (c : Connection) : Task → Option (Stage × Option Event)
  | .reader => match c.reader with
    | .ending stage terminal => some (stage, terminal)
    | _ => none
  | .writer => match c.writer with
    | .ending stage terminal => some (stage, terminal)
    | _ => none

def advance (c : Connection) (terminal : Option Event) (next : Option Stage) :
    Task → Connection
  | .reader => { c with reader := readerAfter terminal next }
  | .writer => c.setWriter (writerAfter terminal next)

@[simp] theorem closed_advance (c : Connection) (terminal : Option Event) (next : Option Stage)
    (task : Task) : (c.advance terminal next task).closed = c.closed := by
  cases task <;> rfl

@[simp] theorem notified_advance (c : Connection) (terminal : Option Event) (next : Option Stage)
    (task : Task) : (c.advance terminal next task).notified = c.notified := by
  cases task <;> rfl

end Connection

namespace Session

def conclude (s : Session) (task : Task) (stage : Stage) (terminal : Option Event) : Session :=
  let r := Connection.endingStep stage terminal s.connection s.dispatcher
  s.absorb { r.2 with connection := r.2.connection.advance terminal r.1 task }

/-- The step, stage by stage; a claim that comes late only stops the task. -/
inductive Concludes (s : Session) (task : Task) : Stage → Option Event → Session → Prop
  | signal {terminal} : Concludes s task .signal terminal
    { s with connection := (s.connection.push .shutdown).advance terminal (some .refuse) task }
  | refuse {terminal} : Concludes s task .refuse terminal { s with
      connection := { s.connection with closed := true }.advance terminal (some .claim) task }
  | late {terminal} (notified : s.connection.notified = true) : Concludes s task .claim terminal
    { s with connection := s.connection.advance terminal none task }
  | claim {terminal} (first : s.connection.notified = false) : Concludes s task .claim terminal
    { s with
      connection := { s.connection with notified := true }.advance terminal (some .notify) task }
  | notify {terminal} : Concludes s task .notify terminal
    (s.absorb ⟨s.connection.advance terminal none task, s.dispatcher.close,
      terminal.toList ++ [.closed]⟩)

theorem concludes (s : Session) (task : Task) (stage : Stage) (terminal : Option Event) :
    Concludes s task stage terminal (s.conclude task stage terminal) := by
  cases stage with
  | signal => simpa [conclude, Connection.endingStep, absorb] using Concludes.signal
  | refuse => simpa [conclude, Connection.endingStep, absorb] using Concludes.refuse
  | claim =>
    cases hn : s.connection.notified with
    | false => simpa [conclude, Connection.endingStep, absorb, hn] using Concludes.claim hn
    | true => simpa [conclude, Connection.endingStep, absorb, hn] using Concludes.late hn
  | notify => simpa [conclude, Connection.endingStep] using Concludes.notify

theorem Concludes.frames {s s' : Session} {task : Task} {stage : Stage} {terminal : Option Event}
    (step : Concludes s task stage terminal s') : s'.frames = s.frames := by
  cases step <;> rfl

theorem incoming_eq {s : Session} {f : Frame} (cutting : s.connection.reader = .cutting)
    (next : s.connection.inbox.next.1 = some (.ok f)) : s.incoming = some f := by
  rw [incoming, cutting, next]

inductive ReadStep (s : Session) : Session → Prop
  | idle (rests : s.connection.reader = .waiting ∧ s.reads = [] ∨ s.connection.reader = .stopped) :
    ReadStep s s
  | bytes {bs rest} (waiting : s.connection.reader = .waiting)
      (brought : s.reads = .bytes bs :: rest) :
    ReadStep s { s with
      connection := { s.connection with inbox := s.connection.inbox.feed bs, reader := .cutting }
      reads := rest }
  | again {rest} (waiting : s.connection.reader = .waiting)
      (brought : s.reads = .interruption :: rest) : ReadStep s { s with reads := rest }
  | finish {input rest terminal} (waiting : s.connection.reader = .waiting)
      (brought : s.reads = input :: rest) (last : input.end? = some terminal) :
    ReadStep s { s with
      connection := { s.connection with reader := .ending .signal terminal }
      reads := rest }
  | drained (cutting : s.connection.reader = .cutting) (next : s.connection.inbox.next.1 = none) :
    ReadStep s { s with
      connection := { s.connection with inbox := s.connection.inbox.next.2, reader := .waiting } }
  | malformed {e} (cutting : s.connection.reader = .cutting)
      (next : s.connection.inbox.next.1 = some (.error e)) :
    ReadStep s { s with
      connection := { s.connection with
        inbox := s.connection.inbox.next.2
        reader := .ending .signal (some (.protocolViolation e)) } }
  | frame {f} (cutting : s.connection.reader = .cutting)
      (next : s.connection.inbox.next.1 = some (.ok f)) :
    ReadStep s { s.absorb ⟨{ s.connection with inbox := s.connection.inbox.next.2 },
        (s.dispatcher.dispatchFrame f).2, f.events⟩ with
      frames := s.frames ++ [f] }
  | ending {stage terminal} (stands : s.connection.reader = .ending stage terminal) :
    ReadStep s (s.conclude .reader stage terminal)

theorem readStep (s : Session) : ReadStep s s.read := by
  unfold read
  split
  · next input rest hwaiting hreads =>
    cases input with
    | bytes bs =>
      rw [Connection.accept, if_pos hwaiting]
      exact .bytes hwaiting hreads
    | endOfStream =>
      rw [Connection.accept, if_pos hwaiting]
      exact .finish hwaiting hreads rfl
    | failure text =>
      rw [Connection.accept, if_pos hwaiting]
      exact .finish hwaiting hreads rfl
    | interruption =>
      rw [Connection.accept, if_pos hwaiting]
      exact .again hwaiting hreads
  · next hnot =>
    cases hr : s.connection.reader with
    | waiting =>
      have hreads : s.reads = [] := by
        cases hs : s.reads with
        | nil => rfl
        | cons input rest => exact absurd hs (hnot input rest hr)
      rw [Connection.readerStep, hr]
      exact .idle (.inl ⟨hr, hreads⟩)
    | cutting =>
      rw [Connection.readerStep, hr, incoming, hr]
      rcases hn : s.connection.inbox.next with ⟨_ | e | f, inbox⟩
      · simpa [absorb, hn] using ReadStep.drained hr (by rw [hn])
      · simpa [absorb, hn] using ReadStep.malformed hr (e := e) (by rw [hn])
      · simpa [absorb, hn, hr, Dispatcher.emitted_dispatchFrame] using
          ReadStep.frame hr (f := f) (by rw [hn])
    | ending stage terminal =>
      rw [Connection.readerStep, hr, incoming, hr]
      simpa [absorb, conclude, Connection.advance] using ReadStep.ending hr
    | stopped =>
      rw [Connection.readerStep, hr]
      exact .idle (.inr hr)

theorem read_of_incoming {s : Session} {f : Frame} (h : s.incoming = some f) :
    s.move (.step .reader) =
      { s.absorb ⟨{ s.connection with inbox := s.connection.inbox.next.2 },
          (s.dispatcher.dispatchFrame f).2, f.events⟩ with frames := s.frames ++ [f] } := by
  have step := s.readStep
  show s.read = _
  generalize s.read = s' at step ⊢
  cases step with
  | frame cutting next =>
    rw [incoming_eq cutting next] at h
    cases h
    rfl
  | drained cutting next | malformed cutting next => simp [incoming, cutting, next] at h
  | bytes waiting | again waiting | finish waiting => simp [incoming, waiting] at h
  | idle rests =>
    rcases rests with ⟨hr, -⟩ | hr
    · simp [incoming, hr] at h
    · simp [incoming, hr] at h
  | ending stands => simp [incoming, stands] at h

inductive WriteStep (s : Session) : Session → Prop
  | idle (rests : s.connection.writer = .running ∧ s.connection.outbox = [] ∨
      s.connection.writer = .stopped) : WriteStep s s
  | frame {bytes rest} (running : s.connection.writer = .running)
      (front : s.connection.outbox = .frame bytes :: rest)
      (sound : s.connection.transport.fault = none) :
    WriteStep s { s with connection := { s.connection with
        outbox := rest
        transport := { s.connection.transport with
          written := s.connection.transport.written ++ bytes } } }
  | failed {bytes rest text} (running : s.connection.writer = .running)
      (front : s.connection.outbox = .frame bytes :: rest)
      (fault : s.connection.transport.fault = some text) :
    WriteStep s { s with connection := { s.connection with
        outbox := rest
        writer := .ending .refuse (some (.transportError text)) } }
  | shutdown {rest} (running : s.connection.writer = .running)
      (front : s.connection.outbox = .shutdown :: rest) :
    WriteStep s { s with connection := { s.connection with
        outbox := []
        writer := .stopped
        transport := { s.connection.transport with
          shutdowns := s.connection.transport.shutdowns + 1 } } }
  | ending {stage terminal} (stands : s.connection.writer = .ending stage terminal) :
    WriteStep s (s.conclude .writer stage terminal)

theorem writeStep (s : Session) : WriteStep s s.write := by
  unfold write
  cases hw : s.connection.writer with
  | running =>
    cases ho : s.connection.outbox with
    | nil =>
      rw [Connection.writerStep, hw, ho]
      exact .idle (.inl ⟨hw, ho⟩)
    | cons item rest =>
      cases item with
      | frame bytes =>
        cases hf : s.connection.transport.fault with
        | none =>
          rw [Connection.writerStep, hw, ho, hf]
          simpa [absorb, hf, hw] using WriteStep.frame hw ho hf
        | some text =>
          rw [Connection.writerStep, hw, ho, hf]
          simpa [absorb] using WriteStep.failed hw ho hf
      | shutdown =>
        rw [Connection.writerStep, hw, ho]
        simpa [absorb, Connection.setWriter] using WriteStep.shutdown hw ho
  | ending stage terminal =>
    rw [Connection.writerStep, hw]
    exact .ending hw
  | stopped =>
    rw [Connection.writerStep, hw]
    exact .idle (.inr hw)

section

variable {s : Session} {task : Task} {stage : Stage} {terminal : Option Event}

theorem reader_eq_of_ending
    (stands : s.connection.ending? .reader = some (stage, terminal)) :
    s.connection.reader = .ending stage terminal := by
  cases hr : s.connection.reader with
  | ending =>
    rw [Connection.ending?, hr] at stands
    cases stands
    rfl
  | waiting | cutting | stopped =>
    rw [Connection.ending?, hr] at stands
    cases stands

theorem writer_eq_of_ending
    (stands : s.connection.ending? .writer = some (stage, terminal)) :
    s.connection.writer = .ending stage terminal := by
  cases hw : s.connection.writer with
  | ending =>
    rw [Connection.ending?, hw] at stands
    cases stands
    rfl
  | running | stopped =>
    rw [Connection.ending?, hw] at stands
    cases stands

theorem move_of_ending (stands : s.connection.ending? task = some (stage, terminal)) :
    s.move (.step task) = s.conclude task stage terminal := by
  cases task with
  | reader =>
    have hr := reader_eq_of_ending stands
    show s.read = _
    unfold read
    split
    · next hwaiting _ =>
      rw [hr] at hwaiting
      cases hwaiting
    · rw [Connection.readerStep, hr, incoming, hr]
      simp [absorb, conclude, Connection.advance]
  | writer =>
    show s.write = _
    rw [write, Connection.writerStep, writer_eq_of_ending stands]
    rfl

end

/-- A command that is queued is one push. -/
theorem run_send (s : Session) {m : Message} {c : Connection} (h : s.connection.send m = .ok c) :
    s.run [.push (.frame (Frame.ofMessage m 0).encode)] = { s with connection := c } := by
  rw [Connection.eq_push_of_enqueue h]
  rfl

theorem run_close (s : Session) : ∃ moves : List Move,
    (∀ m ∈ moves, m = .refuse ∨ m = .push .shutdown) ∧
      s.run moves = { s with connection := s.connection.close } := by
  by_cases h : s.connection.closed = true
  · refine ⟨[], by simp, ?_⟩
    rw [run_nil, Connection.close, if_pos h]
  · refine ⟨[.refuse, .push .shutdown], by simp, ?_⟩
    rw [Connection.close, if_neg h]
    rfl

/-- A query draws, registers, and then pushes or gives its ticket up. -/
theorem run_query (s : Session) (m : Message) : ∃ moves log drawn,
    s.run moves = { s with
      connection := (s.connection.query s.dispatcher m).2.1
      dispatcher := (s.connection.query s.dispatcher m).2.2
      log, drawn } := by
  rw [Connection.query]
  cases hkind : s.connection.expect m with
  | error e => exact ⟨[], s.log, s.drawn, rfl⟩
  | ok kind =>
    dsimp only [Connection.enroll]
    have hmem : s.connection.sequence.next.1 ∈ s.drawn ++ [s.connection.sequence.next.1] := by simp
    split
    · next c hsubmit =>
      refine ⟨[.draw, .register kind s.connection.sequence.next.1,
        .push (.frame (Frame.ofMessage m s.connection.sequence.next.1).encode)], ?_⟩
      rw [Connection.eq_push_of_enqueue hsubmit]
      simp only [run, List.foldl_cons, List.foldl_nil, move, draw, register, if_pos hmem]
      exact ⟨_, _, rfl⟩
    · refine ⟨[.draw, .register kind s.connection.sequence.next.1,
        .abandon (s.dispatcher.register kind s.connection.sequence.next.1).1], ?_⟩
      simp only [run, List.foldl_cons, List.foldl_nil, move, draw, register, if_pos hmem]
      exact ⟨_, _, rfl⟩

structure Untouched (s s' : Session) : Prop where
  log : s'.log = s.log
  drawn : s'.drawn = s.drawn
  collected : s'.collected = s.collected
  sequence : s'.connection.sequence = s.connection.sequence

theorem Concludes.untouched {s s' : Session} {task : Task} {stage : Stage}
    {terminal : Option Event} (step : Concludes s task stage terminal s') : Untouched s s' := by
  cases step <;> cases task <;> exact ⟨rfl, rfl, rfl, by simp [Connection.advance, absorb,
    Connection.setWriter]⟩

theorem ReadStep.untouched {s s' : Session} (step : ReadStep s s') : Untouched s s' := by
  cases step with
  | idle | bytes | again | finish | drained | malformed | frame => exact ⟨rfl, rfl, rfl, rfl⟩
  | ending => exact (concludes ..).untouched

theorem WriteStep.untouched {s s' : Session} (step : WriteStep s s') : Untouched s s' := by
  cases step with
  | idle | frame | failed | shutdown => exact ⟨rfl, rfl, rfl, rfl⟩
  | ending => exact (concludes ..).untouched

theorem untouched_step (s : Session) (task : Task) : Untouched s (s.move (.step task)) := by
  cases task with
  | reader => exact s.readStep.untouched
  | writer => exact s.writeStep.untouched

end Session

/-- At some moment `P` held of what had happened so far and what came next. -/
def During {α : Type} (P : List α → α → Prop) (moves : List α) : Prop :=
  ∃ before m after, moves = before ++ m :: after ∧ P before m

theorem not_during_nil {α : Type} {P : List α → α → Prop} : ¬ During P [] := by
  rintro ⟨before, m, after, heq, -⟩
  simp at heq

theorem during_cons {α : Type} {P : List α → α → Prop} {m : α} {moves : List α} :
    During P (m :: moves) ↔ P [] m ∨ During (fun before => P (m :: before)) moves := by
  constructor
  · rintro ⟨_ | ⟨b, before⟩, a, after, heq, hp⟩
    · cases heq
      exact .inl hp
    · cases heq
      exact .inr ⟨before, a, after, rfl, hp⟩
  · rintro (hp | ⟨before, a, after, rfl, hp⟩)
    · exact ⟨[], m, moves, rfl, hp⟩
    · exact ⟨m :: before, a, after, rfl, hp⟩

theorem during_concat {α : Type} {P : List α → α → Prop} {moves : List α} {m : α} :
    During P (moves ++ [m]) ↔ During P moves ∨ P moves m := by
  constructor
  · rintro ⟨before, a, after, heq, hp⟩
    rcases List.eq_nil_or_concat after with rfl | ⟨after, b, rfl⟩
    · obtain ⟨rfl, hab⟩ := List.append_inj' heq rfl
      cases hab
      exact .inr hp
    · rw [List.concat_eq_append, ← List.cons_append, ← List.append_assoc] at heq
      obtain ⟨rfl, -⟩ := List.append_inj' heq rfl
      exact .inl ⟨before, a, after, rfl, hp⟩
  · rintro (⟨before, a, after, rfl, hp⟩ | hp)
    · exact ⟨before, a, after ++ [m], by simp, hp⟩
    · exact ⟨moves, m, [], rfl, hp⟩

theorem During.append {α : Type} {P : List α → α → Prop} {moves : List α} (h : During P moves)
    (more : List α) : During P (moves ++ more) := by
  obtain ⟨before, m, after, rfl, hp⟩ := h
  exact ⟨before, m, after ++ more, by simp, hp⟩

theorem not_during_of_take {α : Type} {P : List α → α → Prop} {moves : List α}
    (h : ∀ n < moves.length, ∀ m, ¬ P (moves.take n) m) : ¬ During P moves := by
  rintro ⟨before, m, after, rfl, hp⟩
  refine h before.length (by simp) m ?_
  rwa [List.take_left]

def Always {α : Type} (P : List α → α → Prop) (moves : List α) : Prop :=
  ∀ before m after, moves = before ++ m :: after → P before m

theorem always_iff {α : Type} {P : List α → α → Prop} {moves : List α} :
    Always P moves ↔ ¬ During (fun before m => ¬ P before m) moves := by
  simp [Always, During]

theorem always_concat {α : Type} {P : List α → α → Prop} {moves : List α} {m : α} :
    Always P (moves ++ [m]) ↔ Always P moves ∧ P moves m := by
  simp [always_iff, during_concat]

end CompositorClient
