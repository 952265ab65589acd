import CompositorClient.Proofs.Dialogue
import CompositorClient.Proofs.ReplyTable

/-! All connections of one client and the queries under way on them.  The tasks of every
connection, the streams and any number of callers take their steps in any order, and all of them
share one table of unanswered queries. -/

namespace CompositorClient

/-- How far a query has come: it passes the first check, draws a number, takes a ticket and is
queued; then it waits for its answer until it takes it, or is given up. -/
inductive Progress
  | checked
  | drawn (sequence : UInt32)
  | registered (ticket : Ticket) (sequence : UInt32)
  | waiting (ticket : Ticket)
  | finished (ticket : Ticket) (result : Except ClientError Reply)
  | failed (error : ClientError)
  | dropped

structure Inquiry where
  line : Nat
  query : Query
  progress : Progress

namespace Inquiry

def ticket? (x : Inquiry) : Option Ticket :=
  match x.progress with
  | .registered t _ | .waiting t => some t
  | _ => none

def result? (x : Inquiry) : Option (Except ClientError Reply) :=
  match x.progress with
  | .finished _ r => some r
  | .failed e => some (.error e)
  | _ => none

end Inquiry

/-- `log` holds the registrations in order, and `events` what each connection has told. -/
structure Switchboard where
  client : Client
  inquiries : List Inquiry := []
  log : List (ReplyKind × UInt32) := []
  events : List (Nat × Event) := []

namespace Switchboard

/-- What can happen next.  A query begins with `call`, and all other calls are done by it; `refuse`
and `push` are the parts of such calls, for other steps to come in between. -/
inductive Action
  | connect (transport : Transport)
  | step (line : Nat) (task : Task)
  | arrive (line : Nat) (input : Input)
  | fault (line : Nat) (text : Option String)
  | refuse (line : Nat)
  | push (line : Nat) (item : Outbound)
  | call (request : Request)
  | draw (k : Nat)
  | register (k : Nat)
  | submit (k : Nat)
  | poll (k : Nat)
  | drop (k : Nat)
  | subscribe (kind : EventKind)
  | unsubscribe (id : SubscriptionId)

def start : Switchboard := { client := .new }

def table (s : Switchboard) : ReplyTable := s.client.dispatcher.table

/-- What becomes of the client when a query takes a step on its connection. -/
def onLine (s : Switchboard) (line : Nat) (conn : Connection) (d : Dispatcher) : Client :=
  { s.client with connections := s.client.connections.set line conn, dispatcher := d }

def connect (s : Switchboard) (transport : Transport) : Switchboard :=
  { s with
    client := (s.client.connect transport).2
    events := s.events ++ [(s.client.connections.length, .connected)] }

def step (s : Switchboard) (line : Nat) (task : Task) : Switchboard :=
  match s.client.connections[line]? with
  | none => s
  | some conn =>
    match conn.taskStep s.client.dispatcher task with
    | none => s
    | some e =>
      { s with
        client := (s.client.absorb line e).2
        events := s.events ++ e.events.map fun event => (line, event) }

/-- A query goes to the newest connection, if that one is open. -/
def ask (s : Switchboard) (q : Query) : Switchboard :=
  let progress : Progress :=
    match s.client.current? with
    | none => .failed .notConnected
    | some conn =>
      match conn.expect (.query q) with
      | .error e => .failed e
      | .ok _ => .checked
  { s with inquiries := s.inquiries ++ [⟨s.client.connections.length - 1, q, progress⟩] }

def draw (s : Switchboard) (k : Nat) : Switchboard :=
  match s.inquiries[k]? with
  | some ⟨line, q, .checked⟩ =>
    match s.client.connections[line]? with
    | none => s
    | some conn =>
      let (sequence, next) := conn.sequence.next
      { s with
        client := s.onLine line { conn with sequence := next } s.client.dispatcher
        inquiries := s.inquiries.set k ⟨line, q, .drawn sequence⟩ }
  | _ => s

def register (s : Switchboard) (k : Nat) : Switchboard :=
  match s.inquiries[k]? with
  | some ⟨line, q, .drawn sequence⟩ =>
    let (ticket, dispatcher) := s.client.dispatcher.register q.answer sequence
    { s with
      client := { s.client with dispatcher }
      inquiries := s.inquiries.set k ⟨line, q, .registered ticket sequence⟩
      log := s.log ++ [(q.answer, sequence)] }
  | _ => s

def submit (s : Switchboard) (k : Nat) : Switchboard :=
  match s.inquiries[k]? with
  | some ⟨line, q, .registered ticket sequence⟩ =>
    match s.client.connections[line]? with
    | none => s
    | some conn =>
      match conn.submit (.query q) sequence with
      | .ok conn =>
        { s with
          client := s.onLine line conn s.client.dispatcher
          inquiries := s.inquiries.set k ⟨line, q, .waiting ticket⟩ }
      | .error e =>
        { s with
          client := s.onLine line conn (s.client.dispatcher.abandon ticket)
          inquiries := s.inquiries.set k ⟨line, q, .failed e⟩ }
  | _ => s

def poll (s : Switchboard) (k : Nat) : Switchboard :=
  match s.inquiries[k]? with
  | some ⟨line, q, .waiting ticket⟩ =>
    match s.client.collect ⟨ticket, q.answer⟩ with
    | (none, _) => s
    | (some result, client) =>
      { s with client, inquiries := s.inquiries.set k ⟨line, q, .finished ticket result⟩ }
  | _ => s

def drop (s : Switchboard) (k : Nat) : Switchboard :=
  match s.inquiries[k]? with
  | some ⟨line, q, .waiting ticket⟩ =>
    { s with
      client := s.client.drop ⟨ticket, q.answer⟩
      inquiries := s.inquiries.set k ⟨line, q, .dropped⟩ }
  | _ => s

def act (s : Switchboard) : Action → Switchboard
  | .connect transport => s.connect transport
  | .step line task => s.step line task
  | .arrive line input => { s with client := s.client.accept line input }
  | .fault line text => { s with client := s.client.setFault line text }
  | .refuse line =>
    { s with client := { s.client with
        connections := s.client.connections.modify line ({ · with closed := true }) } }
  | .push line item =>
    { s with client := { s.client with
        connections := s.client.connections.modify line (·.push item) } }
  | .call (.query q) => s.ask q
  | .call request => { s with client := (s.client.call request).2 }
  | .draw k => s.draw k
  | .register k => s.register k
  | .submit k => s.submit k
  | .poll k => s.poll k
  | .drop k => s.drop k
  | .subscribe kind => { s with client := (s.client.subscribe kind).2 }
  | .unsubscribe id => { s with client := (s.client.unsubscribe id).2 }

def run (actions : List Action) : Switchboard := actions.foldl act start

@[simp] theorem run_nil : run [] = start := rfl
@[simp] theorem run_concat (actions : List Action) (a : Action) :
    run (actions ++ [a]) = (run actions).act a := List.foldl_concat _ _ _ _

end Switchboard

namespace Connection

/-- A step of a task means nothing to the rest of the client, or a frame, or the end. -/
inductive Consequence (c : Connection) (d : Dispatcher) : Task → Dispatcher → List Event → Prop
  | quiet {task} : Consequence c d task d []
  | frame {f} (cutting : c.reader = .cutting) (next : c.inbox.next.1 = some (.ok f)) :
    Consequence c d .reader (d.dispatchFrame f).2 f.events
  | told {task terminal} (stands : c.ending? task = some (.notify, terminal)) :
    Consequence c d task d.close (terminal.toList ++ [.closed])

end Connection

namespace Session

variable {s s' : Session} {task : Task} {stage : Stage} {terminal : Option Event}

theorem Concludes.consequence (step : Concludes s task stage terminal s')
    (stands : s.connection.ending? task = some (stage, terminal)) (fresh : s.events = []) :
    Connection.Consequence s.connection s.dispatcher task s'.dispatcher s'.events := by
  cases step with
  | signal | refuse | late | claim => exact fresh ▸ .quiet
  | notify => simpa [absorb, fresh] using Connection.Consequence.told stands

theorem ReadStep.consequence (step : ReadStep s s') (fresh : s.events = []) :
    Connection.Consequence s.connection s.dispatcher .reader s'.dispatcher s'.events := by
  cases step with
  | idle | bytes | again | finish | drained | malformed => exact fresh ▸ .quiet
  | frame cutting next => simpa [absorb, fresh] using Connection.Consequence.frame cutting next
  | ending stands => exact (concludes ..).consequence (by rw [Connection.ending?, stands]) fresh

theorem WriteStep.consequence (step : WriteStep s s') (fresh : s.events = []) :
    Connection.Consequence s.connection s.dispatcher .writer s'.dispatcher s'.events := by
  cases step with
  | idle | frame | failed | shutdown => exact fresh ▸ .quiet
  | ending stands => exact (concludes ..).consequence (by rw [Connection.ending?, stands]) fresh

end Session

namespace Connection

variable {c : Connection} {d : Dispatcher} {e : Effect}

theorem consequence_taskStep {task : Task} (h : c.taskStep d task = some e) :
    Consequence c d task e.dispatcher e.events := by
  cases task with
  | reader =>
    have step := Session.readStep { connection := c, dispatcher := d }
    rw [taskStep] at h
    unfold Session.read at step
    split at step
    · next brought => cases brought
    · rw [h] at step
      exact step.consequence rfl
  | writer =>
    have step := Session.writeStep { connection := c, dispatcher := d }
    rw [taskStep] at h
    rw [Session.write, h] at step
    exact step.consequence rfl

/-- Only a connection that does not accept frames refuses a query. -/
theorem expect_query_cases (c : Connection) (q : Query) :
    c.expect (.query q) = .ok q.answer ∨
      c.expect (.query q) = .error .connectionClosed ∧ ¬ c.Accepting := by
  cases hclosed : c.closed <;> simp [hclosed, Accepting]

theorem submit_query (c : Connection) (q : Query) (sequence : UInt32) :
    (∃ c', c.submit (.query q) sequence = .ok c') ∨
      c.submit (.query q) sequence = .error .connectionClosed ∧ ¬ c.Accepting := by
  by_cases h : c.Accepting
  · exact .inl ⟨_, enqueue_of_accepting h _⟩
  · exact .inr ⟨enqueue_of_not_accepting h _, h⟩

end Connection

namespace Client

variable {c : Client}

theorem eq_of_send {m : Message} {c' : Client} (h : c.send m = .ok c') :
    ∃ conn, c' = c.setCurrent conn := by
  unfold send at h
  split at h
  · cases h
  · next conn hconn =>
    cases hsend : conn.send m with
    | error e =>
      rw [hsend] at h
      cases h
    | ok conn' =>
      rw [hsend] at h
      cases h
      exact ⟨conn', rfl⟩

theorem eq_of_perform {command : Command} {c' : Client} (h : c.perform command = .ok c') :
    ∃ conn windows, c' = { c.setCurrent conn with windows } := by
  unfold perform at h
  split at h
  · cases h
  · cases hsend : c.send (.command command) with
    | error e =>
      rw [hsend] at h
      cases h
    | ok sent =>
      obtain ⟨conn, rfl⟩ := eq_of_send hsend
      rw [hsend] at h
      cases h
      exact ⟨conn, _, rfl⟩

/-- Of the calls only queries change the table. -/
theorem dispatcher_call {r : Request} (h : ∀ q, r ≠ .query q) :
    (c.call r).2.dispatcher = c.dispatcher := by
  cases r with
  | perform command =>
    rw [call]
    split
    · next hperform =>
      obtain ⟨conn, windows, rfl⟩ := eq_of_perform hperform
      rfl
    · rfl
  | createWindow options =>
    rw [call, createWindow, createWindowAmid]
    split
    · rfl
    · dsimp only
      split <;> rfl
  | uploadImage width height format data =>
    rw [call, uploadImage]
    split
    · rfl
    · dsimp only
      split <;> rfl
  | query q => exact absurd rfl (h q)
  | close =>
    rw [call, close]
    split <;> rfl

theorem collect_eq_some {p : PendingQuery} {r : Except ClientError Reply} {c' : Client}
    (h : c.collect p = (some r, c')) :
    ∃ ans, c.dispatcher.table.slots[p.ticket]? = some (.answered ans) ∧ r = result p.kind ans ∧
      c' = { c with dispatcher := { c.dispatcher with
        table := c.dispatcher.table.setSlot p.ticket .collected } } := by
  rw [collect, Prod.mk.injEq] at h
  obtain ⟨hresult, rfl⟩ := h
  obtain ⟨ans, hans, rfl⟩ := Option.map_eq_some_iff.mp hresult
  obtain ⟨slot, hcollect⟩ := ReplyTable.collect_eq_some hans
  exact ⟨ans, slot, rfl, by rw [hcollect]⟩

end Client

namespace Switchboard

variable {s : Switchboard}

theorem client_step (s : Switchboard) (line : Nat) (task : Task) :
    (s.step line task).client = (s.client.stepAt line task).2 := by
  cases hline : s.client.connections[line]? with
  | none => simp [step, Client.stepAt, hline]
  | some conn =>
    cases htask : conn.taskStep s.client.dispatcher task <;>
      simp [step, Client.stepAt, hline, htask]

def afterQuery : Except ClientError PendingQuery → Progress
  | .ok p => .waiting p.ticket
  | .error e => .failed e

/-- A query that takes its steps right after one another is one call. -/
theorem run_query (s : Switchboard) (q : Query) :
    let k := s.inquiries.length
    let s' := (((s.act (.call (.query q))).act (.draw k)).act (.register k)).act (.submit k)
    s'.client = (s.client.query q).2 ∧
      s'.inquiries = s.inquiries ++
        [⟨s.client.connections.length - 1, q, afterQuery (s.client.query q).1⟩] := by
  intro k s'
  cases hcurrent : s.client.current? with
  | none => simp [s', k, act, ask, hcurrent, draw, register, submit, Client.query, afterQuery]
  | some conn =>
    obtain ⟨older, hconns⟩ := List.getLast?_eq_some_iff.mp hcurrent
    have hline : s.client.connections[s.client.connections.length - 1]? = some conn := by
      simp [hconns]
    have hset (conn' : Connection) :
        s.client.connections.set (s.client.connections.length - 1) conn' =
          s.client.connections.dropLast ++ [conn'] := by
      simp [hconns]
    have hsame : s.client.setCurrent conn = s.client := Client.setCurrent_of_current hcurrent
    rcases conn.expect_query_cases q with hexpect | ⟨hexpect, -⟩
    · cases hsubmit : { conn with sequence := conn.sequence.next.2 }.submit (.query q)
          conn.sequence.next.1 with
      | error e =>
        simp [s', k, act, ask, hcurrent, hexpect, draw, register, submit, hline, hset, onLine,
          hsubmit, Client.query, Connection.query, Connection.enroll, afterQuery, Except.map]
        rfl
      | ok conn' =>
        simp [s', k, act, ask, hcurrent, hexpect, draw, register, submit, hline, hset, onLine,
          hsubmit, Client.query, Connection.query, Connection.enroll, afterQuery, Except.map]
        rfl
    · simp [s', k, act, ask, hcurrent, hexpect, draw, register, submit, Client.query,
        Connection.query, afterQuery, Except.map, hsame]

structure Books where
  table : ReplyTable
  inquiries : List Inquiry
  log : List (ReplyKind × UInt32)
  events : List (Nat × Event)

def books (s : Switchboard) : Books := ⟨s.table, s.inquiries, s.log, s.events⟩

def Takes (s : Switchboard) (line : Nat) (f : Frame) : Prop :=
  ∃ conn, s.client.connections[line]? = some conn ∧ conn.reader = .cutting ∧
    conn.inbox.next.1 = some (.ok f)

def Refuses (s : Switchboard) (line : Nat) : Prop :=
  ∃ conn, s.client.connections[line]? = some conn ∧ ¬ conn.Accepting

inductive Change (s : Switchboard) : Action → Books → Prop
  | quiet {a es} (ordinary : ∀ e ∈ es, ¬ Event.Terminal e.2) :
    Change s a { s.books with events := s.events ++ es }
  | answered {line f kind ans es} (takes : s.Takes line f)
      (answer : f.answer? = some (kind, ans)) (ordinary : ∀ e ∈ es, ¬ Event.Terminal e.2) :
    Change s (.step line .reader)
      { s.books with
        table := (s.table.deliver kind f.header.sequence ans).2
        events := s.events ++ es }
  | told {line task} {terminal : Option Event} : Change s (.step line task)
      { s.books with
        table := s.table.close.2
        events := s.events ++ (terminal.toList ++ [Event.closed]).map fun event => (line, event) }
  | asked {line q progress}
      (turn : progress = .checked ∨
        progress = .failed .notConnected ∧ s.client.connections = [] ∨
        progress = .failed .connectionClosed ∧ s.Refuses line) :
    Change s (.call (.query q))
      { s.books with inquiries := s.inquiries ++ [⟨line, q, progress⟩] }
  | drawn {k line q n} (held : s.inquiries[k]? = some ⟨line, q, .checked⟩) : Change s (.draw k)
      { s.books with inquiries := s.inquiries.set k ⟨line, q, .drawn n⟩ }
  | registered {k line q n} (held : s.inquiries[k]? = some ⟨line, q, .drawn n⟩) :
    Change s (.register k)
      { s.books with
        table := (s.table.register q.answer n).2
        inquiries := s.inquiries.set k
          ⟨line, q, .registered (s.table.register q.answer n).1 n⟩
        log := s.log ++ [(q.answer, n)] }
  | submitted {k line q ticket n}
      (held : s.inquiries[k]? = some ⟨line, q, .registered ticket n⟩) :
    Change s (.submit k)
      { s.books with inquiries := s.inquiries.set k ⟨line, q, .waiting ticket⟩ }
  | refused {k line q ticket n} (held : s.inquiries[k]? = some ⟨line, q, .registered ticket n⟩)
      (refuses : s.Refuses line) : Change s (.submit k)
      { s.books with
        table := s.table.abandon ticket
        inquiries := s.inquiries.set k ⟨line, q, .failed .connectionClosed⟩ }
  | polled {k line q ticket ans} (held : s.inquiries[k]? = some ⟨line, q, .waiting ticket⟩)
      (slot : s.table.slots[ticket]? = some (.answered ans)) : Change s (.poll k)
      { s.books with
        table := s.table.setSlot ticket .collected
        inquiries := s.inquiries.set k
          ⟨line, q, .finished ticket (Client.result q.answer ans)⟩ }
  | dropped {k line q ticket} (held : s.inquiries[k]? = some ⟨line, q, .waiting ticket⟩) :
    Change s (.drop k)
      { s.books with
        table := s.table.abandon ticket
        inquiries := s.inquiries.set k ⟨line, q, .dropped⟩ }

/-- An action that touches no books. -/
theorem Change.of_eq {a : Action} {s' : Switchboard} (table : s'.table = s.table)
    (inquiries : s'.inquiries = s.inquiries) (log : s'.log = s.log)
    (events : s'.events = s.events) : Change s a s'.books := by
  have h : s'.books = { s.books with events := s.events ++ [] } := by
    simp [books, table, inquiries, log, events]
  rw [h]
  exact .quiet (by simp)

theorem change_step (s : Switchboard) (line : Nat) (task : Task) :
    Change s (.step line task) (s.step line task).books := by
  unfold step
  split
  · exact .of_eq rfl rfl rfl rfl
  · next conn hconn =>
    split
    · exact .of_eq rfl rfl rfl rfl
    · next e he =>
      have hbooks : books { s with
          client := (s.client.absorb line e).2
          events := s.events ++ e.events.map fun event => (line, event) } =
          { s.books with
            table := e.dispatcher.table
            events := s.events ++ e.events.map fun event => (line, event) } := by
        simp [books, table, Client.absorb]
      rw [hbooks]
      have hconsequence := Connection.consequence_taskStep he
      generalize e.dispatcher = d at hconsequence
      generalize e.events = es at hconsequence
      cases hconsequence with
      | quiet => exact .quiet (by simp)
      | @frame f cutting next =>
        have hordinary : ∀ e ∈ f.events.map fun event => (line, event), ¬ Event.Terminal e.2 := by
          intro e he
          obtain ⟨event, hevent, rfl⟩ := List.mem_map.mp he
          exact Frame.not_terminal hevent
        rw [Dispatcher.dispatchFrame_eq]
        split
        · exact .quiet hordinary
        · next kind ans answer => exact .answered ⟨conn, hconn, cutting, next⟩ answer hordinary
      | told => exact .told

theorem change_ask (s : Switchboard) (q : Query) :
    Change s (.call (.query q)) (s.ask q).books := by
  refine .asked ?_
  split
  · next hnone => exact .inr (.inl ⟨rfl, by simpa [Client.current?] using hnone⟩)
  · next conn hconn =>
    rcases conn.expect_query_cases q with hexpect | ⟨hexpect, refuses⟩
    · rw [hexpect]
      exact .inl rfl
    · rw [hexpect]
      rw [Client.current?, List.getLast?_eq_getElem?] at hconn
      exact .inr (.inr ⟨rfl, conn, hconn, refuses⟩)

theorem change_draw (s : Switchboard) (k : Nat) : Change s (.draw k) (s.draw k).books := by
  unfold draw
  split
  · next line q held =>
    split
    · exact .of_eq rfl rfl rfl rfl
    · exact .drawn held
  · exact .of_eq rfl rfl rfl rfl

theorem change_register (s : Switchboard) (k : Nat) :
    Change s (.register k) (s.register k).books := by
  unfold register
  split
  · next line q n held => exact .registered held
  · exact .of_eq rfl rfl rfl rfl

theorem change_submit (s : Switchboard) (k : Nat) :
    Change s (.submit k) (s.submit k).books := by
  unfold submit
  split
  · next line q ticket n held =>
    split
    · exact .of_eq rfl rfl rfl rfl
    · next conn hconn =>
      rcases conn.submit_query q n with ⟨conn', hsubmit⟩ | ⟨hsubmit, refuses⟩
      · rw [hsubmit]
        exact .submitted held
      · rw [hsubmit]
        exact .refused held ⟨conn, hconn, refuses⟩
  · exact .of_eq rfl rfl rfl rfl

theorem change_poll (s : Switchboard) (k : Nat) : Change s (.poll k) (s.poll k).books := by
  unfold poll
  split
  · next line q ticket held =>
    split
    · exact .of_eq rfl rfl rfl rfl
    · next result client hcollect =>
      obtain ⟨ans, slot, rfl, rfl⟩ := Client.collect_eq_some hcollect
      exact .polled held slot
  · exact .of_eq rfl rfl rfl rfl

theorem change_drop (s : Switchboard) (k : Nat) : Change s (.drop k) (s.drop k).books := by
  unfold drop
  split
  · next line q ticket held => exact .dropped held
  · exact .of_eq rfl rfl rfl rfl

theorem change (s : Switchboard) (a : Action) : Change s a (s.act a).books := by
  cases a with
  | connect transport =>
    have hbooks : (s.connect transport).books =
        { s.books with events := s.events ++ [(s.client.connections.length, .connected)] } := by
      simp [books, table, connect, Client.connect, Connection.start]
    rw [act, hbooks]
    exact .quiet (by simp [Event.Terminal])
  | step line task => exact s.change_step line task
  | call request =>
    cases request with
    | query q => exact s.change_ask q
    | perform | createWindow | uploadImage | close =>
      exact .of_eq (congrArg Dispatcher.table (Client.dispatcher_call (by simp))) rfl rfl rfl
  | draw k => exact s.change_draw k
  | register k => exact s.change_register k
  | submit k => exact s.change_submit k
  | poll k => exact s.change_poll k
  | drop k => exact s.change_drop k
  | arrive | fault | refuse | push | subscribe | unsubscribe => exact .of_eq rfl rfl rfl rfl

theorem table_of_takes {line : Nat} {f : Frame} (takes : s.Takes line f) :
    (s.step line .reader).table = (s.client.dispatcher.dispatchFrame f).2.table := by
  obtain ⟨conn, hconn, cutting, next⟩ := takes
  rw [step, hconn]
  dsimp only
  rw [Connection.taskStep, Connection.readerStep, cutting]
  rcases hnext : conn.inbox.next with ⟨r, inbox⟩
  rw [hnext] at next
  cases next
  simp [table, Client.absorb]

theorem slot_of_takes {line : Nat} {f : Frame} {kind : ReplyKind} {ans : Answer} {w : Waiter}
    (takes : s.Takes line f) (answer : f.answer? = some (kind, ans))
    (waits : s.table.live kind = [w]) :
    (s.step line .reader).table.slots[w.ticket]? = some (.answered ans) := by
  have hslot : s.table.slots[w.ticket]? = some .waiting :=
    (ReplyTable.mem_live_iff.mp (by rw [waits]; exact List.mem_cons_self)).2
  have hlt := (List.getElem?_eq_some_iff.mp hslot).1
  have hdeliver : s.client.dispatcher.table.deliver kind f.header.sequence ans = _ :=
    ReplyTable.deliver_of_live waits f.header.sequence ans
  rw [table_of_takes takes, Dispatcher.dispatchFrame_eq, answer]
  dsimp only
  rw [hdeliver]
  exact List.getElem?_set_self hlt

end Switchboard
end CompositorClient
