import CompositorClient.Proofs.Draining

/-! Closing a connection is a half-close.  Nothing on the incoming side looks at the outgoing side,
so a run in which `close` is called, and in which later calls are turned away, brings the same
events and answers; the frames that were queued before are written, and then the end of the
stream. -/

namespace CompositorClient

namespace Connection

open Outbound

variable {c c' o o' : Connection} {m : Move} {n : Nat}

/-- A connection without its outgoing side. -/
def inward (c : Connection) : Connection :=
  { c with
    closed := true
    outbox := []
    writer := .stopped
    transport := { fault := c.transport.fault } }

@[simp] theorem inward_push (c : Connection) (item : Outbound) :
    (c.push item).inward = c.inward := by
  unfold push
  split <;> rfl

theorem inward_close (c : Connection) : c.close.inward = c.inward := by
  unfold close
  split
  · rfl
  · exact inward_push ..

/-- What the second connection will still write, the first will write before anything else. -/
def Covers (o c : Connection) : Prop :=
  c.writer = .stopped ∨ o.writer = .running ∧ (ahead c.outbox).map .frame <+: o.outbox

namespace Outgoing

theorem covers_of_ne (h : Outgoing o m o') (hm : m ≠ .step .writer) (covers : Covers o c) :
    Covers o' c := by
  obtain ⟨writer, queue, -⟩ := h.extends_queue hm
  refine covers.imp_right fun ⟨running, hprefix⟩ => ?_
  exact ⟨writer.trans running, hprefix.trans queue⟩

/-- The writers take the same frame, until the second one takes the marker. -/
theorem covers_of_writer (h : Outgoing o (.step .writer) o') (h' : Outgoing c (.step .writer) c')
    (running : c.writer ≠ .stopped) (marked : .shutdown ∈ c.outbox)
    (covers : Covers o c) : Covers o' c' := by
  obtain ⟨hwriter, more, hqueue⟩ := covers.resolve_left running
  cases h' with
  | nothing _ _ _ _ _ rests =>
    rcases rests rfl with stopped | empty
    · exact absurd stopped running
    · simp [empty] at marked
  | queues item source => simp at source
  | stops _ _ _ writer => exact .inl writer
  | writes _ _ front _ outbox =>
    rw [front, ahead, List.map_cons, List.cons_append] at hqueue
    cases h with
    | nothing _ _ _ _ _ rests =>
      rcases rests rfl with stopped | empty
      · cases hwriter.symm.trans stopped
      · cases hqueue.trans empty
    | queues item source => simp at source
    | stops _ _ front => cases hqueue.trans front
    | writes _ _ front writer outbox' =>
      obtain ⟨-, hrest⟩ := List.cons.inj (hqueue.trans front)
      exact .inr ⟨writer, more, by rw [outbox, outbox', hrest]⟩

theorem covers (h : Outgoing o m o') (h' : Outgoing c m c') (marked : c.Marked)
    (covers : Covers o c) : Covers o' c' := by
  by_cases hstopped : c.writer = .stopped
  · exact .inl (h'.stays_stopped hstopped)
  have hmem := marked.resolve_left hstopped
  by_cases hm : m = .step .writer
  · subst hm
    exact h.covers_of_writer h' hstopped hmem covers
  · obtain ⟨writer, -, hahead⟩ := h'.extends_queue hm
    rw [Covers, writer, hahead hmem]
    exact h.covers_of_ne hm covers

end Outgoing

theorem ahead_close (c : Connection) : ahead c.close.outbox = ahead c.outbox := by
  cases closed : c.closed with
  | true => rw [close, if_pos closed]
  | false =>
    rw [outbox_close closed, push]
    split
    · rfl
    · exact ahead_append_shutdown _

theorem due_close (c : Connection) : c.close.due = c.due := by
  rw [due, due, transport_close, ahead_close]

theorem steady_close (h : Steady n c) : Steady n c.close := by
  cases closed : c.closed with
  | true => rwa [close, if_pos closed]
  | false => exact (outgoing_close closed).steady h

theorem marked_close (h : Steady n c) (settled : c.closed = true → c.Marked) :
    c.close.Marked := by
  cases closed : c.closed with
  | true =>
    rw [close, if_pos closed]
    exact settled closed
  | false => exact marked_of_pushed h (writer_close c) (outbox_close closed)

theorem covers_close (h : Steady n c) : Covers c c.close := by
  cases h with
  | running writer =>
    rw [Covers, ahead_close]
    exact .inr ⟨writer, map_ahead_isPrefix _⟩
  | stopped writer => exact .inl ((writer_close c).trans writer)

end Connection

namespace Session

open Connection

variable {s s' : Session} {m : Move} {moves : List Move} {n : Nat}

def inward (s : Session) : Session := { s with connection := s.connection.inward }

theorem inward_conclude (s : Session) (stage : Stage) (terminal : Option Event) :
    (s.inward.conclude .reader stage terminal).inward =
      (s.conclude .reader stage terminal).inward := by
  cases stage with
  | signal =>
    simp [conclude, endingStep, absorb, advance, inward, readerAfter]
    rfl
  | refuse | notify => rfl
  | claim =>
    have hnotified : s.inward.connection.notified = s.connection.notified := rfl
    cases hn : s.connection.notified with
    | true | false =>
      simp [conclude, endingStep, absorb, advance, hnotified, hn]
      rfl

theorem inward_read (s : Session) : s.inward.read.inward = s.read.inward := by
  have hreader : s.inward.connection.reader = s.connection.reader := rfl
  have hinbox : s.inward.connection.inbox = s.connection.inbox := rfl
  have hreads : s.inward.reads = s.reads := rfl
  have step := s.readStep
  generalize s.read = s' at step ⊢
  cases step with
  | idle rests =>
    rcases rests with ⟨waiting, nothing⟩ | stopped
    · simp [read, readerStep, hreader, waiting, hreads, nothing]
      rfl
    · simp [read, readerStep, hreader, stopped]
      rfl
  | bytes waiting brought | again waiting brought =>
    simp [read, accept, hreader, waiting, hreads, brought]
    rfl
  | @finish input rest terminal waiting brought last =>
    cases input with
    | bytes | interruption => cases last
    | endOfStream | failure =>
      cases last
      simp [read, accept, hreader, waiting, hreads, brought]
      rfl
  | drained cutting next | malformed cutting next =>
    simp only [read, readerStep, hreader, cutting, hinbox, incoming]
    generalize s.connection.inbox.next = cut at next ⊢
    obtain ⟨_, inbox⟩ := cut
    cases next
    simp [absorb]
    rfl
  | frame cutting next =>
    simp only [read, readerStep, hreader, cutting, hinbox, incoming]
    generalize s.connection.inbox.next = cut at next ⊢
    obtain ⟨_, inbox⟩ := cut
    cases next
    simp [absorb, Dispatcher.emitted_dispatchFrame]
    rfl
  | @ending stage terminal stands =>
    have hstands : s.inward.connection.ending? .reader = some (stage, terminal) := by
      rw [ending?, hreader, stands]
    exact (congrArg inward (move_of_ending hstands)).trans (inward_conclude s stage terminal)

theorem inward_move (hm : m ≠ .step .writer) : (s.inward.move m).inward = (s.move m).inward := by
  cases m with
  | step task =>
    cases task with
    | reader => exact s.inward_read
    | writer => exact absurd rfl hm
  | push item =>
    simp [move, inward]
    rfl
  | register kind sequence =>
    have hdrawn : s.inward.drawn = s.drawn := rfl
    rw [move, register, hdrawn, move, register]
    split <;> rfl
  | arrive | fault | refuse | draw | abandon | collect | subscribe | unsubscribe => rfl

theorem WriteStep.inward (step : WriteStep s s') (steady : Steady n s.connection)
    (sound : ∀ terminal, ¬ Fails s .writer terminal) : s'.inward = s.inward := by
  cases step with
  | idle | frame | shutdown => rfl
  | failed running front fault => exact absurd (.writeError running front fault) (sound _)
  | ending stands => exact absurd stands steady.writer_ne

/-- Moves of calls that close turns away. -/
def Moot (m : Move) : Prop := m = .refuse ∨ ∃ item, m = .push item

theorem Moot.ne_step (h : Moot m) {task : Task} : m ≠ .step task := by
  rcases h with rfl | ⟨item, rfl⟩ <;> exact nofun

theorem Moot.inward (h : Moot m) (s : Session) : (s.move m).inward = s.inward := by
  rcases h with rfl | ⟨item, rfl⟩
  · rfl
  · simp [move, Session.inward]

structure Twin (n : Nat) (s s' : Session) : Prop where
  inward : s.inward = s'.inward
  steady : Steady n s.connection
  steady' : Steady n s'.connection
  marked : s'.connection.Marked
  covers : Covers s.connection s'.connection

namespace Twin

theorem fails (h : Twin n s s') {terminal : Option Event} (fails : Fails s' .writer terminal) :
    Fails s .writer terminal := by
  obtain ⟨running', bytes, rest, text, front, fault, rfl⟩ := fails_writer_iff.mp fails
  obtain ⟨running, more, hqueue⟩ := h.covers.resolve_left (by simp [running'])
  rw [front] at hqueue
  have hfault : s.connection.transport.fault = s'.connection.transport.fault :=
    congrArg (·.connection.transport.fault) h.inward
  exact .writeError running hqueue.symm (hfault.trans fault)

theorem unfailing (h : Twin n s s') (sound : ∀ terminal, ¬ FailsAt s .writer terminal [] m)
    (terminal : Option Event) : ¬ FailsAt s' .writer terminal [] m :=
  fun ⟨hm, fails⟩ => sound terminal ⟨hm, h.fails fails⟩

theorem keep (h : Twin n s s') (sound : ∀ terminal, ¬ FailsAt s .writer terminal [] m) :
    Twin n (s.move m) (s'.move m) := by
  have hmove := outgoing_move h.steady sound
  have hmove' := outgoing_move h.steady' (h.unfailing sound)
  refine ⟨?_, hmove.steady h.steady, hmove'.steady h.steady', hmove'.marked h.marked,
    hmove.covers hmove' h.marked h.covers⟩
  by_cases hm : m = .step .writer
  · subst hm
    calc (s.move (.step .writer)).inward
      _ = s.inward := s.writeStep.inward h.steady fun t fails => sound t ⟨rfl, fails⟩
      _ = s'.inward := h.inward
      _ = (s'.move (.step .writer)).inward := Eq.symm <|
        s'.writeStep.inward h.steady' fun t fails => sound t ⟨rfl, h.fails fails⟩
  · rw [← inward_move hm, h.inward, inward_move hm]

theorem drop (h : Twin n s s') (moot : Moot m) : Twin n (s.move m) s' := by
  have hmove := outgoing_move (m := m) h.steady fun _ fails => moot.ne_step fails.1
  exact ⟨(moot.inward s).trans h.inward, hmove.steady h.steady, h.steady', h.marked,
    hmove.covers_of_ne moot.ne_step h.covers⟩

end Twin

/-- What happens from some point on: moves of the tasks, of the stream and of calls that had passed
their checks by then, and whole calls that come later.  No query is among these. -/
inductive Deed
  | move (m : Move)
  | send (m : Message)
  | close
  deriving DecidableEq

def perform (s : Session) : Deed → Session
  | .move m => s.move m
  | .send m => match s.connection.send m with
    | .ok c => { s with connection := c }
    | .error _ => s
  | .close => { s with connection := s.connection.close }

def play (s : Session) (deeds : List Deed) : Session := deeds.foldl perform s

def Unbroken (s : Session) (deeds : List Deed) : Prop :=
  ∀ terminal, ¬ During (fun before d =>
    d = .move (.step .writer) ∧ Fails (s.play before) .writer terminal) deeds

theorem unbroken_cons {d : Deed} {deeds : List Deed} : Unbroken s (d :: deeds) ↔
    (∀ terminal, ¬ (d = .move (.step .writer) ∧ Fails s .writer terminal)) ∧
      Unbroken (s.perform d) deeds := by
  simp only [Unbroken, during_cons, not_or, forall_and]
  rfl

theorem unbroken_of_sound {deeds : List Deed}
    (h : ∀ n < deeds.length, (s.play (deeds.take n)).connection.transport.fault = none) :
    Unbroken s deeds := by
  intro terminal
  exact not_during_of_take fun n hn _ fails => not_fails_of_sound (h n hn) terminal fails.2

theorem perform_close_of_closed (h : s.connection.closed = true) : s.perform .close = s := by
  rw [perform, close, if_pos h]

theorem perform_send_of_closed (h : s.connection.closed = true) (m : Message) :
    s.perform (.send m) = s := by
  rw [perform, send_of_closed h]

theorem stays_closed_play (h : s.connection.closed = true) (deeds : List Deed) :
    (s.play deeds).connection.closed = true := by
  induction deeds generalizing s with
  | nil => exact h
  | cons d deeds ih =>
    refine ih ?_
    cases d with
    | move m => exact stays_closed_move h m
    | send m => rwa [perform_send_of_closed h]
    | close => rwa [perform_close_of_closed h]

namespace Twin

theorem send (h : Twin n s s') (m : Message) : Twin n (s.perform (.send m)) s' := by
  rw [perform]
  split
  · next c hsend =>
    rw [eq_push_of_enqueue hsend]
    exact h.drop (.inr ⟨_, rfl⟩)
  · exact h

theorem close (h : Twin n s s') : Twin n (s.perform .close) s' := by
  by_cases closed : s.connection.closed = true
  · rwa [perform_close_of_closed closed]
  · rw [perform, Connection.close, if_neg closed]
    exact (h.drop (.inl rfl)).drop (.inr ⟨.shutdown, rfl⟩)

/-- In the second run nothing is left but the moves. -/
theorem play {deeds : List Deed} (h : Twin n s s') (closed : s'.connection.closed = true)
    (unbroken : Unbroken s deeds) :
    Twin n (s.play deeds) (s'.play deeds) ∧ ∃ moves, s'.play deeds = s'.run moves ∧
      Unfailing s' moves ∧ moves.count (.step .writer) = deeds.count (.move (.step .writer)) := by
  induction deeds generalizing s s' with
  | nil => exact ⟨h, [], rfl, fun _ => not_during_nil, rfl⟩
  | cons d deeds ih =>
    obtain ⟨sound, hrest⟩ := unbroken_cons.mp unbroken
    cases d with
    | move m =>
      have hsound : ∀ terminal, ¬ FailsAt s .writer terminal [] m := by
        rintro terminal ⟨rfl, fails⟩
        exact sound terminal ⟨rfl, fails⟩
      obtain ⟨htwin, moves, hplay, hmoves, hcount⟩ :=
        ih (h.keep hsound) (stays_closed_move closed m) hrest
      refine ⟨htwin, m :: moves, hplay, unfailing_cons.mpr ⟨h.unfailing hsound, hmoves⟩, ?_⟩
      simp [List.count_cons, hcount]
    | send m =>
      have hsame : s'.perform (.send m) = s' := perform_send_of_closed closed m
      simpa [Session.play, hsame, List.count_cons] using ih (h.send m) closed hrest
    | close =>
      have hsame : s'.perform .close = s' := perform_close_of_closed closed
      simpa [Session.play, hsame, List.count_cons] using ih h.close closed hrest

theorem drains {deeds : List Deed} (h : Twin n s s') (closed : s'.connection.closed = true)
    (unbroken : Unbroken s deeds) :
    Flushing n s'.connection.due (s'.play deeds).connection.transport ∧
      ((Outbound.ahead s'.connection.outbox).length < deeds.count (.move (.step .writer)) →
        (s'.play deeds).connection.transport.shutdowns = n + 1) := by
  obtain ⟨-, moves, hplay, hmoves, hcount⟩ := h.play closed unbroken
  rw [hplay, ← hcount]
  exact ⟨flushing_run h.steady' h.marked hmoves, ended_run h.steady' h.marked hmoves⟩

end Twin

theorem twin_close (steady : Steady n s.connection)
    (settled : s.connection.closed = true → s.connection.Marked) : Twin n s (s.perform .close) where
  inward := congrArg (fun c => { s with connection := c }) (inward_close s.connection).symm
  steady := steady
  steady' := steady_close steady
  marked := marked_close steady settled
  covers := covers_close steady

structure Alike (s s' : Session) : Prop where
  events : s.events = s'.events
  calls : s.calls = s'.calls
  collected : s.collected = s'.collected
  dispatcher : s.dispatcher = s'.dispatcher

theorem Twin.alike (h : Twin n s s') : Alike s' s where
  events := (congrArg Session.events h.inward).symm
  calls := (congrArg Session.calls h.inward).symm
  collected := (congrArg Session.collected h.inward).symm
  dispatcher := (congrArg Session.dispatcher h.inward).symm

/-- Whatever the schedule, a call of `close` inserted at some point of a run without failing writes
changes no event and no answer.  From there on calls are refused, and what is written is what had
been queued ahead of any stop marker, in order, and then the end of the stream; it comes when the
writer has had its steps.
A frame can only be behind if its call came in between while the connection was being closed: by
another call of `close`, or by a reader that had found its end. -/
theorem close_is_half_close (transport : Transport) (subscribers : List Subscriber)
    (lastId : SubscriptionId) {before : List Move} {after : List Deed}
    (unfailing : Unfailing (start transport subscribers lastId) before)
    (unbroken : Unbroken ((start transport subscribers lastId).run before) after) :
    let origin := start transport subscribers lastId
    let s := origin.run before
    let t := s.play after
    let t' := (s.perform .close).play after
    Alike t' t ∧
    (∀ m, t'.connection.send m = .error .connectionClosed) ∧
    (∀ d m, t'.connection.query d m =
      (.error (if m.expectedReply = none then .notAQuery m.type else .connectionClosed),
        t'.connection, d)) ∧
    t'.perform .close = t' ∧
    queued origin before = queuedAhead origin before ++ queuedBehind origin before ∧
    (queuedBehind origin before ≠ [] →
      .push .shutdown ∈ before ∨ ∃ terminal, During (FailsAt origin .reader terminal) before) ∧
    (¬ Unfinished before →
      Flushing transport.shutdowns (transport.written ++ (queuedAhead origin before).flatten)
        t'.connection.transport ∧
      (s.connection.outbox.length < after.count (.move (.step .writer)) →
        t'.connection.transport.shutdowns = transport.shutdowns + 1)) := by
  intro origin s t t'
  have hclosed : t'.connection.closed = true := stays_closed_play (closed_close _) after
  have horigin : Steady transport.shutdowns origin.connection := .running rfl rfl
  have hsteady : Steady transport.shutdowns s.connection := steady_run horigin unfailing
  have hfresh : ∀ task, origin.connection.ending? task = none :=
    not_ending_start transport subscribers lastId
  refine ⟨?_, send_of_closed hclosed, query_of_closed hclosed, perform_close_of_closed hclosed,
    (queued_eq horigin unfailing).1, cause_of_behind horigin hfresh rfl unfailing, ?_⟩
  · by_cases h : s.connection.closed = true
    · -- a close that comes late does nothing, and the two runs are one
      have hsame : t' = t := congrArg (Session.play · after) (perform_close_of_closed h)
      rw [hsame]
      exact ⟨rfl, rfl, rfl, rfl⟩
    · have htwin := twin_close hsteady (absurd · h)
      exact (htwin.play (closed_close _) unbroken).1.alike
  · intro finished
    have htwin := twin_close hsteady (marked_of_closed horigin (.inl rfl) rfl unfailing finished)
    obtain ⟨flushing, ended⟩ := htwin.drains (closed_close _) unbroken
    have hbytes : (s.perform .close).connection.due =
        transport.written ++ (queuedAhead origin before).flatten := by
      rw [perform, due_close, due_eq horigin unfailing, due]
      simp [origin, start, Connection.start, Outbound.ahead]
    have hlength : (Outbound.ahead (s.perform .close).connection.outbox).length ≤
        s.connection.outbox.length := by
      rw [perform, ahead_close]
      exact Outbound.length_ahead_le _
    rw [hbytes] at flushing
    exact ⟨flushing, fun enough => ended (hlength.trans_lt enough)⟩

def hungUp : List Move := [.arrive .endOfStream, .step .reader, .step .reader]

def lateFrame : List UInt8 := (Frame.ofMessage (.command (.raiseWindow 9)) 0).encode

def windingUp : List Deed := .move (.step .writer) :: List.replicate 3 (.move (.step .reader))

/-- A call that had passed its check queues its frame, and then another `close` its marker. -/
def crossing : List Deed := [.move (.push (.frame lateFrame)), .move (.push .shutdown),
  .move (.step .writer), .move (.step .writer)]

/-- A frame that is queued before the call of `close` is not written, for the reader has asked the
writer to stop; a frame is written that comes later, while another call of `close` is under way; and
a later query of what is no query is told so. -/
theorem close_not_exact :
    let origin := start {} [] 0
    let before := hungUp ++ [.push (.frame lateFrame)]
    let t' := ((origin.run before).perform .close).play windingUp
    let u' := ((origin.run [.refuse]).perform .close).play crossing
    (origin.run hungUp).connection.send (.command (.raiseWindow 9)) =
      .ok (origin.run before).connection ∧
    Unfailing origin before ∧ Unbroken (origin.run before) windingUp ∧
    queued origin before = [lateFrame] ∧
    t'.connection.transport.written = [] ∧ t'.connection.transport.shutdowns = 1 ∧
    Unfailing origin [.refuse] ∧ Unbroken (origin.run [.refuse]) crossing ∧
    queued origin [.refuse] = [] ∧
    u'.connection.transport.written = lateFrame ∧ u'.connection.transport.shutdowns = 1 ∧
    (t'.connection.query t'.dispatcher (.command (.raiseWindow 9))).1 =
      .error (.notAQuery .raiseWindow) := by
  refine ⟨rfl, unfailing_of_sound (by decide +kernel),
    unbroken_of_sound (by decide +kernel), by decide +kernel, by decide +kernel, by decide +kernel,
    unfailing_of_sound (by decide +kernel), unbroken_of_sound (by decide +kernel),
    by decide +kernel, by decide +kernel, by decide +kernel, rfl⟩

def asking : List Move := [
  .draw, .register .monitors 1, .push (.frame (Frame.ofMessage (.query .monitors) 1).encode)]

/-- A command is sent while the query is being written; then the compositor hangs up. -/
def hangingUp : List Deed := [
  .move (.step .writer), .send (.command (.focusWindow 3)), .move (.step .writer),
  .move (.arrive .endOfStream)] ++ List.replicate 5 (.move (.step .reader))

theorem unfailing_asking : Unfailing (start {} [] 0) asking :=
  unfailing_of_sound (by decide +kernel)

theorem unbroken_hangingUp : Unbroken ((start {} [] 0).run asking) hangingUp :=
  unbroken_of_sound (by decide +kernel)

theorem close_is_half_close_hangingUp :
    let s := (start {} [] 0).run asking
    let t' := (s.perform .close).play hangingUp
    Unfailing (start {} [] 0) asking ∧ Unbroken s hangingUp ∧ ¬ Unfinished asking ∧
    Alike t' (s.play hangingUp) ∧ t'.events = [.connected, .closed] ∧
    t'.connection.transport.written = (Frame.ofMessage (.query .monitors) 1).encode ∧
    t'.connection.transport.shutdowns = 1 := by
  have finished : ¬ Unfinished asking := by
    rintro ⟨done, later, heq, -⟩
    have hmem : .refuse ∈ asking := by simp [heq]
    exact absurd hmem (by decide)
  obtain ⟨halike, -, -, -, -, -, hflush⟩ :=
    close_is_half_close {} [] 0 unfailing_asking unbroken_hangingUp
  obtain ⟨-, hended⟩ := hflush finished
  exact ⟨unfailing_asking, unbroken_hangingUp, finished, halike, by decide +kernel,
    by decide +kernel, hended (by decide +kernel)⟩

end Session
end CompositorClient
