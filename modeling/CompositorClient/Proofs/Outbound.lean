import CompositorClient.Proofs.Calls
import Mathlib.Data.List.Induction

/-! What a connection has taken from its callers, and what its writer makes of it: the frames are
written in the order in which they were queued, up to the first stop marker. -/

namespace CompositorClient

namespace Connection

variable {c c' : Connection}

def taskStep (c : Connection) (d : Dispatcher) : Task → Option Effect
  | .reader => c.readerStep d
  | .writer => c.writerStep d

/-- The reader has asked the writer to stop. -/
def leaving (c : Connection) : Bool :=
  match c.reader with
  | .waiting | .cutting | .ending .signal _ => false
  | .ending _ _ | .stopped => true

def Ended (c : Connection) : Prop := c.closed = true ∨ c.leaving = true

theorem not_ended_iff : ¬ c.Ended ↔ c.closed = false ∧ c.leaving = false := by
  simp [Ended]

/-- What the tasks and the stream make of a connection.  They close it only when the reader has
asked the writer to stop. -/
structure Later (c c' : Connection) : Prop where
  closed : c.closed = true → c'.closed = true
  leaving : c.leaving = true → c'.leaving = true
  kept : c'.leaving = false → c'.closed = c.closed

namespace Later

theorem of_eq (closed : c'.closed = c.closed) (reader : c'.reader = c.reader) : Later c c' where
  closed := by simp [closed]
  leaving := by simp [Connection.leaving, reader]
  kept _ := closed

theorem stays (h : Later c c') (stays : c'.leaving = false) : c.leaving = false := by
  by_contra hleaving
  simp [h.leaving (by simpa using hleaving)] at stays

theorem open_ (h : Later c c') (open_ : c.leaving = false → c.closed = false)
    (stays : c'.leaving = false) : c'.closed = false :=
  (h.kept stays).trans (open_ (h.stays stays))

theorem ended (h : Later c c') : c.Ended → c'.Ended :=
  Or.imp h.closed h.leaving

end Later

/-- The frames in `todo` wait to be written; no writer looks at what is behind a stop marker. -/
inductive Backlog (c : Connection) : List Frame → Prop
  | flowing {todo} (running : c.writer = .running) (queue : c.outbox = todo.map Frame.outbound)
      (stays : c.leaving = false) : Backlog c todo
  | marked {todo rest} (running : c.writer = .running)
      (queue : c.outbox = todo.map Frame.outbound ++ .shutdown :: rest) (ended : c.Ended) :
    Backlog c todo
  | stopped (stopped : c.writer = .stopped) (ended : c.Ended) : Backlog c []

/-- The next number is that of draw `n`, or else a query holds that one already. -/
inductive Counts (q : Sequence) (n : Nat) : Option UInt32 → Prop
  | next (numbered : q.next.1 = Sequence.nth n) : Counts q n none
  | held (numbered : q.next.1 = Sequence.nth (n + 1)) : Counts q n (some (Sequence.nth n))

/-- The writer has met no fault, and has written or will write the frames of `sent`; a query under
way may hold a number. -/
structure Sending (c : Connection) (sent : List Message) (held : Option UInt32) : Prop where
  sound : c.transport.fault = none
  backlog : ∃ done todo, stamp 0 sent = done ++ todo ∧
    c.transport.written = done.flatMap Frame.encode ∧ Backlog c todo
  counts : ¬ c.Ended → Counts c.sequence (queries sent) held

namespace Backlog

variable {todo : List Frame}

theorem writer_ne (h : Backlog c todo) {stage : Stage} {terminal : Option Event} :
    c.writer ≠ .ending stage terminal := by
  cases h with
  | flowing running | marked running => simp [running]
  | stopped stopped => simp [stopped]

theorem ended_of_stopped (h : Backlog c todo) (stopped : c.writer = .stopped) : c.Ended := by
  cases h with
  | flowing running => simp [stopped] at running
  | marked _ _ ended | stopped _ ended => exact ended

/-- A writer that has nothing to do has left nothing to write. -/
theorem nil_of_writerStep (h : Backlog c todo) (sound : c.transport.fault = none)
    {d : Dispatcher} (rests : c.writerStep d = none) : todo = [] := by
  cases todo with
  | nil => rfl
  | cons f todo =>
    cases h with
    | flowing running queue | marked running queue =>
      simp [writerStep, running, queue, sound, Frame.outbound] at rests

theorem of_same (h : Backlog c todo) (writer : c'.writer = c.writer)
    (outbox : c'.outbox = c.outbox) (stays : c.leaving = false → c'.leaving = false)
    (ended : c.Ended → c'.Ended) : Backlog c' todo := by
  cases h with
  | flowing running queue hstays =>
    exact .flowing (writer.trans running) (outbox.trans queue) (stays hstays)
  | marked running queue hended =>
    exact .marked (writer.trans running) (outbox.trans queue) (ended hended)
  | stopped stopped hended => exact .stopped (writer.trans stopped) (ended hended)

theorem mark (h : Backlog c todo) (writer : c'.writer = c.writer)
    (outbox : c'.outbox = (c.push .shutdown).outbox) (ended : c'.Ended) : Backlog c' todo := by
  cases h with
  | flowing running queue =>
    have hqueue : c'.outbox = todo.map Frame.outbound ++ .shutdown :: [] := by
      simp [outbox, push, running, queue]
    exact .marked (writer.trans running) hqueue ended
  | @marked _ rest running queue =>
    have hqueue : c'.outbox = todo.map Frame.outbound ++ .shutdown :: (rest ++ [.shutdown]) := by
      simp [outbox, push, running, queue]
    exact .marked (writer.trans running) hqueue ended
  | stopped stopped => exact .stopped (writer.trans stopped) ended

theorem push_ahead (h : Backlog c todo) (going : ¬ c.Ended) (f : Frame) :
    Backlog (c.push (.frame f.encode)) (todo ++ [f]) := by
  cases h with
  | flowing running queue stays =>
    refine .flowing ((writer_push ..).trans running) ?_ (by simpa [leaving] using stays)
    simp [push, running, queue, Frame.outbound]
  | marked _ _ ended | stopped _ ended => exact absurd ended going

/-- When the reader has asked the writer to stop, a frame comes behind the marker. -/
theorem push_behind (h : Backlog c todo) (left : c.leaving = true) (item : Outbound) :
    Backlog (c.push item) todo := by
  have hended : (c.push item).Ended := .inr (by simpa [leaving] using left)
  cases h with
  | flowing _ _ stays => simp [left] at stays
  | @marked _ rest running queue =>
    have hqueue : (c.push item).outbox =
        todo.map Frame.outbound ++ .shutdown :: (rest ++ [item]) := by
      simp [push, running, queue]
    exact .marked ((writer_push ..).trans running) hqueue hended
  | stopped stopped => exact .stopped ((writer_push ..).trans stopped) hended

theorem write (h : Backlog c todo) {bytes : List UInt8} {rest : List Outbound}
    (running : c.writer = .running) (front : c.outbox = .frame bytes :: rest) :
    ∃ f todo', todo = f :: todo' ∧ bytes = f.encode ∧
      Backlog { c with outbox := rest } todo' := by
  cases todo with
  | nil =>
    cases h with
    | flowing _ queue | marked _ queue => simp [front] at queue
    | stopped stopped => simp [running] at stopped
  | cons f todo =>
    cases h with
    | flowing _ queue stays =>
      obtain ⟨hf, hrest⟩ := List.cons.inj (front.symm.trans queue)
      cases hf
      exact ⟨f, todo, rfl, rfl, .flowing running hrest stays⟩
    | marked _ queue ended =>
      obtain ⟨hf, hrest⟩ := List.cons.inj (front.symm.trans queue)
      cases hf
      exact ⟨f, todo, rfl, rfl, .marked running hrest ended⟩

/-- A marker is taken when nothing waits any more. -/
theorem shutdown (h : Backlog c todo) {rest : List Outbound}
    (front : c.outbox = .shutdown :: rest) (writer : c'.writer = .stopped)
    (ended : c.Ended → c'.Ended) : Backlog c' todo := by
  cases todo with
  | nil =>
    cases h with
    | flowing _ queue => simp [front] at queue
    | marked _ _ hended | stopped _ hended => exact .stopped writer (ended hended)
  | cons f todo =>
    cases h with
    | flowing _ queue | marked _ queue => simp [front, Frame.outbound] at queue

end Backlog

namespace Sending

variable {sent : List Message} {held held' : Option UInt32}

theorem start : Sending {} [] none where
  sound := rfl
  backlog := ⟨[], [], rfl, rfl, .flowing rfl rfl rfl⟩
  counts _ := .next Sequence.Issued.start.next

theorem writer_ne (h : Sending c sent held) {stage : Stage} {terminal : Option Event} :
    c.writer ≠ .ending stage terminal := by
  obtain ⟨done, todo, -, -, hbacklog⟩ := h.backlog
  exact hbacklog.writer_ne

theorem ended_of_stopped (h : Sending c sent held) (stopped : c.writer = .stopped) : c.Ended := by
  obtain ⟨done, todo, -, -, hbacklog⟩ := h.backlog
  exact hbacklog.ended_of_stopped stopped

/-- Whatever goes on with the queue, nothing is queued in time or written. -/
theorem carry (h : Sending c sent held) (transport : c'.transport = c.transport)
    (counts : ¬ c'.Ended → Counts c'.sequence (queries sent) held')
    (backlog : ∀ {todo}, Backlog c todo → Backlog c' todo) : Sending c' sent held' := by
  obtain ⟨done, todo, hsent, hwritten, hbacklog⟩ := h.backlog
  exact ⟨by rw [transport, h.sound], ⟨done, todo, hsent, by rw [transport, hwritten],
    backlog hbacklog⟩, counts⟩

theorem of_same (h : Sending c sent held) (transport : c'.transport = c.transport)
    (sequence : c'.sequence = c.sequence) (writer : c'.writer = c.writer)
    (outbox : c'.outbox = c.outbox) (stays : c.leaving = false → c'.leaving = false)
    (ended : c.Ended → c'.Ended) : Sending c' sent held := by
  refine h.carry transport (fun going => ?_) fun hbacklog =>
    hbacklog.of_same writer outbox stays ended
  rw [sequence]
  exact h.counts (mt ended going)

theorem mark (h : Sending c sent held) (transport : c'.transport = c.transport)
    (writer : c'.writer = c.writer) (outbox : c'.outbox = (c.push .shutdown).outbox)
    (ended : c'.Ended) : Sending c' sent held :=
  h.carry transport (absurd ended) fun hbacklog => hbacklog.mark writer outbox ended

/-- A query that gives up does so at the end of the connection. -/
theorem release (h : Sending c sent held) (ended : c.Ended) : Sending c sent held' :=
  ⟨h.sound, h.backlog, absurd ended⟩

theorem draw (h : Sending c sent none) :
    Sending { c with sequence := c.sequence.next.2 } sent (some c.sequence.next.1) := by
  refine h.carry rfl (fun going => ?_) fun hbacklog => hbacklog.of_same rfl rfl id id
  cases h.counts going with
  | next numbered =>
    rw [numbered]
    refine .held ?_
    rw [Sequence.next_snd, numbered, Sequence.next_nth_succ]

/-- What is queued goes out if the reader has not asked the writer to stop. -/
theorem push (h : Sending c sent held) (open_ : c.leaving = false → c.closed = false)
    {m : Message} {f : Frame}
    (stamped : Counts c.sequence (queries sent) held →
      stamp (queries sent) [m] = [f] ∧ Counts c.sequence (queries (sent ++ [m])) none) :
    Sending (c.push (.frame f.encode)) (if c.leaving then sent else sent ++ [m]) none := by
  cases hleaving : c.leaving with
  | true =>
    have hended : (c.push (.frame f.encode)).Ended := .inr (by simpa [leaving] using hleaving)
    exact h.carry (transport_push ..) (absurd hended) fun hbacklog =>
      hbacklog.push_behind hleaving _
  | false =>
    have hgoing : ¬ c.Ended := not_ended_iff.mpr ⟨open_ hleaving, hleaving⟩
    obtain ⟨hstamp, hcounts⟩ := stamped (h.counts hgoing)
    obtain ⟨done, todo, hsent, hwritten, hbacklog⟩ := h.backlog
    refine ⟨by simp [h.sound], ⟨done, todo ++ [f], ?_, by simp [hwritten],
      hbacklog.push_ahead hgoing f⟩, fun _ => by simpa using hcounts⟩
    simp [stamp_append, hsent, hstamp]

theorem push_command (h : Sending c sent none) (open_ : c.leaving = false → c.closed = false)
    (m : Command) :
    Sending (c.push (.frame (Frame.ofMessage (.command m) 0).encode))
      (if c.leaving then sent else sent ++ [.command m]) none :=
  h.push open_ fun hcounts => ⟨rfl, by rwa [queries_append]⟩

theorem push_query {n : UInt32} (h : Sending c sent (some n))
    (open_ : c.leaving = false → c.closed = false) (q : Query) :
    Sending (c.push (.frame (Frame.ofMessage (.query q) n).encode))
      (if c.leaving then sent else sent ++ [.query q]) none := by
  refine h.push open_ fun hcounts => ?_
  cases hcounts with
  | held numbered => exact ⟨rfl, .next (by rwa [queries_append])⟩

theorem accept (h : Sending c sent held) (input : Input) : Sending (c.accept input) sent held := by
  unfold Connection.accept
  split
  · next waiting =>
    cases input with
    | bytes | endOfStream | failure =>
      exact h.of_same rfl rfl rfl rfl (fun _ => rfl) (by simp [Ended, leaving, waiting])
    | interruption => exact h
  · exact h

end Sending

theorem later_accept (c : Connection) (input : Input) : Later c (c.accept input) := by
  unfold Connection.accept
  split
  · next waiting =>
    cases input with
    | bytes | endOfStream | failure | interruption =>
      exact ⟨id, by simp [leaving, waiting], fun _ => rfl⟩
  · exact .of_eq rfl rfl

end Connection

namespace Session

open Connection

variable {s s' : Session} {sent : List Message} {held : Option UInt32}

theorem Concludes.later {stage : Stage} {terminal : Option Event}
    (step : Concludes s .reader stage terminal s')
    (stands : s.connection.reader = .ending stage terminal) :
    Later s.connection s'.connection := by
  cases step with
  | signal => exact ⟨by simp, by simp [leaving, stands], by simp⟩
  | refuse => exact ⟨fun _ => rfl, fun _ => rfl, nofun⟩
  | late | claim | notify => exact ⟨id, fun _ => rfl, fun _ => rfl⟩

theorem Concludes.sending {stage : Stage} {terminal : Option Event}
    (step : Concludes s .reader stage terminal s')
    (stands : s.connection.reader = .ending stage terminal)
    (h : s.connection.Sending sent held) : s'.connection.Sending sent held := by
  have hended := (step.later stands).ended
  cases step with
  | signal => exact h.mark (transport_push ..) (writer_push ..) rfl (.inr rfl)
  | refuse | late | claim | notify =>
    exact h.of_same rfl rfl rfl rfl (by simp [leaving, stands]) hended

theorem ReadStep.later (step : ReadStep s s') : Later s.connection s'.connection := by
  cases step with
  | idle | again => exact .of_eq rfl rfl
  | bytes hr | finish hr | drained hr | malformed hr | frame hr =>
    exact ⟨id, by simp [leaving, hr], fun _ => rfl⟩
  | ending stands => exact (concludes ..).later stands

theorem ReadStep.sending (step : ReadStep s s') (h : s.connection.Sending sent held) :
    s'.connection.Sending sent held := by
  have hended := step.later.ended
  cases step with
  | idle | again => exact h
  | bytes | finish | drained | malformed => exact h.of_same rfl rfl rfl rfl (fun _ => rfl) hended
  | frame cutting =>
    exact h.of_same rfl rfl rfl rfl (fun _ => by simp [leaving, absorb, cutting]) hended
  | ending stands => exact (concludes ..).sending stands h

theorem WriteStep.later (step : WriteStep s s') (h : s.connection.Sending sent held) :
    Later s.connection s'.connection := by
  cases step with
  | idle | frame | failed | shutdown => exact .of_eq rfl rfl
  | ending stands => exact absurd stands h.writer_ne

theorem WriteStep.sending (step : WriteStep s s') (h : s.connection.Sending sent held) :
    s'.connection.Sending sent held := by
  cases step with
  | idle => exact h
  | frame running front =>
    obtain ⟨done, todo, hsent, hwritten, hbacklog⟩ := h.backlog
    obtain ⟨f, todo, rfl, rfl, hbacklog⟩ := hbacklog.write running front
    exact ⟨h.sound, ⟨done ++ [f], todo, by simp [hsent], by simp [hwritten],
      hbacklog.of_same rfl rfl id id⟩, h.counts⟩
  | failed _ _ fault => simp [h.sound] at fault
  | shutdown _ front =>
    obtain ⟨done, todo, hsent, hwritten, hbacklog⟩ := h.backlog
    exact ⟨h.sound, ⟨done, todo, hsent, hwritten, hbacklog.shutdown front rfl id⟩, h.counts⟩
  | ending stands => exact absurd stands h.writer_ne

theorem Concludes.stays_closed {task : Task} {stage : Stage} {terminal : Option Event}
    (step : Concludes s task stage terminal s') (closed : s.connection.closed = true) :
    s'.connection.closed = true := by
  cases step <;> simp [absorb, closed]

theorem stays_closed_step (task : Task) (closed : s.connection.closed = true) :
    (s.move (.step task)).connection.closed = true := by
  cases task with
  | reader =>
    have step := s.readStep
    show s.read.connection.closed = true
    generalize s.read = s' at step ⊢
    cases step with
    | idle | bytes | again | finish | drained | malformed | frame => exact closed
    | ending => exact (concludes ..).stays_closed closed
  | writer =>
    have step := s.writeStep
    show s.write.connection.closed = true
    generalize s.write = s' at step ⊢
    cases step with
    | idle | frame | failed | shutdown => exact closed
    | ending => exact (concludes ..).stays_closed closed

theorem stays_closed_move (h : s.connection.closed = true) (m : Move) :
    (s.move m).connection.closed = true := by
  cases m with
  | step task => exact stays_closed_step task h
  | refuse => rfl
  | push item => exact (Connection.closed_push ..).trans h
  | register =>
    rw [move, connection_register]
    exact h
  | arrive | fault | draw | abandon | collect | subscribe | unsubscribe => exact h

end Session

namespace Connection

open Session

variable {c : Connection}

theorem connection_taskStep {d : Dispatcher} {task : Task} {e : Effect}
    (h : c.taskStep d task = some e) :
    (Session.move { connection := c, dispatcher := d } (.step task)).connection =
      e.connection := by
  cases task with
  | reader =>
    rw [taskStep] at h
    show (Session.read _).connection = _
    unfold Session.read
    split
    · next brought => cases brought
    · rw [h]
      rfl
  | writer =>
    rw [taskStep] at h
    rw [Session.move, Session.write, h]
    rfl

theorem closed_close (c : Connection) : c.close.closed = true := by
  rw [close]
  split
  · assumption
  · exact closed_push ..

theorem writer_close (c : Connection) : c.close.writer = c.writer := by
  unfold close
  split
  · rfl
  · exact writer_push ..

theorem transport_close (c : Connection) : c.close.transport = c.transport := by
  unfold close
  split
  · rfl
  · exact transport_push ..

theorem Sending.later_taskStep {sent : List Message} {held : Option UInt32}
    (h : c.Sending sent held) {d : Dispatcher} {task : Task} {e : Effect}
    (step : c.taskStep d task = some e) : Later c e.connection := by
  rw [← connection_taskStep step]
  cases task with
  | reader => exact ReadStep.later (readStep { connection := c, dispatcher := d })
  | writer => exact WriteStep.later (writeStep { connection := c, dispatcher := d }) h

theorem Sending.taskStep {sent : List Message} {held : Option UInt32} (h : c.Sending sent held)
    {d : Dispatcher} {task : Task} {e : Effect} (step : c.taskStep d task = some e) :
    e.connection.Sending sent held := by
  rw [← connection_taskStep step]
  cases task with
  | reader => exact (readStep _).sending h
  | writer => exact (writeStep _).sending h

theorem runWriter_of_none {d : Dispatcher} (rests : c.writerStep d = none) :
    c.runWriter d = ⟨c, d, []⟩ := by
  rw [runWriter]
  split
  · rfl
  · next he => cases rests.symm.trans he

theorem runWriter_of_some {d : Dispatcher} {e : Effect} (step : c.writerStep d = some e) :
    c.runWriter d = { e.connection.runWriter e.dispatcher with
      events := e.events ++ (e.connection.runWriter e.dispatcher).events } := by
  rw [runWriter]
  split
  · next hnone => cases step.symm.trans hnone
  · next he =>
    cases step.symm.trans he
    rfl

theorem Sending.runWriter {sent : List Message} {held : Option UInt32} (h : c.Sending sent held)
    (d : Dispatcher) :
    (c.runWriter d).connection.Sending sent held ∧
      (c.runWriter d).connection.writerStep (c.runWriter d).dispatcher = none := by
  induction c, d using runWriter.induct with
  | case1 c d rests =>
    rw [runWriter_of_none rests]
    exact ⟨h, rests⟩
  | case2 c d e step _ ih =>
    have htask : c.taskStep d .writer = some e := step
    rw [runWriter_of_some step]
    exact ih (h.taskStep htask)

theorem Sending.written_runWriter {sent : List Message} {held : Option UInt32}
    (h : c.Sending sent held) (d : Dispatcher) :
    (c.runWriter d).connection.transport.written = (stamp 0 sent).flatMap Frame.encode := by
  obtain ⟨hsending, rests⟩ := h.runWriter d
  obtain ⟨done, todo, hsent, hwritten, hbacklog⟩ := hsending.backlog
  rw [hbacklog.nil_of_writerStep hsending.sound rests, List.append_nil] at hsent
  rw [hwritten, hsent]

end Connection
end CompositorClient
