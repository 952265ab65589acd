import CompositorClient.Proofs.Session
import CompositorClient.Proofs.Splitting
import Mathlib.Algebra.GroupWithZero.Nat
import Mathlib.Data.List.Induction

/-! What the inbound stream brings about.  The reader dispatches the frames that a plain splitter
cuts off the whole stream, and then ends the connection: neither the pieces in which the bytes
arrive nor the steps that the writer takes meanwhile make a difference. -/

namespace CompositorClient

namespace FrameBuffer

theorem buffered_next_le (b : FrameBuffer) : b.next.2.buffered ≤ b.buffered := by
  unfold next
  split
  · exact Nat.le_refl _
  · split
    · exact Nat.le_refl _
    · dsimp only
      split
      · exact Nat.le_refl _
      · split
        · exact Nat.le_refl _
        · simp only [buffered]
          omega

structure Clean (b : FrameBuffer) : Prop where
  sound : b.fault = none
  inside : b.taken ≤ b.held.size

namespace Clean

variable {b : FrameBuffer}

theorem feed (h : Clean b) (bs : List UInt8) : Clean (b.feed bs) :=
  ⟨(fault_feed b bs).trans h.sound, taken_feed_le h.inside bs⟩

theorem split_of_next_none (h : Clean b) (next : b.next.1 = none) : split b.pending = [] := by
  rw [next_eq_first h.sound] at next
  exact split_of_none next

theorem split_of_next_error (h : Clean b) {e : ProtocolError}
    (next : b.next.1 = some (.error e)) (t : List UInt8) : split (b.pending ++ t) = [.error e] := by
  rw [next_eq_first h.sound] at next
  exact split_of_error (first_append next t)

theorem next_snd (h : Clean b) {f : Frame} (next : b.next.1 = some (.ok f)) :
    b.next.2 = { b with taken := b.taken + f.header.length.toNat } := by
  rw [next_eq_first h.sound] at next ⊢
  dsimp only at next ⊢
  rw [next]

theorem next (h : Clean b) {f : Frame} (next : b.next.1 = some (.ok f)) : Clean b.next.2 := by
  have hnext : b.next = (some (.ok f), b.next.2) := Prod.ext next rfl
  have hle := (buffered_of_next_ok hnext).2.1
  have hinside := h.inside
  rw [h.next_snd next]
  refine ⟨h.sound, ?_⟩
  dsimp only
  rw [buffered] at hle
  omega

theorem split_of_next_ok (h : Clean b) {f : Frame} (next : b.next.1 = some (.ok f))
    (t : List UInt8) : split (b.pending ++ t) = .ok f :: split (b.next.2.pending ++ t) := by
  have hnext : b.next = (some (.ok f), b.next.2) := Prod.ext next rfl
  have hle := (buffered_of_next_ok hnext).2.1
  have hfirst : first b.pending = some (.ok f) := by
    rw [next_eq_first h.sound] at next
    exact next
  rw [split_of_ok (first_append hfirst t), h.next_snd next, pending_taken,
    List.drop_append_of_le_length (by rwa [length_pending])]

end Clean
end FrameBuffer

namespace Dispatcher

/-- Dispatches the frames in order and closes at their end or at a malformed header. -/
def dispatchAll (d : Dispatcher) : List FrameBuffer.Item → Dispatcher
  | [] => d.close
  | .ok f :: is => (d.dispatchFrame f).2.dispatchAll is
  | .error _ :: _ => d.close

end Dispatcher

/-- What is emitted meanwhile, when the stream itself ends with `last`. -/
def eventsOf (last : Option Event) : List FrameBuffer.Item → List Event
  | [] => last.toList ++ [.closed]
  | .ok f :: is => f.events ++ eventsOf last is
  | .error e :: _ => [.protocolViolation e, .closed]

/-- Reads that bring these bytes, in any pieces and with any interruptions, and then the end. -/
inductive Pieces (last : Option Event) : List UInt8 → List Input → Prop
  | finish {input} (ends : input.end? = some last) : Pieces last [] [input]
  | bytes {piece bs reads} (nonempty : piece ≠ []) (rest : Pieces last bs reads) :
    Pieces last (piece ++ bs) (.bytes piece :: reads)
  | interruption {bs reads} (rest : Pieces last bs reads) :
    Pieces last bs (.interruption :: reads)

/-- The steps that the reader may take without a new read, beyond one for each frame. -/
def Reader.cost : Reader → Nat
  | .waiting => 5
  | .cutting => 6
  | .ending stage _ => stage.rank
  | .stopped => 0

def Input.size : Input → Nat
  | .bytes bs => bs.length
  | .endOfStream | .failure _ | .interruption => 0

namespace Session

open FrameBuffer

structure Writes (c : Connection) : Prop where
  writer : c.writer = .running ∨ c.writer = .stopped
  sound : c.transport.fault = none

/-- What is left for the reader to do: the events to be emitted, and the dispatcher at the end. -/
inductive Remaining (last : Option Event) (s : Session) : List Event → Dispatcher → Prop
  | waiting {bs} (waits : s.connection.reader = .waiting)
      (unclaimed : s.connection.notified = false) (clean : s.connection.inbox.Clean)
      (nothing : s.connection.inbox.next.1 = none) (pieces : Pieces last bs s.reads) :
    Remaining last s (eventsOf last (split (s.connection.inbox.pending ++ bs)))
      (s.dispatcher.dispatchAll (split (s.connection.inbox.pending ++ bs)))
  | cutting {bs} (cuts : s.connection.reader = .cutting)
      (unclaimed : s.connection.notified = false) (clean : s.connection.inbox.Clean)
      (pieces : Pieces last bs s.reads) :
    Remaining last s (eventsOf last (split (s.connection.inbox.pending ++ bs)))
      (s.dispatcher.dispatchAll (split (s.connection.inbox.pending ++ bs)))
  | ending (stage : Stage) (terminal : Option Event)
      (stands : s.connection.reader = .ending stage terminal)
      (unclaimed : stage ≠ .notify → s.connection.notified = false) :
    Remaining last s (terminal.toList ++ [.closed]) s.dispatcher.close
  | stopped (stands : s.connection.reader = .stopped) : Remaining last s [] s.dispatcher

/-- The steps so far and those to come make up these events, these calls and this dispatcher. -/
def Leads (last : Option Event) (s : Session) (events : List Event) (calls : List Call)
    (d : Dispatcher) : Prop :=
  ∃ es, Remaining last s es d ∧ s.events ++ es = events ∧ s.calls ++ s.dispatcher.calls es = calls

variable {s s' : Session} {last : Option Event} {events : List Event} {calls : List Call}
  {d : Dispatcher}

structure Aside (s s' : Session) : Prop where
  reader : s'.connection.reader = s.connection.reader
  notified : s'.connection.notified = s.connection.notified
  inbox : s'.connection.inbox = s.connection.inbox
  reads : s'.reads = s.reads
  dispatcher : s'.dispatcher = s.dispatcher
  events : s'.events = s.events
  calls : s'.calls = s.calls

theorem WriteStep.aside (step : WriteStep s s') (writes : Writes s.connection) :
    Aside s s' ∧ Writes s'.connection := by
  cases step with
  | idle => exact ⟨⟨rfl, rfl, rfl, rfl, rfl, rfl, rfl⟩, writes⟩
  | frame => exact ⟨⟨rfl, rfl, rfl, rfl, rfl, rfl, rfl⟩, writes.writer, writes.sound⟩
  | shutdown => exact ⟨⟨rfl, rfl, rfl, rfl, rfl, rfl, rfl⟩, .inr rfl, writes.sound⟩
  | failed _ _ fault =>
    rw [writes.sound] at fault
    cases fault
  | ending stands =>
    rcases writes.writer with hw | hw
    · rw [stands] at hw
      cases hw
    · rw [stands] at hw
      cases hw

theorem Remaining.aside {es : List Event} (h : Remaining last s es d) (aside : Aside s s') :
    Remaining last s' es d := by
  cases h with
  | waiting waits unclaimed clean nothing pieces =>
    rw [← aside.inbox, ← aside.dispatcher]
    rw [← aside.inbox] at clean nothing
    exact .waiting (aside.reader.trans waits) (aside.notified.trans unclaimed) clean nothing
      (aside.reads ▸ pieces)
  | cutting cuts unclaimed clean pieces =>
    rw [← aside.inbox, ← aside.dispatcher]
    rw [← aside.inbox] at clean
    exact .cutting (aside.reader.trans cuts) (aside.notified.trans unclaimed) clean
      (aside.reads ▸ pieces)
  | ending _ _ stands unclaimed =>
    rw [← aside.dispatcher]
    exact .ending _ _ (aside.reader.trans stands) fun hstage =>
      aside.notified.trans (unclaimed hstage)
  | stopped stands =>
    rw [← aside.dispatcher]
    exact .stopped (aside.reader.trans stands)

theorem Remaining.of_waiting {es : List Event} (h : Remaining last s es d)
    (waits : s.connection.reader = .waiting) : ∃ bs, Pieces last bs s.reads ∧
      s.connection.notified = false ∧ s.connection.inbox.Clean ∧
      s.connection.inbox.next.1 = none ∧
      es = eventsOf last (split (s.connection.inbox.pending ++ bs)) ∧
      d = s.dispatcher.dispatchAll (split (s.connection.inbox.pending ++ bs)) := by
  cases h with
  | waiting _ unclaimed clean nothing pieces =>
    exact ⟨_, pieces, unclaimed, clean, nothing, rfl, rfl⟩
  | cutting stands | ending _ _ stands | stopped stands =>
    rw [waits] at stands
    cases stands

theorem Remaining.of_cutting {es : List Event} (h : Remaining last s es d)
    (cuts : s.connection.reader = .cutting) : ∃ bs, Pieces last bs s.reads ∧
      s.connection.notified = false ∧ s.connection.inbox.Clean ∧
      es = eventsOf last (split (s.connection.inbox.pending ++ bs)) ∧
      d = s.dispatcher.dispatchAll (split (s.connection.inbox.pending ++ bs)) := by
  cases h with
  | cutting _ unclaimed clean pieces => exact ⟨_, pieces, unclaimed, clean, rfl, rfl⟩
  | waiting stands | ending _ _ stands | stopped stands =>
    rw [cuts] at stands
    cases stands

theorem Remaining.of_ending {es : List Event} {stage : Stage} {terminal : Option Event}
    (h : Remaining last s es d) (stands : s.connection.reader = .ending stage terminal) :
    (stage ≠ .notify → s.connection.notified = false) ∧
      es = terminal.toList ++ [.closed] ∧ d = s.dispatcher.close := by
  cases h with
  | ending _ _ hr unclaimed =>
    rw [stands] at hr
    cases hr
    exact ⟨unclaimed, rfl, rfl⟩
  | waiting hr | cutting hr | stopped hr =>
    rw [stands] at hr
    cases hr

theorem Remaining.of_stopped {es : List Event} (h : Remaining last s es d)
    (stopped : s.connection.reader = .stopped) : es = [] ∧ d = s.dispatcher := by
  cases h with
  | stopped => exact ⟨rfl, rfl⟩
  | waiting stands | cutting stands | ending _ _ stands =>
    rw [stopped] at stands
    cases stands

theorem Leads.silent (h : Leads last s events calls d) (hevents : s'.events = s.events)
    (hcalls : s'.calls = s.calls)
    (subscribers : s'.dispatcher.subscribers = s.dispatcher.subscribers)
    (remaining : ∀ es, Remaining last s es d → Remaining last s' es d) :
    Leads last s' events calls d := by
  obtain ⟨es, hes, rfl, rfl⟩ := h
  exact ⟨es, remaining es hes, by rw [hevents],
    by rw [hcalls, Dispatcher.calls_congr subscribers]⟩

theorem Concludes.leads {stage : Stage} {terminal : Option Event}
    (step : Concludes s .reader stage terminal s')
    (stands : s.connection.reader = .ending stage terminal) (h : Leads last s events calls d) :
    Leads last s' events calls d := by
  cases step with
  | signal =>
    refine h.silent rfl rfl rfl fun es hes => ?_
    obtain ⟨unclaimed, rfl, rfl⟩ := hes.of_ending stands
    refine .ending .refuse terminal rfl fun _ => ?_
    rw [Connection.notified_advance, Connection.notified_push]
    exact unclaimed (by simp)
  | refuse =>
    refine h.silent rfl rfl rfl fun es hes => ?_
    obtain ⟨unclaimed, rfl, rfl⟩ := hes.of_ending stands
    exact .ending .claim terminal rfl fun _ => unclaimed (by simp)
  | late notified =>
    obtain ⟨es, hes, -⟩ := h
    rw [(hes.of_ending stands).1 (by simp)] at notified
    cases notified
  | claim first =>
    refine h.silent rfl rfl rfl fun es hes => ?_
    obtain ⟨-, rfl, rfl⟩ := hes.of_ending stands
    exact .ending .notify terminal rfl fun hne => absurd rfl hne
  | notify =>
    obtain ⟨es, hes, rfl, rfl⟩ := h
    obtain ⟨-, rfl, rfl⟩ := hes.of_ending stands
    refine ⟨[], .stopped rfl, ?_, ?_⟩
    · rw [List.append_nil]
      rfl
    · rw [Dispatcher.calls_nil, List.append_nil]
      rfl

theorem ReadStep.leads (step : ReadStep s s') (h : Leads last s events calls d) :
    Leads last s' events calls d := by
  cases step with
  | idle => exact h
  | @bytes piece rest waits brought =>
    refine h.silent rfl rfl rfl fun es hes => ?_
    obtain ⟨bs, pieces, unclaimed, clean, -, rfl, rfl⟩ := hes.of_waiting waits
    rw [brought] at pieces
    cases pieces with
    | finish ends => cases ends
    | @bytes _ bs _ nonempty rest =>
      rw [← List.append_assoc, ← pending_feed clean.sound clean.inside]
      exact .cutting rfl unclaimed (clean.feed piece) rest
  | again waits brought =>
    refine h.silent rfl rfl rfl fun es hes => ?_
    obtain ⟨bs, pieces, unclaimed, clean, nothing, rfl, rfl⟩ := hes.of_waiting waits
    rw [brought] at pieces
    cases pieces with
    | finish ends => cases ends
    | interruption rest => exact .waiting waits unclaimed clean nothing rest
  | finish waits brought ended =>
    refine h.silent rfl rfl rfl fun es hes => ?_
    obtain ⟨bs, pieces, unclaimed, clean, nothing, rfl, rfl⟩ := hes.of_waiting waits
    rw [brought] at pieces
    cases pieces with
    | bytes | interruption => cases ended
    | finish ends =>
      rw [ended] at ends
      cases ends
      rw [List.append_nil, clean.split_of_next_none nothing, eventsOf, Dispatcher.dispatchAll]
      exact .ending .signal last rfl fun _ => unclaimed
  | drained cuts next =>
    refine h.silent rfl rfl rfl fun es hes => ?_
    obtain ⟨bs, pieces, unclaimed, clean, rfl, rfl⟩ := hes.of_cutting cuts
    rw [next_of_none next]
    exact .waiting rfl unclaimed clean next pieces
  | malformed cuts next =>
    refine h.silent rfl rfl rfl fun es hes => ?_
    obtain ⟨bs, pieces, unclaimed, clean, rfl, rfl⟩ := hes.of_cutting cuts
    rw [clean.split_of_next_error next, eventsOf, Dispatcher.dispatchAll]
    exact .ending .signal (some (.protocolViolation _)) rfl fun _ => unclaimed
  | @frame f cuts next =>
    obtain ⟨es, hes, rfl, rfl⟩ := h
    obtain ⟨bs, pieces, unclaimed, clean, rfl, rfl⟩ := hes.of_cutting cuts
    rw [clean.split_of_next_ok next, eventsOf, Dispatcher.dispatchAll]
    refine ⟨_, .cutting cuts unclaimed (clean.next next) pieces, ?_, ?_⟩
    · exact List.append_assoc ..
    · simp only [absorb]
      rw [Dispatcher.calls_congr (Dispatcher.subscribers_dispatchFrame s.dispatcher f),
        Dispatcher.calls_congr (Dispatcher.subscribers_dispatchFrame s.dispatcher f),
        Dispatcher.calls_append, List.append_assoc]
  | ending stands => exact (concludes ..).leads stands h

theorem Leads.aside (h : Leads last s events calls d) (aside : Aside s s') :
    Leads last s' events calls d :=
  h.silent aside.events aside.calls (congrArg Dispatcher.subscribers aside.dispatcher)
    fun _ hes => hes.aside aside

theorem Writes.of_eq {c c' : Connection} (h : Writes c) (writer : c'.writer = c.writer)
    (transport : c'.transport = c.transport) : Writes c' := by
  refine ⟨?_, ?_⟩
  · rw [writer]
    exact h.writer
  · rw [transport]
    exact h.sound

theorem Concludes.writes {stage : Stage} {terminal : Option Event}
    (step : Concludes s .reader stage terminal s') (h : Writes s.connection) :
    Writes s'.connection := by
  cases step with
  | signal => exact h.of_eq (Connection.writer_push ..) (Connection.transport_push ..)
  | refuse | late | claim | notify => exact h.of_eq rfl rfl

theorem ReadStep.writes (step : ReadStep s s') (h : Writes s.connection) :
    Writes s'.connection := by
  cases step with
  | idle => exact h
  | bytes | again | finish | drained | malformed | frame => exact h.of_eq rfl rfl
  | ending => exact (concludes ..).writes h

def work (s : Session) : Nat :=
  s.connection.inbox.buffered + (s.reads.map Input.size).sum + 2 * s.reads.length +
    s.connection.reader.cost

theorem sum_size_of_pieces {bs : List UInt8} {reads : List Input} (h : Pieces last bs reads) :
    (reads.map Input.size).sum = bs.length := by
  induction h with
  | @finish input ends =>
    cases input with
    | bytes | interruption => cases ends
    | endOfStream | failure => rfl
  | @bytes piece bs reads nonempty rest ih =>
    rw [List.map_cons, List.sum_cons, ih, List.length_append]
    rfl
  | interruption rest ih =>
    rw [List.map_cons, List.sum_cons, ih]
    exact Nat.zero_add _

theorem Concludes.work_lt {stage : Stage} {terminal : Option Event}
    (step : Concludes s .reader stage terminal s')
    (stands : s.connection.reader = .ending stage terminal) : s'.work < s.work := by
  cases step <;>
    simp [work, absorb, Connection.advance, Connection.readerAfter, Reader.cost, stands, Stage.rank]

theorem ReadStep.work_lt (step : ReadStep s s') (h : Leads last s events calls d) :
    s'.work < s.work ∨ s'.connection.reader = .stopped := by
  obtain ⟨es, hes, -⟩ := h
  cases step with
  | idle rests =>
    rcases rests with ⟨waits, empty⟩ | hr
    · obtain ⟨bs, pieces, -⟩ := hes.of_waiting waits
      rw [empty] at pieces
      cases pieces
    · exact .inr hr
  | @bytes piece rest waits brought =>
    obtain ⟨bs, -, -, clean, -⟩ := hes.of_waiting waits
    refine .inl ?_
    have hfeed := congrArg List.length (pending_feed clean.sound clean.inside piece)
    rw [length_pending, List.length_append, length_pending] at hfeed
    simp only [work, brought, waits, hfeed, List.map_cons, List.sum_cons, Input.size,
      List.length_cons, Reader.cost]
    omega
  | again waits brought =>
    refine .inl ?_
    simp only [work, brought, waits, List.map_cons, List.sum_cons, Input.size, List.length_cons,
      Reader.cost]
    omega
  | finish waits brought ended =>
    refine .inl ?_
    simp only [work, brought, waits, List.map_cons, List.sum_cons, List.length_cons,
      Reader.cost, Stage.rank]
    omega
  | drained cuts | malformed cuts =>
    refine .inl ?_
    have hle := buffered_next_le s.connection.inbox
    simp only [work, cuts, Reader.cost, Stage.rank]
    omega
  | @frame f cuts next =>
    refine .inl ?_
    have hnext : s.connection.inbox.next = (some (.ok f), s.connection.inbox.next.2) :=
      Prod.ext next rfl
    have hlt := buffered_lt_of_next_ok hnext
    simp only [work, absorb]
    omega
  | ending stands => exact .inl ((concludes ..).work_lt stands)

theorem ReadStep.stopped (step : ReadStep s s') (h : s.connection.reader = .stopped) :
    s'.connection.reader = .stopped := by
  cases step with
  | idle => exact h
  | bytes hr | again hr | finish hr | drained hr | malformed hr | frame hr | ending hr =>
    rw [h] at hr
    cases hr

theorem work_aside (aside : Aside s s') : s'.work = s.work := by
  rw [work, work, aside.inbox, aside.reads, aside.reader]

def Steps (moves : List Move) : Prop := ∀ m ∈ moves, ∃ task, m = .step task

theorem run_steps (h : Leads last s events calls d) (writes : Writes s.connection)
    {moves : List Move} (steps : Steps moves) :
    Leads last (s.run moves) events calls d ∧ Writes (s.run moves).connection ∧
      ((s.run moves).work + moves.count (.step .reader) ≤ s.work ∨
        (s.run moves).connection.reader = .stopped) := by
  induction moves using List.reverseRecOn with
  | nil => exact ⟨h, writes, .inl (Nat.le_refl _)⟩
  | append_singleton moves m ih =>
    obtain ⟨hleads, hwrites, hwork⟩ := ih fun a ha => steps a (List.mem_append_left _ ha)
    obtain ⟨task, rfl⟩ := steps m (List.mem_append_right _ List.mem_cons_self)
    rw [run_concat, List.count_append]
    cases task with
    | reader =>
      have step := (s.run moves).readStep
      refine ⟨step.leads hleads, step.writes hwrites, ?_⟩
      rcases hwork with hle | hstopped
      · rcases step.work_lt hleads with hlt | hstopped
        · refine .inl ?_
          rw [List.count_singleton_self]
          show (s.run moves).read.work + _ ≤ _
          omega
        · exact .inr hstopped
      · exact .inr (step.stopped hstopped)
    | writer =>
      obtain ⟨aside, hwrites⟩ := (s.run moves).writeStep.aside hwrites
      refine ⟨hleads.aside aside, hwrites, ?_⟩
      rw [List.count_singleton, if_neg (by decide), Nat.add_zero]
      exact hwork.imp (fun hle => work_aside aside ▸ hle) aside.reader.trans

theorem reader_eq_stopped_of_work (h : s.work = 0) : s.connection.reader = .stopped := by
  have hcost : s.connection.reader.cost = 0 := by
    rw [work] at h
    omega
  cases hr : s.connection.reader with
  | stopped => rfl
  | waiting | cutting =>
    rw [hr] at hcost
    cases hcost
  | ending stage terminal =>
    rw [hr] at hcost
    cases stage <;> cases hcost

structure Listens (c : Connection) : Prop extends Writes c where
  waits : c.reader = .waiting
  empty : c.inbox = {}
  unclaimed : c.notified = false

theorem leads_of_listens (h : Listens s.connection) {bs : List UInt8} {reads : List Input}
    (pieces : Pieces last bs reads) : Leads last { s with reads }
      (s.events ++ eventsOf last (split bs))
      (s.calls ++ s.dispatcher.calls (eventsOf last (split bs)))
      (s.dispatcher.dispatchAll (split bs)) := by
  have hclean : s.connection.inbox.Clean := by
    rw [h.empty]
    exact ⟨rfl, Nat.le_refl _⟩
  have hnext : s.connection.inbox.next.1 = none := by
    rw [h.empty]
    rfl
  have hpending : s.connection.inbox.pending = [] := by
    rw [h.empty]
    rfl
  have hremaining :=
    Remaining.waiting (s := { s with reads }) h.waits h.unclaimed hclean hnext pieces
  simp only [hpending, List.nil_append] at hremaining
  exact ⟨_, hremaining, rfl, rfl⟩

theorem work_of_listens (h : Listens s.connection) {bs : List UInt8} {reads : List Input}
    (pieces : Pieces last bs reads) :
    work { s with reads } = bs.length + 2 * reads.length + 5 := by
  rw [work, h.empty, h.waits, sum_size_of_pieces pieces, Reader.cost, buffered]
  simp

/-- Whatever the pieces and the schedule, the subscribers hear what the frames at the front of
the stream tell of, in order, and then of the end: of a malformed header where there is one, and
else of the end of the stream.  The dispatcher ends up as if it had been given just these
frames. -/
theorem inbound_independent_of_pieces (s : Session) (listens : Listens s.connection)
    (last : Option Event) (bs : List UInt8) :
    (∀ reads moves, Pieces last bs reads → Steps moves →
      let s' := { s with reads }.run moves
      s'.calls <+: s.calls ++ s.dispatcher.calls (eventsOf last (split bs)) ∧
      (bs.length + 2 * reads.length + 5 ≤ moves.count (.step .reader) →
        s'.connection.reader = .stopped ∧
        s'.events = s.events ++ eventsOf last (split bs) ∧
        s'.calls = s.calls ++ s.dispatcher.calls (eventsOf last (split bs)) ∧
        s'.dispatcher = s.dispatcher.dispatchAll (split bs))) ∧
    ∀ f e is, f.message = .error e → eventsOf last (.ok f :: is) = eventsOf last is ∧
      (f.replyKind = none →
        s.dispatcher.dispatchAll (.ok f :: is) = s.dispatcher.dispatchAll is) := by
  refine ⟨fun reads moves pieces steps => ?_, fun f e is hmessage => ⟨?_, fun hkind => ?_⟩⟩
  · obtain ⟨⟨es, remaining, hevents, hcalls⟩, -, hwork⟩ :=
      run_steps (leads_of_listens listens pieces) listens.toWrites steps
    refine ⟨⟨_, hcalls⟩, fun hcount => ?_⟩
    have hstopped : ({ s with reads }.run moves).connection.reader = .stopped := by
      rcases hwork with hle | hstopped
      · rw [work_of_listens listens pieces] at hle
        exact reader_eq_stopped_of_work (by omega)
      · exact hstopped
    obtain ⟨rfl, hdispatcher⟩ := remaining.of_stopped hstopped
    rw [List.append_nil] at hevents
    rw [Dispatcher.calls_nil, List.append_nil] at hcalls
    exact ⟨hstopped, hevents, hcalls, hdispatcher.symm⟩
  · rw [eventsOf, Frame.events, hmessage]
    rfl
  · rw [Dispatcher.dispatchAll, Dispatcher.dispatchFrame_of_other _ hkind]

def keybindFrame : Frame := Frame.ofMessage (.notice (.keybind 7)) 0

theorem split_keybindFrame : split keybindFrame.encode = [.ok keybindFrame] := by
  have hfirst : first keybindFrame.encode = some (.ok keybindFrame) := by rfl
  rw [split_of_ok hfirst]
  exact congrArg (List.cons _) (split_of_none rfl)

/-- The notice comes in two pieces with an interruption between them. -/
theorem inbound_independent_of_pieces_keybind :
    Listens (start {} [⟨1, .keybind⟩] 1).connection ∧
    ∀ moves, Steps moves → 33 ≤ moves.count (.step .reader) →
      ({ start {} [⟨1, .keybind⟩] 1 with reads := [.bytes (keybindFrame.encode.take 10),
        .interruption, .bytes (keybindFrame.encode.drop 10), .endOfStream] }.run moves).calls =
        [(1, .keybind 7)] := by
  have hlistens : Listens (start {} [⟨1, .keybind⟩] 1).connection :=
    ⟨⟨.inl rfl, rfl⟩, rfl, rfl, rfl⟩
  refine ⟨hlistens, fun moves steps hcount => ?_⟩
  have hfront : keybindFrame.encode.take 10 ≠ [] := by decide
  have hback : keybindFrame.encode.drop 10 ≠ [] := by decide
  have hpieces := Pieces.bytes hfront (.interruption (.bytes hback
    (.finish (rfl : Input.endOfStream.end? = some none))))
  rw [List.append_nil, List.take_append_drop] at hpieces
  have h := ((inbound_independent_of_pieces _ hlistens none keybindFrame.encode).1 _ moves hpieces
    steps).2 hcount
  rw [h.2.2.1, split_keybindFrame]
  rfl

end Session
end CompositorClient
