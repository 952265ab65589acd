import CompositorClient.Proofs.Aftermath
import CompositorClient.Proofs.Outbound
import CompositorClient.Proofs.Trace

/-! The outgoing side of a connection on which no write fails.  The writer writes what is queued up
to the first stop marker, in order, and stops there; nothing behind the marker is written. -/

namespace CompositorClient

namespace Outbound

/-- The frames before the first stop marker. -/
def ahead : List Outbound → List (List UInt8)
  | .frame bytes :: rest => bytes :: ahead rest
  | _ => []

variable {items : List Outbound}

theorem ahead_append_of_mem (h : .shutdown ∈ items) (more : List Outbound) :
    ahead (items ++ more) = ahead items := by
  induction items with
  | nil => cases h
  | cons item items ih =>
    cases item with
    | frame bytes =>
      have hrest : .shutdown ∈ items := by simpa using h
      simp [ahead, ih hrest]
    | shutdown => rfl

theorem ahead_append_of_notMem (h : .shutdown ∉ items) (more : List Outbound) :
    ahead (items ++ more) = ahead items ++ ahead more := by
  induction items with
  | nil => rfl
  | cons item items ih =>
    cases item with
    | frame bytes =>
      have hrest : .shutdown ∉ items := by simpa using h
      simp [ahead, ih hrest]
    | shutdown => simp at h

theorem ahead_append_shutdown (items : List Outbound) :
    ahead (items ++ [.shutdown]) = ahead items := by
  induction items with
  | nil => rfl
  | cons item items ih =>
    cases item with
    | frame bytes => exact congrArg (List.cons bytes) ih
    | shutdown => rfl

theorem map_ahead_isPrefix (items : List Outbound) : (ahead items).map .frame <+: items := by
  induction items with
  | nil => exact List.prefix_rfl
  | cons item items ih =>
    cases item with
    | frame bytes => exact List.cons_prefix_cons.mpr ⟨rfl, ih⟩
    | shutdown => exact List.nil_prefix

theorem length_ahead_le (items : List Outbound) : (ahead items).length ≤ items.length := by
  simpa using (map_ahead_isPrefix items).length_le

end Outbound

namespace Connection

open Outbound

def Marked (c : Connection) : Prop := c.writer = .stopped ∨ .shutdown ∈ c.outbox

/-- What will have been written when the writer has come to a marker or to the end. -/
def due (c : Connection) : List UInt8 := c.transport.written ++ (ahead c.outbox).flatten

/-- The writer is at work, or has stopped at a marker; `n` shutdowns lie before its work. -/
inductive Steady (n : Nat) (c : Connection) : Prop
  | running (writer : c.writer = .running) (shutdowns : c.transport.shutdowns = n)
  | stopped (writer : c.writer = .stopped) (empty : c.outbox = [])
      (shutdowns : c.transport.shutdowns = n + 1)

inductive Outgoing (c : Connection) (m : Move) (c' : Connection) : Prop
  | nothing (writer : c'.writer = c.writer) (outbox : c'.outbox = c.outbox)
      (written : c'.transport.written = c.transport.written)
      (shutdowns : c'.transport.shutdowns = c.transport.shutdowns)
      (unqueued : ∀ item, m ≠ .push item)
      (rests : m = .step .writer → c.writer = .stopped ∨ c.outbox = [])
  | queues (item : Outbound) (source : m = .push item ∨ m = .step .reader ∧ item = .shutdown ∧
        ∃ terminal, c.ending? .reader = some (.signal, terminal))
      (writer : c'.writer = c.writer) (outbox : c'.outbox = (c.push item).outbox)
      (written : c'.transport.written = c.transport.written)
      (shutdowns : c'.transport.shutdowns = c.transport.shutdowns)
  | writes {bytes : List UInt8} {rest : List Outbound} (step : m = .step .writer)
      (running : c.writer = .running) (front : c.outbox = .frame bytes :: rest)
      (writer : c'.writer = .running) (outbox : c'.outbox = rest)
      (written : c'.transport.written = c.transport.written ++ bytes)
      (shutdowns : c'.transport.shutdowns = c.transport.shutdowns)
  | stops {rest : List Outbound} (step : m = .step .writer)
      (running : c.writer = .running) (front : c.outbox = .shutdown :: rest)
      (writer : c'.writer = .stopped) (outbox : c'.outbox = [])
      (written : c'.transport.written = c.transport.written)
      (shutdowns : c'.transport.shutdowns = c.transport.shutdowns + 1)

def taken (c : Connection) : Move → List (List UInt8)
  | .push (.frame bytes) => if c.writer = .stopped then [] else [bytes]
  | _ => []

def takenAhead (c : Connection) (m : Move) : List (List UInt8) :=
  if .shutdown ∈ c.outbox then [] else c.taken m

def takenBehind (c : Connection) (m : Move) : List (List UInt8) :=
  if .shutdown ∈ c.outbox then c.taken m else []

variable {c c' : Connection} {m : Move} {n : Nat}

theorem taken_of_stopped (h : c.writer = .stopped) (m : Move) : c.taken m = [] := by
  unfold taken
  split
  · rw [if_pos h]
  · rfl

theorem taken_of_marked (h : c.Marked) (m : Move) :
    c.takenAhead m = [] ∧ c.takenBehind m = c.taken m := by
  unfold takenAhead takenBehind
  by_cases hmem : .shutdown ∈ c.outbox
  · simp [hmem]
  · simp [hmem, taken_of_stopped (h.resolve_right hmem)]

theorem taken_of_unmarked (h : ¬ c.Marked) (m : Move) :
    c.takenAhead m = c.taken m ∧ c.takenBehind m = [] := by
  have hmem : .shutdown ∉ c.outbox := fun hmem => h (.inr hmem)
  simp [takenAhead, takenBehind, hmem]

theorem Steady.writer_ne (h : Steady n c) {stage : Stage} {terminal : Option Event} :
    c.writer ≠ .ending stage terminal := by
  cases h with
  | running writer | stopped writer => simp [writer]

theorem outbox_push_of_running (h : c.writer = .running) (item : Outbound) :
    (c.push item).outbox = c.outbox ++ [item] := by
  rw [push, if_neg (by simp [h])]

theorem outbox_push_of_stopped (h : c.writer = .stopped) (item : Outbound) :
    (c.push item).outbox = c.outbox := by
  rw [push, if_pos h]

namespace Outgoing

theorem steady (h : Outgoing c m c') (steady : Steady n c) : Steady n c' := by
  cases h with
  | nothing writer outbox written shutdowns =>
    cases steady with
    | running w s => exact .running (writer.trans w) (shutdowns.trans s)
    | stopped w e s => exact .stopped (writer.trans w) (outbox.trans e) (shutdowns.trans s)
  | queues item source writer outbox written shutdowns =>
    cases steady with
    | running w s => exact .running (writer.trans w) (shutdowns.trans s)
    | stopped w e s =>
      exact .stopped (writer.trans w) (outbox.trans ((outbox_push_of_stopped w item).trans e))
        (shutdowns.trans s)
  | writes step running front writer outbox written shutdowns =>
    cases steady with
    | running w s => exact .running writer (shutdowns.trans s)
    | stopped w => cases running.symm.trans w
  | stops step running front writer outbox written shutdowns =>
    cases steady with
    | running w s => exact .stopped writer outbox (by rw [shutdowns, s])
    | stopped w => cases running.symm.trans w

theorem marked (h : Outgoing c m c') (marked : c.Marked) : c'.Marked := by
  cases h with
  | nothing writer outbox =>
    rw [Marked, writer, outbox]
    exact marked
  | queues item source writer outbox =>
    rw [Marked, writer, outbox]
    refine marked.imp_right fun h => ?_
    unfold push
    split
    · exact h
    · exact List.mem_append_left _ h
  | writes step running front writer outbox =>
    refine .inr ?_
    have hmem := marked.resolve_left (by simp [running])
    rw [front] at hmem
    rw [outbox]
    simpa using hmem
  | stops step running front writer => exact .inl writer

theorem due_of_marked (h : Outgoing c m c') (steady : Steady n c) (marked : c.Marked) :
    c'.due = c.due := by
  cases h with
  | nothing writer outbox written => rw [due, due, outbox, written]
  | queues item source writer outbox written =>
    rw [due, due, outbox, written]
    cases steady with
    | running w =>
      have hmem := marked.resolve_left (by simp [w])
      rw [outbox_push_of_running w, ahead_append_of_mem hmem]
    | stopped w => rw [outbox_push_of_stopped w]
  | writes step running front writer outbox written =>
    rw [due, due, outbox, written, front, ahead, List.flatten_cons, List.append_assoc]
  | stops step running front writer outbox written => rw [due, due, outbox, written, front]; rfl

theorem due_of_unmarked (h : Outgoing c m c') (steady : Steady n c) (unmarked : ¬ c.Marked) :
    c'.due = c.due ++ (c.taken m).flatten := by
  have hmem : .shutdown ∉ c.outbox := fun h => unmarked (.inr h)
  have hrunning : c.writer = .running := by
    cases steady with
    | running w => exact w
    | stopped w => exact absurd (.inl w) unmarked
  cases h with
  | nothing writer outbox written shutdowns unqueued =>
    have htaken : c.taken m = [] := by
      unfold taken
      split
      · next bytes => exact absurd rfl (unqueued _)
      · rfl
    rw [due, due, outbox, written, htaken, List.flatten_nil, List.append_nil]
  | queues item source writer outbox written =>
    rw [due, due, outbox, written, outbox_push_of_running hrunning, ahead_append_of_notMem hmem,
      List.flatten_append, List.append_assoc]
    rcases source with rfl | ⟨rfl, rfl, -⟩
    · cases item with
      | frame bytes => simp [ahead, taken, hrunning]
      | shutdown => rfl
    · rfl
  | writes step running front writer outbox written =>
    subst step
    rw [due, due, outbox, written, front, ahead, List.flatten_cons, List.append_assoc]
    exact (List.append_nil _).symm
  | stops step running front =>
    rw [front] at hmem
    simp at hmem

/-- A writer at work brings the marker one item nearer. -/
theorem progress (h : Outgoing c (.step .writer) c') (marked : c.Marked) :
    c'.writer = .stopped ∨ (ahead c'.outbox).length + 1 = (ahead c.outbox).length := by
  cases h with
  | nothing writer _ _ _ _ rests =>
    refine .inl (writer.trans ?_)
    rcases rests rfl with stopped | empty
    · exact stopped
    · exact marked.resolve_right (by simp [empty])
  | queues item source => simp at source
  | writes _ _ front _ outbox => exact .inr (by rw [front, outbox, ahead, List.length_cons])
  | stops _ _ _ writer => exact .inl writer

/-- Any other move only adds to the queue, and behind a marker that is not looked at. -/
theorem extends_queue (h : Outgoing c m c') (hm : m ≠ .step .writer) :
    c'.writer = c.writer ∧ c.outbox <+: c'.outbox ∧
      (.shutdown ∈ c.outbox → ahead c'.outbox = ahead c.outbox) := by
  cases h with
  | nothing writer outbox =>
    rw [outbox]
    exact ⟨writer, List.prefix_rfl, fun _ => rfl⟩
  | queues item source writer outbox =>
    rw [outbox, push]
    split
    · exact ⟨writer, List.prefix_rfl, fun _ => rfl⟩
    · exact ⟨writer, List.prefix_append .., fun h => ahead_append_of_mem h _⟩
  | writes step | stops step => exact absurd step hm

theorem stays_stopped (h : Outgoing c m c') (stopped : c.writer = .stopped) :
    c'.writer = .stopped := by
  cases h with
  | nothing writer | queues _ _ writer => exact writer.trans stopped
  | writes _ running | stops _ running => cases running.symm.trans stopped

end Outgoing

theorem outbox_close (h : c.closed = false) : c.close.outbox = (c.push .shutdown).outbox := by
  rw [close, if_neg (by simp [h]), push, push]
  split <;> rfl

/-- A call of `close` that does something is a marker behind what is queued. -/
theorem outgoing_close (h : c.closed = false) : Outgoing c (.push .shutdown) c.close :=
  .queues .shutdown (.inl rfl) (writer_close c) (outbox_close h)
    (congrArg Transport.written (transport_close c))
    (congrArg Transport.shutdowns (transport_close c))

theorem marked_of_pushed (steady : Steady n c) (writer : c'.writer = c.writer)
    (outbox : c'.outbox = (c.push .shutdown).outbox) : c'.Marked := by
  cases steady with
  | running w => exact .inr (by simp [outbox, outbox_push_of_running w])
  | stopped w => exact .inl (writer.trans w)

end Connection

namespace Session

open Connection

variable {s s' origin : Session} {m : Move} {moves : List Move} {n : Nat}

theorem not_fails_of_sound (h : s.connection.transport.fault = none) (terminal : Option Event) :
    ¬ Fails s .writer terminal := by
  rintro (_ | _ | _ | ⟨-, -, fault⟩)
  cases h.symm.trans fault

def Unfailing (origin : Session) (moves : List Move) : Prop :=
  ∀ terminal, ¬ During (FailsAt origin .writer terminal) moves

theorem unfailing_concat : Unfailing origin (moves ++ [m]) ↔
    Unfailing origin moves ∧ ∀ terminal, ¬ FailsAt origin .writer terminal moves m := by
  simp only [Unfailing, during_concat, not_or, forall_and]

theorem unfailing_cons : Unfailing origin (m :: moves) ↔
    (∀ terminal, ¬ FailsAt origin .writer terminal [] m) ∧ Unfailing (origin.move m) moves := by
  simp only [Unfailing, during_cons, not_or, forall_and]
  rfl

theorem unfailing_of_sound
    (h : ∀ n < moves.length, (origin.run (moves.take n)).connection.transport.fault = none) :
    Unfailing origin moves := by
  intro terminal
  exact not_during_of_take fun n hn _ fails => not_fails_of_sound (h n hn) terminal fails.2

theorem Concludes.outgoing {stage : Stage} {terminal : Option Event}
    (step : Concludes s .reader stage terminal s')
    (stands : s.connection.ending? .reader = some (stage, terminal)) :
    Outgoing s.connection (.step .reader) s'.connection := by
  cases step with
  | signal =>
    refine .queues .shutdown (.inr ⟨rfl, rfl, _, stands⟩) (writer_push ..) rfl ?_ ?_
    all_goals simp [advance]
  | refuse | late | claim | notify => exact .nothing rfl rfl rfl rfl (by simp) (by simp)

theorem ReadStep.outgoing (step : ReadStep s s') :
    Outgoing s.connection (.step .reader) s'.connection := by
  cases step with
  | idle | bytes | again | finish | drained | malformed | frame =>
    exact .nothing rfl rfl rfl rfl (by simp) (by simp)
  | ending stands => exact (concludes ..).outgoing (by rw [ending?, stands])

theorem WriteStep.outgoing (step : WriteStep s s') (steady : Steady n s.connection)
    (sound : ∀ terminal, ¬ Fails s .writer terminal) :
    Outgoing s.connection (.step .writer) s'.connection := by
  cases step with
  | idle rests => exact .nothing rfl rfl rfl rfl (by simp) fun _ => rests.symm.imp_right And.right
  | frame running front => exact .writes rfl running front running rfl rfl rfl
  | failed running front fault => exact absurd (.writeError running front fault) (sound _)
  | shutdown running front => exact .stops rfl running front rfl rfl rfl rfl
  | ending stands => exact absurd stands steady.writer_ne

theorem outgoing_move (steady : Steady n s.connection)
    (sound : ∀ terminal, ¬ FailsAt s .writer terminal [] m) :
    Outgoing s.connection m (s.move m).connection := by
  cases m with
  | step task =>
    cases task with
    | reader => exact s.readStep.outgoing
    | writer => exact s.writeStep.outgoing steady fun terminal h => sound terminal ⟨rfl, h⟩
  | push item =>
    exact .queues item (.inl rfl) (writer_push ..) rfl (by simp [move]) (by simp [move])
  | register =>
    rw [move, connection_register]
    exact .nothing rfl rfl rfl rfl (by simp) (by simp)
  | arrive | fault | refuse | draw | abandon | collect | subscribe | unsubscribe =>
    exact .nothing rfl rfl rfl rfl (by simp) (by simp)

theorem steady_run (steady : Steady n s.connection) (unfailing : Unfailing s moves) :
    Steady n (s.run moves).connection := by
  induction moves generalizing s with
  | nil => exact steady
  | cons m moves ih =>
    obtain ⟨sound, hrest⟩ := unfailing_cons.mp unfailing
    exact ih ((outgoing_move steady sound).steady steady) hrest

/-- From a marker on, it is settled what will have been written. -/
theorem due_run (steady : Steady n s.connection) (marked : s.connection.Marked)
    (unfailing : Unfailing s moves) : (s.run moves).connection.due = s.connection.due := by
  induction moves generalizing s with
  | nil => rfl
  | cons m moves ih =>
    obtain ⟨sound, hrest⟩ := unfailing_cons.mp unfailing
    have hmove := outgoing_move steady sound
    exact (ih (hmove.steady steady) (hmove.marked marked) hrest).trans
      (hmove.due_of_marked steady marked)

theorem stopped_of_count (steady : Steady n s.connection) (marked : s.connection.Marked)
    (unfailing : Unfailing s moves)
    (enough : s.connection.writer = .stopped ∨
      (Outbound.ahead s.connection.outbox).length < moves.count (.step .writer)) :
    (s.run moves).connection.writer = .stopped := by
  induction moves generalizing s with
  | nil => exact enough.resolve_right (Nat.not_lt_zero _)
  | cons m moves ih =>
    obtain ⟨sound, hrest⟩ := unfailing_cons.mp unfailing
    have hmove := outgoing_move steady sound
    refine ih (hmove.steady steady) (hmove.marked marked) hrest ?_
    by_cases hstopped : s.connection.writer = .stopped
    · exact .inl (hmove.stays_stopped hstopped)
    · have hcount := enough.resolve_left hstopped
      by_cases hm : m = .step .writer
      · subst hm
        rw [List.count_cons_self] at hcount
        exact (hmove.progress marked).imp_right fun hahead => by omega
      · rw [List.count_cons_of_ne hm] at hcount
        rw [(hmove.extends_queue hm).2.2 (marked.resolve_left hstopped)]
        exact .inr hcount

/-- A beginning of `bytes` has been written, and all of it when the stream has been ended; `n`
shutdowns lie before that. -/
structure Flushing (n : Nat) (bytes : List UInt8) (out : Transport) : Prop where
  partly : out.written <+: bytes
  wholly : out.shutdowns = n ∨ out.shutdowns = n + 1 ∧ out.written = bytes

theorem flushing_run (steady : Steady n s.connection) (marked : s.connection.Marked)
    (unfailing : Unfailing s moves) :
    Flushing n s.connection.due (s.run moves).connection.transport := by
  have hdue := due_run steady marked unfailing
  rw [due] at hdue
  refine ⟨⟨_, hdue⟩, ?_⟩
  cases steady_run steady unfailing with
  | running _ shutdowns => exact .inl shutdowns
  | stopped _ empty shutdowns =>
    rw [empty] at hdue
    exact .inr ⟨shutdowns, (List.append_nil _).symm.trans hdue⟩

theorem ended_run (steady : Steady n s.connection) (marked : s.connection.Marked)
    (unfailing : Unfailing s moves)
    (enough : (Outbound.ahead s.connection.outbox).length < moves.count (.step .writer)) :
    (s.run moves).connection.transport.shutdowns = n + 1 := by
  have hstopped := stopped_of_count steady marked unfailing (.inr enough)
  cases steady_run steady unfailing with
  | running writer => cases writer.symm.trans hstopped
  | stopped _ _ shutdowns => exact shutdowns

/-- A call of `close` has refused further sends and not queued its marker yet. -/
def Unfinished (moves : List Move) : Prop :=
  ∃ done later, moves = done ++ .refuse :: later ∧ .push .shutdown ∉ later

theorem Unfinished.concat (h : Unfinished moves) (hm : m ≠ .push .shutdown) :
    Unfinished (moves ++ [m]) := by
  obtain ⟨done, later, rfl, hlater⟩ := h
  exact ⟨done, later ++ [m], by simp, by simpa [hlater] using hm.symm⟩

/-- The reader has not begun to end the connection, or has queued its marker. -/
def Heeds (c : Connection) : Prop :=
  c.reader = .waiting ∨ c.reader = .cutting ∨ (∃ terminal, c.reader = .ending .signal terminal) ∨
    c.Marked

theorem ReadStep.heeds (step : ReadStep s s') (steady : Steady n s.connection)
    (h : Heeds s.connection) : Heeds s'.connection := by
  cases step with
  | idle | again => exact h
  | bytes => exact .inr (.inl rfl)
  | finish | malformed => exact .inr (.inr (.inl ⟨_, rfl⟩))
  | drained => exact .inl rfl
  | frame cutting => exact .inr (.inl cutting)
  | @ending stage terminal stands =>
    have step := concludes s .reader stage terminal
    have hmarked (hstage : stage ≠ .signal) : s.connection.Marked := by
      simpa [Heeds, stands, hstage] using h
    generalize s.conclude .reader stage terminal = s' at step ⊢
    refine .inr (.inr (.inr ?_))
    cases step with
    | signal => exact marked_of_pushed steady (writer_push ..) rfl
    | refuse | late | claim | notify => exact hmarked nofun

theorem ReadStep.refuses (step : ReadStep s s') (h : Heeds s.connection) :
    s'.connection.closed = s.connection.closed ∨ s.connection.Marked := by
  cases step with
  | idle | bytes | again | finish | drained | malformed | frame => exact .inl rfl
  | @ending stage terminal stands =>
    have step := concludes s .reader stage terminal
    generalize s.conclude .reader stage terminal = s' at step ⊢
    cases step with
    | signal => exact .inl (closed_push ..)
    | refuse => exact .inr (by simpa [Heeds, stands] using h)
    | late | claim | notify => exact .inl rfl

theorem WriteStep.keeps_closed (step : WriteStep s s') (steady : Steady n s.connection) :
    s'.connection.closed = s.connection.closed := by
  cases step with
  | idle | frame | failed | shutdown => rfl
  | ending stands => exact absurd stands steady.writer_ne

theorem heeds_move (steady : Steady n s.connection)
    (sound : ∀ terminal, ¬ FailsAt s .writer terminal [] m) (h : Heeds s.connection) :
    Heeds (s.move m).connection := by
  by_cases hm : m = .step .reader
  · subst hm
    exact s.readStep.heeds steady h
  · rw [Heeds, reader_move_of_ne hm]
    exact h.imp_right (Or.imp_right (Or.imp_right (outgoing_move steady sound).marked))

/-- Only a call of `close` and a reader that has queued its marker refuse further sends. -/
theorem refuses_move (steady : Steady n s.connection) (h : Heeds s.connection)
    (hm : m ≠ .refuse) : (s.move m).connection.closed = s.connection.closed ∨
      s.connection.Marked := by
  cases m with
  | step task =>
    cases task with
    | reader => exact s.readStep.refuses h
    | writer => exact .inl (s.writeStep.keeps_closed steady)
  | push item => exact .inl (closed_push ..)
  | register => exact .inl (congrArg Connection.closed (connection_register ..))
  | refuse => exact absurd rfl hm
  | arrive | fault | draw | abandon | collect | subscribe | unsubscribe => exact .inl rfl

theorem heeds_run (steady : Steady n s.connection) (unfailing : Unfailing s moves)
    (h : Heeds s.connection) : Heeds (s.run moves).connection := by
  induction moves generalizing s with
  | nil => exact h
  | cons m moves ih =>
    obtain ⟨sound, hrest⟩ := unfailing_cons.mp unfailing
    exact ih ((outgoing_move steady sound).steady steady) hrest (heeds_move steady sound h)

theorem marked_of_closed (steady : Steady n origin.connection) (heeds : Heeds origin.connection)
    (opened : origin.connection.closed = false) (unfailing : Unfailing origin moves)
    (finished : ¬ Unfinished moves) (closed : (origin.run moves).connection.closed = true) :
    (origin.run moves).connection.Marked := by
  induction moves using List.reverseRecOn with
  | nil => cases opened.symm.trans closed
  | append_singleton moves m ih =>
    obtain ⟨hbefore, sound⟩ := unfailing_concat.mp unfailing
    have hsteady := steady_run steady hbefore
    rw [run_concat] at closed ⊢
    by_cases hpush : m = .push .shutdown
    · subst hpush
      exact marked_of_pushed hsteady (writer_push ..) rfl
    · have hmove : Outgoing (origin.run moves).connection m _ := outgoing_move hsteady sound
      have hrefuse : m ≠ .refuse := by
        rintro rfl
        exact finished ⟨moves, [], rfl, List.not_mem_nil⟩
      refine hmove.marked ?_
      rcases refuses_move hsteady (heeds_run steady hbefore heeds) hrefuse with hclosed | hmarked
      · exact ih hbefore (fun h => finished (h.concat hpush)) (hclosed.symm.trans closed)
      · exact hmarked

/-- The frames that callers bring into the queue: first those that come ahead of any marker, then
those behind one. -/
def queued (origin : Session) (moves : List Move) : List (List UInt8) :=
  trace move (fun s m => s.connection.taken m) origin moves

def queuedAhead (origin : Session) (moves : List Move) : List (List UInt8) :=
  trace move (fun s m => s.connection.takenAhead m) origin moves

def queuedBehind (origin : Session) (moves : List Move) : List (List UInt8) :=
  trace move (fun s m => s.connection.takenBehind m) origin moves

theorem queued_concat : queued origin (moves ++ [m]) =
    queued origin moves ++ (origin.run moves).connection.taken m := trace_concat ..

theorem queuedAhead_concat : queuedAhead origin (moves ++ [m]) =
    queuedAhead origin moves ++ (origin.run moves).connection.takenAhead m := trace_concat ..

theorem queuedBehind_concat : queuedBehind origin (moves ++ [m]) =
    queuedBehind origin moves ++ (origin.run moves).connection.takenBehind m := trace_concat ..

/-- What is queued ahead of the markers will be written. -/
theorem due_eq (steady : Steady n origin.connection) (unfailing : Unfailing origin moves) :
    (origin.run moves).connection.due =
      origin.connection.due ++ (queuedAhead origin moves).flatten := by
  induction moves using List.reverseRecOn with
  | nil => exact (List.append_nil _).symm
  | append_singleton moves m ih =>
    obtain ⟨hbefore, sound⟩ := unfailing_concat.mp unfailing
    have hsteady := steady_run steady hbefore
    have hmove : Outgoing (origin.run moves).connection m _ := outgoing_move hsteady sound
    rw [run_concat, queuedAhead_concat, List.flatten_append, ← List.append_assoc, ← ih hbefore]
    by_cases hmarked : (origin.run moves).connection.Marked
    · rw [hmove.due_of_marked hsteady hmarked, (taken_of_marked hmarked m).1, List.flatten_nil,
        List.append_nil]
    · rw [hmove.due_of_unmarked hsteady hmarked, (taken_of_unmarked hmarked m).1]

theorem queued_eq (steady : Steady n origin.connection) (unfailing : Unfailing origin moves) :
    queued origin moves = queuedAhead origin moves ++ queuedBehind origin moves ∧
      (queuedBehind origin moves ≠ [] → (origin.run moves).connection.Marked) := by
  induction moves using List.reverseRecOn with
  | nil => exact ⟨rfl, absurd rfl⟩
  | append_singleton moves m ih =>
    obtain ⟨hbefore, sound⟩ := unfailing_concat.mp unfailing
    obtain ⟨hqueued, hbehind⟩ := ih hbefore
    have hmove : Outgoing (origin.run moves).connection m _ :=
      outgoing_move (steady_run steady hbefore) sound
    rw [run_concat, queued_concat, queuedAhead_concat, queuedBehind_concat, hqueued]
    by_cases hmarked : (origin.run moves).connection.Marked
    · obtain ⟨hnone, hall⟩ := taken_of_marked hmarked m
      rw [hnone, hall, List.append_nil, List.append_assoc]
      exact ⟨rfl, fun _ => hmove.marked hmarked⟩
    · obtain ⟨hall, hnone⟩ := taken_of_unmarked hmarked m
      have hempty : queuedBehind origin moves = [] := by
        by_contra hsome
        exact hmarked (hbehind hsome)
      rw [hall, hnone, hempty, List.append_nil, List.append_nil, List.append_nil]
      exact ⟨rfl, absurd rfl⟩

/-- A marker in the queue was put there by a call of `close`, or by a reader at its end. -/
theorem cause_of_marker (steady : Steady n origin.connection)
    (fresh : ∀ task, origin.connection.ending? task = none) (empty : origin.connection.outbox = [])
    (unfailing : Unfailing origin moves)
    (marker : .shutdown ∈ (origin.run moves).connection.outbox) :
    .push .shutdown ∈ moves ∨ ∃ terminal, During (FailsAt origin .reader terminal) moves := by
  induction moves using List.reverseRecOn with
  | nil => simp [empty] at marker
  | append_singleton moves m ih =>
    obtain ⟨hbefore, sound⟩ := unfailing_concat.mp unfailing
    have hmove : Outgoing (origin.run moves).connection m _ :=
      outgoing_move (steady_run steady hbefore) sound
    have hold (hmem : .shutdown ∈ (origin.run moves).connection.outbox) :
        .push .shutdown ∈ moves ++ [m] ∨
          ∃ terminal, During (FailsAt origin .reader terminal) (moves ++ [m]) :=
      (ih hbefore hmem).imp (List.mem_append_left _) fun ⟨terminal, h⟩ => ⟨terminal, h.append _⟩
    rw [run_concat] at marker
    cases hmove with
    | nothing _ outbox => exact hold (outbox ▸ marker)
    | queues item source _ outbox =>
      rw [outbox, push] at marker
      split at marker
      · exact hold marker
      · rcases List.mem_append.mp marker with hmem | hitem
        · exact hold hmem
        · rcases source with rfl | ⟨rfl, -, terminal, stands⟩
          · exact .inl (by simp [List.mem_singleton.mp hitem])
          · exact .inr ⟨terminal, (failsAt_of_ending fresh stands).append _⟩
    | writes _ _ front _ outbox => exact hold (by simp [front, outbox ▸ marker])
    | stops _ _ front => exact hold (by simp [front])

theorem cause_of_behind (steady : Steady n origin.connection)
    (fresh : ∀ task, origin.connection.ending? task = none) (empty : origin.connection.outbox = [])
    (unfailing : Unfailing origin moves) (h : queuedBehind origin moves ≠ []) :
    .push .shutdown ∈ moves ∨ ∃ terminal, During (FailsAt origin .reader terminal) moves := by
  induction moves using List.reverseRecOn with
  | nil => exact absurd rfl h
  | append_singleton moves m ih =>
    obtain ⟨hbefore, -⟩ := unfailing_concat.mp unfailing
    have hcause : .push .shutdown ∈ moves ∨
        ∃ terminal, During (FailsAt origin .reader terminal) moves := by
      by_cases hmem : .shutdown ∈ (origin.run moves).connection.outbox
      · exact cause_of_marker steady fresh empty hbefore hmem
      · refine ih hbefore fun hnone => h ?_
        rw [queuedBehind_concat, hnone, takenBehind, if_neg hmem]
        rfl
    exact hcause.imp (List.mem_append_left _) fun ⟨terminal, hfails⟩ => ⟨terminal, hfails.append _⟩

end Session
end CompositorClient
