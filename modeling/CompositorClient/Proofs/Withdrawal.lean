import CompositorClient.Proofs.Calls
import CompositorClient.Proofs.Omission

/-! A query step by step, with others in between.  The query takes its ticket before it is queued,
and the connection may close at any moment; a query that fails gives the ticket up, and nobody can
tell afterwards that there was one. -/

namespace CompositorClient

open ReplyTable

/-- How far a query has come.  It checks that the connection is open, draws a number, takes a
ticket, checks once more, and is queued; if it has to give its ticket up it does so at the end. -/
inductive Phase
  | entered
  | checked (kind : ReplyKind)
  | drawn (kind : ReplyKind) (sequence : UInt32)
  | registered (ticket : Ticket) (sequence : UInt32)
  | rechecked (ticket : Ticket) (sequence : UInt32)
  | refused (ticket : Ticket)
  | returned (ticket? : Option Ticket) (result : Except ClientError Ticket)

def Phase.ticket? : Phase → Option Ticket
  | registered t _ | rechecked t _ | refused t => some t
  | returned t? _ => t?
  | entered | checked _ | drawn .. => none

/-- A query of one message, on a connection and a dispatcher that others use as well. -/
structure Attempt where
  connection : Connection
  dispatcher : Dispatcher
  phase : Phase := .entered

/-- What others do between two steps of the query.  They may close the connection and the table,
write, and make queries elsewhere, and they number their tickets as if the query had none.  No
message comes in meanwhile. -/
structure Interlude where
  connection : Connection → Connection
  actions : List Dispatcher.Action
  blind : ∀ c sequence, connection { c with sequence } = { connection c with sequence }
  quiet : ∀ a ∈ actions, a.Quiet

inductive Turn
  | own
  | others (interlude : Interlude)

def Dispatcher.Action.skip? : Option Ticket → Dispatcher.Action → Dispatcher.Action
  | none, a => a
  | some n, a => a.skip n

namespace Attempt

def proceed (m : Message) (s : Attempt) : Attempt :=
  match s.phase with
  | .entered =>
    match s.connection.expect m with
    | .error e => { s with phase := .returned none (.error e) }
    | .ok kind => { s with phase := .checked kind }
  | .checked kind =>
    let (sequence, next) := s.connection.sequence.next
    { s with connection := { s.connection with sequence := next }, phase := .drawn kind sequence }
  | .drawn kind sequence =>
    let (ticket, dispatcher) := s.dispatcher.register kind sequence
    { s with dispatcher, phase := .registered ticket sequence }
  | .registered ticket sequence =>
    { s with phase := if s.connection.closed then .refused ticket else .rechecked ticket sequence }
  | .rechecked ticket sequence =>
    if s.connection.writer = .stopped then { s with phase := .refused ticket }
    else
      { s with
        connection := s.connection.push (.frame (Frame.ofMessage m sequence).encode)
        phase := .returned (some ticket) (.ok ticket) }
  | .refused ticket =>
    { s with
      dispatcher := s.dispatcher.abandon ticket
      phase := .returned (some ticket) (.error .connectionClosed) }
  | .returned .. => s

def meanwhile (i : Interlude) (s : Attempt) : Attempt :=
  { s with
    connection := i.connection s.connection
    dispatcher := s.dispatcher.run (i.actions.map (·.skip? s.phase.ticket?)) }

def turn (m : Message) (s : Attempt) : Turn → Attempt
  | .own => s.proceed m
  | .others i => s.meanwhile i

def run (m : Message) (s : Attempt) (turns : List Turn) : Attempt := turns.foldl (turn m) s

@[simp] theorem run_nil (m : Message) (s : Attempt) : s.run m [] = s := rfl
@[simp] theorem run_cons (m : Message) (s : Attempt) (t : Turn) (turns : List Turn) :
    s.run m (t :: turns) = (s.turn m t).run m turns := rfl
@[simp] theorem run_concat (m : Message) (s : Attempt) (turns : List Turn) (t : Turn) :
    s.run m (turns ++ [t]) = (s.run m turns).turn m t := List.foldl_concat _ _ _ _

end Attempt

structure Surroundings where
  connection : Connection
  dispatcher : Dispatcher

namespace Surroundings

def turn (w : Surroundings) : Turn → Surroundings
  | .own => w
  | .others i => ⟨i.connection w.connection, w.dispatcher.run i.actions⟩

def run (w : Surroundings) (turns : List Turn) : Surroundings := turns.foldl turn w

@[simp] theorem run_nil (w : Surroundings) : w.run [] = w := rfl
@[simp] theorem run_concat (w : Surroundings) (turns : List Turn) (t : Turn) :
    w.run (turns ++ [t]) = (w.run turns).turn t := List.foldl_concat _ _ _ _

end Surroundings

namespace Attempt

/-- With nobody in between, six steps are the query. -/
theorem run_undisturbed (c : Connection) (d : Dispatcher) (m : Message) :
    ∃ ticket?, run m ⟨c, d, .entered⟩ (List.replicate 6 .own) =
      ⟨(c.query d m).2.1, (c.query d m).2.2, .returned ticket? (c.query d m).1⟩ := by
  cases hexpect : c.expect m with
  | error e =>
    refine ⟨none, ?_⟩
    simp [List.replicate, turn, proceed, Connection.query, hexpect]
  | ok kind =>
    refine ⟨some (d.register kind c.sequence.next.1).1, ?_⟩
    by_cases hclosed : c.closed = true
    · simp [List.replicate, turn, proceed, Connection.query, hexpect, Connection.enroll,
        Connection.submit, Connection.enqueue, hclosed]
    · by_cases hstopped : c.writer = .stopped
      · simp [List.replicate, turn, proceed, Connection.query, hexpect, Connection.enroll,
          Connection.submit, Connection.enqueue, hclosed, hstopped]
      · simp [List.replicate, turn, proceed, Connection.query, hexpect, Connection.enroll,
          Connection.submit, Connection.enqueue, hclosed, hstopped]

end Attempt

def Message.refusal (m : Message) : ClientError :=
  match m.expectedReply with
  | none => .notAQuery m.type
  | some _ => .connectionClosed

theorem Interlude.sequence_connection (i : Interlude) (c : Connection) :
    (i.connection c).sequence = c.sequence := by
  have hblind : i.connection c = { i.connection c with sequence := c.sequence } :=
    i.blind c c.sequence
  rw [hblind]

theorem Surroundings.sequence_run (w : Surroundings) (turns : List Turn) :
    (w.run turns).connection.sequence = w.connection.sequence := by
  induction turns using List.reverseRecOn with
  | nil => rfl
  | append_singleton turns t ih =>
    rw [run_concat]
    cases t with
    | own => exact ih
    | others i => exact (i.sequence_connection _).trans ih

theorem Surroundings.consistent_run (w : Surroundings)
    (h : ∃ log, Consistent log w.dispatcher.table) (turns : List Turn) :
    ∃ log, Consistent log (w.run turns).dispatcher.table := by
  induction turns using List.reverseRecOn with
  | nil => exact h
  | append_singleton turns t ih =>
    rw [run_concat]
    cases t with
    | own => exact ih
    | others i => exact Dispatcher.consistent_run ih i.actions

/-- What a query has done by the time that others have come to `w`, its number being the next of
`q`: it may have drawn the number and taken a ticket, and nothing else until it is queued. -/
inductive Follows (m : Message) (q : Sequence) (w : Surroundings) : Attempt → Prop
  | entered : Follows m q w ⟨w.connection, w.dispatcher, .entered⟩
  | checked {kind} (asks : m.expectedReply = some kind) :
    Follows m q w ⟨w.connection, w.dispatcher, .checked kind⟩
  | drawn {kind} (asks : m.expectedReply = some kind) :
    Follows m q w
      ⟨{ w.connection with sequence := q.next.2 }, w.dispatcher, .drawn kind q.next.1⟩
  | registered {kind d n} (asks : m.expectedReply = some kind)
      (apart : Dispatcher.Apart n kind q.next.1 d w.dispatcher) (waits : d.Unanswered n) :
    Follows m q w ⟨{ w.connection with sequence := q.next.2 }, d, .registered n q.next.1⟩
  | rechecked {kind d n} (asks : m.expectedReply = some kind)
      (apart : Dispatcher.Apart n kind q.next.1 d w.dispatcher) (waits : d.Unanswered n) :
    Follows m q w ⟨{ w.connection with sequence := q.next.2 }, d, .rechecked n q.next.1⟩
  | refused {kind d n} (asks : m.expectedReply = some kind)
      (apart : Dispatcher.Apart n kind q.next.1 d w.dispatcher) (waits : d.Unanswered n) :
    Follows m q w ⟨{ w.connection with sequence := q.next.2 }, d, .refused n⟩
  | turnedAway : Follows m q w ⟨w.connection, w.dispatcher, .returned none (.error m.refusal)⟩
  | withdrawn {kind d n} (asks : m.expectedReply = some kind)
      (apart : Dispatcher.Apart n kind q.next.1 d w.dispatcher)
      (gone : d.table.slots[n]? = some .abandoned) :
    Follows m q w
      ⟨{ w.connection with sequence := q.next.2 }, d, .returned (some n) (.error m.refusal)⟩
  | queued {kind c d n} (asks : m.expectedReply = some kind)
      (apart : Dispatcher.Apart n kind q.next.1 d w.dispatcher) (waits : d.Unanswered n) :
    Follows m q w ⟨c, d, .returned (some n) (.ok n)⟩

namespace Follows

variable {m : Message} {q : Sequence} {w : Surroundings} {s : Attempt}

theorem proceed (h : Follows m q w s) (drawn : w.connection.sequence = q)
    (consistent : ∃ log, Consistent log w.dispatcher.table) : Follows m q w (s.proceed m) := by
  cases h with
  | entered =>
    cases hreply : m.expectedReply with
    | none =>
      have hexpect : w.connection.expect m = .error m.refusal := by
        rw [Connection.expect, Message.refusal, hreply]
      simp only [Attempt.proceed, hexpect]
      exact .turnedAway
    | some kind =>
      by_cases hclosed : w.connection.closed = true
      · have hexpect : w.connection.expect m = .error m.refusal := by
          rw [Connection.expect, Message.refusal, hreply]
          exact if_pos hclosed
        simp only [Attempt.proceed, hexpect]
        exact .turnedAway
      · have hexpect : w.connection.expect m = .ok kind := by
          rw [Connection.expect, hreply]
          exact if_neg hclosed
        simp only [Attempt.proceed, hexpect]
        exact .checked hreply
  | checked asks =>
    simp only [Attempt.proceed, drawn]
    exact .drawn asks
  | @drawn kind asks =>
    obtain ⟨apart, waits⟩ := Dispatcher.apart_register consistent kind q.next.1
    have hticket : (w.dispatcher.register kind q.next.1).1 = w.dispatcher.table.slots.length :=
      register_ticket ..
    simp only [Attempt.proceed, hticket]
    exact .registered asks apart waits
  | registered asks apart waits =>
    simp only [Attempt.proceed]
    split
    · exact .refused asks apart waits
    · exact .rechecked asks apart waits
  | rechecked asks apart waits =>
    simp only [Attempt.proceed]
    split
    · exact .refused asks apart waits
    · exact .queued asks apart waits
  | refused asks apart waits =>
    have herror : m.refusal = .connectionClosed := by rw [Message.refusal, asks]
    simp only [Attempt.proceed]
    rw [← herror]
    exact .withdrawn asks apart.abandon.1 apart.abandon.2
  | turnedAway => exact .turnedAway
  | withdrawn asks apart gone => exact .withdrawn asks apart gone
  | queued asks apart waits => exact .queued asks apart waits

theorem meanwhile (h : Follows m q w s) (i : Interlude) :
    Follows m q (w.turn (.others i)) (s.meanwhile i) := by
  have hquiet := i.quiet
  have hblind := i.blind w.connection q.next.2
  have hnone : i.actions.map (Dispatcher.Action.skip? none) = i.actions := List.map_id _
  cases h with
  | entered =>
    simp only [Attempt.meanwhile, Phase.ticket?, hnone]
    exact .entered
  | checked asks =>
    simp only [Attempt.meanwhile, Phase.ticket?, hnone]
    exact .checked asks
  | drawn asks =>
    simp only [Attempt.meanwhile, Phase.ticket?, hnone, hblind]
    exact .drawn asks
  | registered asks apart waits =>
    simp only [Attempt.meanwhile, Phase.ticket?, hblind]
    exact .registered asks (apart.run_quiet waits hquiet).1 (apart.run_quiet waits hquiet).2
  | rechecked asks apart waits =>
    simp only [Attempt.meanwhile, Phase.ticket?, hblind]
    exact .rechecked asks (apart.run_quiet waits hquiet).1 (apart.run_quiet waits hquiet).2
  | refused asks apart waits =>
    simp only [Attempt.meanwhile, Phase.ticket?, hblind]
    exact .refused asks (apart.run_quiet waits hquiet).1 (apart.run_quiet waits hquiet).2
  | turnedAway =>
    simp only [Attempt.meanwhile, Phase.ticket?, hnone]
    exact .turnedAway
  | withdrawn asks apart gone =>
    simp only [Attempt.meanwhile, Phase.ticket?, hblind]
    exact .withdrawn asks (apart.run_abandoned gone i.actions).1
      (apart.run_abandoned gone i.actions).2
  | queued asks apart waits =>
    simp only [Attempt.meanwhile, Phase.ticket?]
    exact .queued asks (apart.run_quiet waits hquiet).1 (apart.run_quiet waits hquiet).2

theorem run (w : Surroundings) (consistent : ∃ log, Consistent log w.dispatcher.table)
    (m : Message) (turns : List Turn) :
    Follows m w.connection.sequence (w.run turns)
      (Attempt.run m ⟨w.connection, w.dispatcher, .entered⟩ turns) := by
  induction turns using List.reverseRecOn with
  | nil => exact .entered
  | append_singleton turns t ih =>
    rw [Surroundings.run_concat, Attempt.run_concat]
    cases t with
    | own => exact ih.proceed (w.sequence_run turns) (w.consistent_run consistent turns)
    | others i => exact ih.meanwhile i

end Follows

def Phase.rank : Phase → Nat
  | entered => 6
  | checked _ => 5
  | drawn .. => 4
  | registered .. => 3
  | rechecked .. => 2
  | refused _ => 1
  | returned .. => 0

def Turn.isOwn : Turn → Bool
  | own => true
  | others _ => false

namespace Attempt

theorem rank_proceed (m : Message) (s : Attempt) :
    (s.proceed m).phase.rank ≤ s.phase.rank - 1 := by
  unfold proceed
  split
  · next h => split <;> simp [h, Phase.rank]
  · next h => simp [h, Phase.rank]
  · next h => simp [h, Phase.rank]
  · next h =>
    dsimp only
    split <;> simp [h, Phase.rank]
  · next h => split <;> simp [h, Phase.rank]
  · next h => simp [h, Phase.rank]
  · next h => simp [h, Phase.rank]

theorem rank_run (m : Message) (s : Attempt) (turns : List Turn) :
    (s.run m turns).phase.rank ≤ s.phase.rank - turns.countP Turn.isOwn := by
  induction turns generalizing s with
  | nil => exact Nat.le_refl _
  | cons t turns ih =>
    have hrest := ih (s.turn m t)
    cases t with
    | own =>
      have hstep := s.rank_proceed m
      rw [List.countP_cons_of_pos rfl]
      exact Nat.le_trans hrest (by simp only [turn]; omega)
    | others i =>
      rw [List.countP_cons_of_neg (by simp [Turn.isOwn])]
      exact hrest

theorem returned_of_rank {s : Attempt} (h : s.phase.rank = 0) :
    ∃ ticket? result, s.phase = .returned ticket? result := by
  obtain ⟨c, d, phase⟩ := s
  cases phase with
  | returned ticket? result => exact ⟨ticket?, result, rfl⟩
  | entered | checked | drawn | registered | rechecked | refused => cases h

theorem phase_run_of_others (m : Message) (s : Attempt) {turns : List Turn}
    (none : turns.countP Turn.isOwn = 0) : (s.run m turns).phase = s.phase := by
  induction turns generalizing s with
  | nil => rfl
  | cons t turns ih =>
    cases t with
    | own => simp [Turn.isOwn] at none
    | others i =>
      rw [List.countP_cons_of_neg (by simp [Turn.isOwn])] at none
      exact ih (s.meanwhile i) none

/-- Only the counter tells of the query: all else on the connection is as without it, and so is
whatever others find in the dispatcher from now on. -/
structure Traceless (s : Attempt) (w : Surroundings) (ticket? : Option Ticket) : Prop where
  connection : ∃ sequence, s.connection = { w.connection with sequence }
  pending : ∀ (later : List Dispatcher.Action) kind,
    (s.dispatcher.run (later.map (·.skip? ticket?))).table.pending kind =
      (w.dispatcher.run later).table.pending kind
  frames : ∀ (later : List Dispatcher.Action) f,
    ((s.dispatcher.run (later.map (·.skip? ticket?))).dispatchFrame f).1 =
      ((w.dispatcher.run later).dispatchFrame f).1
  slots : ∀ (later : List Dispatcher.Action) n, ticket? = some n →
    (s.dispatcher.run (later.map (·.skip? ticket?))).table.slots[n]? = some .abandoned ∧
      (s.dispatcher.run (later.map (·.skip? ticket?))).table.slots.eraseIdx n =
        (w.dispatcher.run later).table.slots

/-- The query has put one waiter into the table, which waits or has been told of the end. -/
structure Enrolled (s : Attempt) (w : Surroundings) (kind : ReplyKind) (sequence : UInt32)
    (n : Ticket) : Prop where
  others : s.dispatcher.without n = w.dispatcher
  slot : s.dispatcher.Unanswered n
  waiter : ∀ k v, v.ticket = n → (v ∈ s.dispatcher.table.live k ↔
    (k = kind ∧ s.dispatcher.table.isWaiting n = true) ∧ v = ⟨n, sequence⟩)
  pending : ∀ k, s.dispatcher.table.pending k =
    w.dispatcher.table.pending k +
      if k = kind ∧ s.dispatcher.table.isWaiting n = true then 1 else 0

end Attempt

namespace Follows

variable {m : Message} {q : Sequence} {w : Surroundings} {s : Attempt} {ticket? : Option Ticket}
  {n : Ticket} {e : ClientError}

theorem traceless (h : Follows m q w s) (failed : s.phase = .returned ticket? (.error e)) :
    e = m.refusal ∧ s.Traceless w ticket? := by
  cases h with
  | turnedAway =>
    cases failed
    have hnone (later : List Dispatcher.Action) :
        later.map (Dispatcher.Action.skip? none) = later := List.map_id _
    refine ⟨rfl, ⟨w.connection.sequence, rfl⟩, fun later kind => ?_, fun later f => ?_,
      fun later n hn => by cases hn⟩
    · rw [hnone]
    · rw [hnone]
  | withdrawn asks apart gone =>
    cases failed
    refine ⟨rfl, ⟨q.next.2, rfl⟩, fun later kind => ?_, fun later f => ?_, fun later n hn => ?_⟩
    · obtain ⟨hapart, hgone⟩ := apart.run_abandoned gone later
      exact hapart.pending_of_idle (by simp [hgone]) kind
    · obtain ⟨hapart, hgone⟩ := apart.run_abandoned gone later
      exact hapart.dispatchFrame_of_idle (by simp [hgone]) f
    · cases hn
      obtain ⟨hapart, hgone⟩ := apart.run_abandoned gone later
      exact ⟨hgone, hapart.slots_eq⟩
  | entered | checked | drawn | registered | rechecked | refused | queued => cases failed

theorem untouched (h : Follows m q w s) (failed : s.phase = .returned none (.error e)) :
    s.connection = w.connection ∧ s.dispatcher = w.dispatcher := by
  cases h with
  | turnedAway => exact ⟨rfl, rfl⟩
  | entered | checked | drawn | registered | rechecked | refused | withdrawn | queued =>
    cases failed

theorem enrolled (h : Follows m q w s) (succeeded : s.phase = .returned ticket? (.ok n)) :
    ∃ kind, m.expectedReply = some kind ∧ s.Enrolled w kind q.next.1 n := by
  cases h with
  | @queued kind c d n asks apart waits =>
    cases succeeded
    exact ⟨kind, asks, apart.without, waits, fun k v ticket => apart.mem_live_iff_of_ticket ticket,
      apart.pending_eq⟩
  | entered | checked | drawn | registered | rechecked | refused | turnedAway | withdrawn =>
    cases succeeded

theorem outbox_of_ok (h : Follows m q w s) (under_way : ∀ t r, s.phase ≠ .returned t r)
    (succeeds : (s.proceed m).phase = .returned ticket? (.ok n)) :
    (s.proceed m).connection = { w.connection with
      sequence := q.next.2
      outbox := w.connection.outbox ++ [(Frame.ofMessage m q.next.1).outbound] } := by
  cases h with
  | rechecked asks apart waits =>
    simp only [Attempt.proceed] at succeeds ⊢
    split at succeeds
    · cases succeeds
    · next hwriter =>
      rw [if_neg hwriter]
      dsimp only
      rw [Connection.push, if_neg hwriter]
      rfl
  | entered =>
    simp only [Attempt.proceed] at succeeds
    split at succeeds <;> cases succeeds
  | registered =>
    simp only [Attempt.proceed] at succeeds
    split at succeeds <;> cases succeeds
  | checked | drawn | refused => cases succeeds
  | turnedAway | withdrawn | queued => exact absurd rfl (under_way _ _)

theorem refused_of_check (h : Follows m q w s) (entered : s.phase = .entered)
    (refuses : m.expectedReply = none ∨ w.connection.closed = true) :
    (s.proceed m).phase = .returned none (.error m.refusal) := by
  cases h with
  | entered =>
    have hexpect : w.connection.expect m = .error m.refusal := by
      rw [Connection.expect, Message.refusal]
      cases hreply : m.expectedReply with
      | none => rfl
      | some kind =>
        rw [hreply] at refuses
        exact if_pos (refuses.resolve_left (by simp))
    simp only [Attempt.proceed, hexpect]
  | checked | drawn | registered | rechecked | refused | turnedAway | withdrawn | queued =>
    cases entered

theorem phase_of_not_query (h : Follows m q w s) (other : m.expectedReply = none)
    (begun : s.phase ≠ .entered) : s.phase = .returned none (.error (.notAQuery m.type)) := by
  cases h with
  | entered => exact absurd rfl begun
  | turnedAway => simp only [Message.refusal, other]
  | checked asks | drawn asks | registered asks | rechecked asks | refused asks | withdrawn asks
    | queued asks =>
    rw [other] at asks
    cases asks

end Follows

theorem Sequence.Issued.next_not_mem {numbers : List UInt32} {q : Sequence}
    (h : Issued numbers q) (room : numbers.length < 2 ^ 32 - 1) : q.next.1 ∉ numbers := by
  have hnodup := h.draw.nodup (by rw [List.length_append, List.length_singleton]; omega)
  rw [List.nodup_append] at hnodup
  exact fun hmem => hnodup.2.2 _ hmem _ (List.mem_singleton_self _) rfl

/-- A query on any connection and any dispatcher that can come about, with others closing the
connection, or doing anything else but bringing a message in, between any two of its six steps.
If it fails, nobody can tell afterwards that it was made, but from the counter; and not even from
that if it fails its first check.  If it succeeds, it has drawn the next number, and one frame
and one waiter under that number are all that has been added. -/
theorem Attempt.query_leaves_no_trace (before : List Dispatcher.Action) (c : Connection)
    (m : Message) (turns : List Turn) :
    let d := Dispatcher.empty.run before
    let s := run m ⟨c, d, .entered⟩ turns
    let w := Surroundings.run ⟨c, d⟩ turns
    let sequence := c.sequence.next.1
    (∃ ticket?, run m ⟨c, d, .entered⟩ (List.replicate 6 .own) =
      ⟨(c.query d m).2.1, (c.query d m).2.2, .returned ticket? (c.query d m).1⟩) ∧
    (6 ≤ turns.countP Turn.isOwn → ∃ ticket? result, s.phase = .returned ticket? result) ∧
    (∀ ticket? e, s.phase = .returned ticket? (.error e) →
      e = m.refusal ∧ s.Traceless w ticket?) ∧
    (∀ e, s.phase = .returned none (.error e) →
      s.connection = w.connection ∧ s.dispatcher = w.dispatcher) ∧
    (m.expectedReply = none → turns.countP Turn.isOwn ≠ 0 →
      s.phase = .returned none (.error (.notAQuery m.type))) ∧
    (∀ waited, turns = waited ++ [.own] → waited.countP Turn.isOwn = 0 →
      (Surroundings.run ⟨c, d⟩ waited).connection.closed = true →
      s.phase = .returned none (.error m.refusal)) ∧
    (∀ ticket? n, s.phase = .returned ticket? (.ok n) →
      (∃ kind, m.expectedReply = some kind ∧ s.Enrolled w kind sequence n) ∧ sequence ≠ 0 ∧
      ∀ numbers, Sequence.Issued numbers c.sequence → numbers.length < 2 ^ 32 - 1 →
        sequence ∉ numbers) ∧
    (∀ earlier ticket? n, turns = earlier ++ [.own] →
      (∀ t r, (run m ⟨c, d, .entered⟩ earlier).phase ≠ .returned t r) →
      s.phase = .returned ticket? (.ok n) →
      s.connection = { w.connection with
        sequence := c.sequence.next.2
        outbox := w.connection.outbox ++ [(Frame.ofMessage m sequence).outbound] }) := by
  intro d s w sequence
  have hconsistent : ∃ log, Consistent log d.table :=
    Dispatcher.consistent_run ⟨[], .empty⟩ before
  have hfollows (turns : List Turn) : Follows m c.sequence (Surroundings.run ⟨c, d⟩ turns)
      (run m ⟨c, d, .entered⟩ turns) := Follows.run ⟨c, d⟩ hconsistent m turns
  have hrank : s.phase.rank ≤ 6 - turns.countP Turn.isOwn := rank_run m _ turns
  refine ⟨run_undisturbed c d m, fun enough => returned_of_rank (by omega),
    fun ticket? e failed => (hfollows turns).traceless failed,
    fun e failed => (hfollows turns).untouched failed, fun other begun => ?_, ?_,
    fun ticket? n succeeded => ⟨(hfollows turns).enrolled succeeded, c.sequence.next_ne_zero,
      fun numbers issued room => issued.next_not_mem room⟩, ?_⟩
  · refine (hfollows turns).phase_of_not_query other fun hentered => ?_
    have hentered : s.phase.rank = 6 := congrArg Phase.rank hentered
    omega
  · rintro waited rfl others hclosed
    have hphase := phase_run_of_others m ⟨c, d, .entered⟩ others
    have hrefused := (hfollows waited).refused_of_check hphase (.inr hclosed)
    rw [← hrefused]
    exact congrArg phase (run_concat ..)
  · rintro earlier ticket? n rfl under_way succeeded
    have hstep : s = (run m ⟨c, d, .entered⟩ earlier).proceed m := run_concat ..
    have hsame : w = Surroundings.run ⟨c, d⟩ earlier := Surroundings.run_concat ..
    rw [hstep] at succeeded ⊢
    rw [hsame]
    exact (hfollows earlier).outbox_of_ok under_way succeeded

def Interlude.hangUp : Interlude where
  connection := Connection.close
  actions := []
  blind c sequence := by
    unfold Connection.close Connection.push
    dsimp only
    split
    · rfl
    · split <;> rfl
  quiet _ h := absurd h List.not_mem_nil

example : (Attempt.run (.query .monitors) ⟨{}, .empty, .entered⟩
    [.own, .own, .own, .others .hangUp, .own, .own]).phase =
      .returned (some 0) (.error .connectionClosed) := rfl

end CompositorClient
