import CompositorClient.Proofs.Outcomes

/-! How far the connections of one client keep apart.  They share the table of unanswered queries:
a reply that any of them reads may answer a query made on another, and the first end that one of
them tells of is the end for all queries, also on connections opened later. -/

namespace CompositorClient

namespace Connection

variable {c : Connection}

theorem dispatcher_query_of_accepting (h : c.Accepting) (d : Dispatcher) (q : Query) :
    (c.query d (.query q)).2.2 = (d.register q.answer c.sequence.next.1).2 := by
  have hdrawn : { c with sequence := c.sequence.next.2 }.Accepting := h
  rw [query, expect_of_accepting h]
  dsimp only [enroll, submit]
  rw [enqueue_of_accepting hdrawn]

end Connection

namespace Client

variable {c : Client} {conn : Connection}

theorem isConnected_of_accepting (current : c.current? = some conn) (h : conn.Accepting) :
    c.isConnected = true := by
  simp [isConnected, current, h.1]

theorem query_of_closed (closed : c.dispatcher.table.closed = true)
    (current : c.current? = some conn) (h : conn.Accepting) (q : Query) :
    ∃ p, (c.query q).1 = .ok p ∧
      ((c.query q).2.collect p).1 = some (.error .connectionClosed) := by
  obtain ⟨hresult, hconn⟩ := Connection.query_of_accepting h c.dispatcher q
  have hdispatcher := Connection.dispatcher_query_of_accepting h c.dispatcher q
  refine ⟨⟨c.dispatcher.table.slots.length, q.answer⟩, ?_, ?_⟩
  · rw [query, current]
    dsimp only
    rw [hresult, Dispatcher.register, ReplyTable.register_ticket]
    rfl
  · have hslot : (c.query q).2.dispatcher.table.slots[c.dispatcher.table.slots.length]? =
        some (.answered (.error .connectionClosed)) := by
      rw [query, current]
      dsimp only
      rw [setCurrent, hdispatcher, Dispatcher.register]
      dsimp only
      rw [ReplyTable.register_slots, List.getElem?_concat_length, if_pos closed]
    rw [collect, ReplyTable.collect_of_answered hslot]
    rfl

end Client

namespace Switchboard

variable {actions : List Action} {line k : Nat} {kind : ReplyKind} {ticket : Ticket} {ans : Answer}
  {x : Inquiry} {result : Except ClientError Reply}

def ReadsReply (line : Nat) (before : List Action) (a : Action) : Prop :=
  ∃ f, TakesUp line f before a ∧ f.replyKind ≠ none

def Silent (actions : List Action) (line : Nat) : Prop :=
  (line, .closed) ∉ (run actions).events ∧ ¬ During (ReadsReply line) actions

theorem Source.not_silent (h : Source actions line kind ticket ans) : ¬ Silent actions line := by
  rintro ⟨untold, unread⟩
  cases h with
  | ended told => exact untold told
  | brought brings =>
    obtain ⟨before, a, after, hmoment, brings⟩ := brings
    obtain ⟨f, hf, answer⟩ := brings.takesUp
    refine unread ⟨before, a, after, hmoment, f, hf, ?_⟩
    rw [Frame.replyKind_of_answer answer]
    exact Option.some_ne_none kind

theorem Cause.own (h : Cause actions (fun _ => True) k x result)
    (silent : ∀ other, other ≠ x.line → Silent actions other) :
    Cause actions (· = x.line) k x result := by
  cases h with
  | @answered ticket ans line finished gives _ source =>
    have hline : line = x.line := by
      by_contra hne
      exact source.not_silent (silent line hne)
    exact .answered finished gives hline source
  | refused gives turned => exact .refused gives turned
  | unconnected gives alone => exact .unconnected gives alone

/-- A query finishes with what one of the connections has brought for it, because its own connection
refused it, or for want of a connection; while the others read no reply and do not end, what
answers it is its own connection.  Once any of them has told of its end, every query fails at
once, though a newer connection takes it. -/
theorem queries_answered_by_connections (actions : List Action) :
    let s := run actions
    (∀ k x, s.inquiries[k]? = some x → ∀ result, x.result? = some result →
      Cause actions (fun _ => True) k x result ∧
        ((∀ other, other ≠ x.line → Silent actions other) →
          Cause actions (· = x.line) k x result)) ∧
      ∀ line, (line, Event.closed) ∈ s.events → ∀ conn q, s.client.current? = some conn →
        conn.Accepting → s.client.isConnected = true ∧ ∃ p, (s.client.query q).1 = .ok p ∧
          ((s.client.query q).2.collect p).1 = some (.error .connectionClosed) := by
  intro s
  have horderly : Orderly actions s.books := orderly actions
  refine ⟨fun k x made result finished => ?_, fun line told conn q current accepting => ?_⟩
  · have hcause := (horderly.tracked made).cause result finished
    exact ⟨hcause, hcause.own⟩
  · have hclosed : s.table.closed = true := horderly.closed_iff.mpr ⟨line, told⟩
    exact ⟨Client.isConnected_of_accepting current accepting,
      Client.query_of_closed hclosed current accepting q⟩

/-- The newer of two connections ends with a query unanswered, and a third is opened. -/
def reopening : List Action := [
  .connect {}, .connect {}, .call (.query .monitors), .draw 0, .register 0, .submit 0,
  .arrive 1 .endOfStream, .step 1 .reader, .step 1 .reader, .step 1 .reader, .step 1 .reader,
  .poll 0, .connect {}]

def abortedQuery : Inquiry := ⟨1, .monitors, .finished 0 (.error .connectionClosed)⟩

theorem silent_reopening (other : Nat) (h : other ≠ 1) : Silent reopening other := by
  have hevents : (run reopening).events =
      [(0, .connected), (1, .connected), (1, .closed), (2, .connected)] := rfl
  refine ⟨by simp [hevents, h], ?_⟩
  rintro ⟨before, a, after, hmoment, f, ⟨rfl, -⟩, -⟩
  have hstep : Action.step other .reader ∈ reopening := by simp [hmoment]
  simp [reopening, h] at hstep

theorem queries_answered_by_connections_reopening :
    Cause reopening (· = 1) 0 abortedQuery (.error .connectionClosed) ∧
      ∃ p, ((run reopening).client.query .monitors).1 = .ok p ∧
        (((run reopening).client.query .monitors).2.collect p).1 =
          some (.error .connectionClosed) := by
  obtain ⟨hresults, hlater⟩ := queries_answered_by_connections reopening
  have made : (run reopening).inquiries[0]? = some abortedQuery := rfl
  have told : (1, Event.closed) ∈ (run reopening).events := by decide
  have current : (run reopening).client.current? = some {} := rfl
  have accepting : Connection.Accepting {} := ⟨rfl, by decide⟩
  exact ⟨(hresults 0 abortedQuery made _ rfl).2 silent_reopening,
    (hlater 1 told {} .monitors current accepting).2⟩

theorem not_cause_of_idle (unread : Action.step x.line .reader ∉ actions)
    (untold : (x.line, Event.closed) ∉ (run actions).events)
    (accepts : ¬ During (fun before _ => (run before).Refuses x.line) actions)
    (connected : result ≠ .error .notConnected) : ¬ Cause actions (· = x.line) k x result := by
  intro h
  cases h with
  | answered _ _ among source =>
    subst among
    cases source with
    | ended told => exact untold told
    | brought brings =>
      obtain ⟨before, a, after, hmoment, brings⟩ := brings
      exact unread (by simp [hmoment, brings.step])
  | refused _ turned =>
    obtain ⟨before, a, after, hmoment, turned⟩ := turned
    exact accepts ⟨before, a, after, hmoment, turned.refuses⟩
  | unconnected gives => exact connected gives

def sound (conn : Connection) : Bool := !conn.closed && conn.writer = .running

theorem not_refuses_of_sound {s : Switchboard}
    (h : s.client.connections[line]?.all sound = true) : ¬ s.Refuses line := by
  rintro ⟨conn, hconn, refuses⟩
  rw [hconn] at h
  simp [sound] at h
  exact refuses ⟨h.1, by simp [h.2]⟩

def reconnecting : List Action := [
  .connect {}, .arrive 0 .endOfStream, .step 0 .reader, .step 0 .reader, .step 0 .reader,
  .step 0 .reader, .connect {}, .call (.query .monitors), .draw 0, .register 0, .submit 0, .poll 0]

def strayReply : Frame := Frame.ofMessage (.reply (.windowLayer ⟨9, 3, 0⟩)) 0

/-- The first connection stays open beside the second, and a reply to the query on that one comes
to it. -/
def crossing : List Action := [
  .connect {}, .connect {}, .call (.query (.windowLayer 5)), .draw 0, .register 0, .submit 0,
  .arrive 0 (.bytes strayReply.encode)]

def crossed : List Action := crossing ++ [.step 0 .reader] ++ [.poll 0]

def strayLayer : Inquiry := ⟨1, .windowLayer 5, .finished 0 (.ok (.windowLayer ⟨9, 3, 0⟩))⟩

theorem events_poll (s : Switchboard) (k : Nat) : (s.poll k).events = s.events := by
  unfold poll
  split
  · split <;> rfl
  · rfl

theorem events_crossed : (run crossed).events = [(0, .connected), (1, .connected)] := by
  rw [crossed, run_concat, act, events_poll]
  rfl

theorem takes_crossing : (run crossing).Takes 0 strayReply :=
  ⟨_, rfl, rfl, rfl⟩

theorem strayLayer_mem : strayLayer ∈ (run crossed).inquiries := by
  have hslot : (run (crossing ++ [.step 0 .reader])).table.slots[0]? =
      some (.answered (.ok (.windowLayer ⟨9, 3, 0⟩))) := by
    have answer : strayReply.answer? = some (.windowLayer, .ok (.windowLayer ⟨9, 3, 0⟩)) := rfl
    rw [run_concat]
    exact slot_of_takes takes_crossing answer rfl
  have hpoll := poll_of_answered (k := 0) (x := ⟨1, .windowLayer 5, .waiting 0⟩) rfl rfl hslot
  rw [crossed, run_concat]
  exact List.mem_of_getElem? hpoll

/-- A query on an open connection fails because an older one has ended, and another is answered
by a frame that an older connection has read. -/
theorem query_resolved_by_older_connection :
    (abortedQuery ∈ (run reconnecting).inquiries ∧
      (run reconnecting).client.isConnected = true ∧
      ∀ k, ¬ Cause reconnecting (· = 1) k abortedQuery (.error .connectionClosed)) ∧
    strayLayer ∈ (run crossed).inquiries ∧
      ∀ k, ¬ Cause crossed (· = 1) k strayLayer (.ok (.windowLayer ⟨9, 3, 0⟩)) := by
  refine ⟨⟨List.mem_singleton.mpr rfl, rfl, fun k => ?_⟩, strayLayer_mem, fun k => ?_⟩
  · refine not_cause_of_idle (x := abortedQuery) (by simp [reconnecting, abortedQuery]) (by decide)
      (not_during_of_take fun n hn _ => not_refuses_of_sound ?_) (by simp)
    revert n
    decide
  · refine not_cause_of_idle (x := strayLayer) (by simp [crossed, crossing, strayLayer])
      (by simp [events_crossed])
      (not_during_of_take fun n hn _ => not_refuses_of_sound ?_) (by simp)
    revert n
    decide

end Switchboard
end CompositorClient
