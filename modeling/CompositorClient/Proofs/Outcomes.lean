import CompositorClient.Proofs.Resolution

/-! What the queries of a client come to, whatever its connections read and however calls and
tasks interleave: a reply of the kind asked for, the reply's own decoding error, or the end.  And
once a connection has told of its end, no query waits any more. -/

namespace CompositorClient

namespace Frame

variable {f : Frame} {kind : ReplyKind} {ans : Answer}

/-- A frame of a known type can only be too short. -/
theorem error_of_type {t : MessageType} (h : MessageType.ofCode? f.header.type = some t)
    {e : ProtocolError} (failed : f.message = .error e) :
    ∃ needed, e = .truncatedPayload t.payloadName needed f.payload.length := by
  rw [message, h] at failed
  dsimp only at failed
  unfold Message.decode at failed
  split at failed
  · cases failed
  · cases failed
    exact ⟨_, rfl⟩

theorem answer_cases (h : f.answer? = some (kind, ans)) :
    (∃ r, ans = .ok r ∧ r.kind = kind ∧ f.message = .ok (.reply r)) ∨
      ∃ e, ans = .error (.undecodable e) ∧ f.message = .error e := by
  cases ans with
  | ok r =>
    obtain ⟨hmessage, hkind⟩ := message_of_answer h
    exact .inl ⟨r, rfl, hkind.symm, hmessage⟩
  | error e =>
    obtain ⟨k, -, hmatch⟩ := Option.bind_eq_some_iff.mp h
    split at hmatch
    · cases hmatch
    · cases hmatch
    · next failed =>
      cases hmatch
      exact .inr ⟨_, rfl, failed⟩

end Frame

namespace Switchboard

variable {actions : List Action} {line k : Nat} {kind : ReplyKind} {ticket : Ticket} {ans : Answer}
  {lines : Nat → Prop} {x : Inquiry} {result : Except ClientError Reply}

def TakesUp (line : Nat) (f : Frame) (before : List Action) (a : Action) : Prop :=
  a = .step line .reader ∧ (run before).Takes line f

inductive Outcome (actions : List Action) (kind : ReplyKind) : Except ClientError Reply → Prop
  | reply {line f r} (taken : During (TakesUp line f) actions)
      (type : MessageType.ofCode? f.header.type = some kind.type)
      (decoded : f.message = .ok (.reply r)) (asked : r.kind = kind) :
    Outcome actions kind (.ok r)
  | undecodable {line f needed} (taken : During (TakesUp line f) actions)
      (type : MessageType.ofCode? f.header.type = some kind.type)
      (failed : f.message =
        .error (.truncatedPayload kind.type.payloadName needed f.payload.length)) :
    Outcome actions kind
      (.error (.protocol (.truncatedPayload kind.type.payloadName needed f.payload.length)))
  | closed : Outcome actions kind (.error .connectionClosed)
  | unconnected : Outcome actions kind (.error .notConnected)

theorem Brings.takesUp {before : List Action} {a : Action}
    (h : Brings line kind ticket ans before a) :
    ∃ f, TakesUp line f before a ∧ f.answer? = some (kind, ans) := by
  obtain ⟨f, takes, answer⟩ := h.frame
  exact ⟨f, ⟨h.step, takes⟩, answer⟩

theorem Source.outcome (h : Source actions line kind ticket ans) :
    Outcome actions kind (Client.result kind ans) := by
  cases h with
  | ended => exact .closed
  | brought brings =>
    obtain ⟨before, a, after, hmoment, brings⟩ := brings
    obtain ⟨f, hf, answer⟩ := brings.takesUp
    have taken : During (TakesUp line f) actions := ⟨before, a, after, hmoment, hf⟩
    have type := Frame.type_of_replyKind (Frame.replyKind_of_answer answer)
    rcases Frame.answer_cases answer with ⟨r, rfl, hkind, decoded⟩ | ⟨e, rfl, failed⟩
    · rw [Client.result, if_pos hkind]
      exact .reply taken type decoded hkind
    · obtain ⟨needed, rfl⟩ := Frame.error_of_type type failed
      exact .undecodable taken type failed

theorem Cause.outcome (h : Cause actions lines k x result) :
    Outcome actions x.query.answer result := by
  cases h with
  | answered _ gives _ source =>
    rw [gives]
    exact source.outcome
  | refused gives =>
    rw [gives]
    exact .closed
  | unconnected gives =>
    rw [gives]
    exact .unconnected

/-- Every query that finishes has a reply that was read for its kind, the error of such a reply
that is too short, or the news that the connection has ended or was never there. -/
theorem queries_finish_in_kind (actions : List Action) {x : Inquiry}
    (made : x ∈ (run actions).inquiries) {result : Except ClientError Reply}
    (finished : x.result? = some result) :
    Outcome actions x.query.answer result ∧
      (∀ expected actual, result ≠ .error (.unexpectedReply expected actual)) ∧
      (∀ t, result ≠ .error (.notAQuery t)) ∧
      ∀ e, result = .error (.protocol e) → ∃ needed available,
        e = .truncatedPayload x.query.answer.type.payloadName needed available := by
  obtain ⟨k, held⟩ := List.mem_iff_getElem?.mp made
  have houtcome := (((orderly actions).tracked held).cause result finished).outcome
  refine ⟨houtcome, ?_⟩
  cases houtcome with
  | reply | closed | unconnected => exact ⟨nofun, nofun, nofun⟩
  | undecodable =>
    refine ⟨nofun, nofun, ?_⟩
    rintro e ⟨⟩
    exact ⟨_, _, rfl⟩

theorem poll_of_answered {s : Switchboard} {k : Nat} (held : s.inquiries[k]? = some x)
    (waits : x.progress = .waiting ticket) (slot : s.table.slots[ticket]? = some (.answered ans)) :
    (s.act (.poll k)).inquiries[k]? =
      some { x with progress := .finished ticket (Client.result x.query.answer ans) } := by
  obtain ⟨line, q, progress⟩ := x
  cases waits
  have hcollect : s.client.dispatcher.table.collect ticket = _ :=
    ReplyTable.collect_of_answered slot
  rw [act, poll, held]
  dsimp only
  rw [Client.collect, hcollect]
  exact List.getElem?_set_self (List.getElem?_eq_some_iff.mp held).1

/-- A reply of this type has twelve bytes of payload. -/
def curtailed : Frame :=
  ⟨{ length := 20, type := MessageType.windowSizeData.code, sequence := 1 }, [5, 0, 0, 0]⟩

def shortening : List Action := [
  .connect {}, .call (.query (.windowSize 5)), .draw 0, .register 0, .submit 0,
  .arrive 0 (.bytes curtailed.encode)]

def shortened : List Action := shortening ++ [.step 0 .reader] ++ [.poll 0]

def tooShort : ProtocolError := .truncatedPayload "WindowSizeData" 12 4

def sizeAsked : Inquiry := ⟨0, .windowSize 5, .finished 0 (.error (.protocol tooShort))⟩

theorem takes_shortening : (run shortening).Takes 0 curtailed :=
  ⟨_, rfl, rfl, rfl⟩

theorem sizeAsked_mem : sizeAsked ∈ (run shortened).inquiries := by
  have hslot : (run (shortening ++ [.step 0 .reader])).table.slots[0]? =
      some (.answered (.error (.undecodable tooShort))) := by
    have answer : curtailed.answer? = some (.windowSize, .error (.undecodable tooShort)) := rfl
    rw [run_concat]
    exact slot_of_takes takes_shortening answer rfl
  have hpoll := poll_of_answered (k := 0) (x := ⟨0, .windowSize 5, .waiting 0⟩) rfl rfl hslot
  rw [shortened, run_concat]
  exact List.mem_of_getElem? hpoll

theorem queries_finish_in_kind_shortened :
    sizeAsked ∈ (run shortened).inquiries ∧
      sizeAsked.result? = some (.error (.protocol tooShort)) ∧
      Outcome shortened .windowSize (.error (.protocol tooShort)) :=
  ⟨sizeAsked_mem, rfl, (queries_finish_in_kind shortened sizeAsked_mem rfl).1⟩

theorem events_append (actions more : List Action) :
    ∃ es, (run (actions ++ more)).events = (run actions).events ++ es := by
  induction more using List.reverseRecOn with
  | nil => exact ⟨[], by simp⟩
  | append_singleton more a ih =>
    obtain ⟨es, hes⟩ := ih
    obtain ⟨fs, hfs⟩ := events_concat (actions ++ more) a
    exact ⟨es ++ fs, by rw [← List.append_assoc actions, hfs, hes, List.append_assoc]⟩

theorem closed_of_told {more : List Action} (told : (line, Event.closed) ∈ (run actions).events) :
    (run (actions ++ more)).table.closed = true := by
  obtain ⟨es, hes⟩ := events_append actions more
  refine (orderly (actions ++ more)).closed_iff.mpr ⟨line, ?_⟩
  show (line, Event.closed) ∈ (run (actions ++ more)).events
  rw [hes]
  exact List.mem_append_left es told

/-- Once a connection has told of its end, no ticket waits or ever will, whichever steps its query
has taken before or takes after: what was brought or the end itself is there to be collected. -/
theorem no_query_waits_after_closed (actions more : List Action) {line : Nat}
    (told : (line, Event.closed) ∈ (run actions).events) :
    let s := run (actions ++ more)
    (∀ kind, s.table.live kind = []) ∧ (∀ t : Ticket, s.table.slots[t]? ≠ some .waiting) ∧
      ∀ (k : Nat) (x : Inquiry) (t : Ticket), s.inquiries[k]? = some x → x.ticket? = some t →
        ∃ ans other, s.table.slots[t]? = some (.answered ans) ∧
          Source (actions ++ more) other x.query.answer t ans ∧
          Outcome (actions ++ more) x.query.answer (Client.result x.query.answer ans) ∧
          (x.progress = .waiting t → (s.act (.poll k)).inquiries[k]? =
            some { x with progress := .finished t (Client.result x.query.answer ans) }) := by
  intro s
  have horderly : Orderly (actions ++ more) s.books := orderly (actions ++ more)
  have hempty : ∀ kind, s.table.queues kind = [] :=
    horderly.consistent.emptied (closed_of_told told)
  have hsettled : ∀ t : Ticket, s.table.slots[t]? ≠ some .waiting := by
    intro t hwaiting
    obtain ⟨w, hw, -⟩ := horderly.consistent.exists_mem_allLive hwaiting
    obtain ⟨kind, -, hw⟩ := List.mem_flatMap.mp hw
    have hqueued := (ReplyTable.mem_live_iff.mp hw).1
    simp [books, hempty] at hqueued
  refine ⟨fun kind => by simp [ReplyTable.live, hempty], hsettled, fun k x t held owns => ?_⟩
  have htracked := horderly.tracked held
  obtain ⟨ans, other, slot, source⟩ := (htracked.slot t owns).resolve_left (hsettled t)
  exact ⟨ans, other, slot, source, source.outcome, fun waits => poll_of_answered held waits slot⟩

/-- One query is queued just before the connection refuses; another passes its check in time and
registers when all is over. -/
def racing : List Action := [
  .connect {}, .call (.query .monitors), .call (.query .screenDimensions),
  .arrive 0 .endOfStream, .draw 0, .register 0, .step 0 .reader, .submit 0, .step 0 .reader,
  .draw 1, .step 0 .reader, .step 0 .reader]

theorem closed_told_racing : (0, Event.closed) ∈ (run racing).events := by decide

theorem no_query_waits_after_closed_racing :
    let s := run (racing ++ [.register 1])
    (0, Event.closed) ∈ (run racing).events ∧ (∀ kind, s.table.live kind = []) ∧
      (∃ ans, s.inquiries[0]? = some ⟨0, .monitors, .waiting 0⟩ ∧
        s.table.slots[0]? = some (.answered ans)) ∧
      ∃ n ans, s.inquiries[1]? = some ⟨0, .screenDimensions, .registered 1 n⟩ ∧
        s.table.slots[1]? = some (.answered ans) := by
  intro s
  obtain ⟨hlive, -, hanswered⟩ :=
    no_query_waits_after_closed racing [.register 1] closed_told_racing
  have hqueued : s.inquiries[0]? = some ⟨0, .monitors, .waiting 0⟩ := rfl
  obtain ⟨n, hlate⟩ : ∃ n, s.inquiries[1]? = some ⟨0, .screenDimensions, .registered 1 n⟩ :=
    ⟨_, rfl⟩
  obtain ⟨ans, -, hslot, -⟩ := hanswered 0 _ 0 hqueued rfl
  obtain ⟨ans', -, hslot', -⟩ := hanswered 1 _ 1 hlate rfl
  exact ⟨closed_told_racing, hlive, ⟨ans, hqueued, hslot⟩, n, ans', hlate, hslot'⟩

end Switchboard
end CompositorClient
