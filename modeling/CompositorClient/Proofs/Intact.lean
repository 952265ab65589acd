import CompositorClient.Connection.Task
import CompositorClient.Proofs.Dispatching

/-! Connections that neither task has begun to end: what each step leaves as it is, and the
steps that have no part in queries and replies. -/

namespace CompositorClient

namespace Connection

/-- Neither task has begun to end the connection. -/
def Intact (c : Connection) : Prop :=
  (c.reader = .waiting ∨ c.reader = .cutting) ∧ (c.writer = .running ∨ c.writer = .stopped)

theorem Intact.reader_ne {c : Connection} (h : c.Intact) {stage : Stage}
    {terminal : Option Event} : c.reader ≠ .ending stage terminal := by
  rcases h.1 with hr | hr <;> simp [hr]

theorem Intact.writer_ne {c : Connection} (h : c.Intact) {stage : Stage}
    {terminal : Option Event} : c.writer ≠ .ending stage terminal := by
  rcases h.2 with hw | hw <;> simp [hw]

@[simp] theorem sequence_push (c : Connection) (item : Outbound) :
    (c.push item).sequence = c.sequence := by
  unfold push
  split <;> rfl

@[simp] theorem reader_push (c : Connection) (item : Outbound) :
    (c.push item).reader = c.reader := by
  unfold push
  split <;> rfl

@[simp] theorem writer_push (c : Connection) (item : Outbound) :
    (c.push item).writer = c.writer := by
  unfold push
  split <;> rfl

@[simp] theorem closed_push (c : Connection) (item : Outbound) :
    (c.push item).closed = c.closed := by
  unfold push
  split <;> rfl

@[simp] theorem notified_push (c : Connection) (item : Outbound) :
    (c.push item).notified = c.notified := by
  unfold push
  split <;> rfl

@[simp] theorem transport_push (c : Connection) (item : Outbound) :
    (c.push item).transport = c.transport := by
  unfold push
  split <;> rfl

@[simp] theorem inbox_push (c : Connection) (item : Outbound) :
    (c.push item).inbox = c.inbox := by
  unfold push
  split <;> rfl

theorem Intact.push {c : Connection} (h : c.Intact) (item : Outbound) :
    (c.push item).Intact := by
  rw [Intact, reader_push, writer_push]
  exact h

theorem eq_push_of_enqueue {c c' : Connection} {bytes : List UInt8}
    (h : c.enqueue bytes = .ok c') : c' = c.push (.frame bytes) := by
  unfold enqueue at h
  split at h
  · cases h
  · split at h
    · cases h
    · cases h
      rfl

theorem send_of_closed {c : Connection} (h : c.closed = true) (m : Message) :
    c.send m = .error .connectionClosed := by
  rw [send, enqueue, if_pos h]

theorem query_of_closed {c : Connection} (h : c.closed = true) (d : Dispatcher) (m : Message) :
    c.query d m =
      (.error (if m.expectedReply = none then .notAQuery m.type else .connectionClosed), c, d) := by
  rw [query, expect]
  cases m.expectedReply with
  | none => rfl
  | some kind =>
    dsimp only
    rw [if_pos h, if_neg (by simp)]

theorem sequence_close (c : Connection) : c.close.sequence = c.sequence := by
  unfold close
  split
  · rfl
  · exact sequence_push _ _

theorem sequence_accept (c : Connection) (input : Input) :
    (c.accept input).sequence = c.sequence := by
  unfold accept
  split
  · cases input <;> rfl
  · rfl

/-- While no task ends the connection, the writer touches nothing but its own side. -/
theorem writerStep_frame {c : Connection} {d : Dispatcher} {e : Effect} (hc : c.Intact)
    (h : c.writerStep d = some e) :
    e.dispatcher = d ∧ e.connection.sequence = c.sequence := by
  unfold writerStep at h
  split at h
  · cases h
  · split at h
    · cases h
    · split at h
      · cases h
        exact ⟨rfl, rfl⟩
      · cases h
        exact ⟨rfl, rfl⟩
    · cases h
      exact ⟨rfl, rfl⟩
  · next hw => exact absurd hw hc.writer_ne

/-- What a reader that ends nothing does to the dispatcher. -/
def dispatched (c : Connection) (d : Dispatcher) : Dispatcher :=
  match c.inbox.next.1 with
  | some (.ok f) => (d.dispatchFrame f).2
  | _ => d

theorem readerStep_frame {c : Connection} {d : Dispatcher} {e : Effect} (hc : c.Intact)
    (h : c.readerStep d = some e) :
    e.dispatcher = c.dispatched d ∧ e.connection.sequence = c.sequence := by
  unfold readerStep at h
  unfold dispatched
  split at h
  · cases h
  · cases h
  · split at h
    · next hnext =>
      cases h
      rw [hnext]
      exact ⟨rfl, rfl⟩
    · next hnext =>
      cases h
      rw [hnext]
      exact ⟨rfl, rfl⟩
    · next hnext =>
      cases h
      rw [hnext]
      exact ⟨rfl, rfl⟩
  · next hr => exact absurd hr hc.reader_ne

/-- The steps that neither ask nor answer: callers send commands and close, subscriptions come
and go, bytes arrive, the writer writes, and the reader passes frames that carry no reply. -/
inductive Quiet (c : Connection) (d : Dispatcher) : Connection → Dispatcher → Prop
  | enqueue {bytes : List UInt8} {c' : Connection} (h : c.enqueue bytes = .ok c') : Quiet c d c' d
  | close : Quiet c d c.close d
  | subscribe (kind : EventKind) : Quiet c d c (d.subscribe kind).2
  | unsubscribe (id : SubscriptionId) : Quiet c d c (d.unsubscribe id).2
  | accept (input : Input) : Quiet c d (c.accept input) d
  | write {e : Effect} (h : c.writerStep d = some e) : Quiet c d e.connection e.dispatcher
  | read {e : Effect} (h : c.readerStep d = some e)
      (pass : ∀ f, c.inbox.next.1 = some (.ok f) → f.replyKind = none) :
      Quiet c d e.connection e.dispatcher

theorem Quiet.frame {c c' : Connection} {d d' : Dispatcher} (h : Quiet c d c' d')
    (hc : c.Intact) : d'.table = d.table ∧ c'.sequence = c.sequence := by
  cases h with
  | enqueue h =>
    rw [eq_push_of_enqueue h]
    exact ⟨rfl, sequence_push _ _⟩
  | close => exact ⟨rfl, sequence_close c⟩
  | subscribe kind => exact ⟨rfl, rfl⟩
  | unsubscribe id => exact ⟨rfl, rfl⟩
  | accept input => exact ⟨rfl, sequence_accept c input⟩
  | write h =>
    obtain ⟨hd, hs⟩ := writerStep_frame hc h
    exact ⟨by rw [hd], hs⟩
  | read h pass =>
    obtain ⟨hd, hs⟩ := readerStep_frame hc h
    refine ⟨?_, hs⟩
    rw [hd, dispatched]
    split
    · next f hf => rw [Dispatcher.dispatchFrame_of_other d (pass f hf)]
    · rfl

end Connection

end CompositorClient
