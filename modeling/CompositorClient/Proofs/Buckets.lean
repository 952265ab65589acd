import CompositorClient.Proofs.Subscriptions
import Mathlib.Algebra.GroupWithZero.Nat

/-! Every frame falls into one of three buckets.  A frame of a reply type reaches the table of
unanswered queries and no subscriber, one that tells of events reaches the subscribers and not
the table, and any other frame reaches neither. -/

namespace CompositorClient

def MessageType.noticeTypes : List MessageType := [
  .pointerEvent, .keyboardEvent, .keybindEvent, .windowCreated, .windowDestroyed,
  .clickRegionEvent, .compositorShutdown, .windowTitleChanged, .windowStateChanged]

def trackedButtons : List (UInt32 × MouseButton) :=
  [(0x110, .left), (0x111, .right), (0x112, .middle)]

/-- The events that a notice stands for, in order.  All but pointer notices stand for one. -/
inductive Notice.Tells : Notice → List Event → Prop
  | keyboard (stroke : KeyStroke) : Tells (.keyboard stroke) [.keyboard stroke]
  | keybind (id : UInt32) : Tells (.keybind id) [.keybind id]
  | windowCreated (w : NewWindow) : Tells (.windowCreated w) [.windowCreated w]
  | windowDestroyed (id : WindowId) : Tells (.windowDestroyed id) [.windowDestroyed id]
  | clickRegion (c : RegionClick) : Tells (.clickRegion c) [.clickRegion c]
  | compositorShutdown : Tells .compositorShutdown [.compositorShutdown]
  | windowTitleChanged (id : WindowId) (title : String) :
      Tells (.windowTitleChanged id title) [.windowTitleChanged id title]
  | windowStateChanged (s : StateChange) : Tells (.windowStateChanged s) [.windowStateChanged s]
  | outside (m : PointerMotion) (root : m.windowId = 0) : Tells (.pointer m) [.globalPointer m]
  | pressed (m : PointerMotion) (button : MouseButton) (inside : m.windowId ≠ 0)
      (tracked : (m.button, button) ∈ trackedButtons) (state : m.state = 1) :
      Tells (.pointer m) [.pointer m, .click ⟨m.windowId, button, m.x, m.y, m.time⟩]
  | released (m : PointerMotion) (button : MouseButton) (inside : m.windowId ≠ 0)
      (tracked : (m.button, button) ∈ trackedButtons) (state : m.state = 0) :
      Tells (.pointer m) [.pointer m, .release ⟨m.windowId, button, m.x, m.y, m.time⟩]
  | moved (m : PointerMotion) (inside : m.windowId ≠ 0)
      (other : (∀ button, (m.button, button) ∉ trackedButtons) ∨ m.state ≠ 1 ∧ m.state ≠ 0) :
      Tells (.pointer m) [.pointer m]

theorem mem_trackedButtons_iff {code : UInt32} {button : MouseButton} :
    (code, button) ∈ trackedButtons ↔ MouseButton.ofCode? code = some button := by
  rw [MouseButton.ofCode?_eq_some_iff]
  cases button <;> simp [trackedButtons, MouseButton.code, eq_comm]

theorem PointerMotion.tells_events (m : PointerMotion) : (Notice.pointer m).Tells m.events := by
  unfold events
  split
  · next hroot => exact .outside m hroot
  · next hinside =>
    have hinside : m.windowId ≠ 0 := hinside
    unfold buttonEvents
    cases hcode : MouseButton.ofCode? m.button with
    | none =>
      refine .moved m hinside (.inl fun button hmem => ?_)
      simp [mem_trackedButtons_iff, hcode] at hmem
    | some button =>
      have htracked := mem_trackedButtons_iff.mpr hcode
      by_cases hone : m.state = 1
      · simpa [hone] using Notice.Tells.pressed m button hinside htracked hone
      · by_cases hzero : m.state = 0
        · simpa [hzero] using Notice.Tells.released m button hinside htracked hzero
        · simpa [hone, hzero] using Notice.Tells.moved m hinside (.inr ⟨hone, hzero⟩)

theorem Notice.tells_events (n : Notice) : n.Tells n.events := by
  cases n with
  | pointer m => exact m.tells_events
  | _ => constructor

namespace Message

theorem type_mem_noticeTypes_iff (m : Message) :
    m.type ∈ MessageType.noticeTypes ↔ ∃ n, m = .notice n := by
  rcases m with c | q | r | n
  · cases c <;> simp [type, Command.type, MessageType.noticeTypes]
  · cases q <;> simp [type, Query.type, MessageType.noticeTypes]
  · cases r <;> simp [type, Reply.kind, ReplyKind.type, MessageType.noticeTypes]
  · cases n <;> simp [type, Notice.type, MessageType.noticeTypes]

theorem ofType?_type_eq_some_iff (m : Message) (kind : ReplyKind) :
    ReplyKind.ofType? m.type = some kind ↔ ∃ r, m = .reply r ∧ r.kind = kind := by
  rcases m with c | q | r | n
  · have h : ReplyKind.ofType? c.type = none := by cases c <;> rfl
    simp [type, h]
  · have h : ReplyKind.ofType? q.type = none := by cases q <;> rfl
    simp [type, h]
  · simp [type]
  · have h : ReplyKind.ofType? n.type = none := by cases n <;> rfl
    simp [type, h]

end Message

namespace Frame

variable {f : Frame} {m : Message}

theorem code_of_message (h : f.message = .ok m) : f.header.type = m.type.code := by
  unfold message at h
  split at h
  · cases h
  · next t ht =>
    rw [Message.type_of_decode h]
    exact ((MessageType.ofCode?_eq_some_iff _ _).mp ht).symm

theorem replyKind_of_code {kind : ReplyKind} (h : f.header.type = kind.type.code) :
    f.replyKind = some kind := by
  simp [replyKind, h]

theorem code_of_replyKind {kind : ReplyKind} (h : f.replyKind = some kind) :
    f.header.type = kind.type.code :=
  ((MessageType.ofCode?_eq_some_iff _ _).mp (type_of_replyKind h)).symm

/-- A frame of a reply type holds an answer, one way or the other. -/
theorem answer_of_code {kind : ReplyKind} (h : f.header.type = kind.type.code) :
    (∃ r, f.message = .ok (.reply r) ∧ r.kind = kind ∧ f.answer? = some (kind, .ok r)) ∨
      ∃ e, f.message = .error e ∧ f.answer? = some (kind, .error (.undecodable e)) := by
  have hkind := replyKind_of_code h
  cases hm : f.message with
  | error e => exact .inr ⟨e, rfl, by simp [answer?, hkind, hm]⟩
  | ok m =>
    have htype : m.type = kind.type := MessageType.code_injective (by rw [← code_of_message hm, h])
    obtain ⟨r, rfl, hr⟩ := (m.ofType?_type_eq_some_iff kind).mp (by simp [htype])
    exact .inl ⟨r, rfl, hr, by simp [answer?, hkind, hm]⟩

theorem events_of_answer {kind : ReplyKind} (h : f.header.type = kind.type.code) :
    f.events = [] := by
  rcases answer_of_code h with ⟨r, hm, -, -⟩ | ⟨e, hm, -⟩ <;> simp [events, hm]

end Frame

namespace ReplyTable

/-- What an answer of `kind` changes: one waiter of that kind, if any still waits, gets it and
leaves the queue, and so do those of the kind that have been given up. -/
inductive Completes (t : ReplyTable) (kind : ReplyKind) (answer : Answer) :
    Bool → ReplyTable → Prop
  | nobody (gone : ∀ v ∈ t.queues kind, t.slots[v.ticket]? = some .abandoned) :
      Completes t kind answer false (t.setQueue kind [])
  | one (w : Waiter) (queue : List Waiter) (mem : w ∈ t.queues kind)
      (waits : t.slots[w.ticket]? = some .waiting) (order : queue.Sublist (t.queues kind))
      (left : ∀ v ∈ t.queues kind, v ∈ queue ↔ v ≠ w ∧ t.slots[v.ticket]? ≠ some .abandoned) :
      Completes t kind answer true
        ((t.setSlot w.ticket (.answered answer)).setQueue kind queue)

variable {t : ReplyTable} {log : List (ReplyKind × UInt32)} {kind : ReplyKind}

theorem Consistent.waiting_iff (h : Consistent log t) {v : Waiter} (hv : v ∈ t.queues kind) :
    t.slots[v.ticket]? = some .waiting ↔ t.slots[v.ticket]? ≠ some .abandoned := by
  rcases h.unanswered hv with hw | ha
  · simp [hw]
  · simp [ha]

theorem Consistent.completes (h : Consistent log t) (kind : ReplyKind) (sequence : UInt32)
    (answer : Answer) :
    Completes t kind answer (t.deliver kind sequence answer).1
      (t.deliver kind sequence answer).2 := by
  rcases h.deliver_cases kind sequence answer with ⟨hnone, heq⟩ | ⟨w, hw, heq⟩
  · rw [heq]
    refine .nobody fun v hv => ?_
    by_contra hkept
    exact hnone v ⟨h.registered hv, (h.waiting_iff hv).mpr hkept⟩
  · have hlive := mem_live_iff.mp (h.mem_live.mpr hw.mem)
    rw [heq]
    refine .one w _ hlive.1 hlive.2 (List.erase_sublist.trans List.filter_sublist) ?_
    intro v hv
    rw [(h.nodup_live kind).mem_erase_iff, mem_live_iff, h.waiting_iff hv]
    simp [hv]

end ReplyTable

namespace Dispatcher

/-- The handlers that run when a frame is dispatched, each with the event it is given. -/
def callsFor (d : Dispatcher) (f : Frame) : List Call :=
  (d.dispatchFrame f).2.calls (Connection.emitted (d.dispatchFrame f).1)

theorem callsFor_eq (d : Dispatcher) (f : Frame) : d.callsFor f = d.calls f.events := by
  have h : (d.dispatchFrame f).2.listeners = d.listeners := by
    funext kind
    simp [listeners]
  simp [callsFor, calls, h, emitted_dispatchFrame]

/-- The frame is settled with the queries of `kind`: no handler runs, and only the table can
have changed. -/
inductive Settles (d : Dispatcher) (f : Frame) (kind : ReplyKind) : Prop
  | reply (r : Reply) (taken : Bool) (table : ReplyTable) (silent : d.callsFor f = [])
      (decoded : f.message = .ok (.reply r)) (asked : r.kind = kind)
      (completes : d.table.Completes kind (.ok r) taken table)
      (gives : d.dispatchFrame f = (.ok (.reply kind taken), { d with table }))
  | undecodable (e : ProtocolError) (taken : Bool) (table : ReplyTable)
      (silent : d.callsFor f = []) (failed : f.message = .error e)
      (completes : d.table.Completes kind (.error (.undecodable e)) taken table)
      (gives : d.dispatchFrame f = (.error e, { d with table }))

/-- The frame is told to all of `subscribed` that listen to one of its events: event by event,
and for each event in the order of `subscribed`.  The dispatcher stays as it is. -/
structure Announces (d : Dispatcher) (subscribed : List Subscriber) (f : Frame) (n : Notice)
    (events : List Event) : Prop where
  tells : n.Tells events
  calls : d.callsFor f = events.flatMap fun e =>
    (subscribed.filter (·.kind == e.kind)).map fun s => (s.id, e)
  gives : d.dispatchFrame f =
    (.ok (.events events (events.map fun e => subscribed.countP (·.kind == e.kind)).sum), d)

structure Passes (d : Dispatcher) (f : Frame) : Prop where
  silent : d.callsFor f = []
  gives : d.dispatchFrame f = (f.message.map (Delivery.ignored ·.type), d)

variable {d : Dispatcher} {f : Frame}

theorem settles (h : ∃ log, ReplyTable.Consistent log d.table) {kind : ReplyKind}
    (code : f.header.type = kind.type.code) : d.Settles f kind := by
  obtain ⟨log, h⟩ := h
  have hsilent : d.callsFor f = [] := by
    rw [callsFor_eq, Frame.events_of_answer code, calls_nil]
  rcases Frame.answer_of_code code with ⟨r, hm, rfl, -⟩ | ⟨e, hm, -⟩
  · exact .reply r _ _ hsilent hm rfl (h.completes r.kind f.header.sequence (.ok r))
      (dispatchFrame_of_reply d hm)
  · refine .undecodable e _ _ hsilent hm
      (h.completes kind f.header.sequence (.error (.undecodable e))) ?_
    simp [dispatchFrame, hm, Frame.replyKind_of_code code, ReplyTable.fail]

theorem length_calls (d : Dispatcher) (events : List Event) :
    (d.calls events).length =
      (events.map fun e => d.subscribers.countP (·.kind == e.kind)).sum := by
  simp [calls, listeners, List.length_flatMap, List.countP_eq_length_filter, Function.comp_def]

theorem announces {n : Notice} (h : f.message = .ok (.notice n)) :
    d.Announces d.subscribers f n n.events where
  tells := n.tells_events
  calls := by
    have hevents : f.events = n.events := by simp [Frame.events, h]
    rw [callsFor_eq, hevents]
    simp [Dispatcher.calls, listeners, Function.comp_def]
  gives := by
    rw [dispatchFrame, h]
    simp [dispatch, length_calls]

theorem passes (noAnswer : ∀ kind : ReplyKind, f.header.type ≠ kind.type.code)
    (noNotice : ∀ n, f.message ≠ .ok (.notice n)) : d.Passes f where
  silent := by
    have hevents : f.events = [] := by
      unfold Frame.events
      split
      · next n hn => exact absurd hn (noNotice n)
      · rfl
    rw [callsFor_eq, hevents, calls_nil]
  gives := by
    cases hm : f.message with
    | error e =>
      have hkind : f.replyKind = none := by
        refine Option.eq_none_iff_forall_ne_some.mpr fun kind hkind => noAnswer kind ?_
        exact Frame.code_of_replyKind hkind
      simp [dispatchFrame, hm, hkind, Except.map]
    | ok m =>
      cases m with
      | reply r => exact absurd (Frame.code_of_message hm) (noAnswer r.kind)
      | notice n => exact absurd hm (noNotice n)
      | command | query => simp [dispatchFrame, hm, dispatch, Message.type, Except.map]

/-- At every moment a frame of a reply type is settled with the queries of its kind; a frame of
an event type that can be decoded is announced to those who have subscribed and not
unsubscribed, in the order in which they subscribed; and every other frame passes. -/
theorem frames_fall_into_buckets (history : List Action) (f : Frame) :
    let d := empty.run history
    (∀ kind : ReplyKind, f.header.type = kind.type.code → d.Settles f kind) ∧
    (∀ t ∈ MessageType.noticeTypes, f.header.type = t.code → ∀ m, f.message = .ok m →
      ∃ n es, m = .notice n ∧ d.Announces (standing 0 history) f n es) ∧
    ((∀ kind : ReplyKind, f.header.type ≠ kind.type.code) →
      (∀ t ∈ MessageType.noticeTypes, f.header.type = t.code → ∃ e, f.message = .error e) →
      d.Passes f) := by
  intro d
  have hsound : ∃ log, ReplyTable.Consistent log d.table := consistent_run ⟨[], .empty⟩ history
  have hstanding : d.subscribers = standing 0 history := by
    rw [subscribers_run]
    rfl
  refine ⟨fun kind code => settles hsound code, fun t ht code m hm => ?_,
    fun noAnswer noNotice => passes noAnswer fun n hm => ?_⟩
  · have htype : m.type = t := MessageType.code_injective (by rw [← Frame.code_of_message hm, code])
    obtain ⟨n, rfl⟩ := m.type_mem_noticeTypes_iff.mp (htype ▸ ht)
    exact ⟨n, n.events, rfl, hstanding ▸ announces hm⟩
  · have hmem := (Message.notice n).type_mem_noticeTypes_iff.mpr ⟨n, rfl⟩
    obtain ⟨e, he⟩ := noNotice _ hmem (Frame.code_of_message hm)
    rw [hm] at he
    cases he

/-- A left click in window 5 is told as a motion and as a click; subscription 2 is gone. -/
example :
    let history := [.subscribe .click, .subscribe .pointer, .subscribe .pointer, .unsubscribe 2]
    let motion : PointerMotion := ⟨5, 77, 0x110, 1, 30, 40⟩
    (empty.run history).callsFor (Frame.ofMessage (.notice (.pointer motion)) 0) =
      [(3, .pointer motion), (1, .click ⟨5, .left, 30, 40, 77⟩)] := by
  rfl

end Dispatcher
end CompositorClient
