import CompositorClient.Connection.Task

/-! What a frame does to the table of unanswered queries: one that carries a reply resolves its
query, and one of any other type changes nothing. -/

namespace CompositorClient

theorem Message.type_of_decode {t : MessageType} {bs : List UInt8} {m : Message}
    (h : Message.decode t bs = .ok m) : m.type = t := by
  unfold Message.decode at h
  split at h
  · next b hb =>
    cases h
    exact type_ofBody t b
  · cases h

theorem Frame.replyKind_of_message {f : Frame} {r : Reply} (h : f.message = .ok (.reply r)) :
    f.replyKind = some r.kind := by
  unfold Frame.message at h
  unfold Frame.replyKind
  cases hcode : MessageType.ofCode? f.header.type with
  | none =>
    rw [hcode] at h
    cases h
  | some t =>
    rw [hcode] at h
    have ht : r.kind.type = t := Message.type_of_decode h
    rw [Option.bind_some, ← ht, ReplyKind.ofType?_type]

namespace Frame

theorem type_of_replyKind {f : Frame} {kind : ReplyKind} (h : f.replyKind = some kind) :
    MessageType.ofCode? f.header.type = some kind.type := by
  obtain ⟨t, ht, hkind⟩ := Option.bind_eq_some_iff.mp h
  rw [ht, (ReplyKind.ofType?_eq_some_iff t kind).mp hkind]

/-- The answer in a frame of a reply type: the reply, or why there is none to be read. -/
def answer? (f : Frame) : Option (ReplyKind × Answer) :=
  f.replyKind.bind fun kind =>
    match f.message with
    | .ok (.reply r) => some (kind, .ok r)
    | .ok _ => none
    | .error e => some (kind, .error (.undecodable e))

def events (f : Frame) : List Event :=
  match f.message with
  | .ok (.notice n) => n.events
  | _ => []

theorem replyKind_of_answer {f : Frame} {kind : ReplyKind} {a : Answer}
    (h : f.answer? = some (kind, a)) : f.replyKind = some kind := by
  obtain ⟨k, hk, hmatch⟩ := Option.bind_eq_some_iff.mp h
  rw [hk]
  split at hmatch
  · cases hmatch
    rfl
  · cases hmatch
  · cases hmatch
    rfl

theorem message_of_answer {f : Frame} {kind : ReplyKind} {r : Reply}
    (h : f.answer? = some (kind, .ok r)) : f.message = .ok (.reply r) ∧ kind = r.kind := by
  have hkind := replyKind_of_answer h
  obtain ⟨k, -, hmatch⟩ := Option.bind_eq_some_iff.mp h
  split at hmatch
  · next m hm =>
    cases hmatch
    rw [replyKind_of_message hm] at hkind
    exact ⟨hm, (Option.some.inj hkind).symm⟩
  · cases hmatch
  · cases hmatch

end Frame

namespace Dispatcher

theorem dispatchFrame_of_reply (d : Dispatcher) {f : Frame} {r : Reply}
    (h : f.message = .ok (.reply r)) :
    d.dispatchFrame f =
      (.ok (.reply r.kind (d.table.resolve r f.header.sequence).1),
        { d with table := (d.table.resolve r f.header.sequence).2 }) := by
  rw [dispatchFrame, h]
  rfl

theorem dispatchFrame_of_other (d : Dispatcher) {f : Frame} (h : f.replyKind = none) :
    (d.dispatchFrame f).2 = d := by
  unfold dispatchFrame
  split
  · next m hm =>
    cases m with
    | reply r =>
      have hkind := Frame.replyKind_of_message hm
      rw [h] at hkind
      cases hkind
    | command | query | notice => rfl
  · rw [h]

theorem dispatchFrame_eq (d : Dispatcher) (f : Frame) :
    (d.dispatchFrame f).2 = match f.answer? with
      | none => d
      | some (kind, a) => { d with table := (d.table.deliver kind f.header.sequence a).2 } := by
  cases hkind : f.replyKind with
  | none =>
    rw [dispatchFrame_of_other d hkind, Frame.answer?, hkind]
    rfl
  | some kind =>
    rw [Frame.answer?, hkind, Option.bind_some]
    cases hm : f.message with
    | error e =>
      rw [dispatchFrame, hm]
      dsimp only
      rw [hkind]
      rfl
    | ok m =>
      cases m with
      | reply r =>
        have hr := Frame.replyKind_of_message hm
        rw [hkind] at hr
        cases hr
        rw [dispatchFrame_of_reply d hm]
        rfl
      | command | query | notice =>
        rw [dispatchFrame, hm]
        rfl

@[simp] theorem subscribers_dispatchFrame (d : Dispatcher) (f : Frame) :
    (d.dispatchFrame f).2.subscribers = d.subscribers := by
  rw [dispatchFrame_eq]
  split <;> rfl

theorem calls_congr {d d' : Dispatcher} (h : d'.subscribers = d.subscribers) (es : List Event) :
    d'.calls es = d.calls es := by
  simp only [calls, listeners, h]

/-- What a frame tells of does not depend on who listens or waits. -/
theorem emitted_dispatchFrame (d : Dispatcher) (f : Frame) :
    Connection.emitted (d.dispatchFrame f).1 = f.events := by
  unfold dispatchFrame Frame.events
  split
  · next m hm =>
    rw [hm]
    cases m <;> rfl
  · next e he =>
    rw [he]
    split <;> rfl

end Dispatcher

def Event.Terminal : Event → Prop
  | closed | transportError _ | protocolViolation _ => True
  | _ => False

theorem PointerMotion.not_terminal {m : PointerMotion} {e : Event} (h : e ∈ m.events) :
    ¬ e.Terminal := by
  have hbutton : ∀ e ∈ m.buttonEvents, ¬ e.Terminal := by
    unfold buttonEvents
    split
    · simp
    · dsimp only
      split
      · simp [Event.Terminal]
      · split <;> simp [Event.Terminal]
  unfold events at h
  split at h
  · simp_all [Event.Terminal]
  · rcases List.mem_cons.mp h with rfl | h
    · simp [Event.Terminal]
    · exact hbutton e h

theorem Frame.not_terminal {f : Frame} {e : Event} (h : e ∈ f.events) : ¬ e.Terminal := by
  unfold Frame.events at h
  split at h
  · next n hn =>
    cases n with
    | pointer m => exact PointerMotion.not_terminal h
    | _ =>
      rw [List.mem_singleton.mp h]
      exact id
  · simp at h

end CompositorClient
