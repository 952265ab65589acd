import CompositorClient.Proofs.ReplyTable
import CompositorClient.Proofs.Session
import Mathlib.Data.List.Induction

/-! What happens to the tickets of a session: each move keeps the table of unanswered queries
consistent, and changes what a ticket holds in one of a few ways. -/

namespace CompositorClient

open ReplyTable

namespace Session

def Sound (s : Session) : Prop := Consistent s.log s.dispatcher.table

theorem Concludes.sound {s s' : Session} {task : Task} {stage : Stage} {terminal : Option Event}
    (step : Concludes s task stage terminal s') (h : s.Sound) : s'.Sound := by
  cases step with
  | signal | refuse | late | claim => exact h
  | notify => exact Consistent.close h

theorem Sound.dispatchFrame {log : List (ReplyKind × UInt32)} {d : Dispatcher}
    (h : Consistent log d.table) (f : Frame) : Consistent log (d.dispatchFrame f).2.table := by
  rw [Dispatcher.dispatchFrame_eq]
  split
  · exact h
  · exact h.deliver _ _ _

theorem ReadStep.sound {s s' : Session} (step : ReadStep s s') (h : s.Sound) : s'.Sound := by
  cases step with
  | idle | bytes | again | finish | drained | malformed => exact h
  | frame => exact Sound.dispatchFrame h _
  | ending => exact (concludes ..).sound h

theorem WriteStep.sound {s s' : Session} (step : WriteStep s s') (h : s.Sound) : s'.Sound := by
  cases step with
  | idle | frame | failed | shutdown => exact h
  | ending => exact (concludes ..).sound h

theorem Sound.move {s : Session} (h : s.Sound) (m : Move) : (s.move m).Sound := by
  cases m with
  | step task =>
    cases task with
    | reader => exact s.readStep.sound h
    | writer => exact s.writeStep.sound h
  | register kind sequence =>
    rw [Session.move, Session.register]
    split
    · exact Consistent.register h kind sequence
    · exact h
  | abandon ticket => exact Consistent.abandon h ticket
  | collect ticket => exact Consistent.collect h ticket
  | arrive | fault | refuse | push | draw | subscribe | unsubscribe => exact h

theorem Sound.run {s : Session} (h : s.Sound) (moves : List Move) : (s.run moves).Sound := by
  induction moves using List.reverseRecOn with
  | nil => exact h
  | append_singleton moves m ih =>
    rw [run_concat]
    exact ih.move m

theorem sound_start (transport : Transport) (subscribers : List Subscriber)
    (lastId : SubscriptionId) : (start transport subscribers lastId).Sound :=
  Consistent.empty

/-- How a move changes what a ticket holds. -/
inductive Turn (s : Session) (m : Move) (i : Ticket) : Option Slot → Option Slot → Prop
  | same (slot : Option Slot) : Turn s m i slot slot
  | opened : Turn s m i none (some .waiting)
  | refused (closed : s.dispatcher.table.closed = true) :
      Turn s m i none (some (.answered (.error .connectionClosed)))
  | answered {f kind a w} (step : m = .step .reader) (incoming : s.incoming = some f)
      (answer : f.answer? = some (kind, a)) (ticket : w.ticket = i)
      (addressee : Waiter.Addressee (Live s.log s.dispatcher.table kind) f.header.sequence w) :
      Turn s m i (some .waiting) (some (.answered a))
  | ended {task terminal} (step : m = .step task)
      (stands : s.connection.ending? task = some (.notify, terminal)) :
      Turn s m i (some .waiting) (some (.answered (.error .connectionClosed)))
  | abandoned {slot : Slot} (held : m = .abandon i) : Turn s m i (some slot) (some .abandoned)
  | collected {a} (held : m = .collect i) : Turn s m i (some (.answered a)) (some .collected)

variable {s s' : Session} {i : Ticket}

theorem Turn.concat {slots : List Slot} {slot : Slot} {m : Move}
    (h : Turn s m i none (some slot)) : Turn s m i slots[i]? (slots ++ [slot])[i]? := by
  rcases Nat.lt_trichotomy i slots.length with hlt | rfl | hgt
  · rw [List.getElem?_append_left hlt]
    exact .same _
  · rw [List.getElem?_concat_length, List.getElem?_eq_none (Nat.le_refl _)]
    exact h
  · rw [List.getElem?_eq_none (Nat.le_of_lt hgt), List.getElem?_eq_none (by simp; omega)]
    exact .same _

theorem Turn.set {slots : List Slot} {old new : Slot} {m : Move} {j : Ticket}
    (hold : slots[j]? = some old) (h : j = i → Turn s m i (some old) (some new)) :
    Turn s m i slots[i]? (slots.set j new)[i]? := by
  by_cases hji : j = i
  · subst hji
    rw [List.getElem?_set_self (List.getElem?_eq_some_iff.mp hold).1, hold]
    exact h rfl
  · rw [List.getElem?_set_ne hji]
    exact .same _

theorem Concludes.turn {task : Task} {stage : Stage} {terminal : Option Event}
    (step : Concludes s task stage terminal s') (h : s.Sound)
    (stands : s.connection.ending? task = some (stage, terminal)) (i : Ticket) :
    Turn s (.step task) i s.dispatcher.table.slots[i]? s'.dispatcher.table.slots[i]? := by
  cases step with
  | signal | refuse | late | claim => exact .same _
  | notify =>
    show Turn s _ i _ s.dispatcher.table.close.2.slots[i]?
    rcases Consistent.close_slot h i with hsame | ⟨hwaiting, hended⟩
    · rw [hsame]
      exact .same _
    · rw [hwaiting, hended]
      exact .ended rfl stands

theorem ReadStep.turn (step : ReadStep s s') (h : s.Sound) (i : Ticket) :
    Turn s (.step .reader) i s.dispatcher.table.slots[i]? s'.dispatcher.table.slots[i]? := by
  cases step with
  | idle | bytes | again | finish | drained | malformed => exact .same _
  | @frame f cutting next =>
    simp only [absorb, Dispatcher.dispatchFrame_eq]
    split
    · exact .same _
    · next kind a hanswer =>
      rcases Consistent.deliver_cases h kind f.header.sequence a with ⟨-, heq⟩ | ⟨w, hw, heq⟩
      · rw [heq]
        exact .same _
      · rw [heq]
        exact .set hw.mem.2 fun hi => .answered rfl (incoming_eq cutting next) hanswer hi hw
  | ending stands => exact (concludes ..).turn h (by rw [Connection.ending?, stands]) i

theorem WriteStep.turn (step : WriteStep s s') (h : s.Sound) (i : Ticket) :
    Turn s (.step .writer) i s.dispatcher.table.slots[i]? s'.dispatcher.table.slots[i]? := by
  cases step with
  | idle | frame | failed | shutdown => exact .same _
  | ending stands => exact (concludes ..).turn h (by rw [Connection.ending?, stands]) i

theorem Sound.turn (h : s.Sound) (m : Move) (i : Ticket) :
    Turn s m i s.dispatcher.table.slots[i]? (s.move m).dispatcher.table.slots[i]? := by
  cases m with
  | step task =>
    cases task with
    | reader => exact s.readStep.turn h i
    | writer => exact s.writeStep.turn h i
  | register kind sequence =>
    rw [Session.move, Session.register]
    split
    · rw [Dispatcher.register, ReplyTable.register]
      split
      · next hclosed => exact .concat (.refused hclosed)
      · exact .concat .opened
    · exact .same _
  | abandon j =>
    rw [Session.move, Dispatcher.abandon, ReplyTable.abandon, slots_setSlot]
    cases hold : s.dispatcher.table.slots[j]? with
    | none =>
      rw [List.set_eq_of_length_le (List.getElem?_eq_none_iff.mp hold)]
      exact .same _
    | some slot => exact .set hold fun hji => .abandoned (hji ▸ rfl)
  | collect j =>
    rw [Session.move, Session.collect, ReplyTable.collect]
    dsimp only
    split
    · next a hold => exact .set hold fun hji => .collected (hji ▸ rfl)
    · exact .same _
  | arrive | fault | refuse | push | draw | subscribe | unsubscribe => exact .same _

theorem closed_dispatchFrame (s : Session) (f : Frame) :
    (s.dispatcher.dispatchFrame f).2.table.closed = s.dispatcher.table.closed := by
  rw [Dispatcher.dispatchFrame_eq]
  split
  · rfl
  · exact ReplyTable.closed_deliver ..

theorem Concludes.closed {task : Task} {stage : Stage} {terminal : Option Event}
    (step : Concludes s task stage terminal s') (h : s.dispatcher.table.closed = true) :
    s'.dispatcher.table.closed = true := by
  cases step with
  | signal | refuse | late | claim => exact h
  | notify => rfl

theorem ReadStep.closed (step : ReadStep s s') (h : s.dispatcher.table.closed = true) :
    s'.dispatcher.table.closed = true := by
  cases step with
  | idle | bytes | again | finish | drained | malformed => exact h
  | frame => exact (closed_dispatchFrame ..).trans h
  | ending => exact (concludes ..).closed h

theorem WriteStep.closed (step : WriteStep s s') (h : s.dispatcher.table.closed = true) :
    s'.dispatcher.table.closed = true := by
  cases step with
  | idle | frame | failed | shutdown => exact h
  | ending => exact (concludes ..).closed h

theorem closed_move (h : s.dispatcher.table.closed = true) (m : Move) :
    (s.move m).dispatcher.table.closed = true := by
  cases m with
  | step task =>
    cases task with
    | reader => exact s.readStep.closed h
    | writer => exact s.writeStep.closed h
  | register kind sequence =>
    rw [move, register]
    split
    · exact (ReplyTable.closed_register ..).trans h
    · exact h
  | collect ticket =>
    rw [move, collect, ReplyTable.collect]
    dsimp only
    split <;> exact h
  | arrive | fault | refuse | push | draw | abandon | subscribe | unsubscribe => exact h

theorem closed_of_notify {task : Task} {terminal : Option Event}
    (stands : s.connection.ending? task = some (.notify, terminal)) :
    (s.move (.step task)).dispatcher.table.closed = true := by
  rw [move_of_ending stands]
  rfl

/-- What a slot holds lasts until the ticket's holder takes it or gives it up. -/
theorem Sound.kept_run {slot : Slot} (h : s.Sound)
    (hslot : s.dispatcher.table.slots[i]? = some slot) (hw : slot ≠ .waiting)
    {moves : List Move} (habandon : .abandon i ∉ moves) (hcollect : .collect i ∉ moves) :
    (s.run moves).dispatcher.table.slots[i]? = some slot := by
  induction moves using List.reverseRecOn with
  | nil => exact hslot
  | append_singleton moves m ih =>
    simp only [List.mem_append, List.mem_singleton, not_or] at habandon hcollect
    have hturn := (h.run moves).turn m i
    rw [ih habandon.1 hcollect.1] at hturn
    rw [run_concat]
    generalize ((s.run moves).move m).dispatcher.table.slots[i]? = new at hturn ⊢
    cases hturn with
    | same => rfl
    | answered | ended => exact absurd rfl hw
    | abandoned held => exact absurd held.symm habandon.2
    | collected held => exact absurd held.symm hcollect.2

end Session
end CompositorClient
