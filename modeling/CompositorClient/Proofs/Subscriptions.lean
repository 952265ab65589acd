import CompositorClient.Proofs.Dispatching
import CompositorClient.Proofs.ReplyTable

/-! Whole runs of the dispatcher: its table is consistent at every moment, and its subscribers
are those that the history of subscriptions leaves standing, in the order they came. -/

namespace CompositorClient
namespace Dispatcher

inductive Action
  | subscribe (kind : EventKind)
  | unsubscribe (id : SubscriptionId)
  | register (kind : ReplyKind) (sequence : UInt32)
  | abandon (ticket : Ticket)
  | collect (ticket : Ticket)
  | message (message : Message) (sequence : UInt32)
  | frame (frame : Frame)
  | close
  deriving DecidableEq

def act (d : Dispatcher) : Action → Dispatcher
  | .subscribe kind => (d.subscribe kind).2
  | .unsubscribe id => (d.unsubscribe id).2
  | .register kind sequence => (d.register kind sequence).2
  | .abandon ticket => d.abandon ticket
  | .collect ticket => { d with table := (d.table.collect ticket).2 }
  | .message m sequence => (d.dispatch m sequence).2
  | .frame f => (d.dispatchFrame f).2
  | .close => d.close

def run (d : Dispatcher) (actions : List Action) : Dispatcher := actions.foldl act d

@[simp] theorem run_nil (d : Dispatcher) : d.run [] = d := rfl
@[simp] theorem run_cons (d : Dispatcher) (a : Action) (actions : List Action) :
    d.run (a :: actions) = (d.act a).run actions := rfl

/-- Of the subscriptions that a history makes, those that nothing after them undoes.  Each has
the id that follows the one before, the last before the history being `lastId`. -/
def standing (lastId : SubscriptionId) : List Action → List Subscriber
  | [] => []
  | .subscribe kind :: later =>
    if .unsubscribe (lastId + 1) ∈ later then standing (lastId + 1) later
    else ⟨lastId + 1, kind⟩ :: standing (lastId + 1) later
  | _ :: later => standing lastId later

theorem act_cases (d : Dispatcher) (a : Action) :
    (∃ kind, a = .subscribe kind ∧ d.act a = (d.subscribe kind).2) ∨
    (∃ id, a = .unsubscribe id ∧ d.act a = (d.unsubscribe id).2) ∨
    ((∀ kind, a ≠ .subscribe kind) ∧ (∀ id, a ≠ .unsubscribe id) ∧
      ∃ table, d.act a = { d with table }) := by
  cases a with
  | subscribe kind => exact .inl ⟨kind, rfl, rfl⟩
  | unsubscribe id => exact .inr (.inl ⟨id, rfl, rfl⟩)
  | message m sequence =>
    refine .inr (.inr ⟨by simp, by simp, ?_⟩)
    cases m with
    | reply r => exact ⟨_, rfl⟩
    | command | query | notice => exact ⟨d.table, rfl⟩
  | frame f =>
    refine .inr (.inr ⟨by simp, by simp, ?_⟩)
    rw [act, dispatchFrame_eq]
    split
    · exact ⟨d.table, rfl⟩
    · exact ⟨_, rfl⟩
  | register | abandon | collect | close => exact .inr (.inr ⟨by simp, by simp, _, rfl⟩)

theorem standing_of_other {a : Action} (h : ∀ kind, a ≠ .subscribe kind) (lastId : SubscriptionId)
    (later : List Action) : standing lastId (a :: later) = standing lastId later := by
  cases a with
  | subscribe kind => exact absurd rfl (h kind)
  | _ => rfl

/-- The subscribers are the earlier ones that the run leaves alone, then its own. -/
theorem subscribers_run (d : Dispatcher) (actions : List Action) :
    (d.run actions).subscribers =
      d.subscribers.filter (fun s => .unsubscribe s.id ∉ actions) ++
        standing d.lastId actions := by
  induction actions generalizing d with
  | nil => simp [standing]
  | cons a later ih =>
    rw [run_cons, ih]
    obtain ⟨kind, rfl, heq⟩ | ⟨id, rfl, heq⟩ | ⟨hsub, hunsub, table, heq⟩ := act_cases d a
    · -- the new subscription stands behind the earlier ones, unless it is undone later
      by_cases hlater : .unsubscribe (d.lastId + 1) ∈ later
      · simp [heq, subscribe, standing, hlater]
      · simp [heq, subscribe, standing, hlater]
    · have hboth : ∀ s : Subscriber,
          (decide (.unsubscribe s.id ∉ later) && s.id != id) =
            decide (.unsubscribe s.id ∉ .unsubscribe id :: later) := by
        intro s
        by_cases hid : s.id = id <;> simp [hid]
      rw [standing_of_other (by simp), heq, unsubscribe, List.filter_filter]
      simp only [hboth]
    · have hne : ∀ s : Subscriber, .unsubscribe s.id ≠ a := fun s hs => hunsub s.id hs.symm
      simp [heq, standing_of_other hsub, hne]

theorem consistent_act {d : Dispatcher} (h : ∃ log, ReplyTable.Consistent log d.table)
    (a : Action) : ∃ log, ReplyTable.Consistent log (d.act a).table := by
  obtain ⟨log, h⟩ := h
  cases a with
  | subscribe | unsubscribe => exact ⟨log, h⟩
  | register kind sequence => exact ⟨_, h.register kind sequence⟩
  | abandon ticket => exact ⟨log, h.abandon ticket⟩
  | collect ticket => exact ⟨log, h.collect ticket⟩
  | message m sequence =>
    cases m with
    | reply r => exact ⟨log, h.deliver r.kind sequence (.ok r)⟩
    | command | query | notice => exact ⟨log, h⟩
  | frame f =>
    rw [act, dispatchFrame_eq]
    split
    · exact ⟨log, h⟩
    · exact ⟨log, h.deliver _ _ _⟩
  | close => exact ⟨log, h.close⟩

theorem consistent_run {d : Dispatcher} (h : ∃ log, ReplyTable.Consistent log d.table)
    (actions : List Action) : ∃ log, ReplyTable.Consistent log (d.run actions).table := by
  induction actions generalizing d with
  | nil => exact h
  | cons a later ih => exact ih (consistent_act h a)

end Dispatcher
end CompositorClient
