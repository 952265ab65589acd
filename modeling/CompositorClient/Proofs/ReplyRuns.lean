import CompositorClient.Proofs.ReplyTable
import Mathlib.Data.List.Induction

/-! Whole runs of the table of unanswered queries: whom every delivery answers, how each ticket
stands at every moment, and what is left after a close. -/

namespace CompositorClient
namespace ReplyTable

inductive Action
  | register (kind : ReplyKind) (sequence : UInt32)
  | abandon (ticket : Ticket)
  | resolve (reply : Reply) (sequence : UInt32)
  | fail (kind : ReplyKind) (sequence : UInt32) (error : ReplyError)
  | close

def act (t : ReplyTable) : Action → ReplyTable
  | .register kind sequence => (t.register kind sequence).2
  | .abandon ticket => t.abandon ticket
  | .resolve reply sequence => (t.resolve reply sequence).2
  | .fail kind sequence error => (t.fail kind sequence error).2
  | .close => t.close.2

def run (t : ReplyTable) (actions : List Action) : ReplyTable := actions.foldl act t

@[simp] theorem run_concat (t : ReplyTable) (actions : List Action) (a : Action) :
    t.run (actions ++ [a]) = (t.run actions).act a := List.foldl_concat _ _ _ _

def Action.registration : Action → Option (ReplyKind × UInt32)
  | .register kind sequence => some (kind, sequence)
  | _ => none

def registrations (actions : List Action) : List (ReplyKind × UInt32) :=
  actions.filterMap Action.registration

def Abandoned (actions : List Action) (i : Ticket) : Prop :=
  ∃ before after, actions = before ++ .abandon i :: after ∧ i < (registrations before).length

theorem abandoned_concat {actions : List Action} {a : Action} {i : Ticket} :
    Abandoned (actions ++ [a]) i ↔
      Abandoned actions i ∨ a = .abandon i ∧ i < (registrations actions).length := by
  constructor
  · rintro ⟨before, after, heq, hlt⟩
    rcases List.eq_nil_or_concat after with rfl | ⟨after, b, rfl⟩
    · obtain ⟨rfl, hab⟩ := List.append_inj' heq rfl
      exact .inr ⟨by simpa using hab, hlt⟩
    · rw [List.concat_eq_append, ← List.cons_append, ← List.append_assoc] at heq
      obtain ⟨rfl, -⟩ := List.append_inj' heq rfl
      exact .inl ⟨before, after, rfl, hlt⟩
  · rintro (⟨before, after, rfl, hlt⟩ | ⟨rfl, hlt⟩)
    · exact ⟨before, after ++ [a], by simp, hlt⟩
    · exact ⟨actions, [], rfl, hlt⟩

variable {t : ReplyTable} {log : List (ReplyKind × UInt32)} {kind : ReplyKind}
  {sequence : UInt32} {answer : Answer} {actions : List Action} {i : Ticket}

inductive Turns (a : Action) (i : Ticket) : Option Slot → Option Slot → Prop
  | same (s : Option Slot) (h : a = .abandon i → s = none) : Turns a i s s
  | abandoned (s : Slot) (h : a = .abandon i) : Turns a i (some s) (some .abandoned)
  | answered (answer : Answer) (h : a ≠ .abandon i) :
      Turns a i (some .waiting) (some (.answered answer))
  | opened (s : Slot) (h : a ≠ .abandon i) (fresh : s ≠ .abandoned ∧ s ≠ .collected) :
      Turns a i none (some s)

theorem turns_set {a : Action} {j : Ticket} (ha : ∀ i, a ≠ .abandon i)
    (hj : t.slots[j]? = some .waiting) :
    Turns a i t.slots[i]? (t.slots.set j (.answered answer))[i]? := by
  by_cases hij : j = i
  · subst hij
    rw [List.getElem?_set_self (List.getElem?_eq_some_iff.mp hj).1, hj]
    exact .answered answer (ha j)
  · rw [List.getElem?_set_ne hij]
    exact .same _ fun h => absurd h (ha i)

theorem turns_concat {a : Action} {s : Slot} (ha : ∀ i, a ≠ .abandon i)
    (hs : s ≠ .abandoned ∧ s ≠ .collected) :
    Turns a i t.slots[i]? (t.slots ++ [s])[i]? := by
  rcases Nat.lt_trichotomy i t.slots.length with hlt | rfl | hgt
  · rw [List.getElem?_append_left hlt]
    exact .same _ fun h => absurd h (ha i)
  · rw [List.getElem?_concat_length, List.getElem?_eq_none (Nat.le_refl _)]
    exact .opened s (ha _) hs
  · rw [List.getElem?_eq_none (Nat.le_of_lt hgt), List.getElem?_eq_none (by simp; omega)]
    exact .same _ fun h => absurd h (ha i)

namespace Consistent

theorem turns_deliver (h : Consistent log t) {a : Action} (ha : ∀ i, a ≠ .abandon i) :
    Turns a i t.slots[i]? (t.deliver kind sequence answer).2.slots[i]? := by
  rcases h.deliver_cases kind sequence answer with ⟨-, heq⟩ | ⟨w, hw, heq⟩
  · rw [heq]
    exact .same _ fun h => absurd h (ha i)
  · rw [heq]
    exact turns_set ha hw.mem.2

theorem turns (h : Consistent log t) (a : Action) (i : Ticket) :
    Turns a i t.slots[i]? (t.act a).slots[i]? := by
  cases a with
  | register kind sequence =>
    rw [act, ReplyTable.register]
    split
    · exact turns_concat (by simp) (by simp)
    · exact turns_concat (by simp) (by simp)
  | abandon j =>
    rw [act, ReplyTable.abandon, slots_setSlot]
    by_cases hji : j = i
    · subst hji
      rw [List.getElem?_set_self']
      cases t.slots[j]? with
      | none => exact .same _ fun _ => rfl
      | some s => exact .abandoned s rfl
    · rw [List.getElem?_set_ne hji]
      exact .same _ fun heq => absurd (Action.abandon.inj heq) hji
  | resolve reply sequence => exact h.turns_deliver (by simp)
  | fail kind sequence error => exact h.turns_deliver (by simp)
  | close =>
    rw [act, h.close_slots, List.getElem?_map]
    cases t.slots[i]? with
    | none => exact .same _ fun _ => rfl
    | some s =>
      cases s with
      | waiting => exact .answered _ (by simp)
      | answered | collected | abandoned => exact .same _ (by simp)

theorem slot_kept (h : Consistent log t) {a : Action} {s : Slot} (hs : t.slots[i]? = some s)
    (hw : s ≠ .waiting) (ha : a ≠ .abandon i) : (t.act a).slots[i]? = some s := by
  have hturns := h.turns a i
  generalize (t.act a).slots[i]? = new at hturns
  rw [hs] at hturns
  cases hturns with
  | same _ _ => rfl
  | abandoned _ heq => exact absurd heq ha
  | answered _ _ => exact absurd rfl hw

theorem slot_abandoned_iff (h : Consistent log t) (a : Action) :
    (t.act a).slots[i]? = some .abandoned ↔
      t.slots[i]? = some .abandoned ∨ a = .abandon i ∧ i < log.length := by
  have hturns := h.turns a i
  have hlt : t.slots[i]? = none ↔ ¬ i < log.length := by
    rw [List.getElem?_eq_none_iff, h.length_slots, Nat.not_lt]
  generalize (t.act a).slots[i]? = new at hturns ⊢
  generalize t.slots[i]? = old at hturns hlt ⊢
  cases hturns with
  | same _ hnone =>
    refine (or_iff_left ?_).symm
    rintro ⟨ha, hi⟩
    exact hlt.mp (hnone ha) hi
  | abandoned s ha =>
    have hi : i < log.length := by simpa using hlt
    simp [ha, hi]
  | answered answer ha => simp [ha]
  | opened s ha fresh => simp [ha, fresh.1]

theorem slot_ne_collected (h : Consistent log t) (a : Action)
    (hs : t.slots[i]? ≠ some .collected) : (t.act a).slots[i]? ≠ some .collected := by
  have hturns := h.turns a i
  generalize (t.act a).slots[i]? = new at hturns ⊢
  generalize t.slots[i]? = old at hturns hs
  cases hturns with
  | same _ _ => exact hs
  | abandoned _ _ => simp
  | answered _ _ => simp
  | opened s _ fresh => simpa using fresh.2

theorem act (h : Consistent (registrations actions) t) (a : Action) :
    Consistent (registrations (actions ++ [a])) (t.act a) := by
  have hsame : a.registration = none → registrations (actions ++ [a]) = registrations actions := by
    intro hnone
    simp [registrations, hnone]
  cases a with
  | register kind sequence =>
    have hnew : registrations (actions ++ [.register kind sequence]) =
        registrations actions ++ [(kind, sequence)] := by
      simp [registrations, Action.registration]
    rw [hnew]
    exact h.register kind sequence
  | abandon i =>
    rw [hsame rfl]
    exact h.abandon i
  | resolve reply sequence =>
    rw [hsame rfl]
    exact h.deliver _ _ _
  | fail kind sequence error =>
    rw [hsame rfl]
    exact h.deliver _ _ _
  | close =>
    rw [hsame rfl]
    exact h.close

end Consistent

theorem closed_act (t : ReplyTable) (a : Action) :
    (t.act a).closed = true ↔ t.closed = true ∨ a = .close := by
  cases a with
  | register kind sequence => simp [ReplyTable.act]
  | abandon i => simp [ReplyTable.act, ReplyTable.abandon]
  | resolve reply sequence => simp [ReplyTable.act, resolve]
  | fail kind sequence error => simp [ReplyTable.act, fail]
  | close => simp [ReplyTable.act, ReplyTable.close]

structure History (actions : List Action) (t : ReplyTable) : Prop where
  consistent : Consistent (registrations actions) t
  abandoned_iff : ∀ i : Ticket, t.slots[i]? = some .abandoned ↔ Abandoned actions i
  uncollected : ∀ i : Ticket, t.slots[i]? ≠ some .collected
  closed_iff : t.closed = true ↔ .close ∈ actions

namespace History

theorem empty : History [] ReplyTable.empty where
  consistent := .empty
  abandoned_iff i := by simp [ReplyTable.empty, Abandoned]
  uncollected i := by simp [ReplyTable.empty]
  closed_iff := by simp [ReplyTable.empty]

theorem act (h : History actions t) (a : Action) : History (actions ++ [a]) (t.act a) where
  consistent := h.consistent.act a
  abandoned_iff i := by
    rw [h.consistent.slot_abandoned_iff, h.abandoned_iff, abandoned_concat]
  uncollected i := h.consistent.slot_ne_collected a (h.uncollected i)
  closed_iff := by
    rw [closed_act, h.closed_iff, List.mem_append, List.mem_singleton, eq_comm]

theorem run (h : History actions t) (more : List Action) :
    History (actions ++ more) (t.run more) := by
  induction more using List.reverseRecOn with
  | nil =>
    rw [List.append_nil]
    exact h
  | append_singleton more a ih =>
    rw [run_concat, ← List.append_assoc]
    exact ih.act a

theorem slot_final (h : History actions t) {s : Slot} (hs : t.slots[i]? = some s)
    (hw : s ≠ .waiting) {more : List Action} (hkept : .abandon i ∉ more) :
    (t.run more).slots[i]? = some s := by
  induction more using List.reverseRecOn with
  | nil => exact hs
  | append_singleton more a ih =>
    rw [List.mem_append, List.mem_singleton, not_or] at hkept
    rw [run_concat]
    exact (h.run more).consistent.slot_kept (ih hkept.1) hw fun ha => hkept.2 ha.symm

end History

/-- The three ways in which a ticket can stand.  An answer lasts until the ticket is given up;
a ticket that waits is in its own queue, once, and in no other. -/
inductive Stands (actions : List Action) (t : ReplyTable) (i : Ticket) (kind : ReplyKind)
    (sequence : UInt32) : Prop
  | answered (answer : Answer) (slot : t.slots[i]? = some (.answered answer))
      (kept : ¬ Abandoned actions i) (unqueued : ∀ k, ∀ w ∈ t.queues k, w.ticket ≠ i)
      (final : ∀ more, .abandon i ∉ more → (t.run more).slots[i]? = some (.answered answer))
  | abandoned (slot : t.slots[i]? = some .abandoned) (given : Abandoned actions i)
  | waiting (slot : t.slots[i]? = some .waiting) (kept : ¬ Abandoned actions i)
      (once : ∀ k, (t.queues k).filter (·.ticket = i) =
        if k = kind then [⟨i, sequence⟩] else [])

theorem Consistent.filter_queues (h : Consistent log t)
    (hlog : log[i]? = some (kind, sequence)) (hslot : t.slots[i]? = some .waiting)
    (k : ReplyKind) :
    (t.queues k).filter (·.ticket = i) = if k = kind then [⟨i, sequence⟩] else [] := by
  have hqueued := h.queued hlog hslot
  split
  · next hk =>
    subst hk
    have hnodup := (h.nodup_queues k).filter (·.ticket = i)
    refine List.perm_singleton.mp ?_
    refine (List.perm_ext_iff_of_nodup hnodup (List.nodup_singleton _)).mpr ?_
    intro w
    rw [List.mem_filter, List.mem_singleton, decide_eq_true_iff]
    constructor
    · rintro ⟨hw, hticket⟩
      exact (h.eq_of_ticket_eq hw hqueued hticket).2
    · rintro rfl
      exact ⟨hqueued, rfl⟩
  · next hk =>
    rw [List.filter_eq_nil_iff]
    intro w hw hticket
    exact hk (h.eq_of_ticket_eq hw hqueued (by simpa using hticket)).1

theorem History.stands (h : History actions t)
    (hlog : (registrations actions)[i]? = some (kind, sequence)) :
    Stands actions t i kind sequence := by
  have hlt : i < t.slots.length := by
    rw [h.consistent.length_slots]
    exact (List.getElem?_eq_some_iff.mp hlog).1
  have hslot : t.slots[i]? = some t.slots[i] := List.getElem?_eq_getElem hlt
  have hkept : t.slots[i]? ≠ some .abandoned → ¬ Abandoned actions i := by
    intro hne hab
    exact hne ((h.abandoned_iff i).mpr hab)
  cases hs : t.slots[i] with
  | waiting =>
    rw [hs] at hslot
    exact .waiting hslot (hkept (by simp [hslot])) (h.consistent.filter_queues hlog hslot)
  | answered answer =>
    rw [hs] at hslot
    refine .answered answer hslot (hkept (by simp [hslot])) ?_ ?_
    · rintro k w hw rfl
      have hopen := h.consistent.unanswered hw
      simp [hslot] at hopen
    · intro more hmore
      exact h.slot_final hslot (by simp) hmore
  | collected =>
    rw [hs] at hslot
    exact absurd hslot (h.uncollected i)
  | abandoned =>
    rw [hs] at hslot
    exact .abandoned hslot ((h.abandoned_iff i).mp hslot)

/-- An answer of kind `kind` is taken if anyone waits for that kind, and then changes the slot
of its addressee and no other. -/
structure Delivers (log : List (ReplyKind × UInt32)) (t : ReplyTable) (kind : ReplyKind)
    (sequence : UInt32) (answer : Answer) (r : Bool × ReplyTable) : Prop where
  taken_iff : r.1 = true ↔ ∃ w, Live log t kind w
  taken : r.1 = true → ∃ w, Waiter.Addressee (Live log t kind) sequence w ∧
    r.2.slots = t.slots.set w.ticket (.answered answer)
  refused : r.1 = false → r.2.slots = t.slots

theorem Consistent.delivers (h : Consistent log t) (kind : ReplyKind) (sequence : UInt32)
    (answer : Answer) :
    Delivers log t kind sequence answer (t.deliver kind sequence answer) := by
  rcases h.deliver_cases kind sequence answer with ⟨hnone, heq⟩ | ⟨w, hw, heq⟩
  · rw [heq]
    refine ⟨⟨by simp, ?_⟩, by simp, fun _ => rfl⟩
    rintro ⟨w, hw⟩
    exact absurd hw (hnone w)
  · rw [heq]
    exact ⟨⟨fun _ => ⟨w, hw.mem⟩, fun _ => rfl⟩, fun _ => ⟨w, hw, rfl⟩, by simp⟩

/-- At every moment of every run: the next ticket, whom an answer or a failure reaches, how each
ticket stands, what a close does, and what a close that lies behind has left. -/
theorem run_matches_registrations (actions : List Action) :
    let log := registrations actions
    let t := empty.run actions
    (∀ kind sequence, (t.register kind sequence).1 = log.length) ∧
    (∀ reply sequence,
      Delivers log t reply.kind sequence (.ok reply) (t.resolve reply sequence)) ∧
    (∀ kind sequence error,
      Delivers log t kind sequence (.error error) (t.fail kind sequence error)) ∧
    (∀ i kind sequence, log[i]? = some (kind, sequence) → Stands actions t i kind sequence) ∧
    t.close.1 = t.unanswered.length ∧
    t.close.2.slots = t.slots.map afterClose ∧
    (.close ∈ actions → ∀ kind, t.pending kind = 0 ∧ ∀ sequence,
      (t.register kind sequence).2.slots[(t.register kind sequence).1]? =
        some (.answered (.error .connectionClosed))) := by
  intro log t
  have h : History actions t := History.empty.run actions
  refine ⟨?_, fun _ _ => h.consistent.delivers _ _ _, fun _ _ _ => h.consistent.delivers _ _ _,
    fun _ _ _ hlog => h.stands hlog, h.consistent.close_count, h.consistent.close_slots, ?_⟩
  · intro kind sequence
    rw [← h.consistent.length_slots, register]
    split <;> rfl
  · intro hclose kind
    have hclosed : t.closed = true := h.closed_iff.mpr hclose
    refine ⟨?_, fun sequence => ?_⟩
    · rw [pending, live, h.consistent.emptied hclosed kind]
      rfl
    · rw [register, if_pos hclosed]
      exact List.getElem?_concat_length

end ReplyTable
end CompositorClient
