import CompositorClient.Dispatch.ReplyTable
import Mathlib.Data.List.Nodup
import Mathlib.Tactic.Common

/-! The table of unanswered queries against the list of what was registered in it.  Consistency
is kept by every operation, and says what a delivery and a close do to the tickets. -/

namespace CompositorClient

theorem of_getElem?_concat {α : Type} {l : List α} {a x : α} {i : Nat}
    (h : (l ++ [a])[i]? = some x) : l[i]? = some x ∨ i = l.length ∧ a = x := by
  by_cases hi : i < l.length
  · rw [List.getElem?_append_left hi] at h
    exact .inl h
  · rw [List.getElem?_append_right (by omega)] at h
    obtain ⟨hlt, hx⟩ := List.getElem?_eq_some_iff.mp h
    rw [List.length_singleton] at hlt
    exact .inr ⟨by omega, by simpa using hx⟩

theorem of_getElem?_set {α : Type} {l : List α} {i j : Nat} {y z : α}
    (h : (l.set i y)[j]? = some z) : y = z ∧ i = j ∨ l[j]? = some z ∧ i ≠ j := by
  rw [List.getElem?_set] at h
  split at h
  · next hij =>
    split at h
    · exact .inl ⟨Option.some.inj h, hij⟩
    · cases h
  · next hij => exact .inr ⟨h, hij⟩

namespace Waiter

/-- The one that has waited longest among those that satisfy `p`. -/
def Earliest (p : Waiter → Prop) (w : Waiter) : Prop := p w ∧ ∀ v, p v → w.ticket ≤ v.ticket

/-- Whom an answer marked `sequence` is for. -/
structure Addressee (p : Waiter → Prop) (sequence : UInt32) (w : Waiter) : Prop where
  echoed : sequence ≠ 0 → (∃ v, p v ∧ v.sequence = sequence) →
    Earliest (fun v => p v ∧ v.sequence = sequence) w
  oldest : (sequence = 0 ∨ ∀ v, p v → v.sequence ≠ sequence) → Earliest p w

theorem Addressee.mem {p : Waiter → Prop} {sequence : UInt32} {w : Waiter}
    (h : Addressee p sequence w) : p w := by
  by_cases hs : sequence ≠ 0 ∧ ∃ v, p v ∧ v.sequence = sequence
  · exact (h.echoed hs.1 hs.2).1.1
  · refine (h.oldest ?_).1
    by_cases h0 : sequence = 0
    · exact .inl h0
    · exact .inr fun v hv heq => hs ⟨h0, v, hv, heq⟩

theorem earliest_getElem {queue : List Waiter} (sorted : queue.Pairwise (·.ticket < ·.ticket))
    {p : Waiter → Prop} {i : Nat} (hi : i < queue.length) (hp : p queue[i])
    (hbefore : ∀ j (hj : j < queue.length), j < i → ¬ p queue[j]) :
    Earliest (fun v => v ∈ queue ∧ p v) queue[i] := by
  refine ⟨⟨List.getElem_mem hi, hp⟩, ?_⟩
  rintro v ⟨hv, hpv⟩
  obtain ⟨j, hj, rfl⟩ := List.getElem_of_mem hv
  rcases Nat.lt_trichotomy i j with hij | rfl | hji
  · exact Nat.le_of_lt (List.pairwise_iff_getElem.mp sorted i j hi hj hij)
  · exact Nat.le_refl _
  · exact absurd hpv (hbefore j hj hji)

theorem choose_lt {sequence : UInt32} {queue : List Waiter} (h : queue ≠ []) :
    choose sequence queue < queue.length := by
  have hpos := List.length_pos_of_ne_nil h
  unfold choose
  split
  · exact hpos
  · cases hfind : queue.findIdx? (·.sequence == sequence) with
    | none => exact hpos
    | some i => exact (List.findIdx?_eq_some_iff_getElem.mp hfind).1

theorem addressee_choose {sequence : UInt32} {queue : List Waiter}
    (sorted : queue.Pairwise (·.ticket < ·.ticket)) (h : choose sequence queue < queue.length) :
    Addressee (· ∈ queue) sequence queue[choose sequence queue] := by
  have hfirst : (hpos : 0 < queue.length) → Earliest (· ∈ queue) queue[0] := by
    intro hpos
    have he := earliest_getElem sorted (p := fun _ => True) hpos trivial (by simp)
    simpa [Earliest] using he
  by_cases h0 : sequence = 0
  · have hc : choose sequence queue = 0 := if_pos h0
    simp only [hc] at h ⊢
    exact ⟨fun hne => absurd h0 hne, fun _ => hfirst h⟩
  · cases hfind : queue.findIdx? (·.sequence == sequence) with
    | none =>
      have hc : choose sequence queue = 0 := by
        rw [choose, if_neg h0, hfind, Option.getD_none]
      have hnone := List.findIdx?_eq_none_iff.mp hfind
      simp only [hc] at h ⊢
      refine ⟨?_, fun _ => hfirst h⟩
      rintro - ⟨v, hv, heq⟩
      have hv' := hnone v hv
      simp [heq] at hv'
    | some i =>
      have hc : choose sequence queue = i := by
        rw [choose, if_neg h0, hfind, Option.getD_some]
      obtain ⟨hi, hmark, hbefore⟩ := List.findIdx?_eq_some_iff_getElem.mp hfind
      simp only [hc]
      refine ⟨fun _ _ => ?_, ?_⟩
      · exact earliest_getElem sorted (p := fun v => v.sequence = sequence) hi
          (by simpa using hmark) fun j _ hj => by simpa using hbefore j hj
      · rintro (hz | hother)
        · exact absurd hz h0
        · exact absurd (by simpa using hmark) (hother _ (List.getElem_mem hi))

theorem offer_nil (present : Nat → Waiter → Bool) (sequence : UInt32) (round : Nat) :
    offer present sequence round [] = (none, []) := by
  rw [offer]
  split
  · rfl
  · next h => simp at h

theorem offer_of_present {present : Nat → Waiter → Bool} {sequence : UInt32} {round : Nat}
    {queue : List Waiter} (hall : ∀ w ∈ queue, present round w = true)
    (h : choose sequence queue < queue.length) :
    offer present sequence round queue =
      (some queue[choose sequence queue], queue.eraseIdx (choose sequence queue)) := by
  rw [offer]
  split
  · next hnone =>
    rw [List.getElem?_eq_none_iff] at hnone
    omega
  · next w hsome =>
    obtain ⟨-, rfl⟩ := List.getElem?_eq_some_iff.mp hsome
    exact if_pos (hall _ (List.getElem_mem h))

end Waiter

namespace ReplyTable

variable {t : ReplyTable} {log : List (ReplyKind × UInt32)} {kind : ReplyKind}
  {sequence : UInt32} {answer : Answer}

@[simp] theorem slots_setQueue (t : ReplyTable) (k : ReplyKind) (q : List Waiter) :
    (t.setQueue k q).slots = t.slots := rfl
@[simp] theorem closed_setQueue (t : ReplyTable) (k : ReplyKind) (q : List Waiter) :
    (t.setQueue k q).closed = t.closed := rfl
@[simp] theorem queues_setQueue (t : ReplyTable) (k : ReplyKind) (q : List Waiter) :
    (t.setQueue k q).queues k = q := if_pos rfl
theorem queues_setQueue_of_ne (t : ReplyTable) {k k' : ReplyKind} (h : k' ≠ k)
    (q : List Waiter) : (t.setQueue k q).queues k' = t.queues k' := if_neg h

@[simp] theorem slots_setSlot (t : ReplyTable) (i : Ticket) (s : Slot) :
    (t.setSlot i s).slots = t.slots.set i s := rfl
@[simp] theorem closed_setSlot (t : ReplyTable) (i : Ticket) (s : Slot) :
    (t.setSlot i s).closed = t.closed := rfl

@[simp] theorem closed_register (t : ReplyTable) (kind : ReplyKind) (sequence : UInt32) :
    (t.register kind sequence).2.closed = t.closed := by
  unfold register
  split <;> rfl

@[simp] theorem closed_deliver (t : ReplyTable) (kind : ReplyKind) (sequence : UInt32)
    (answer : Answer) : (t.deliver kind sequence answer).2.closed = t.closed := by
  unfold deliver
  split <;> rfl

theorem register_ticket (t : ReplyTable) (kind : ReplyKind) (sequence : UInt32) :
    (t.register kind sequence).1 = t.slots.length := by
  unfold register
  split <;> rfl

theorem register_slots (t : ReplyTable) (kind : ReplyKind) (sequence : UInt32) :
    (t.register kind sequence).2.slots = t.slots ++
      [if t.closed then .answered (.error .connectionClosed) else .waiting] := by
  unfold register
  split <;> simp [*]

theorem isWaiting_iff (t : ReplyTable) (i : Ticket) :
    t.isWaiting i = true ↔ t.slots[i]? = some .waiting := by
  unfold isWaiting
  split
  · next h => simp [h]
  · next h => simpa using h

theorem mem_live_iff {w : Waiter} :
    w ∈ t.live kind ↔ w ∈ t.queues kind ∧ t.slots[w.ticket]? = some .waiting := by
  rw [live, List.mem_filter, isWaiting_iff]

/-- Whom a delivery answers does not depend on the answer. -/
theorem deliver_eq (t : ReplyTable) (kind : ReplyKind) (sequence : UInt32) (answer : Answer) :
    t.deliver kind sequence answer =
      match (t.live kind)[Waiter.choose sequence (t.live kind)]? with
      | none => (false, t.setQueue kind [])
      | some w => (true, (t.setSlot w.ticket (.answered answer)).setQueue kind
          ((t.live kind).eraseIdx (Waiter.choose sequence (t.live kind)))) := by
  by_cases hnil : t.live kind = []
  · rw [deliver, hnil, Waiter.offer_nil]
    rfl
  · have hlt : Waiter.choose sequence (t.live kind) < (t.live kind).length :=
      Waiter.choose_lt hnil
    have hpresent : ∀ w ∈ t.live kind, t.isWaiting w.ticket = true := fun w hw =>
      (isWaiting_iff _ _).mpr (mem_live_iff.mp hw).2
    rw [deliver, Waiter.offer_of_present hpresent hlt, List.getElem?_eq_getElem hlt]

/-- The only one that waits for an answer of the kind takes it. -/
theorem deliver_of_live {w : Waiter} (h : t.live kind = [w]) (sequence : UInt32)
    (answer : Answer) : t.deliver kind sequence answer =
      (true, (t.setSlot w.ticket (.answered answer)).setQueue kind []) := by
  have hchoose : Waiter.choose sequence [w] = 0 := by
    have hlt : Waiter.choose sequence [w] < 1 := Waiter.choose_lt (List.cons_ne_nil w [])
    omega
  rw [deliver_eq, h, hchoose]
  rfl

/-- An answer that is handed out leaves its slot. -/
theorem collect_eq_some {i : Ticket} (h : (t.collect i).1 = some answer) :
    t.slots[i]? = some (.answered answer) ∧ (t.collect i).2 = t.setSlot i .collected := by
  unfold collect at h ⊢
  split at h
  · next a ha =>
    cases h
    exact ⟨ha, rfl⟩
  · cases h

theorem collect_of_answered {i : Ticket} (h : t.slots[i]? = some (.answered answer)) :
    t.collect i = (some answer, t.setSlot i .collected) := by
  rw [collect, h]

theorem mem_queues_concat {k : ReplyKind} {v w : Waiter}
    (hw : w ∈ (t.setQueue kind (t.queues kind ++ [v])).queues k) :
    w ∈ t.queues k ∨ k = kind ∧ w = v := by
  by_cases hk : k = kind
  · subst hk
    rw [queues_setQueue, List.mem_append, List.mem_singleton] at hw
    exact hw.imp id fun heq => ⟨rfl, heq⟩
  · rw [queues_setQueue_of_ne _ hk] at hw
    exact .inl hw

def Live (log : List (ReplyKind × UInt32)) (t : ReplyTable) (kind : ReplyKind) (w : Waiter) :
    Prop :=
  log[w.ticket]? = some (kind, w.sequence) ∧ t.slots[w.ticket]? = some .waiting

/-- The table stands in the way that `log`, with the registrations in order, tells: a ticket is
a place in `log`, and the queues hold the tickets that wait, among some that were given up. -/
structure Consistent (log : List (ReplyKind × UInt32)) (t : ReplyTable) : Prop where
  length_slots : t.slots.length = log.length
  registered : ∀ {k w}, w ∈ t.queues k → log[w.ticket]? = some (k, w.sequence)
  unanswered : ∀ {k w}, w ∈ t.queues k →
    t.slots[w.ticket]? = some .waiting ∨ t.slots[w.ticket]? = some .abandoned
  sorted : ∀ k, (t.queues k).Pairwise (·.ticket < ·.ticket)
  queued : ∀ {i k s}, log[i]? = some (k, s) → t.slots[i]? = some .waiting →
    (⟨i, s⟩ : Waiter) ∈ t.queues k
  emptied : t.closed = true → ∀ k, t.queues k = []

namespace Consistent

theorem empty : Consistent [] ReplyTable.empty where
  length_slots := rfl
  registered h := by cases h
  unanswered h := by cases h
  sorted _ := .nil
  queued h := by simp at h
  emptied _ _ := rfl

theorem ticket_lt (h : Consistent log t) {k : ReplyKind} {w : Waiter} (hw : w ∈ t.queues k) :
    w.ticket < log.length :=
  (List.getElem?_eq_some_iff.mp (h.registered hw)).1

/-- No ticket stands in two queues, or under two numbers in one. -/
theorem eq_of_ticket_eq (h : Consistent log t) {k l : ReplyKind} {v w : Waiter}
    (hv : v ∈ t.queues k) (hw : w ∈ t.queues l) (heq : v.ticket = w.ticket) : k = l ∧ v = w := by
  have hv' := h.registered hv
  rw [heq, h.registered hw] at hv'
  simp only [Option.some.injEq, Prod.mk.injEq] at hv'
  obtain ⟨v₁, v₂⟩ := v
  obtain ⟨w₁, w₂⟩ := w
  simp_all

theorem mem_live (h : Consistent log t) {w : Waiter} : w ∈ t.live kind ↔ Live log t kind w := by
  rw [mem_live_iff]
  constructor
  · rintro ⟨hw, hwaiting⟩
    exact ⟨h.registered hw, hwaiting⟩
  · rintro ⟨hlog, hwaiting⟩
    exact ⟨h.queued hlog hwaiting, hwaiting⟩

theorem nodup_queues (h : Consistent log t) (k : ReplyKind) : (t.queues k).Nodup :=
  (h.sorted k).imp fun hlt heq => by simp [heq] at hlt

theorem sorted_live (h : Consistent log t) (k : ReplyKind) :
    (t.live k).Pairwise (·.ticket < ·.ticket) :=
  (h.sorted k).filter _

theorem nodup_live (h : Consistent log t) (k : ReplyKind) : (t.live k).Nodup :=
  (h.nodup_queues k).filter _

theorem register_closed (h : Consistent log t) (hclosed : t.closed = true) (kind : ReplyKind)
    (sequence : UInt32) : Consistent (log ++ [(kind, sequence)])
      { t with slots := t.slots ++ [.answered (.error .connectionClosed)] } := by
  have hempty := h.emptied hclosed
  refine ⟨by simp [h.length_slots], ?_, ?_, h.sorted, ?_, h.emptied⟩
  · intro k w hw
    simp [hempty] at hw
  · intro k w hw
    simp [hempty] at hw
  · intro i k s hlog hslot
    rcases of_getElem?_concat hslot with hslot | ⟨-, hslot⟩
    · rcases of_getElem?_concat hlog with hlog | ⟨hi, -⟩
      · exact h.queued hlog hslot
      · have hlt := (List.getElem?_eq_some_iff.mp hslot).1
        have hlen := h.length_slots
        omega
    · cases hslot

theorem register_open (h : Consistent log t) (hopen : ¬ t.closed = true) (kind : ReplyKind)
    (sequence : UInt32) : Consistent (log ++ [(kind, sequence)])
      { t.setQueue kind (t.queues kind ++ [⟨t.slots.length, sequence⟩]) with
        slots := t.slots ++ [.waiting] } := by
  refine ⟨by simp [h.length_slots], ?_, ?_, ?_, ?_, fun hclosed => absurd hclosed hopen⟩
  · intro k w hw
    rcases mem_queues_concat hw with hold | ⟨rfl, rfl⟩
    · rw [List.getElem?_append_left (h.ticket_lt hold)]
      exact h.registered hold
    · simp [h.length_slots]
  · intro k w hw
    dsimp only
    rcases mem_queues_concat hw with hold | ⟨rfl, rfl⟩
    · rw [List.getElem?_append_left (h.length_slots ▸ h.ticket_lt hold)]
      exact h.unanswered hold
    · simp
  · intro k
    dsimp only
    by_cases hk : k = kind
    · subst hk
      rw [queues_setQueue, List.pairwise_append]
      refine ⟨h.sorted k, List.pairwise_singleton _ _, ?_⟩
      intro v hv w hw
      rw [List.mem_singleton.mp hw]
      exact h.length_slots ▸ h.ticket_lt hv
    · rw [queues_setQueue_of_ne _ hk]
      exact h.sorted k
  · intro i k s hlog hslot
    have hlen := h.length_slots
    dsimp only at hslot ⊢
    rcases of_getElem?_concat hlog with hlog | ⟨hi, heq⟩
    · have hlt := (List.getElem?_eq_some_iff.mp hlog).1
      rw [List.getElem?_append_left (by omega)] at hslot
      have hold := h.queued hlog hslot
      by_cases hk : k = kind
      · subst hk
        rw [queues_setQueue]
        exact List.mem_append_left _ hold
      · rw [queues_setQueue_of_ne _ hk]
        exact hold
    · cases heq
      rw [queues_setQueue, hi, hlen]
      exact List.mem_append_right _ (List.mem_singleton.mpr rfl)

/-- A new ticket comes last in its queue, or is answered at once. -/
theorem register (h : Consistent log t) (kind : ReplyKind) (sequence : UInt32) :
    Consistent (log ++ [(kind, sequence)]) (t.register kind sequence).2 := by
  unfold ReplyTable.register
  split
  · next hclosed => exact h.register_closed hclosed kind sequence
  · next hopen => exact h.register_open hopen kind sequence

/-- Filling a slot keeps the table consistent, as long as no ticket in a queue gets filled
otherwise than by being given up. -/
theorem setSlot (h : Consistent log t) {i : Ticket} {s : Slot} (hs : s ≠ .waiting)
    (hi : s = .abandoned ∨ ∀ k, ∀ w ∈ t.queues k, w.ticket ≠ i) :
    Consistent log (t.setSlot i s) := by
  refine ⟨by simp [h.length_slots], h.registered, ?_, h.sorted, ?_, h.emptied⟩
  · intro k w hw
    have hlt : w.ticket < t.slots.length := h.length_slots ▸ h.ticket_lt hw
    rw [slots_setSlot, List.getElem?_set]
    split
    · next heq =>
      rcases hi with rfl | hi
      · rw [if_pos (heq ▸ hlt)]
        exact .inr rfl
      · exact absurd heq.symm (hi k w hw)
    · exact h.unanswered hw
  · intro j k s' hlog hslot
    rw [slots_setSlot, List.getElem?_set] at hslot
    split at hslot
    · split at hslot
      · exact absurd (Option.some.inj hslot) hs
      · cases hslot
    · exact h.queued hlog hslot

theorem abandon (h : Consistent log t) (i : Ticket) : Consistent log (t.abandon i) :=
  h.setSlot (by simp) (.inl rfl)

theorem collect (h : Consistent log t) (i : Ticket) : Consistent log (t.collect i).2 := by
  unfold ReplyTable.collect
  split
  · next a hslot =>
    refine h.setSlot (by simp) (.inr fun k w hw heq => ?_)
    have hopen := h.unanswered hw
    rw [heq, hslot] at hopen
    simp at hopen
  · exact h

theorem collected (h : Consistent log t) {i : Ticket}
    (slot : t.slots[i]? = some (.answered answer)) : Consistent log (t.setSlot i .collected) := by
  have hcollect := h.collect i
  rwa [collect_of_answered slot] at hcollect

/-- A queue may lose tickets that do not wait. -/
theorem setQueue (h : Consistent log t) {queue : List Waiter}
    (hsub : queue.Sublist (t.queues kind)) (hlive : ∀ w ∈ t.live kind, w ∈ queue) :
    Consistent log (t.setQueue kind queue) := by
  have hmem : ∀ {k w}, w ∈ (t.setQueue kind queue).queues k → w ∈ t.queues k := by
    intro k w hw
    by_cases hk : k = kind
    · subst hk
      rw [queues_setQueue] at hw
      exact hsub.mem hw
    · rwa [queues_setQueue_of_ne _ hk] at hw
  refine ⟨h.length_slots, fun hw => h.registered (hmem hw), fun hw => h.unanswered (hmem hw),
    ?_, ?_, ?_⟩
  · intro k
    by_cases hk : k = kind
    · subst hk
      rw [queues_setQueue]
      exact (h.sorted k).sublist hsub
    · rw [queues_setQueue_of_ne _ hk]
      exact h.sorted k
  · intro i k s hlog hslot
    by_cases hk : k = kind
    · subst hk
      rw [queues_setQueue]
      exact hlive _ (h.mem_live.mpr ⟨hlog, hslot⟩)
    · rw [queues_setQueue_of_ne _ hk]
      exact h.queued hlog hslot
  · intro hclosed k
    exact List.eq_nil_iff_forall_not_mem.mpr fun w hw => by
      have hold := hmem hw
      simp [h.emptied hclosed k] at hold

/-- A delivery finds nobody, or answers the ticket it is for and drops those given up. -/
theorem deliver_cases (h : Consistent log t) (kind : ReplyKind) (sequence : UInt32)
    (answer : Answer) :
    ((∀ w, ¬ Live log t kind w) ∧
      t.deliver kind sequence answer = (false, t.setQueue kind [])) ∨
    ∃ w, Waiter.Addressee (Live log t kind) sequence w ∧
      t.deliver kind sequence answer = (true,
        (t.setSlot w.ticket (.answered answer)).setQueue kind ((t.live kind).erase w)) := by
  have hlive : (· ∈ t.live kind) = Live log t kind := funext fun w => propext h.mem_live
  by_cases hnil : t.live kind = []
  · refine .inl ⟨fun w hw => ?_, ?_⟩
    · have hmem := h.mem_live.mpr hw
      simp [hnil] at hmem
    · rw [deliver_eq, hnil]
      rfl
  · have hlt : Waiter.choose sequence (t.live kind) < (t.live kind).length :=
      Waiter.choose_lt hnil
    refine .inr ⟨_, hlive ▸ Waiter.addressee_choose (h.sorted_live kind) hlt, ?_⟩
    rw [deliver_eq, List.getElem?_eq_getElem hlt, (h.nodup_live kind).erase_getElem]

/-- Answering a ticket is giving it up, taking it out of its queue, and then filling its slot:
each of the three keeps the table consistent. -/
theorem handOver (h : Consistent log t) {w : Waiter} (hw : w ∈ t.live kind) (answer : Answer) :
    Consistent log
      ((t.setSlot w.ticket (.answered answer)).setQueue kind ((t.live kind).erase w)) := by
  have hsub : (t.live kind).erase w |>.Sublist (t.queues kind) :=
    List.erase_sublist.trans List.filter_sublist
  have hout : Consistent log ((t.abandon w.ticket).setQueue kind ((t.live kind).erase w)) := by
    refine (h.abandon w.ticket).setQueue hsub fun v hv => ?_
    obtain ⟨hv, hwaiting⟩ := mem_live_iff.mp hv
    rw [ReplyTable.abandon, slots_setSlot, List.getElem?_set] at hwaiting
    split at hwaiting
    · split at hwaiting
      · simp at hwaiting
      · cases hwaiting
    · next hne =>
      have hvw : v ≠ w := fun heq => hne (heq ▸ rfl)
      exact (h.nodup_live kind).mem_erase_iff.mpr ⟨hvw, mem_live_iff.mpr ⟨hv, hwaiting⟩⟩
  have hset : (t.setSlot w.ticket (.answered answer)).setQueue kind ((t.live kind).erase w) =
      ((t.abandon w.ticket).setQueue kind ((t.live kind).erase w)).setSlot w.ticket
        (.answered answer) := by
    simp [ReplyTable.setSlot, ReplyTable.setQueue, ReplyTable.abandon]
  rw [hset]
  refine hout.setSlot (by simp) (.inr fun k v hv heq => ?_)
  by_cases hk : k = kind
  · subst hk
    rw [queues_setQueue, (h.nodup_live k).mem_erase_iff] at hv
    exact hv.1 (h.eq_of_ticket_eq (mem_live_iff.mp hv.2).1 (mem_live_iff.mp hw).1 heq).2
  · rw [queues_setQueue_of_ne _ hk] at hv
    exact hk (h.eq_of_ticket_eq hv (mem_live_iff.mp hw).1 heq).1

theorem deliver (h : Consistent log t) (kind : ReplyKind) (sequence : UInt32) (answer : Answer) :
    Consistent log (t.deliver kind sequence answer).2 := by
  rcases h.deliver_cases kind sequence answer with ⟨hnone, heq⟩ | ⟨w, hw, heq⟩
  · rw [heq]
    exact h.setQueue (List.nil_sublist _) fun w hw => absurd (h.mem_live.mp hw) (hnone w)
  · rw [heq]
    exact h.handOver (h.mem_live.mpr hw.mem) answer

theorem deliver_slot (h : Consistent log t) (kind : ReplyKind) (sequence : UInt32)
    (answer : Answer) (i : Ticket) :
    (t.deliver kind sequence answer).2.slots[i]? = t.slots[i]? ∨
      t.slots[i]? = some .waiting ∧
        (t.deliver kind sequence answer).2.slots[i]? = some (.answered answer) ∧
        ∃ s, log[i]? = some (kind, s) := by
  rcases h.deliver_cases kind sequence answer with ⟨-, heq⟩ | ⟨w, hw, heq⟩
  · exact .inl (by rw [heq, slots_setQueue])
  · obtain ⟨hlog, hslot⟩ := hw.mem
    rw [heq, slots_setQueue, slots_setSlot]
    by_cases hi : w.ticket = i
    · subst hi
      have hlt := (List.getElem?_eq_some_iff.mp hslot).1
      exact .inr ⟨hslot, List.getElem?_set_self hlt, w.sequence, hlog⟩
    · exact .inl (List.getElem?_set_ne hi)

theorem mem_allLive (h : Consistent log t) {w : Waiter} :
    w ∈ t.allLive ↔ ∃ kind, Live log t kind w := by
  rw [allLive, List.mem_flatMap]
  constructor
  · rintro ⟨k, -, hw⟩
    exact ⟨k, h.mem_live.mp hw⟩
  · rintro ⟨k, hw⟩
    exact ⟨k, ReplyKind.mem_all k, h.mem_live.mpr hw⟩

theorem exists_mem_allLive (h : Consistent log t) {i : Ticket}
    (hi : t.slots[i]? = some .waiting) : ∃ w ∈ t.allLive, w.ticket = i := by
  have hlt : i < log.length := h.length_slots ▸ (List.getElem?_eq_some_iff.mp hi).1
  have hlog : log[i]? = some (log[i].1, log[i].2) := List.getElem?_eq_getElem hlt
  exact ⟨⟨i, log[i].2⟩, h.mem_allLive.mpr ⟨log[i].1, hlog, hi⟩, rfl⟩

theorem nodup_allLive_tickets (h : Consistent log t) : (t.allLive.map (·.ticket)).Nodup := by
  have hkinds : ReplyKind.all.Nodup := by decide
  have hall : t.allLive.Nodup := by
    rw [allLive, List.nodup_flatMap]
    refine ⟨fun k _ => h.nodup_live k, hkinds.imp fun hne w hv hw => ?_⟩
    exact hne (h.eq_of_ticket_eq (mem_live_iff.mp hv).1 (mem_live_iff.mp hw).1 rfl).1
  refine hall.map_on fun v hv w hw heq => ?_
  obtain ⟨k, hv⟩ := h.mem_allLive.mp hv
  obtain ⟨l, hw⟩ := h.mem_allLive.mp hw
  exact (h.eq_of_ticket_eq (h.queued hv.1 hv.2) (h.queued hw.1 hw.2) heq).2

end Consistent

/-- The tickets that wait, in the order of registration. -/
def unanswered (t : ReplyTable) : List Ticket :=
  (List.range t.slots.length).filter t.isWaiting

theorem mem_unanswered {i : Ticket} : i ∈ t.unanswered ↔ t.slots[i]? = some .waiting := by
  rw [unanswered, List.mem_filter, isWaiting_iff, List.mem_range]
  exact and_iff_right_of_imp fun hi => (List.getElem?_eq_some_iff.mp hi).1

theorem getElem?_foldl_set_of_notMem {ws : List Waiter} {slots : List Slot} {s : Slot}
    {i : Ticket} (h : ∀ w ∈ ws, w.ticket ≠ i) :
    (ws.foldl (fun slots w => slots.set w.ticket s) slots)[i]? = slots[i]? := by
  induction ws generalizing slots with
  | nil => rfl
  | cons w ws ih =>
    rw [List.foldl_cons, ih fun v hv => h v (List.mem_cons_of_mem _ hv),
      List.getElem?_set_ne (h w List.mem_cons_self)]

theorem getElem?_foldl_set_of_mem {ws : List Waiter} {slots : List Slot} {s : Slot} {i : Ticket}
    (hi : i < slots.length) (h : ∃ w ∈ ws, w.ticket = i) :
    (ws.foldl (fun slots w => slots.set w.ticket s) slots)[i]? = some s := by
  induction ws generalizing slots with
  | nil => simp at h
  | cons w ws ih =>
    rw [List.foldl_cons]
    by_cases hws : ∃ v ∈ ws, v.ticket = i
    · exact ih (by simpa using hi) hws
    · rw [getElem?_foldl_set_of_notMem fun v hv heq => hws ⟨v, hv, heq⟩]
      obtain ⟨v, hv, rfl⟩ := h
      rcases List.mem_cons.mp hv with rfl | hv
      · exact List.getElem?_set_self hi
      · exact absurd ⟨v, hv, rfl⟩ hws

def afterClose : Slot → Slot
  | .waiting => .answered (.error .connectionClosed)
  | s => s

namespace Consistent

theorem close_count (h : Consistent log t) : t.close.1 = t.unanswered.length := by
  have hperm : (t.allLive.map (·.ticket)).Perm t.unanswered := by
    have hnodup : t.unanswered.Nodup := List.nodup_range.filter _
    refine (List.perm_ext_iff_of_nodup h.nodup_allLive_tickets hnodup).mpr fun i => ?_
    rw [mem_unanswered, List.mem_map]
    constructor
    · rintro ⟨w, hw, rfl⟩
      obtain ⟨k, hw⟩ := h.mem_allLive.mp hw
      exact hw.2
    · exact h.exists_mem_allLive
  rw [ReplyTable.close, ← hperm.length_eq, List.length_map]

theorem close_slots (h : Consistent log t) : t.close.2.slots = t.slots.map afterClose := by
  refine List.ext_getElem? fun i => ?_
  rw [ReplyTable.close, List.getElem?_map]
  dsimp only
  by_cases hi : t.slots[i]? = some .waiting
  · have hlt := (List.getElem?_eq_some_iff.mp hi).1
    rw [getElem?_foldl_set_of_mem hlt (h.exists_mem_allLive hi), hi]
    rfl
  · rw [getElem?_foldl_set_of_notMem]
    · cases hslot : t.slots[i]? with
      | none => rfl
      | some s =>
        cases s with
        | waiting => exact absurd hslot hi
        | answered | collected | abandoned => rfl
    · rintro w hw rfl
      obtain ⟨k, hw⟩ := h.mem_allLive.mp hw
      exact hi hw.2

theorem close_slot (h : Consistent log t) (i : Ticket) :
    t.close.2.slots[i]? = t.slots[i]? ∨
      t.slots[i]? = some .waiting ∧
        t.close.2.slots[i]? = some (.answered (.error .connectionClosed)) := by
  rw [h.close_slots, List.getElem?_map]
  cases t.slots[i]? with
  | none => exact .inl rfl
  | some s =>
    cases s with
    | waiting => exact .inr ⟨rfl, rfl⟩
    | answered | collected | abandoned => exact .inl rfl

theorem close (h : Consistent log t) : Consistent log t.close.2 := by
  refine ⟨?_, fun hw => ?_, fun hw => ?_, fun _ => .nil, ?_, fun _ _ => rfl⟩
  · rw [h.close_slots, List.length_map, h.length_slots]
  · cases hw
  · cases hw
  · intro i k s hlog hslot
    rw [h.close_slots, List.getElem?_map] at hslot
    obtain ⟨old, -, hold⟩ := Option.map_eq_some_iff.mp hslot
    cases old <;> cases hold

end Consistent

end ReplyTable
end CompositorClient
