import CompositorClient.Proofs.Subscriptions
import Mathlib.Data.List.InsertIdx

/-! The table of unanswered queries as it would stand if one ticket had never been handed out.
What others do to the table leads to the same with that ticket and without it, except that the
later tickets have other numbers; answers are the same, too, once the ticket does not wait. -/

namespace CompositorClient

/-- The ticket that is `i` when `n` is left out. -/
def Ticket.skip (n i : Nat) : Nat := if i < n then i else i + 1

/-- What becomes of ticket `i` when `n` is left out. -/
def Ticket.closeUp (n i : Nat) : Nat := if i < n then i else i - 1

def Waiter.closeUp (n : Ticket) (w : Waiter) : Waiter := ⟨Ticket.closeUp n w.ticket, w.sequence⟩

theorem Ticket.skip_ne (n i : Nat) : skip n i ≠ n := by
  unfold skip
  split <;> omega

theorem Ticket.skip_closeUp {n i : Nat} (h : i ≠ n) : skip n (closeUp n i) = i := by
  unfold skip closeUp
  split
  · rfl
  · next hle =>
    rw [if_neg (by omega)]
    omega

namespace ReplyTable

def without (n : Ticket) (t : ReplyTable) : ReplyTable where
  slots := t.slots.eraseIdx n
  queues k := ((t.queues k).filter (·.ticket ≠ n)).map (Waiter.closeUp n)
  closed := t.closed

variable {t : ReplyTable} {log : List (ReplyKind × UInt32)} {kind k : ReplyKind}
  {sequence : UInt32} {answer : Answer} {n i : Nat}

theorem getElem?_without (t : ReplyTable) (n i : Nat) :
    (t.without n).slots[i]? = t.slots[Ticket.skip n i]? := by
  rw [without, List.getElem?_eraseIdx, Ticket.skip]
  split <;> rfl

theorem isWaiting_without (t : ReplyTable) (n i : Nat) :
    (t.without n).isWaiting i = t.isWaiting (Ticket.skip n i) := by
  rw [isWaiting, isWaiting, getElem?_without]

theorem without_setSlot (t : ReplyTable) (n i : Nat) (s : Slot) :
    (t.setSlot (Ticket.skip n i) s).without n = (t.without n).setSlot i s := by
  have hslots : (t.slots.set (Ticket.skip n i) s).eraseIdx n = (t.slots.eraseIdx n).set i s := by
    unfold Ticket.skip
    split
    · next hlt => exact List.eraseIdx_set_gt hlt
    · next hle => exact List.eraseIdx_set_lt (Nat.lt_succ_of_le (Nat.le_of_not_lt hle))
  simp only [without, setSlot, hslots]

theorem without_setSlot_self (t : ReplyTable) (n : Nat) (s : Slot) :
    (t.setSlot n s).without n = t.without n := by
  simp only [without, setSlot, List.eraseIdx_set_eq]

theorem without_setQueue (t : ReplyTable) (n : Nat) (kind : ReplyKind) (queue : List Waiter) :
    (t.setQueue kind queue).without n = (t.without n).setQueue kind
      ((queue.filter (·.ticket ≠ n)).map (Waiter.closeUp n)) := by
  simp only [without, setQueue, mk.injEq, true_and, and_true]
  funext k
  split <;> rfl

theorem without_abandon (t : ReplyTable) (n i : Nat) :
    (t.abandon (Ticket.skip n i)).without n = (t.without n).abandon i :=
  without_setSlot ..

theorem without_collect (t : ReplyTable) (n i : Nat) :
    (t.collect (Ticket.skip n i)).2.without n = ((t.without n).collect i).2 := by
  rw [collect, collect, getElem?_without]
  cases t.slots[Ticket.skip n i]? with
  | none => rfl
  | some s =>
    cases s with
    | answered => exact without_setSlot ..
    | waiting | collected | abandoned => rfl

theorem without_register (t : ReplyTable) (lt : n < t.slots.length) (kind : ReplyKind)
    (sequence : UInt32) :
    (t.register kind sequence).2.without n = ((t.without n).register kind sequence).2 := by
  have hslots (s : Slot) : (t.slots ++ [s]).eraseIdx n = t.slots.eraseIdx n ++ [s] :=
    List.eraseIdx_append_of_lt_length lt [s]
  have hnew : [(⟨t.slots.length, sequence⟩ : Waiter)].filter (·.ticket ≠ n) =
      [⟨t.slots.length, sequence⟩] :=
    List.filter_cons_of_pos (by simpa using Nat.ne_of_gt lt)
  have hlast : Waiter.closeUp n ⟨t.slots.length, sequence⟩ =
      ⟨(t.slots.eraseIdx n).length, sequence⟩ := by
    rw [Waiter.closeUp, Ticket.closeUp, if_neg (Nat.not_lt_of_gt lt), List.length_eraseIdx_of_lt lt]
  unfold register
  cases hclosed : t.closed with
  | true => simp [without, hclosed, hslots]
  | false =>
    simp only [hclosed, Bool.false_eq_true, if_false, without, hslots, mk.injEq, true_and,
      and_true, setQueue]
    funext k
    split
    · rw [List.filter_append, hnew, List.map_append, List.map_singleton, hlast]
    · rfl

namespace Consistent

theorem without_register_self (h : Consistent log t) (kind : ReplyKind) (sequence : UInt32) :
    (t.register kind sequence).2.without t.slots.length = t := by
  have hslots (s : Slot) : (t.slots ++ [s]).eraseIdx t.slots.length = t.slots := by
    rw [List.eraseIdx_append_of_length_le (Nat.le_refl _), Nat.sub_self]
    exact List.append_nil _
  have hqueue (k : ReplyKind) :
      ((t.queues k).filter (·.ticket ≠ t.slots.length)).map (Waiter.closeUp t.slots.length) =
        t.queues k := by
    have hlt : ∀ w ∈ t.queues k, w.ticket < t.slots.length := fun w hw =>
      h.length_slots ▸ h.ticket_lt hw
    rw [List.filter_eq_self.mpr fun w hw => by simpa using Nat.ne_of_lt (hlt w hw)]
    refine (List.map_congr_left fun w hw => ?_).trans (List.map_id _)
    rw [Waiter.closeUp, Ticket.closeUp, if_pos (hlt w hw)]
    rfl
  have hclosed : (t.register kind sequence).2.closed = t.closed := closed_register ..
  refine (mk.injEq ..).mpr ⟨?_, funext fun k => ?_, hclosed⟩
  · rw [register_slots]
    exact hslots _
  · unfold ReplyTable.register
    split
    · exact hqueue k
    · by_cases hk : k = kind
      · subst hk
        rw [queues_setQueue, List.filter_append, List.map_append, hqueue]
        simp
      · rw [queues_setQueue_of_ne _ hk]
        exact hqueue k

theorem without_close (h : Consistent log t) {log' : List (ReplyKind × UInt32)}
    (h' : Consistent log' (t.without n)) : t.close.2.without n = (t.without n).close.2 := by
  have hslots : t.close.2.slots.eraseIdx n = (t.without n).close.2.slots := by
    rw [h'.close_slots, h.close_slots, List.eraseIdx_map]
    rfl
  exact (mk.injEq ..).mpr ⟨hslots, rfl, rfl⟩

end Consistent

theorem ticket_ne_of_mem_live (idle : t.slots[n]? ≠ some .waiting) {w : Waiter}
    (hw : w ∈ t.live kind) : w.ticket ≠ n := by
  rintro rfl
  exact idle (mem_live_iff.mp hw).2

theorem live_without (t : ReplyTable) (n : Nat) (kind : ReplyKind) :
    (t.without n).live kind =
      ((t.live kind).filter (·.ticket ≠ n)).map (Waiter.closeUp n) := by
  rw [live, live, without, List.filter_map]
  refine congrArg _ ((List.filter_congr fun w hw => ?_).trans (List.filter_comm ..))
  have hne : w.ticket ≠ n := by simpa using (List.mem_filter.mp hw).2
  show (t.without n).isWaiting (Ticket.closeUp n w.ticket) = t.isWaiting w.ticket
  rw [isWaiting_without, Ticket.skip_closeUp hne]

theorem live_without_of_idle (idle : t.slots[n]? ≠ some .waiting) (kind : ReplyKind) :
    (t.without n).live kind = (t.live kind).map (Waiter.closeUp n) := by
  rw [live_without, List.filter_eq_self.mpr fun w hw => by
    simpa using ticket_ne_of_mem_live idle hw]

theorem pending_without_of_idle (idle : t.slots[n]? ≠ some .waiting) (kind : ReplyKind) :
    (t.without n).pending kind = t.pending kind := by
  rw [pending, live_without_of_idle idle, List.length_map, pending]

@[simp] theorem choose_closeUp (n : Nat) (sequence : UInt32) (queue : List Waiter) :
    Waiter.choose sequence (queue.map (Waiter.closeUp n)) = Waiter.choose sequence queue := by
  simp only [Waiter.choose, List.findIdx?_map]
  rfl

/-- Answers go where they would go without the ticket. -/
theorem without_deliver (idle : t.slots[n]? ≠ some .waiting) (kind : ReplyKind)
    (sequence : UInt32) (answer : Answer) :
    (t.without n).deliver kind sequence answer =
      ((t.deliver kind sequence answer).1, (t.deliver kind sequence answer).2.without n) := by
  rw [deliver_eq, deliver_eq, live_without_of_idle idle, choose_closeUp, List.getElem?_map]
  cases hw : (t.live kind)[Waiter.choose sequence (t.live kind)]? with
  | none => simp [without_setQueue]
  | some w =>
    have hne := ticket_ne_of_mem_live idle (List.mem_of_getElem? hw)
    have hrest : ((t.live kind).eraseIdx (Waiter.choose sequence (t.live kind))).filter
        (·.ticket ≠ n) = (t.live kind).eraseIdx (Waiter.choose sequence (t.live kind)) :=
      List.filter_eq_self.mpr fun v hv => by
        simpa using ticket_ne_of_mem_live idle (List.mem_of_mem_eraseIdx hv)
    have hslot (s : Slot) : (t.setSlot w.ticket s).without n =
        (t.without n).setSlot (Ticket.closeUp n w.ticket) s := by
      rw [← without_setSlot, Ticket.skip_closeUp hne]
    dsimp only [Option.map_some]
    rw [without_setQueue, hslot, hrest, List.eraseIdx_map]
    rfl

end ReplyTable

namespace Dispatcher

open ReplyTable

def without (n : Ticket) (d : Dispatcher) : Dispatcher := { d with table := d.table.without n }

namespace Action

/-- The action of somebody whose tickets are numbered without `n`. -/
def skip (n : Ticket) : Action → Action
  | .abandon i => .abandon (Ticket.skip n i)
  | .collect i => .collect (Ticket.skip n i)
  | a => a

def Quiet : Action → Prop
  | .message .. | .frame _ => False
  | _ => True

end Action

variable {d d' : Dispatcher} {n : Nat} {log : List (ReplyKind × UInt32)} {a : Action}

theorem consistent_act_append (h : Consistent log d.table) (a : Action) :
    ∃ more, Consistent (log ++ more) (d.act a).table := by
  have hsame {t : ReplyTable} (h : Consistent log t) : ∃ more, Consistent (log ++ more) t :=
    ⟨[], (List.append_nil log).symm ▸ h⟩
  cases a with
  | subscribe | unsubscribe => exact hsame h
  | register kind sequence => exact ⟨_, h.register kind sequence⟩
  | abandon ticket => exact hsame (h.abandon ticket)
  | collect ticket => exact hsame (h.collect ticket)
  | message m sequence =>
    cases m with
    | reply r => exact hsame (h.deliver r.kind sequence (.ok r))
    | command | query | notice => exact hsame h
  | frame f =>
    rw [act, dispatchFrame_eq]
    split
    · exact hsame h
    · exact hsame (h.deliver _ _ _)
  | close => exact hsame h.close

/-- A frame comes to the same without a ticket that does not wait. -/
theorem without_dispatchFrame (idle : d.table.slots[n]? ≠ some .waiting) (f : Frame) :
    (d.without n).dispatchFrame f =
      ((d.dispatchFrame f).1, (d.dispatchFrame f).2.without n) := by
  unfold dispatchFrame
  cases f.message with
  | ok m =>
    cases m with
    | reply r =>
      have hdeliver := without_deliver idle r.kind f.header.sequence (.ok r)
      simp only [dispatch, resolve, without, hdeliver]
    | notice | command | query => rfl
  | error e =>
    cases f.replyKind with
    | none => rfl
    | some kind =>
      have hdeliver := without_deliver idle kind f.header.sequence (.error (.undecodable e))
      simp only [fail, without, hdeliver]

theorem without_act (h : Consistent log d.table)
    (h' : ∃ log', Consistent log' (d.table.without n)) (lt : n < d.table.slots.length) (a : Action)
    (idle : a.Quiet ∨ d.table.slots[n]? ≠ some .waiting) :
    (d.act (a.skip n)).without n = (d.without n).act a := by
  cases a with
  | subscribe | unsubscribe => rfl
  | register kind sequence =>
    exact congrArg (fun table => { d with table }) (without_register d.table lt kind sequence)
  | abandon i => exact congrArg (fun table => { d with table }) (without_abandon d.table n i)
  | collect i => exact congrArg (fun table => { d with table }) (without_collect d.table n i)
  | message m sequence =>
    have hidle := idle.resolve_left id
    cases m with
    | reply r =>
      have hdeliver := without_deliver hidle r.kind sequence (.ok r)
      exact congrArg (fun r => { d with table := r.2 }) hdeliver.symm
    | command | query | notice => rfl
  | frame f =>
    exact congrArg Prod.snd (without_dispatchFrame (idle.resolve_left id) f).symm
  | close =>
    obtain ⟨log', h'⟩ := h'
    exact congrArg (fun table => { d with table }) (h.without_close h')

/-- Others do nothing to a ticket that they do not know, unless they answer it. -/
theorem slot_act_skip (h : Consistent log d.table) (lt : n < d.table.slots.length) (a : Action) :
    (d.act (a.skip n)).table.slots[n]? = d.table.slots[n]? ∨
      d.table.slots[n]? = some .waiting ∧ ∃ answer,
        (d.act (a.skip n)).table.slots[n]? = some (.answered answer) ∧
          (a.Quiet → answer = .error .connectionClosed) := by
  have hdeliver (kind : ReplyKind) (sequence : UInt32) (answer : Answer) (quiet : ¬ a.Quiet) :
      (d.table.deliver kind sequence answer).2.slots[n]? = d.table.slots[n]? ∨
        d.table.slots[n]? = some .waiting ∧ ∃ answer',
          (d.table.deliver kind sequence answer).2.slots[n]? = some (.answered answer') ∧
            (a.Quiet → answer' = .error .connectionClosed) :=
    (h.deliver_slot kind sequence answer n).imp_right fun ⟨hwaiting, hanswered, _⟩ =>
      ⟨hwaiting, answer, hanswered, fun hquiet => absurd hquiet quiet⟩
  cases a with
  | subscribe | unsubscribe => exact .inl rfl
  | register kind sequence =>
    refine .inl ?_
    show (d.table.register kind sequence).2.slots[n]? = _
    rw [register_slots, List.getElem?_append_left lt]
  | abandon i => exact .inl (List.getElem?_set_ne (Ticket.skip_ne n i))
  | collect i =>
    refine .inl ?_
    show (d.table.collect (Ticket.skip n i)).2.slots[n]? = _
    unfold collect
    split
    · exact List.getElem?_set_ne (Ticket.skip_ne n i)
    · rfl
  | message m sequence =>
    cases m with
    | reply r => exact hdeliver r.kind sequence (.ok r) id
    | command | query | notice => exact .inl rfl
  | frame f =>
    have hact : d.act (Action.skip n (.frame f)) = (d.dispatchFrame f).2 := rfl
    rw [hact, dispatchFrame_eq]
    split
    · exact .inl rfl
    · exact hdeliver _ _ _ id
  | close =>
    exact (h.close_slot n).imp_right fun ⟨hwaiting, hanswered⟩ =>
      ⟨hwaiting, _, hanswered, fun _ => rfl⟩

/-- `d` is `d'` and besides it the ticket `n`, which somebody has taken to wait for an answer of
`kind` under number `sequence`. -/
structure Apart (n : Nat) (kind : ReplyKind) (sequence : UInt32) (d d' : Dispatcher) : Prop where
  registered : ∃ log, Consistent log d.table ∧ log[n]? = some (kind, sequence)
  reached : ∃ log, Consistent log d'.table
  without : d.without n = d'

def Unanswered (n : Nat) (d : Dispatcher) : Prop :=
  d.table.slots[n]? = some .waiting ∨
    d.table.slots[n]? = some (.answered (.error .connectionClosed))

variable {kind : ReplyKind} {sequence : UInt32} {actions : List Action}

theorem apart_register (h : ∃ log, Consistent log d.table) (kind : ReplyKind)
    (sequence : UInt32) :
    Apart d.table.slots.length kind sequence (d.register kind sequence).2 d ∧
      Unanswered d.table.slots.length (d.register kind sequence).2 := by
  obtain ⟨log, h⟩ := h
  refine ⟨⟨⟨_, h.register kind sequence, ?_⟩, ⟨log, h⟩, ?_⟩, ?_⟩
  · rw [h.length_slots, List.getElem?_concat_length]
  · exact congrArg (fun table => { d with table }) (h.without_register_self kind sequence)
  · show (d.table.register kind sequence).2.slots[_]? = _ ∨
      (d.table.register kind sequence).2.slots[_]? = _
    rw [register_slots, List.getElem?_concat_length]
    cases d.table.closed with
    | true => exact .inr rfl
    | false => exact .inl rfl

namespace Apart

theorem lt (h : Apart n kind sequence d d') : n < d.table.slots.length := by
  obtain ⟨log, hconsistent, hlog⟩ := h.registered
  rw [hconsistent.length_slots]
  exact (List.getElem?_eq_some_iff.mp hlog).1

theorem act (h : Apart n kind sequence d d') (a : Action)
    (idle : a.Quiet ∨ d.table.slots[n]? ≠ some .waiting) :
    Apart n kind sequence (d.act (a.skip n)) (d'.act a) := by
  obtain ⟨log, hconsistent, hlog⟩ := h.registered
  obtain ⟨more, hmore⟩ := consistent_act_append hconsistent (a.skip n)
  have hreached : ∃ log', Consistent log' (d.table.without n) := by
    have htable : d.table.without n = d'.table := congrArg table h.without
    exact htable ▸ h.reached
  refine ⟨⟨_, hmore, ?_⟩, consistent_act h.reached a, ?_⟩
  · rw [List.getElem?_append_left (List.getElem?_eq_some_iff.mp hlog).1]
    exact hlog
  · rw [without_act hconsistent hreached h.lt a idle, h.without]

theorem abandon (h : Apart n kind sequence d d') :
    Apart n kind sequence (d.abandon n) d' ∧
      (d.abandon n).table.slots[n]? = some .abandoned := by
  obtain ⟨log, hconsistent, hlog⟩ := h.registered
  refine ⟨⟨⟨log, hconsistent.abandon n, hlog⟩, h.reached, ?_⟩, List.getElem?_set_self h.lt⟩
  rw [← h.without]
  exact congrArg (fun table => { d with table }) (without_setSlot_self d.table n .abandoned)

theorem run_quiet (h : Apart n kind sequence d d') (waits : Unanswered n d)
    (quiet : ∀ a ∈ actions, a.Quiet) :
    Apart n kind sequence (d.run (actions.map (Action.skip n))) (d'.run actions) ∧
      Unanswered n (d.run (actions.map (Action.skip n))) := by
  induction actions generalizing d d' with
  | nil => exact ⟨h, waits⟩
  | cons a actions ih =>
    obtain ⟨ha, hactions⟩ := List.forall_mem_cons.mp quiet
    obtain ⟨log, hconsistent, -⟩ := h.registered
    refine ih (h.act a (.inl ha)) ?_ hactions
    rcases slot_act_skip hconsistent h.lt a with hsame | ⟨-, answer, hanswered, hends⟩
    · rw [Unanswered, hsame]
      exact waits
    · exact .inr (hends ha ▸ hanswered)

/-- Nothing ever comes to a ticket that has been given up. -/
theorem run_abandoned (h : Apart n kind sequence d d')
    (gone : d.table.slots[n]? = some .abandoned) (actions : List Action) :
    Apart n kind sequence (d.run (actions.map (Action.skip n))) (d'.run actions) ∧
      (d.run (actions.map (Action.skip n))).table.slots[n]? = some .abandoned := by
  induction actions generalizing d d' with
  | nil => exact ⟨h, gone⟩
  | cons a actions ih =>
    obtain ⟨log, hconsistent, -⟩ := h.registered
    have hidle : d.table.slots[n]? ≠ some .waiting := by simp [gone]
    refine ih (h.act a (.inr hidle)) ?_
    rcases slot_act_skip hconsistent h.lt a with hsame | ⟨hwaiting, -⟩
    · exact hsame.trans gone
    · exact absurd hwaiting hidle

theorem pending_of_idle (h : Apart n kind sequence d d')
    (idle : d.table.slots[n]? ≠ some .waiting) (k : ReplyKind) :
    d.table.pending k = d'.table.pending k := by
  rw [← h.without]
  exact (pending_without_of_idle idle k).symm

theorem dispatchFrame_of_idle (h : Apart n kind sequence d d')
    (idle : d.table.slots[n]? ≠ some .waiting) (f : Frame) :
    (d.dispatchFrame f).1 = (d'.dispatchFrame f).1 := by
  rw [← h.without, without_dispatchFrame idle]

theorem slots_eq (h : Apart n kind sequence d d') :
    d.table.slots.eraseIdx n = d'.table.slots :=
  congrArg (fun d => d.table.slots) h.without

theorem mem_live_iff_of_ticket (h : Apart n kind sequence d d') {k : ReplyKind} {w : Waiter}
    (ticket : w.ticket = n) :
    w ∈ d.table.live k ↔ (k = kind ∧ d.table.isWaiting n = true) ∧ w = ⟨n, sequence⟩ := by
  obtain ⟨log, hconsistent, hlog⟩ := h.registered
  obtain ⟨_, number⟩ := w
  subst ticket
  rw [hconsistent.mem_live, Live, isWaiting_iff, hlog]
  constructor
  · rintro ⟨heq, hwaiting⟩
    cases heq
    exact ⟨⟨rfl, hwaiting⟩, rfl⟩
  · rintro ⟨⟨rfl, hwaiting⟩, heq⟩
    cases heq
    exact ⟨rfl, hwaiting⟩

theorem live_filter (h : Apart n kind sequence d d') (k : ReplyKind) :
    (d.table.live k).filter (·.ticket = n) =
      if k = kind ∧ d.table.isWaiting n = true then [⟨n, sequence⟩] else [] := by
  split
  · next hcond =>
    obtain ⟨log, hconsistent, -⟩ := h.registered
    have hmem : ⟨n, sequence⟩ ∈ d.table.live k :=
      (h.mem_live_iff_of_ticket rfl).mpr ⟨hcond, rfl⟩
    have hsame : (d.table.live k).filter (·.ticket = n) =
        (d.table.live k).filter (· == ⟨n, sequence⟩) := by
      refine List.filter_congr fun w hw => decide_eq_decide.mpr ⟨fun hticket => ?_, ?_⟩
      · exact ((h.mem_live_iff_of_ticket hticket).mp hw).2
      · rintro rfl
        rfl
    rw [hsame, List.filter_beq, List.count_eq_one_of_mem (hconsistent.nodup_live k) hmem]
    rfl
  · next hcond =>
    refine List.filter_eq_nil_iff.mpr fun w hw hticket => hcond ?_
    exact ((h.mem_live_iff_of_ticket (of_decide_eq_true hticket)).mp hw).1

/-- As long as it waits, the ticket is the one more that waits for an answer of its kind. -/
theorem pending_eq (h : Apart n kind sequence d d') (k : ReplyKind) :
    d.table.pending k =
      d'.table.pending k + if k = kind ∧ d.table.isWaiting n = true then 1 else 0 := by
  have hother : d'.table.pending k = (d.table.live k).countP fun w => decide (w.ticket ≠ n) := by
    rw [← h.without]
    show ((d.table.without n).live k).length = _
    rw [live_without, List.length_map, List.countP_eq_length_filter]
  have hown : (d.table.live k).countP (fun w => decide (w.ticket = n)) =
      if k = kind ∧ d.table.isWaiting n = true then 1 else 0 := by
    rw [List.countP_eq_length_filter, h.live_filter]
    split <;> rfl
  rw [pending, List.length_eq_countP_add_countP fun w : Waiter => decide (w.ticket = n), hown,
    hother, Nat.add_comm]
  simp

end Apart
end Dispatcher
end CompositorClient
