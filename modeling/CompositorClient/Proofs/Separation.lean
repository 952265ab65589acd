import CompositorClient.Proofs.Buckets
import CompositorClient.Proofs.ReplyRuns
import CompositorClient.Proofs.Trace
import Mathlib.Data.List.InsertIdx

/-! What does not reach across.  The queries of one kind stand as if those of the other kinds had
never been; no query sees the frames that carry no reply, and no subscriber those that do. -/

namespace CompositorClient

section

variable {α β : Type}

/-- The entries of `l` that stand where an entry of `log` satisfies `p`. -/
def share (p : α → Bool) : List α → List β → List β
  | a :: log, x :: l => if p a then x :: share p log l else share p log l
  | _, _ => []

def placeIn (p : α → Bool) (log : List α) (i : Nat) : Nat := (log.take i).countP p

variable {p : α → Bool} {log : List α} {l : List β} {a : α} {i : Nat}

@[simp] theorem share_nil (p : α → Bool) (log : List α) : share p log ([] : List β) = [] := by
  cases log <;> rfl

@[simp] theorem placeIn_cons_succ (p : α → Bool) (a : α) (log : List α) (i : Nat) :
    placeIn p (a :: log) (i + 1) = placeIn p log i + if p a then 1 else 0 := by
  simp [placeIn, List.countP_cons]

theorem placeIn_append (p : α → Bool) {i : Nat} (h : i ≤ log.length) (more : List α) :
    placeIn p (log ++ more) i = placeIn p log i := by
  rw [placeIn, List.take_append_of_le_length h, placeIn]

theorem share_concat (h : l.length = log.length) (a : α) (x : β) :
    share p (log ++ [a]) (l ++ [x]) = share p log l ++ if p a then [x] else [] := by
  induction log generalizing l with
  | nil =>
    rw [List.length_eq_zero_iff.mp h]
    rfl
  | cons b log ih =>
    cases l with
    | nil => cases h
    | cons y l =>
      have hrest := ih (l := l) (by simpa using h)
      by_cases hb : p b <;> simp [share, hb, hrest]

theorem length_share (h : l.length = log.length) : (share p log l).length = log.countP p := by
  induction log generalizing l with
  | nil => cases l <;> rfl
  | cons b log ih =>
    cases l with
    | nil => cases h
    | cons y l =>
      have hrest := ih (l := l) (by simpa using h)
      by_cases hb : p b <;> simp [share, hb, hrest]

theorem share_map {γ : Type} (f : β → γ) : share p log (l.map f) = (share p log l).map f := by
  induction log generalizing l with
  | nil => rfl
  | cons b log ih =>
    cases l with
    | nil => simp
    | cons y l => by_cases hb : p b <;> simp [share, hb, ih]

theorem share_self (p : α → Bool) (log : List α) : share p log log = log.filter p := by
  induction log with
  | nil => rfl
  | cons b log ih => by_cases hb : p b <;> simp [share, hb, ih]

theorem getElem?_share (h : log[i]? = some a) (ha : p a = true) :
    (share p log l)[placeIn p log i]? = l[i]? := by
  induction log generalizing l i with
  | nil => cases h
  | cons b log ih =>
    cases l with
    | nil => simp
    | cons y l =>
      cases i with
      | zero =>
        cases h
        simp [share, placeIn, ha]
      | succ i =>
        have hrest := ih (l := l) (by simpa using h)
        by_cases hb : p b <;> simp [share, hb, hrest]

theorem share_set_of_pos (h : log[i]? = some a) (ha : p a = true) (x : β) :
    share p log (l.set i x) = (share p log l).set (placeIn p log i) x := by
  induction log generalizing l i with
  | nil => cases h
  | cons b log ih =>
    cases l with
    | nil => simp
    | cons y l =>
      cases i with
      | zero =>
        cases h
        simp [share, placeIn, ha]
      | succ i =>
        have hrest := ih (l := l) (by simpa using h)
        by_cases hb : p b <;> simp [share, hb, hrest]

theorem share_set_of_neg (h : ∀ a, log[i]? = some a → p a = false) (x : β) :
    share p log (l.set i x) = share p log l := by
  induction log generalizing l i with
  | nil => cases l <;> rfl
  | cons b log ih =>
    cases l with
    | nil => simp
    | cons y l =>
      cases i with
      | zero => simp [share, h b rfl]
      | succ i =>
        have hrest := ih (l := l) (i := i) (by simpa using h)
        by_cases hb : p b <;> simp [share, hb, hrest]

end

namespace ReplyTable

def isOf (kind : ReplyKind) (r : ReplyKind × UInt32) : Bool := r.1 == kind

def relabel (kind : ReplyKind) (log : List (ReplyKind × UInt32)) (w : Waiter) : Waiter :=
  ⟨placeIn (isOf kind) log w.ticket, w.sequence⟩

def ofKind (kind : ReplyKind) (log : List (ReplyKind × UInt32)) (t : ReplyTable) : ReplyTable where
  slots := share (isOf kind) log t.slots
  queues k := if k = kind then (t.queues kind).map (relabel kind log) else []
  closed := t.closed

/-- The action as it is without the other kinds, if it concerns this one. -/
def Action.about? (kind : ReplyKind) (log : List (ReplyKind × UInt32)) : Action → Option Action
  | .register k sequence => if k = kind then some (.register k sequence) else none
  | .abandon i =>
    if log[i]?.any (isOf kind) then some (.abandon (placeIn (isOf kind) log i)) else none
  | .resolve reply sequence => if reply.kind = kind then some (.resolve reply sequence) else none
  | .fail k sequence error => if k = kind then some (.fail k sequence error) else none
  | .close => some .close

/-- A run without all that concerns other kinds, after what `log` tells. -/
def about (kind : ReplyKind) : List (ReplyKind × UInt32) → List Action → List Action :=
  trace (fun log a => log ++ a.registration.toList) fun log a => (a.about? kind log).toList

def Action.taken? (t : ReplyTable) : Action → Option (ReplyKind × Bool)
  | .resolve reply sequence => some (reply.kind, (t.resolve reply sequence).1)
  | .fail kind sequence error => some (kind, (t.fail kind sequence error).1)
  | _ => none

def takings : ReplyTable → List Action → List (ReplyKind × Bool) :=
  trace act fun t a => (a.taken? t).toList

variable {t : ReplyTable} {log : List (ReplyKind × UInt32)} {kind k : ReplyKind}
  {sequence : UInt32} {answer : Answer} {i : Ticket}

@[simp] theorem isOf_self (kind : ReplyKind) (sequence : UInt32) :
    isOf kind (kind, sequence) = true := beq_self_eq_true kind

theorem isOf_of_ne (h : k ≠ kind) (sequence : UInt32) : isOf kind (k, sequence) = false :=
  beq_eq_false_iff_ne.mpr h

theorem ofKind_congr {log' : List (ReplyKind × UInt32)} {t' : ReplyTable}
    (slots : share (isOf kind) log' t'.slots = share (isOf kind) log t.slots)
    (queue : (t'.queues kind).map (relabel kind log') = (t.queues kind).map (relabel kind log))
    (closed : t'.closed = t.closed) : t'.ofKind kind log' = t.ofKind kind log := by
  simp only [ofKind, slots, queue, closed]

theorem ofKind_setSlot (h : log[i]? = some (kind, sequence)) (s : Slot) :
    (t.setSlot i s).ofKind kind log =
      (t.ofKind kind log).setSlot (placeIn (isOf kind) log i) s := by
  simp only [ofKind, setSlot, share_set_of_pos h (isOf_self kind sequence)]

theorem ofKind_setSlot_of_other (h : ∀ r, log[i]? = some r → isOf kind r = false) (s : Slot) :
    (t.setSlot i s).ofKind kind log = t.ofKind kind log :=
  ofKind_congr (share_set_of_neg h s) rfl rfl

theorem ofKind_setQueue (t : ReplyTable) (queue : List Waiter) :
    (t.setQueue kind queue).ofKind kind log =
      (t.ofKind kind log).setQueue kind (queue.map (relabel kind log)) := by
  simp only [ofKind, setQueue, mk.injEq, true_and, and_true, if_true]
  funext k
  by_cases hk : k = kind <;> simp [hk]

theorem ofKind_setQueue_of_ne (t : ReplyTable) (h : k ≠ kind) (queue : List Waiter) :
    (t.setQueue k queue).ofKind kind log = t.ofKind kind log :=
  ofKind_congr rfl (by rw [queues_setQueue_of_ne t h.symm]) rfl

@[simp] theorem choose_relabel (sequence : UInt32) (queue : List Waiter) :
    Waiter.choose sequence (queue.map (relabel kind log)) = Waiter.choose sequence queue := by
  simp only [Waiter.choose, List.findIdx?_map]
  rfl

namespace Consistent

theorem isWaiting_relabel (h : Consistent log t) {w : Waiter} (hw : w ∈ t.queues kind) :
    (t.ofKind kind log).isWaiting (relabel kind log w).ticket = t.isWaiting w.ticket := by
  rw [Bool.eq_iff_iff, isWaiting_iff, isWaiting_iff]
  rw [ofKind, relabel, getElem?_share (h.registered hw) (isOf_self ..)]

theorem live_ofKind (h : Consistent log t) (kind : ReplyKind) :
    (t.ofKind kind log).live kind = (t.live kind).map (relabel kind log) := by
  have hqueue : (t.ofKind kind log).queues kind = (t.queues kind).map (relabel kind log) :=
    if_pos rfl
  rw [live, hqueue, List.filter_map, live]
  refine congrArg _ (List.filter_congr fun w hw => ?_)
  exact h.isWaiting_relabel hw

theorem ofKind_register (h : Consistent log t) (kind : ReplyKind) (sequence : UInt32) :
    (t.register kind sequence).2.ofKind kind (log ++ [(kind, sequence)]) =
      ((t.ofKind kind log).register kind sequence).2 := by
  have hslots (s : Slot) : share (isOf kind) (log ++ [(kind, sequence)]) (t.slots ++ [s]) =
      share (isOf kind) log t.slots ++ [s] := by
    rw [share_concat h.length_slots, isOf_self, if_pos rfl]
  have hqueue : (t.queues kind).map (relabel kind (log ++ [(kind, sequence)])) =
      (t.queues kind).map (relabel kind log) := by
    refine List.map_congr_left fun w hw => ?_
    rw [relabel, placeIn_append _ (Nat.le_of_lt (h.ticket_lt hw)), relabel]
  have hlast : relabel kind (log ++ [(kind, sequence)]) ⟨t.slots.length, sequence⟩ =
      ⟨(share (isOf kind) log t.slots).length, sequence⟩ := by
    rw [relabel, placeIn_append _ (Nat.le_of_eq h.length_slots), placeIn, h.length_slots,
      List.take_length, length_share h.length_slots]
  unfold ReplyTable.register
  cases hclosed : t.closed with
  | true => simp [ofKind, hclosed, hslots, hqueue]
  | false =>
    simp only [ofKind, hclosed, hslots, queues_setQueue, List.map_append, hqueue, List.map_cons,
      hlast, List.map_nil, if_true, Bool.false_eq_true, if_false, closed_setQueue, mk.injEq,
      true_and, and_true]
    funext k
    by_cases hk : k = kind
    · simp [hk]
    · simp [queues_setQueue_of_ne _ hk, hk]

theorem ofKind_register_of_ne (h : Consistent log t) (hne : k ≠ kind) (sequence : UInt32) :
    (t.register k sequence).2.ofKind kind (log ++ [(k, sequence)]) = t.ofKind kind log := by
  refine ofKind_congr ?_ ?_ (closed_register ..)
  · rw [register_slots, share_concat h.length_slots, isOf_of_ne hne]
    exact List.append_nil _
  · have hqueue : (t.register k sequence).2.queues kind = t.queues kind := by
      unfold ReplyTable.register
      split
      · rfl
      · exact queues_setQueue_of_ne t hne.symm _
    rw [hqueue]
    refine List.map_congr_left fun w hw => ?_
    rw [relabel, placeIn_append _ (Nat.le_of_lt (h.ticket_lt hw)), relabel]

theorem ofKind_deliver (h : Consistent log t) (kind : ReplyKind) (sequence : UInt32)
    (answer : Answer) : (t.ofKind kind log).deliver kind sequence answer =
      ((t.deliver kind sequence answer).1,
        (t.deliver kind sequence answer).2.ofKind kind log) := by
  rw [deliver_eq, deliver_eq, h.live_ofKind, choose_relabel, List.getElem?_map]
  cases hw : (t.live kind)[Waiter.choose sequence (t.live kind)]? with
  | none => simp [ofKind_setQueue]
  | some w =>
    have hlog := h.registered (mem_live_iff.mp (List.mem_of_getElem? hw)).1
    simp [ofKind_setQueue, ofKind_setSlot hlog, List.eraseIdx_map, relabel]

theorem ofKind_deliver_of_ne (h : Consistent log t) (hne : k ≠ kind) (sequence : UInt32)
    (answer : Answer) :
    (t.deliver k sequence answer).2.ofKind kind log = t.ofKind kind log := by
  rcases h.deliver_cases k sequence answer with ⟨-, heq⟩ | ⟨w, hw, heq⟩
  · rw [heq, ofKind_setQueue_of_ne t hne]
  · rw [heq, ofKind_setQueue_of_ne _ hne]
    refine ofKind_setSlot_of_other (fun r hr => ?_) _
    rw [hw.mem.1] at hr
    cases hr
    exact isOf_of_ne hne _

theorem ofKind_abandon (h : Consistent log t) (kind : ReplyKind) (i : Ticket) :
    (t.abandon i).ofKind kind log =
      (t.ofKind kind log).run ((Action.abandon i).about? kind log).toList := by
  rw [Action.about?]
  cases hlog : log[i]? with
  | none =>
    have hle : t.slots.length ≤ i := h.length_slots ▸ List.getElem?_eq_none_iff.mp hlog
    refine ofKind_congr ?_ rfl rfl
    rw [ReplyTable.abandon, slots_setSlot, List.set_eq_of_length_le hle]
  | some r =>
    obtain ⟨k, sequence⟩ := r
    by_cases hk : k = kind
    · subst hk
      rw [Option.any_some, isOf_self, if_pos rfl]
      exact ofKind_setSlot hlog .abandoned
    · rw [Option.any_some, isOf_of_ne hk]
      refine ofKind_setSlot_of_other (fun r hr => ?_) _
      rw [hlog] at hr
      cases hr
      exact isOf_of_ne hk _

theorem ofKind_close (h : Consistent log t) {log' : List (ReplyKind × UInt32)}
    (h' : Consistent log' (t.ofKind kind log)) :
    t.close.2.ofKind kind log = (t.ofKind kind log).close.2 := by
  have hslots : (t.close.2.ofKind kind log).slots = (t.ofKind kind log).close.2.slots := by
    rw [h'.close_slots]
    show share (isOf kind) log t.close.2.slots = _
    rw [h.close_slots, share_map]
    rfl
  have hqueues : (t.close.2.ofKind kind log).queues = fun _ => [] := by
    funext k
    exact ite_self _
  exact (mk.injEq ..).mpr ⟨hslots, hqueues, rfl⟩

theorem ofKind_act (h : Consistent log t) {log' : List (ReplyKind × UInt32)}
    (h' : Consistent log' (t.ofKind kind log)) (a : Action) :
    (t.act a).ofKind kind (log ++ a.registration.toList) =
      (t.ofKind kind log).run (a.about? kind log).toList := by
  have hsame (hnone : a.registration = none) : log ++ a.registration.toList = log := by
    simp [hnone]
  cases a with
  | register k sequence =>
    by_cases hk : k = kind
    · subst hk
      rw [Action.about?, if_pos rfl]
      exact h.ofKind_register k sequence
    · rw [Action.about?, if_neg hk]
      exact h.ofKind_register_of_ne hk sequence
  | abandon i =>
    rw [hsame rfl]
    exact h.ofKind_abandon kind i
  | resolve reply sequence =>
    rw [hsame rfl]
    by_cases hk : reply.kind = kind
    · subst hk
      rw [Action.about?, if_pos rfl]
      exact (congrArg Prod.snd (h.ofKind_deliver reply.kind sequence (.ok reply))).symm
    · rw [Action.about?, if_neg hk]
      exact h.ofKind_deliver_of_ne hk sequence (.ok reply)
  | fail k sequence error =>
    rw [hsame rfl]
    by_cases hk : k = kind
    · subst hk
      rw [Action.about?, if_pos rfl]
      exact (congrArg Prod.snd (h.ofKind_deliver k sequence (.error error))).symm
    · rw [Action.about?, if_neg hk]
      exact h.ofKind_deliver_of_ne hk sequence (.error error)
  | close =>
    rw [hsame rfl]
    exact h.ofKind_close h'

/-- A delivery of the kind is taken or not, whatever the other kinds hold. -/
theorem taken?_ofKind (h : Consistent log t) (kind : ReplyKind) (a : Action) :
    (a.taken? t).toList.filter (·.1 == kind) =
      takings (t.ofKind kind log) (a.about? kind log).toList := by
  cases a with
  | register k sequence =>
    by_cases hk : k = kind <;> simp [Action.taken?, Action.about?, takings, hk]
  | abandon i =>
    by_cases hi : log[i]?.any (isOf kind) <;> simp [Action.taken?, Action.about?, takings, hi]
  | resolve reply sequence =>
    by_cases hk : reply.kind = kind
    · subst hk
      simp [Action.taken?, Action.about?, takings, resolve, h.ofKind_deliver]
    · simp [Action.taken?, Action.about?, takings, hk]
  | fail k sequence error =>
    by_cases hk : k = kind
    · subst hk
      simp [Action.taken?, Action.about?, takings, fail, h.ofKind_deliver]
    · simp [Action.taken?, Action.about?, takings, hk]
  | close => simp [Action.taken?, Action.about?, takings]

end Consistent

theorem foldl_registration (log : List (ReplyKind × UInt32)) (actions : List Action) :
    actions.foldl (fun log a => log ++ a.registration.toList) log =
      log ++ registrations actions := by
  induction actions generalizing log with
  | nil => exact (List.append_nil _).symm
  | cons a actions ih =>
    rw [List.foldl_cons, ih, List.append_assoc]
    cases hr : a.registration with
    | none => simp [registrations, hr]
    | some r => simp [registrations, hr]

theorem about_append (kind : ReplyKind) (before after : List Action) :
    about kind [] (before ++ after) =
      about kind [] before ++ about kind (registrations before) after := by
  rw [about, trace_append, foldl_registration, List.nil_append]

theorem about_concat (kind : ReplyKind) (actions : List Action) (a : Action) :
    about kind [] (actions ++ [a]) =
      about kind [] actions ++ (a.about? kind (registrations actions)).toList := by
  rw [about_append]
  exact congrArg _ (List.append_nil _)

theorem registrations_concat (actions : List Action) (a : Action) :
    registrations (actions ++ [a]) = registrations actions ++ a.registration.toList := by
  cases hr : a.registration <;> simp [registrations, hr]

theorem consistent_run (actions : List Action) :
    Consistent (registrations actions) (empty.run actions) :=
  (History.empty.run actions).consistent

/-- The run without the other kinds leaves what the whole run leaves of the kind. -/
theorem ofKind_run (kind : ReplyKind) (actions : List Action) :
    (empty.run actions).ofKind kind (registrations actions) =
      empty.run (about kind [] actions) := by
  induction actions using List.reverseRecOn with
  | nil =>
    refine (mk.injEq ..).mpr ⟨rfl, ?_, rfl⟩
    funext k
    exact ite_self _
  | append_singleton actions a ih =>
    have h := consistent_run actions
    have h' := consistent_run (about kind [] actions)
    rw [← ih] at h'
    rw [run_concat, registrations_concat, h.ofKind_act h' a, ih, about_concat, run, run, run,
      List.foldl_append]

theorem takings_ofKind (kind : ReplyKind) (actions : List Action) :
    (takings empty actions).filter (·.1 == kind) = takings empty (about kind [] actions) := by
  induction actions using List.reverseRecOn with
  | nil => rfl
  | append_singleton actions a ih =>
    have h := consistent_run actions
    rw [takings, trace_concat, List.filter_append, about_concat, trace_append]
    refine congr (congrArg _ ih) ((h.taken?_ofKind kind a).trans ?_)
    rw [ofKind_run]
    rfl

theorem registrations_about (kind : ReplyKind) (actions : List Action) :
    registrations (about kind [] actions) = (registrations actions).filter (isOf kind) := by
  induction actions using List.reverseRecOn with
  | nil => rfl
  | append_singleton actions a ih =>
    rw [about_concat, registrations_concat, List.filter_append, ← ih, registrations,
      List.filterMap_append]
    refine congrArg _ ?_
    cases a with
    | register k sequence =>
      by_cases hk : k = kind
      · simp [Action.about?, Action.registration, hk]
      · simp [Action.about?, Action.registration, hk, isOf_of_ne hk]
    | abandon i =>
      by_cases hi : (registrations actions)[i]?.any (isOf kind) <;>
        simp [Action.about?, Action.registration, hi]
    | resolve reply sequence =>
      by_cases hk : reply.kind = kind <;> simp [Action.about?, Action.registration, hk]
    | fail k sequence error =>
      by_cases hk : k = kind <;> simp [Action.about?, Action.registration, hk]
    | close => rfl

end ReplyTable

namespace Dispatcher

def Action.replies : Action → Bool
  | .message (.reply _) _ => true
  | .frame f => f.replyKind.isSome
  | _ => false

/-- The frame or the message has come in and is none of those that reply. -/
def Action.passesBy : Action → Bool
  | .message (.reply _) _ => false
  | .message _ _ => true
  | .frame f => f.replyKind.isNone
  | _ => false

def Action.calls (d : Dispatcher) : Action → List Call
  | .message m sequence => d.calls (d.dispatch m sequence).1.emitted
  | .frame f => d.callsFor f
  | _ => []

def heard : Dispatcher → List Action → List Call := trace act fun d a => a.calls d

def Action.collected (d : Dispatcher) : Action → List (Ticket × Answer)
  | .collect i => ((d.table.collect i).1.map fun answer => (i, answer)).toList
  | _ => []

def collections : Dispatcher → List Action → List (Ticket × Answer) :=
  trace act fun d a => a.collected d

variable {d d' : Dispatcher} {a : Action}

theorem act_of_passesBy (h : a.passesBy = true) (d : Dispatcher) : d.act a = d := by
  cases a with
  | message m sequence =>
    cases m with
    | reply r => cases h
    | command | query | notice => rfl
  | frame f => exact dispatchFrame_of_other d (Option.isNone_iff_eq_none.mp h)
  | _ => cases h

theorem collected_of_passesBy (h : a.passesBy = true) (d : Dispatcher) : a.collected d = [] := by
  cases a with
  | collect => cases h
  | _ => rfl

/-- Neither the table nor what is taken from it depends on frames that carry no reply. -/
theorem run_filter_passesBy (d : Dispatcher) (history : List Action) :
    d.collections history = d.collections (history.filter (!·.passesBy)) ∧
      d.run history = d.run (history.filter (!·.passesBy)) := by
  refine trace_filter act _ (r := Eq) ?_ ?_ rfl history
  · rintro d _ a rfl -
    exact ⟨rfl, rfl⟩
  · rintro d _ a rfl hkeep
    have ha : a.passesBy = true := by simpa using hkeep
    exact ⟨collected_of_passesBy ha d, act_of_passesBy ha d⟩

def Audience (d d' : Dispatcher) : Prop :=
  d.subscribers = d'.subscribers ∧ d.lastId = d'.lastId

theorem Audience.calls (h : Audience d d') (a : Action) : a.calls d = a.calls d' := by
  cases a with
  | message m sequence =>
    have hemitted : (d.dispatch m sequence).1.emitted = (d'.dispatch m sequence).1.emitted := by
      cases m <;> rfl
    rw [Action.calls, Action.calls, hemitted, calls_congr h.1]
  | frame f => rw [Action.calls, Action.calls, callsFor_eq, callsFor_eq, calls_congr h.1]
  | _ => rfl

theorem Audience.act (h : Audience d d') (a : Action) : Audience (d.act a) (d'.act a) := by
  obtain ⟨kind, rfl, -⟩ | ⟨id, rfl, -⟩ | ⟨hsub, hunsub, table, heq⟩ := act_cases d a
  · simp [Audience, Dispatcher.act, subscribe, h.1, h.2]
  · simp [Audience, Dispatcher.act, unsubscribe, h.1, h.2]
  · obtain ⟨kind, rfl, -⟩ | ⟨id, rfl, -⟩ | ⟨-, -, table', heq'⟩ := act_cases d' a
    · exact absurd rfl (hsub kind)
    · exact absurd rfl (hunsub id)
    · rw [heq, heq']
      exact h

theorem calls_of_replies (h : a.replies = true) (d : Dispatcher) : a.calls d = [] := by
  cases a with
  | message m sequence =>
    cases m with
    | reply r => rfl
    | command | query | notice => cases h
  | frame f =>
    obtain ⟨kind, hkind⟩ := Option.isSome_iff_exists.mp h
    have hevents := Frame.events_of_answer (Frame.code_of_replyKind hkind)
    rw [Action.calls, callsFor_eq, hevents, calls_nil]
  | _ => cases h

theorem Audience.act_of_replies (h : Audience d d') (ha : a.replies = true) :
    Audience (d.act a) d' := by
  obtain ⟨kind, rfl, -⟩ | ⟨id, rfl, -⟩ | ⟨-, -, table, heq⟩ := act_cases d a
  · cases ha
  · cases ha
  · rw [heq]
    exact h

/-- What the subscribers hear does not depend on the replies. -/
theorem heard_filter_replies (d : Dispatcher) (history : List Action) :
    d.heard history = d.heard (history.filter (!·.replies)) ∧
      Audience (d.run history) (d.run (history.filter (!·.replies))) := by
  refine trace_filter act _ (r := Audience) ?_ ?_ ⟨rfl, rfl⟩ history
  · intro d d' a h _
    exact ⟨h.calls a, h.act a⟩
  · intro d d' a h hkeep
    have ha : a.replies = true := by simpa using hkeep
    exact ⟨calls_of_replies ha d, h.act_of_replies ha⟩

end Dispatcher

open ReplyTable in
/-- Every run of the table goes for one kind as it would without all that concerns the others,
up to the places of the tickets: the same answers are taken, and at every point each ticket of the
kind holds the same and as many are waited for.  In every run of a dispatcher the queries get the
same without the frames that carry no reply, and the subscribers hear the same without the frames
that carry one. -/
theorem reply_kinds_do_not_interfere :
    (∀ kind before after,
      let alone := about kind [] before
      let place := placeIn (isOf kind) (registrations before)
      about kind [] (before ++ after) = alone ++ about kind (registrations before) after ∧
      (takings empty before).filter (·.1 == kind) = takings empty alone ∧
      (empty.run before).pending kind = (empty.run alone).pending kind ∧
      ∀ i sequence, (registrations before)[i]? = some (kind, sequence) →
        (registrations alone)[place i]? = some (kind, sequence) ∧
        (empty.run alone).slots[place i]? = (empty.run before).slots[i]?) ∧
    ∀ (d : Dispatcher) (history : List Dispatcher.Action),
      d.collections (history.filter (!·.passesBy)) = d.collections history ∧
      d.run (history.filter (!·.passesBy)) = d.run history ∧
      d.heard (history.filter (!·.replies)) = d.heard history ∧
      (d.run (history.filter (!·.replies))).subscribers = (d.run history).subscribers := by
  refine ⟨fun kind before after => ?_, fun d history => ?_⟩
  · refine ⟨about_append kind before after, takings_ofKind kind before, ?_, ?_⟩
    · have hlive := (consistent_run before).live_ofKind kind
      rw [ofKind_run] at hlive
      rw [pending, pending, hlive, List.length_map]
    · intro i sequence hlog
      have hof := isOf_self kind sequence
      refine ⟨?_, ?_⟩
      · rw [registrations_about, ← share_self, getElem?_share hlog hof, hlog]
      · rw [← ofKind_run]
        exact getElem?_share hlog hof
  · obtain ⟨hcollections, hrun⟩ := d.run_filter_passesBy history
    obtain ⟨hheard, haudience⟩ := d.heard_filter_replies history
    exact ⟨hcollections.symm, hrun.symm, hheard.symm, haudience.1.symm⟩

end CompositorClient
