import CompositorClient.Proofs.Buckets
import CompositorClient.Proofs.Outcomes

/-! What becomes of a reply that cannot be decoded.  It is settled by the type code alone, with
the query that the reply would have answered, and it leaves all others as the reply would. -/

namespace CompositorClient

/-- The answer goes to the first under the number that it echoes, and else to the first. -/
theorem Waiter.getElem?_choose (sequence : UInt32) (queue : List Waiter) :
    queue[choose sequence queue]? =
      if sequence = 0 then queue.head?
      else (queue.find? (·.sequence == sequence)).or queue.head? := by
  unfold choose
  split
  · exact List.head?_eq_getElem?.symm
  · cases hfind : queue.findIdx? (·.sequence == sequence) with
    | none =>
      have hnone : queue.find? (·.sequence == sequence) = none := by
        simpa using List.findIdx?_eq_none_iff.mp hfind
      rw [hnone, Option.getD_none, Option.none_or, List.head?_eq_getElem?]
    | some i =>
      obtain ⟨hlt, hmark, hbefore⟩ := List.findIdx?_eq_some_iff_getElem.mp hfind
      have hsome : queue.find? (·.sequence == sequence) = some queue[i] :=
        List.find?_eq_some_iff_getElem.mpr ⟨hmark, i, hlt, rfl, by simpa using hbefore⟩
      rw [hsome, Option.getD_some, Option.some_or, List.getElem?_eq_getElem hlt]

namespace ReplyTable

def addressee? (t : ReplyTable) (kind : ReplyKind) (sequence : UInt32) : Option Waiter :=
  if sequence = 0 then (t.live kind).head?
  else ((t.live kind).find? (·.sequence == sequence)).or (t.live kind).head?

variable {t : ReplyTable} {kind : ReplyKind} {sequence : UInt32}

theorem deliver_of_addressee (t : ReplyTable) (kind : ReplyKind) (sequence : UInt32)
    (answer : Answer) :
    t.deliver kind sequence answer =
      match t.addressee? kind sequence with
      | none => (false, t.setQueue kind [])
      | some w => (true, (t.setSlot w.ticket (.answered answer)).setQueue kind
          ((t.live kind).eraseIdx (Waiter.choose sequence (t.live kind)))) := by
  rw [addressee?, ← Waiter.getElem?_choose]
  exact deliver_eq ..

theorem waiting_of_addressee {w : Waiter} (h : t.addressee? kind sequence = some w) :
    w ∈ t.live kind ∧ t.slots[w.ticket]? = some .waiting := by
  rw [addressee?, ← Waiter.getElem?_choose] at h
  have hmem := List.mem_of_getElem? h
  exact ⟨hmem, (mem_live_iff.mp hmem).2⟩

theorem isWaiting_setSlot_answered (t : ReplyTable) (i j : Ticket) (answer : Answer) :
    (t.setSlot i (.answered answer)).isWaiting j = (i != j && t.isWaiting j) := by
  rw [Bool.eq_iff_iff, isWaiting_iff, slots_setSlot, Bool.and_eq_true, isWaiting_iff]
  by_cases hij : i = j
  · subst hij
    rw [List.getElem?_set_self']
    cases t.slots[i]? <;> simp
  · simp [List.getElem?_set_ne hij, hij]

theorem left_of_deliver (t : ReplyTable) (kind : ReplyKind) (sequence : UInt32) (a b : Answer) :
    (t.deliver kind sequence a).2.queues = (t.deliver kind sequence b).2.queues ∧
    (t.deliver kind sequence a).2.live = (t.deliver kind sequence b).2.live := by
  rw [deliver_of_addressee, deliver_of_addressee]
  cases t.addressee? kind sequence with
  | none => exact ⟨rfl, rfl⟩
  | some w =>
    refine ⟨rfl, ?_⟩
    funext k
    refine List.filter_congr fun v _ => ?_
    exact (isWaiting_setSlot_answered t ..).trans (isWaiting_setSlot_answered t ..).symm

theorem taken_deliver (t : ReplyTable) (kind : ReplyKind) (sequence : UInt32) (answer : Answer) :
    (t.deliver kind sequence answer).1 = (t.addressee? kind sequence).isSome := by
  rw [deliver_of_addressee]
  cases t.addressee? kind sequence <;> rfl

theorem slots_of_addressee {w : Waiter} (h : t.addressee? kind sequence = some w)
    (answer : Answer) :
    (t.deliver kind sequence answer).2.slots = t.slots.set w.ticket (.answered answer) := by
  rw [deliver_of_addressee, h]
  rfl

theorem slots_of_nobody (h : t.addressee? kind sequence = none) (answer : Answer) :
    (t.deliver kind sequence answer).2.slots = t.slots := by
  rw [deliver_of_addressee, h]
  rfl

theorem queues_deliver_of_ne (t : ReplyTable) {k : ReplyKind} (h : k ≠ kind)
    (sequence : UInt32) (answer : Answer) :
    (t.deliver kind sequence answer).2.queues k = t.queues k := by
  rw [deliver_of_addressee]
  split
  · exact queues_setQueue_of_ne _ h _
  · exact queues_setQueue_of_ne _ h _

end ReplyTable

theorem Client.collect_of_answered {c : Client} {p : PendingQuery} {answer : Answer}
    (h : c.dispatcher.table.slots[p.ticket]? = some (.answered answer)) :
    (c.collect p).1 = some (result p.kind answer) := by
  rw [collect, ReplyTable.collect_of_answered h]
  rfl

namespace Dispatcher

theorem dispatchFrame_of_decoded (d : Dispatcher) {kind : ReplyKind} {f : Frame} {m : Message}
    (code : f.header.type = kind.type.code) (decoded : f.message = .ok m) :
    ∃ r, m = .reply r ∧ r.kind = kind ∧
      let result := d.table.deliver kind f.header.sequence (.ok r)
      d.dispatchFrame f = (.ok (.reply kind result.1), { d with table := result.2 }) := by
  rcases Frame.answer_of_code code with ⟨r, hm, rfl, -⟩ | ⟨e, hm, -⟩
  · cases hm.symm.trans decoded
    exact ⟨r, rfl, rfl, dispatchFrame_of_reply d hm⟩
  · cases hm.symm.trans decoded

theorem dispatchFrame_of_failed (d : Dispatcher) {kind : ReplyKind} {f : Frame}
    {e : ProtocolError} (code : f.header.type = kind.type.code) (failed : f.message = .error e) :
    d.dispatchFrame f = (.error e, { d with
      table := (d.table.deliver kind f.header.sequence (.error (.undecodable e))).2 }) := by
  simp [dispatchFrame, failed, Frame.replyKind_of_code code, ReplyTable.fail]

/-- Answered with `a`, the dispatcher becomes `d₁`, and with `b` it becomes `d₂`: they reach the
same waiter or none, and leave the same ones behind. -/
structure Parallel (d : Dispatcher) (kind : ReplyKind) (sequence : UInt32) (a b : Answer)
    (d₁ d₂ : Dispatcher) : Prop where
  subscribers : d₁.subscribers = d.subscribers ∧ d₂.subscribers = d.subscribers
  closed : d₁.table.closed = d.table.closed ∧ d₂.table.closed = d.table.closed
  queues : d₁.table.queues = d₂.table.queues
  live : d₁.table.live = d₂.table.live
  others : ∀ k, k ≠ kind → d₁.table.queues k = d.table.queues k
  nobody : d.table.addressee? kind sequence = none →
    d₁.table.slots = d.table.slots ∧ d₂.table.slots = d.table.slots
  one : ∀ w, d.table.addressee? kind sequence = some w →
    w ∈ d.table.live kind ∧ d₁.table.slots = d.table.slots.set w.ticket (.answered a) ∧
      d₂.table.slots = d.table.slots.set w.ticket (.answered b)

theorem parallel (d : Dispatcher) (kind : ReplyKind) (sequence : UInt32) (a b : Answer) :
    d.Parallel kind sequence a b { d with table := (d.table.deliver kind sequence a).2 }
      { d with table := (d.table.deliver kind sequence b).2 } where
  subscribers := ⟨rfl, rfl⟩
  closed := ⟨ReplyTable.closed_deliver .., ReplyTable.closed_deliver ..⟩
  queues := (d.table.left_of_deliver kind sequence a b).1
  live := (d.table.left_of_deliver kind sequence a b).2
  others _ hk := d.table.queues_deliver_of_ne hk sequence a
  nobody h := ⟨ReplyTable.slots_of_nobody h a, ReplyTable.slots_of_nobody h b⟩
  one _ h := ⟨(ReplyTable.waiting_of_addressee h).1, ReplyTable.slots_of_addressee h a,
    ReplyTable.slots_of_addressee h b⟩

theorem Parallel.collected {d d₁ d₂ : Dispatcher} {kind : ReplyKind} {sequence : UInt32}
    {a b : Answer} (h : d.Parallel kind sequence a b d₁ d₂) {w : Waiter}
    (reached : d.table.addressee? kind sequence = some w) (c : Client) :
    (c.dispatcher = d₁ → (c.collect ⟨w.ticket, kind⟩).1 = some (Client.result kind a)) ∧
      (c.dispatcher = d₂ → (c.collect ⟨w.ticket, kind⟩).1 = some (Client.result kind b)) := by
  have hlt := (List.getElem?_eq_some_iff.mp (ReplyTable.waiting_of_addressee reached).2).1
  obtain ⟨-, h₁, h₂⟩ := h.one w reached
  constructor
  · rintro rfl
    refine Client.collect_of_answered (p := ⟨w.ticket, kind⟩) ?_
    rw [h₁]
    exact List.getElem?_set_self hlt
  · rintro rfl
    refine Client.collect_of_answered (p := ⟨w.ticket, kind⟩) ?_
    rw [h₂]
    exact List.getElem?_set_self hlt

/-- Of two frames of one reply type under one number, the one that can be decoded gives a waiter
its reply, and the other gives the same waiter the error that dispatching it returns; if the one
finds no waiter, neither does the other.  The waiters left are the same, kind by kind and in
order.  A frame of any other type that cannot be decoded changes nothing. -/
theorem undecodable_reply_fails_addressee (d : Dispatcher) {kind : ReplyKind} {f g : Frame}
    {m : Message} {e : ProtocolError} (code : f.header.type = kind.type.code)
    (sameType : g.header.type = f.header.type)
    (sameSequence : g.header.sequence = f.header.sequence)
    (decoded : f.message = .ok m) (failed : g.message = .error e) :
    let w? := d.table.addressee? kind f.header.sequence
    let d₁ := (d.dispatchFrame f).2
    let d₂ := (d.dispatchFrame g).2
    ∃ r needed, m = .reply r ∧ r.kind = kind ∧
      e = .truncatedPayload kind.type.payloadName needed g.payload.length ∧
      (d.dispatchFrame f).1 = .ok (.reply kind w?.isSome) ∧ (d.dispatchFrame g).1 = .error e ∧
      d.Parallel kind f.header.sequence (.ok r) (.error (.undecodable e)) d₁ d₂ ∧
      (∀ w, w? = some w → ∀ c : Client,
        (c.dispatcher = d₁ → (c.collect ⟨w.ticket, kind⟩).1 = some (.ok r)) ∧
        (c.dispatcher = d₂ → (c.collect ⟨w.ticket, kind⟩).1 = some (.error (.protocol e)))) ∧
      ∀ h e', (∀ k : ReplyKind, h.header.type ≠ k.type.code) → h.message = .error e' →
        d.dispatchFrame h = (.error e', d) := by
  intro w? d₁ d₂
  have code' : g.header.type = kind.type.code := sameType.trans code
  obtain ⟨r, rfl, hr, hf⟩ := d.dispatchFrame_of_decoded code decoded
  have hg := d.dispatchFrame_of_failed code' failed
  obtain ⟨needed, he⟩ :=
    Frame.error_of_type (Frame.type_of_replyKind (Frame.replyKind_of_code code')) failed
  have hparallel : d.Parallel kind f.header.sequence (.ok r) (.error (.undecodable e)) d₁ d₂ := by
    show Parallel _ _ _ _ _ (d.dispatchFrame f).2 (d.dispatchFrame g).2
    rw [hf, hg, sameSequence]
    exact d.parallel kind f.header.sequence (.ok r) (.error (.undecodable e))
  have hresult : Client.result kind (.ok r) = .ok r := if_pos hr
  refine ⟨r, needed, rfl, hr, he, ?_, ?_, hparallel, fun w hw c => ?_,
    fun h e' other undecoded => ?_⟩
  · rw [hf, ReplyTable.taken_deliver]
  · rw [hg]
  · have hcollected := hparallel.collected hw c
    rwa [hresult] at hcollected
  · have hpasses : d.Passes h := passes other fun n hn => by cases hn.symm.trans undecoded
    rw [hpasses.gives, undecoded]
    rfl

/-- The layer of window 1, answered twice under number 7: in full, and cut short. -/
def layerFrame : Frame := Frame.ofMessage (.reply (.windowLayer ⟨1, 2, 0⟩)) 7

def cutFrame : Frame := { layerFrame with payload := [1, 0] }

def twoWaiters : Dispatcher :=
  (((empty.register .windowLayer 5).2).register .windowLayer 7).2

theorem undecodable_reply_fails_addressee_cutFrame :
    layerFrame.message = .ok (.reply (.windowLayer ⟨1, 2, 0⟩)) ∧
    cutFrame.message = .error (.truncatedPayload "WindowLayerData" 12 2) ∧
    twoWaiters.table.addressee? .windowLayer 7 = some ⟨1, 7⟩ ∧
    ∀ c : Client, c.dispatcher = (twoWaiters.dispatchFrame cutFrame).2 →
      (c.collect ⟨1, .windowLayer⟩).1 =
        some (.error (.protocol (.truncatedPayload "WindowLayerData" 12 2))) := by
  have hdecoded : layerFrame.message = .ok (.reply (.windowLayer ⟨1, 2, 0⟩)) := by rfl
  have hfailed : cutFrame.message = .error (.truncatedPayload "WindowLayerData" 12 2) := by rfl
  have hwaiter : twoWaiters.table.addressee? .windowLayer 7 = some ⟨1, 7⟩ := by rfl
  have hcode : layerFrame.header.type = ReplyKind.windowLayer.type.code := by rfl
  obtain ⟨r, needed, -, -, -, -, -, -, hcollected, -⟩ := undecodable_reply_fails_addressee
    twoWaiters (g := cutFrame) hcode rfl rfl hdecoded hfailed
  exact ⟨hdecoded, hfailed, hwaiter, fun c => (hcollected ⟨1, 7⟩ hwaiter c).2⟩

end Dispatcher

end CompositorClient
