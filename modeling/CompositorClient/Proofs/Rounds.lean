import CompositorClient.Proofs.ReplyTable

/-! The rounds of a delivery, while holders of tickets give them up.  In each round a waiter is
taken out of the queue and offered the answer; if its holder has gone in the meantime the answer
comes back, and the next round chooses anew among those that are left.  Each round leaves a shorter
queue, so there are no more rounds than waiters, and the answer is lost only if all of them have
gone. -/

namespace CompositorClient

namespace Waiter

/-- The rule picks `w`, with `before` in front of it and `after` behind: the first that carries the
number, if there is a number and it is carried, and else the first of all. -/
structure Picks (sequence : UInt32) (queue before : List Waiter) (w : Waiter)
    (after : List Waiter) : Prop where
  split : queue = before ++ w :: after
  rule : (sequence ≠ 0 ∧ w.sequence = sequence ∧ ∀ v ∈ before, v.sequence ≠ sequence) ∨
    (before = [] ∧ (sequence = 0 ∨ ∀ v ∈ queue, v.sequence ≠ sequence))

/-- From round `round` on the waiters `failed` are picked one after another, each from those left by
then, and each is not present in its round.  `left` are left. -/
inductive Tried (present : Nat → Waiter → Bool) (sequence : UInt32) :
    Nat → List Waiter → List Waiter → List Waiter → Prop
  | done {round queue} : Tried present sequence round queue [] queue
  | again {round queue before w after failed left} (picks : Picks sequence queue before w after)
      (gone : present round w = false)
      (rest : Tried present sequence (round + 1) (before ++ after) failed left) :
      Tried present sequence round queue (w :: failed) left

variable {sequence : UInt32} {round : Nat} {queue before after failed left : List Waiter}
  {w : Waiter} {present : Nat → Waiter → Bool}

theorem eq_nil_of_choose (h : queue[choose sequence queue]? = none) : queue = [] := by
  by_contra hne
  have hlt : choose sequence queue < queue.length := choose_lt hne
  simp [List.getElem?_eq_getElem hlt] at h

theorem picks_choose (h : queue[choose sequence queue]? = some w) :
    ∃ before after, Picks sequence queue before w after := by
  obtain ⟨hlt, hw⟩ := List.getElem?_eq_some_iff.mp h
  refine ⟨queue.take (choose sequence queue), queue.drop (choose sequence queue + 1), ?_, ?_⟩
  · rw [← hw, List.getElem_cons_drop, List.take_append_drop]
  · by_cases h0 : sequence = 0
    · have hchoose : choose sequence queue = 0 := if_pos h0
      exact .inr ⟨by simp [hchoose], .inl h0⟩
    · cases hfind : queue.findIdx? (·.sequence == sequence) with
      | none =>
        have hchoose : choose sequence queue = 0 := by simp [choose, h0, hfind]
        exact .inr ⟨by simp [hchoose], .inr (by simpa using hfind)⟩
      | some i =>
        have hchoose : choose sequence queue = i := by simp [choose, h0, hfind]
        obtain ⟨hi, hmark, hfirst⟩ := List.findIdx?_eq_some_iff_getElem.mp hfind
        refine .inl ⟨h0, ?_, fun v hv => ?_⟩
        · simpa [← hw, hchoose] using hmark
        · rw [hchoose] at hv
          obtain ⟨j, hj, rfl⟩ := List.mem_take_iff_getElem.mp hv
          simpa using hfirst j (by omega)

/-- The rule leaves no choice. -/
theorem Picks.choose_eq (h : Picks sequence queue before w after) :
    choose sequence queue = before.length := by
  rcases h.rule with ⟨h0, hw, hbefore⟩ | ⟨rfl, h0 | hnone⟩
  · have hfind : before.findIdx? (·.sequence == sequence) = none := by simpa using hbefore
    simp [choose, h.split, h0, hw, List.findIdx?_append, List.findIdx?_cons, hfind]
  · simp [choose, h0]
  · have hfind : queue.findIdx? (·.sequence == sequence) = none := by simpa using hnone
    simp [choose, hfind]

theorem Picks.getElem?_choose (h : Picks sequence queue before w after) :
    queue[choose sequence queue]? = some w := by
  rw [h.choose_eq, h.split]
  simp

theorem Picks.eraseIdx_choose (h : Picks sequence queue before w after) :
    queue.eraseIdx (choose sequence queue) = before ++ after := by
  rw [h.choose_eq, h.split]
  simp [List.eraseIdx_append_of_length_le]

namespace Tried

theorem perm (h : Tried present sequence round queue failed left) :
    (failed ++ left).Perm queue := by
  induction h with
  | done => exact .refl _
  | again picks gone rest ih =>
    rw [picks.split]
    exact (ih.cons _).trans List.perm_middle.symm

theorem sublist (h : Tried present sequence round queue failed left) : left.Sublist queue := by
  induction h with
  | done => exact .refl _
  | again picks gone rest ih =>
    rw [picks.split]
    exact ih.trans ((List.Sublist.refl _).append (List.sublist_cons_self _ _))

theorem gone (h : Tried present sequence round queue failed left) {i : Nat}
    (hi : i < failed.length) : present (round + i) failed[i] = false := by
  induction h generalizing i with
  | done => simp at hi
  | again picks gone rest ih =>
    cases i with
    | zero => simpa using gone
    | succ i =>
      have := ih (i := i) (by simpa using hi)
      simpa [Nat.add_assoc, Nat.add_comm 1] using this

end Tried

/-- The offers end with nobody left, or with the first pick that is alive. -/
theorem offer_tried (present : Nat → Waiter → Bool) (sequence : UInt32) (round : Nat)
    (queue : List Waiter) :
    ∃ failed left, Tried present sequence round queue failed left ∧
      (left = [] ∧ offer present sequence round queue = (none, []) ∨
        ∃ before w after, Picks sequence left before w after ∧
          present (round + failed.length) w = true ∧
          offer present sequence round queue = (some w, before ++ after)) := by
  fun_induction offer present sequence round queue with
  | case1 round queue h =>
    obtain rfl := eq_nil_of_choose h
    exact ⟨[], [], .done, .inl ⟨rfl, rfl⟩⟩
  | case2 round queue w h rest hlt halive =>
    obtain ⟨before, after, picks⟩ := picks_choose h
    exact ⟨[], queue, .done,
      .inr ⟨before, w, after, picks, halive, congrArg _ picks.eraseIdx_choose⟩⟩
  | case3 round queue w h rest hlt hgone ih =>
    obtain ⟨before, after, picks⟩ := picks_choose h
    obtain ⟨failed, left, htried, hend⟩ := ih
    rw [show rest = before ++ after from picks.eraseIdx_choose] at htried
    refine ⟨w :: failed, left, .again picks (by simpa using hgone) htried, ?_⟩
    simpa [Nat.add_assoc, Nat.add_comm 1] using hend

end Waiter

namespace ReplyTable

variable {t : ReplyTable} {drops : Nat → List Ticket} {sequence : UInt32} {round : Nat}
  {kind : ReplyKind} {queue before after failed left : List Waiter} {w : Waiter} {i : Ticket}

/-- Holders give up their tickets before the send of each round, those in `drops i` in round `i`;
this is what the first `n` rounds leave. -/
def amid (t : ReplyTable) (drops : Nat → List Ticket) : Nat → ReplyTable
  | 0 => t
  | n + 1 => (drops n).foldl abandon (t.amid drops n)

def staying (t : ReplyTable) (drops : Nat → List Ticket) (round : Nat) (w : Waiter) : Bool :=
  (t.amid drops (round + 1)).isWaiting w.ticket

def send (t : ReplyTable) (ticket : Ticket) (answer : Answer) : Except Answer ReplyTable :=
  if t.isWaiting ticket then .ok (t.setSlot ticket (.answered answer)) else .error answer

/-- The rounds of a delivery, with what is left of the queue; none if they are not over after so
many turns. -/
def handOut (drops : Nat → List Ticket) (sequence : UInt32) :
    Nat → Nat → ReplyTable → List Waiter → Answer → Option (Bool × ReplyTable × List Waiter)
  | 0, _, _, _, _ => none
  | turns + 1, round, t, queue, answer =>
    match queue[Waiter.choose sequence queue]? with
    | none => some (false, t, queue)
    | some w =>
      match ((drops round).foldl abandon t).send w.ticket answer with
      | .ok t => some (true, t, queue.eraseIdx (Waiter.choose sequence queue))
      | .error back =>
        handOut drops sequence turns (round + 1) ((drops round).foldl abandon t)
          (queue.eraseIdx (Waiter.choose sequence queue)) back

def deliverAmid (drops : Nat → List Ticket) (turns : Nat) (t : ReplyTable) (kind : ReplyKind)
    (sequence : UInt32) (answer : Answer) : Option (Bool × ReplyTable) :=
  (handOut drops sequence turns 0 t (t.live kind) answer).map
    fun (taken, t, rest) => (taken, t.setQueue kind rest)

@[simp] theorem amid_nil (t : ReplyTable) (n : Nat) : t.amid (fun _ => []) n = t := by
  induction n with
  | zero => rfl
  | succ n ih => simp [amid, ih]

theorem isWaiting_of_foldl_abandon {tickets : List Ticket}
    (h : (tickets.foldl abandon t).isWaiting i = true) : t.isWaiting i = true := by
  induction tickets generalizing t with
  | nil => exact h
  | cons j tickets ih =>
    have habandoned := ih h
    rw [isWaiting_iff, abandon, slots_setSlot] at habandoned
    rw [isWaiting_iff]
    rcases of_getElem?_set habandoned with ⟨heq, -⟩ | ⟨hslot, -⟩
    · cases heq
    · exact hslot

theorem isWaiting_of_amid {m n : Nat} (hle : m ≤ n) (h : (t.amid drops n).isWaiting i = true) :
    (t.amid drops m).isWaiting i = true := by
  induction hle with
  | refl => exact h
  | step _ ih => exact ih (isWaiting_of_foldl_abandon h)

theorem handOut_nil (drops : Nat → List Ticket) (sequence : UInt32) (turns round : Nat)
    (t : ReplyTable) (answer : Answer) :
    handOut drops sequence (turns + 1) round t [] answer = some (false, t, []) := by
  simp [handOut]

theorem handOut_of_picks (picks : Waiter.Picks sequence queue before w after) (t : ReplyTable)
    (drops : Nat → List Ticket) (turns round : Nat) (answer : Answer) :
    handOut drops sequence (turns + 1) round (t.amid drops round) queue answer =
      if t.staying drops round w then
        some (true, (t.amid drops (round + 1)).setSlot w.ticket (.answered answer), before ++ after)
      else handOut drops sequence turns (round + 1) (t.amid drops (round + 1)) (before ++ after)
        answer := by
  simp only [handOut, picks.getElem?_choose, picks.eraseIdx_choose, amid]
  by_cases h : ((drops round).foldl abandon (t.amid drops round)).isWaiting w.ticket = true <;>
    simp [send, staying, amid, h]

/-- Each waiter that has gone takes a round and hands back the answer it was offered. -/
theorem handOut_of_tried (tried : Waiter.Tried (t.staying drops) sequence round queue failed left)
    (turns : Nat) (answer : Answer) :
    handOut drops sequence (turns + failed.length) round (t.amid drops round) queue answer =
      handOut drops sequence turns (round + failed.length) (t.amid drops (round + failed.length))
        left answer := by
  induction tried with
  | done => rfl
  | again picks gone rest ih =>
    simp [← Nat.add_assoc, handOut_of_picks picks, gone, ih, Nat.add_right_comm _ 1]

/-- One that has gone by the round in which it is picked has gone for good. -/
theorem isWaiting_of_tried (tried : Waiter.Tried (t.staying drops) sequence 0 queue failed left)
    (hw : w ∈ failed) : (t.amid drops failed.length).isWaiting w.ticket = false := by
  obtain ⟨i, hi, rfl⟩ := List.getElem_of_mem hw
  have hgone := tried.gone hi
  rw [Nat.zero_add, staying] at hgone
  by_contra hwaiting
  have hstill := isWaiting_of_amid (Nat.succ_le_of_lt hi) (by simpa using hwaiting)
  simp [hgone] at hstill

/-- Those that are in the queue and are not left were purged or picked. -/
theorem isWaiting_of_not_left
    (tried : Waiter.Tried (t.staying drops) sequence 0 (t.live kind) failed left)
    (hw : w ∈ t.queues kind) (hout : w ∉ left) :
    (t.amid drops failed.length).isWaiting w.ticket = false := by
  by_cases hwaiting : t.isWaiting w.ticket = true
  · have hlive : w ∈ failed ++ left := tried.perm.mem_iff.mpr (by simp [live, hw, hwaiting])
    exact isWaiting_of_tried tried (by simpa [hout] using hlive)
  · by_contra hlater
    exact hwaiting (isWaiting_of_amid (Nat.zero_le _) (by simpa using hlater))

/-- What a delivery comes to, by the offers and by the rounds, when all of `failed` have been picked
in vain.  The rounds are over within one turn more than there are waiters. -/
inductive ComesTo (t : ReplyTable) (drops : Nat → List Ticket) (kind : ReplyKind)
    (sequence : UInt32) (answer : Answer) (failed left : List Waiter) : Prop
  | lost (nobody : left = [])
      (offers : Waiter.offer (t.staying drops) sequence 0 (t.live kind) = (none, []))
      (rounds : ∀ turns, (t.live kind).length < turns →
        deliverAmid drops turns t kind sequence answer =
          some (false, (t.amid drops failed.length).setQueue kind []))
  | taken {before : List Waiter} {w : Waiter} {after : List Waiter}
      (picks : Waiter.Picks sequence left before w after)
      (stays : t.staying drops failed.length w = true)
      (offers : Waiter.offer (t.staying drops) sequence 0 (t.live kind) = (some w, before ++ after))
      (rounds : ∀ turns, (t.live kind).length < turns →
        deliverAmid drops turns t kind sequence answer =
          some (true, ((t.amid drops (failed.length + 1)).setSlot w.ticket
            (.answered answer)).setQueue kind (before ++ after)))

theorem exists_comesTo (t : ReplyTable) (kind : ReplyKind) (sequence : UInt32)
    (answer : Answer) (drops : Nat → List Ticket) :
    ∃ failed left, Waiter.Tried (t.staying drops) sequence 0 (t.live kind) failed left ∧
      ComesTo t drops kind sequence answer failed left := by
  obtain ⟨failed, left, tried, hend⟩ :=
    Waiter.offer_tried (t.staying drops) sequence 0 (t.live kind)
  have hturns : ∀ turns, (t.live kind).length < turns →
      ∃ spare, turns = spare + 1 + failed.length := by
    intro turns h
    have hlength : failed.length + left.length = (t.live kind).length := by
      simpa using tried.perm.length_eq
    exact ⟨turns - 1 - failed.length, by omega⟩
  refine ⟨failed, left, tried, ?_⟩
  rcases hend with ⟨rfl, hoffer⟩ | ⟨before, w, after, picks, hstays, hoffer⟩
  · refine .lost rfl hoffer fun turns h => ?_
    obtain ⟨spare, rfl⟩ := hturns turns h
    have hround := handOut_of_tried tried (spare + 1) answer
    rw [handOut_nil, Nat.zero_add, amid] at hround
    simp [deliverAmid, hround]
  · rw [Nat.zero_add] at hstays
    refine .taken picks hstays hoffer fun turns h => ?_
    obtain ⟨spare, rfl⟩ := hturns turns h
    have hround := handOut_of_tried tried (spare + 1) answer
    rw [handOut_of_picks picks, Nat.zero_add, if_pos hstays, amid] at hround
    simp [deliverAmid, hround]

theorem deliverAmid_nil (t : ReplyTable) (kind : ReplyKind) (sequence : UInt32)
    (answer : Answer) {turns : Nat} (h : (t.live kind).length < turns) :
    deliverAmid (fun _ => []) turns t kind sequence answer =
      some (t.deliver kind sequence answer) := by
  have hstaying : t.staying (fun _ => []) = fun _ w => t.isWaiting w.ticket := by
    funext round w
    simp [staying]
  obtain ⟨failed, left, -, comes⟩ := exists_comesTo t kind sequence answer fun _ => []
  cases comes with
  | lost _ offers rounds =>
    rw [hstaying] at offers
    simp [rounds turns h, deliver, offers]
  | taken _ _ offers rounds =>
    rw [hstaying] at offers
    simp [rounds turns h, deliver, offers]

/-- Whatever tickets are given up while an answer is delivered, the delivery ends.  Only those that
have gone are passed over; the rule, applied to those left each time, finds the first that has not,
and that one gets the answer as it came.  Nobody gets it only if all have gone.  The others stay in
the queue in order.  When nothing is given up, this is `deliver`. -/
theorem delivery_outlasts_drops (t : ReplyTable) (kind : ReplyKind) (sequence : UInt32)
    (answer : Answer) (drops : Nat → List Ticket) :
    (∃ failed left, Waiter.Tried (t.staying drops) sequence 0 (t.live kind) failed left ∧
      ComesTo t drops kind sequence answer failed left ∧
      left.Sublist (t.queues kind) ∧
      ∀ w ∈ t.queues kind, w ∉ left → (t.amid drops failed.length).isWaiting w.ticket = false) ∧
    ∀ turns, (t.live kind).length < turns →
      deliverAmid (fun _ => []) turns t kind sequence answer =
        some (t.deliver kind sequence answer) := by
  obtain ⟨failed, left, tried, comes⟩ := exists_comesTo t kind sequence answer drops
  refine ⟨⟨failed, left, tried, comes, ?_, fun w hw hout => isWaiting_of_not_left tried hw hout⟩,
    fun turns h => deliverAmid_nil t kind sequence answer h⟩
  exact tried.sublist.trans List.filter_sublist

end ReplyTable
end CompositorClient
