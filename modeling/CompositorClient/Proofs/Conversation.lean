import CompositorClient.Proofs.Intact
import CompositorClient.Proofs.ReplyTable
import Mathlib.Algebra.Group.Nat.Defs

/-! Queries and replies on one connection.  With a server that answers each query once, and
marks a reply by the query's number or, when it owes that kind of reply to no earlier query, by
zero, every reply comes to the query that it answers. -/

namespace CompositorClient

open ReplyTable

theorem map_set_of_eq {α β : Type} {l : List α} {f : α → β} {i : Nat} {x y : α}
    (hx : l[i]? = some x) (hf : f y = f x) : (l.set i y).map f = l.map f := by
  obtain ⟨hi, rfl⟩ := List.getElem?_eq_some_iff.mp hx
  have hi' : i < (l.map f).length := by rwa [List.length_map]
  have hget : (l.map f)[i] = f l[i] := List.getElem_map f
  rw [List.map_set, hf, ← hget, List.set_getElem_self]

/-- A query that was made, the reply that the server gave it, and the result that its caller
got. -/
structure Exchange where
  ticket : Ticket
  kind : ReplyKind
  sequence : UInt32
  reply : Option Reply := none
  result : Option Answer := none

def Exchange.key (x : Exchange) : ReplyKind × UInt32 := (x.kind, x.sequence)

/-- The reply is for query `i` of the log, which has none yet, and is marked with the number
of that query or, when no earlier query still waits for such a reply, with zero. -/
structure Answers (log : List Exchange) (i : Nat) (x : Exchange) (r : Reply)
    (sequence : UInt32) : Prop where
  asked : log[i]? = some x
  kind_eq : x.kind = r.kind
  unanswered : x.reply = none
  marked : sequence = x.sequence ∨
    sequence = 0 ∧ ∀ j y, log[j]? = some y → y.kind = r.kind → y.reply = none → i ≤ j

/-- The runs of one connection with a well-behaved server, in which no query is given up and no
task ends the connection.  A query first draws its number and then registers, with any other
steps in between: `log` holds the queries in the order of registration and `drawn` the numbers
that are not registered yet. -/
inductive Conversation : List Exchange → List UInt32 → Connection → Dispatcher → Prop
  | start (transport : Transport) (d : Dispatcher) (fresh : d.table = .empty) :
      Conversation [] [] (Connection.start transport d).connection
        (Connection.start transport d).dispatcher
  | quiet {log drawn c c' d d'} (h : Conversation log drawn c d)
      (step : Connection.Quiet c d c' d') (intact : c'.Intact) : Conversation log drawn c' d'
  | draw {log drawn c d s sequence} (h : Conversation log drawn c d)
      (hs : c.sequence.next = (s, sequence)) :
      Conversation log (drawn ++ [s]) { c with sequence } d
  | register {log drawn c s} {d : Dispatcher} (h : Conversation log drawn c d)
      (kind : ReplyKind) (hs : s ∈ drawn) :
      Conversation (log ++ [⟨(d.register kind s).1, kind, s, none, none⟩]) (drawn.erase s) c
        (d.register kind s).2
  | answer {log drawn c d f r i x e} (h : Conversation log drawn c d)
      (front : c.inbox.next.1 = some (.ok f)) (decodes : f.message = .ok (.reply r))
      (answers : Answers log i x r f.header.sequence) (step : c.readerStep d = some e)
      (intact : e.connection.Intact) :
      Conversation (log.set i { x with reply := some r }) drawn e.connection e.dispatcher
  | collect {log drawn c i a} {d : Dispatcher} {x : Exchange}
      (h : Conversation log drawn c d) (asked : log[i]? = some x)
      (found : (d.table.collect x.ticket).1 = some a) :
      Conversation (log.set i { x with result := some a }) drawn c
        { d with table := (d.table.collect x.ticket).2 }

/-- How a query stands: without a reply it waits, and with one its slot or its caller holds
just that reply. -/
structure Settled (t : ReplyTable) (x : Exchange) : Prop where
  pending : x.reply = none → t.slots[x.ticket]? = some .waiting ∧ x.result = none
  answered : ∀ r, x.reply = some r → r.kind = x.kind ∧
    (t.slots[x.ticket]? = some (.answered (.ok r)) ∧ x.result = none ∨
      t.slots[x.ticket]? = some .collected ∧ x.result = some (.ok r))

theorem Settled.congr {t t' : ReplyTable} {x : Exchange} (h : Settled t x)
    (heq : t'.slots[x.ticket]? = t.slots[x.ticket]?) : Settled t' x := by
  refine ⟨?_, ?_⟩
  · rw [heq]
    exact h.pending
  · rw [heq]
    exact h.answered

theorem Settled.collect_eq {t : ReplyTable} {x : Exchange} {r : Reply} (h : Settled t x)
    (hreply : x.reply = some r) (hresult : x.result = none) :
    (t.collect x.ticket).1 = some (.ok r) := by
  rcases (h.answered r hreply).2 with ⟨hslot, -⟩ | ⟨-, hgot⟩
  · rw [ReplyTable.collect, hslot]
  · rw [hresult] at hgot
    cases hgot

namespace Conversation

variable {log : List Exchange} {drawn : List UInt32} {c : Connection} {d : Dispatcher}

def issued (log : List Exchange) (drawn : List UInt32) : List UInt32 :=
  log.map Exchange.sequence ++ drawn

structure Ongoing (log : List Exchange) (drawn : List UInt32) (c : Connection) (d : Dispatcher) :
    Prop where
  consistent : Consistent (log.map Exchange.key) d.table
  opened : d.table.closed = false
  distinct : (issued log drawn).Nodup
  counter : c.sequence.stored.toNat = (issued log drawn).length + 1
  bounded : ∀ s ∈ issued log drawn, 0 < s.toNat ∧ s.toNat < c.sequence.stored.toNat
  ticket_eq : ∀ {i : Nat} {x : Exchange}, log[i]? = some x → x.ticket = i
  settled : ∀ {i : Nat} {x : Exchange}, log[i]? = some x → Settled d.table x

theorem length_issued (log : List Exchange) (drawn : List UInt32) :
    (issued log drawn).length = log.length + drawn.length := by
  simp [issued]

theorem issued_register {x : Exchange} (hs : x.sequence ∈ drawn) :
    (issued (log ++ [x]) (drawn.erase x.sequence)).Perm (issued log drawn) := by
  rw [issued, List.map_append, List.append_assoc]
  exact (List.perm_cons_erase hs).symm.append_left _

namespace Ongoing

theorem start (transport : Transport) {d : Dispatcher} (fresh : d.table = .empty) :
    Ongoing [] [] (Connection.start transport d).connection
      (Connection.start transport d).dispatcher where
  consistent := by
    rw [Connection.start, fresh]
    exact Consistent.empty
  opened := by
    rw [Connection.start, fresh]
    rfl
  distinct := List.nodup_nil
  counter := rfl
  bounded := by simp [issued]
  ticket_eq h := by simp at h
  settled h := by simp at h

theorem quiet (h : Ongoing log drawn c d) (intact : c.Intact) {c' : Connection}
    {d' : Dispatcher} (step : Connection.Quiet c d c' d') : Ongoing log drawn c' d' := by
  obtain ⟨htable, hsequence⟩ := step.frame intact
  refine ⟨?_, ?_, h.distinct, ?_, ?_, h.ticket_eq, ?_⟩
  · rw [htable]
    exact h.consistent
  · rw [htable]
    exact h.opened
  · rw [hsequence]
    exact h.counter
  · rw [hsequence]
    exact h.bounded
  · rw [htable]
    exact h.settled

theorem draw (h : Ongoing log drawn c d) (room : (issued log drawn).length + 2 < 2 ^ 32)
    {s : UInt32} {sequence : Sequence} (hs : c.sequence.next = (s, sequence)) :
    Ongoing log (drawn ++ [s]) { c with sequence } d := by
  have hcounter := h.counter
  have hne : c.sequence.stored ≠ 0 := by
    intro hzero
    rw [hzero] at hcounter
    simp at hcounter
  rw [Sequence.next_of_ne_zero hne] at hs
  cases hs
  have hissued : issued log (drawn ++ [c.sequence.stored]) =
      issued log drawn ++ [c.sequence.stored] := by
    rw [issued, issued, List.append_assoc]
  have hstored : (c.sequence.stored + 1).toNat = c.sequence.stored.toNat + 1 := by
    rw [UInt32.toNat_add, UInt32.toNat_one, Nat.mod_eq_of_lt (by omega)]
  refine ⟨h.consistent, h.opened, ?_, ?_, ?_, h.ticket_eq, h.settled⟩
  · rw [hissued, List.nodup_append]
    refine ⟨h.distinct, List.nodup_singleton _, ?_⟩
    rintro s hs _ hlast rfl
    have hlt := (h.bounded s hs).2
    rw [List.mem_singleton.mp hlast] at hlt
    exact Nat.lt_irrefl _ hlt
  · rw [hissued, List.length_append, List.length_singleton, ← hcounter]
    exact hstored
  · intro s hs
    rw [hissued, List.mem_append, List.mem_singleton] at hs
    dsimp only
    rw [hstored]
    rcases hs with hs | rfl
    · have hb := h.bounded s hs
      omega
    · omega

theorem register (h : Ongoing log drawn c d) (kind : ReplyKind) {s : UInt32} (hs : s ∈ drawn) :
    Ongoing (log ++ [⟨(d.register kind s).1, kind, s, none, none⟩]) (drawn.erase s) c
      (d.register kind s).2 := by
  have hperm : (issued (log ++ [⟨(d.register kind s).1, kind, s, none, none⟩])
      (drawn.erase s)).Perm (issued log drawn) := issued_register hs
  have hregister : d.table.register kind s = (d.table.slots.length,
      { d.table.setQueue kind (d.table.queues kind ++ [⟨d.table.slots.length, s⟩]) with
        slots := d.table.slots ++ [.waiting] }) := by
    rw [ReplyTable.register, if_neg (by simp [h.opened])]
  have hlength : d.table.slots.length = log.length := by
    rw [h.consistent.length_slots, List.length_map]
  refine ⟨?_, ?_, hperm.nodup_iff.mpr h.distinct, ?_, ?_, ?_, ?_⟩
  · rw [List.map_append]
    exact h.consistent.register kind s
  · rw [Dispatcher.register, hregister]
    exact h.opened
  · rw [hperm.length_eq]
    exact h.counter
  · intro n hn
    exact h.bounded n (hperm.mem_iff.mp hn)
  · intro i x hx
    rcases of_getElem?_concat hx with hold | ⟨rfl, rfl⟩
    · exact h.ticket_eq hold
    · rw [Dispatcher.register, hregister]
      exact hlength
  · intro i x hx
    rcases of_getElem?_concat hx with hold | ⟨rfl, rfl⟩
    · refine (h.settled hold).congr ?_
      have hlt := (List.getElem?_eq_some_iff.mp hold).1
      rw [Dispatcher.register, hregister, h.ticket_eq hold]
      exact List.getElem?_append_left (by omega)
    · refine ⟨fun _ => ⟨?_, rfl⟩, by simp⟩
      rw [Dispatcher.register, hregister]
      exact List.getElem?_concat_length

theorem set (h : Ongoing log drawn c d) {i : Nat} {x y : Exchange} {c' : Connection}
    {d' : Dispatcher} (hx : log[i]? = some x) (hkey : y.key = x.key) (hticket : y.ticket = x.ticket)
    (hsequence : c'.sequence = c.sequence) (consistent : Consistent (log.map Exchange.key) d'.table)
    (opened : d'.table.closed = false)
    (others : ∀ j, i ≠ j → d'.table.slots[j]? = d.table.slots[j]?)
    (settled : Settled d'.table y) : Ongoing (log.set i y) drawn c' d' := by
  have hissued : issued (log.set i y) drawn = issued log drawn := by
    rw [issued, map_set_of_eq hx (congrArg Prod.snd hkey), issued]
  refine ⟨?_, opened, ?_, ?_, ?_, ?_, ?_⟩
  · rw [map_set_of_eq hx hkey]
    exact consistent
  · rw [hissued]
    exact h.distinct
  · rw [hissued, hsequence]
    exact h.counter
  · rw [hissued, hsequence]
    exact h.bounded
  · intro j z hz
    rcases of_getElem?_set hz with ⟨rfl, rfl⟩ | ⟨hz, -⟩
    · rw [hticket, h.ticket_eq hx]
    · exact h.ticket_eq hz
  · intro j z hz
    rcases of_getElem?_set hz with ⟨rfl, rfl⟩ | ⟨hz, hij⟩
    · exact settled
    · refine (h.settled hz).congr (others _ ?_)
      rw [h.ticket_eq hz]
      exact hij

theorem exists_of_live (h : Ongoing log drawn c d) {kind : ReplyKind} {w : Waiter}
    (hw : Live (log.map Exchange.key) d.table kind w) :
    ∃ y, log[w.ticket]? = some y ∧ y.kind = kind ∧ y.sequence = w.sequence ∧ y.reply = none := by
  obtain ⟨hlog, hslot⟩ := hw
  rw [List.getElem?_map] at hlog
  obtain ⟨y, hy, hkey⟩ := Option.map_eq_some_iff.mp hlog
  rw [← h.ticket_eq hy] at hslot
  refine ⟨y, hy, congrArg Prod.fst hkey, congrArg Prod.snd hkey, ?_⟩
  cases hr : y.reply with
  | none => rfl
  | some r =>
    rcases ((h.settled hy).answered r hr).2 with ⟨hs, -⟩ | ⟨hs, -⟩
    · rw [hslot] at hs
      cases hs
    · rw [hslot] at hs
      cases hs

theorem live_of_answers (h : Ongoing log drawn c d) {i : Nat} {x : Exchange} {r : Reply}
    {s : UInt32} (ha : Answers log i x r s) :
    Live (log.map Exchange.key) d.table r.kind ⟨i, x.sequence⟩ := by
  have hslot := ((h.settled ha.asked).pending ha.unanswered).1
  rw [h.ticket_eq ha.asked] at hslot
  refine ⟨?_, hslot⟩
  rw [List.getElem?_map, ha.asked, ← ha.kind_eq]
  rfl

theorem eq_of_sequence_eq (h : Ongoing log drawn c d) {i j : Nat} {x y : Exchange}
    (hx : log[i]? = some x) (hy : log[j]? = some y) (heq : x.sequence = y.sequence) : i = j := by
  have hnodup : (log.map Exchange.sequence).Nodup := (List.nodup_append.mp h.distinct).1
  have hi : i < (log.map Exchange.sequence).length := by
    rw [List.length_map]
    exact (List.getElem?_eq_some_iff.mp hx).1
  refine (List.getElem?_inj hi hnodup).mp ?_
  rw [List.getElem?_map, List.getElem?_map, hx, hy, Option.map_some, Option.map_some, heq]

/-- The rule by which the table chooses finds the query that the server meant. -/
theorem ticket_eq_of_answers (h : Ongoing log drawn c d) {i : Nat} {x : Exchange} {r : Reply}
    {s : UInt32} (ha : Answers log i x r s) {w : Waiter}
    (hw : Waiter.Addressee (Live (log.map Exchange.key) d.table r.kind) s w) : w.ticket = i := by
  have hlive := h.live_of_answers ha
  obtain ⟨y, hy, hkind, hsequence, hreply⟩ := h.exists_of_live hw.mem
  rcases ha.marked with hecho | ⟨hzero, holdest⟩
  · have hmem : x.sequence ∈ issued log drawn :=
      List.mem_append_left _ (List.mem_map_of_mem (List.mem_of_getElem? ha.asked))
    have hne : s ≠ 0 := by
      rintro rfl
      have hpos := (h.bounded _ hmem).1
      rw [← hecho] at hpos
      exact Nat.lt_irrefl _ hpos
    have hchosen := hw.echoed hne ⟨_, hlive, hecho.symm⟩
    exact h.eq_of_sequence_eq hy ha.asked (by rw [hsequence, hchosen.1.2, hecho])
  · have hchosen := hw.oldest (.inl hzero)
    exact Nat.le_antisymm (hchosen.2 _ hlive) (holdest _ y hy hkind hreply)

theorem answer (h : Ongoing log drawn c d) (intact : c.Intact) {f : Frame} {r : Reply}
    {i : Nat} {x : Exchange} {e : Effect} (front : c.inbox.next.1 = some (.ok f))
    (decodes : f.message = .ok (.reply r)) (answers : Answers log i x r f.header.sequence)
    (step : c.readerStep d = some e) :
    Ongoing (log.set i { x with reply := some r }) drawn e.connection e.dispatcher := by
  obtain ⟨hd, hsequence⟩ := Connection.readerStep_frame intact step
  have htable : e.dispatcher.table =
      (d.table.deliver r.kind f.header.sequence (.ok r)).2 := by
    rw [hd, Connection.dispatched, front]
    dsimp only
    rw [Dispatcher.dispatchFrame_of_reply d decodes]
    rfl
  have hconsistent := h.consistent.deliver r.kind f.header.sequence (.ok r)
  rw [← htable] at hconsistent
  rcases h.consistent.deliver_cases r.kind f.header.sequence (.ok r) with
    ⟨hnone, -⟩ | ⟨w, hw, heq⟩
  · exact absurd (h.live_of_answers answers) (hnone _)
  · have hticket := h.ticket_eq_of_answers answers hw
    rw [heq] at htable
    have hslots : e.dispatcher.table.slots = d.table.slots.set i (.answered (.ok r)) := by
      rw [htable, ← hticket]
      rfl
    have hlt : i < d.table.slots.length :=
      (List.getElem?_eq_some_iff.mp (h.live_of_answers answers).2).1
    refine h.set answers.asked rfl rfl hsequence hconsistent ?_ ?_ ?_
    · rw [htable]
      exact h.opened
    · intro j hij
      rw [hslots, List.getElem?_set_ne hij]
    · refine ⟨by simp, fun r' hr => ?_⟩
      obtain rfl : r = r' := Option.some.inj hr
      refine ⟨answers.kind_eq.symm, .inl ⟨?_, ?_⟩⟩
      · rw [hslots, h.ticket_eq answers.asked, List.getElem?_set_self hlt]
      · exact ((h.settled answers.asked).pending answers.unanswered).2

theorem collect (h : Ongoing log drawn c d) {i : Nat} {x : Exchange} {a : Answer}
    (asked : log[i]? = some x) (found : (d.table.collect x.ticket).1 = some a) :
    Ongoing (log.set i { x with result := some a }) drawn c
      { d with table := (d.table.collect x.ticket).2 } := by
  obtain ⟨hslot, htable⟩ := collect_eq_some found
  have hlt : x.ticket < d.table.slots.length := (List.getElem?_eq_some_iff.mp hslot).1
  refine h.set asked rfl rfl rfl (h.consistent.collect x.ticket) ?_ ?_ ?_
  · dsimp only
    rw [htable]
    exact h.opened
  · intro j hij
    dsimp only
    rw [htable, slots_setSlot, h.ticket_eq asked, List.getElem?_set_ne hij]
  · have hx := h.settled asked
    refine ⟨fun hnone => ?_, fun r hr => ?_⟩
    · have hpending := (hx.pending hnone).1
      rw [hslot] at hpending
      cases hpending
    · obtain ⟨hkind, ⟨hanswer, -⟩ | ⟨hgone, -⟩⟩ := hx.answered r hr
      · rw [hslot] at hanswer
        cases hanswer
        refine ⟨hkind, .inr ⟨?_, rfl⟩⟩
        dsimp only
        rw [htable, slots_setSlot, List.getElem?_set_self hlt]
      · rw [hslot] at hgone
        cases hgone

end Ongoing

theorem intact (h : Conversation log drawn c d) : c.Intact := by
  induction h with
  | start transport d fresh => exact ⟨.inl rfl, .inl rfl⟩
  | quiet _ _ intact _ => exact intact
  | draw _ _ ih => exact ih
  | register _ _ _ ih => exact ih
  | answer _ _ _ _ _ intact _ => exact intact
  | collect _ _ _ ih => exact ih

theorem ongoing (h : Conversation log drawn c d)
    (room : log.length + drawn.length < 2 ^ 32 - 1) : Ongoing log drawn c d := by
  induction h with
  | start transport d fresh => exact .start transport fresh
  | quiet h step intact ih => exact (ih room).quiet h.intact step
  | draw h hs ih =>
    rw [List.length_append, List.length_singleton] at room
    refine (ih (by omega)).draw ?_ hs
    rw [length_issued]
    omega
  | register h kind hs ih =>
    rw [← length_issued, (issued_register hs).length_eq, length_issued] at room
    exact (ih room).register kind hs
  | answer h front decodes answers step intact ih =>
    rw [List.length_set] at room
    exact (ih room).answer h.intact front decodes answers step
  | collect h asked found ih =>
    rw [List.length_set] at room
    exact (ih room).collect asked found

/-- A whole query, with no other steps in between, is such a run. -/
theorem query (h : Conversation log drawn c d) {m : Message} {ticket : Ticket} {c' : Connection}
    {d' : Dispatcher} {s : UInt32} {sequence : Sequence}
    (hs : c.sequence.next = (s, sequence)) (hq : c.query d m = (.ok ticket, c', d')) :
    ∃ kind, m.expectedReply = some kind ∧
      Conversation (log ++ [⟨ticket, kind, s, none, none⟩]) ((drawn ++ [s]).erase s) c' d' := by
  unfold Connection.query at hq
  split at hq
  · cases hq
  · next kind hexpect =>
    have hm : m.expectedReply = some kind := by
      unfold Connection.expect at hexpect
      split at hexpect
      · cases hexpect
      · next hm =>
        split at hexpect
        · cases hexpect
        · cases hexpect
          exact hm
    dsimp only [Connection.enroll] at hq
    rw [hs] at hq
    split at hq
    · next c'' hsubmit =>
      cases hq
      have hmem : s ∈ drawn ++ [s] := List.mem_append_right _ List.mem_cons_self
      refine ⟨kind, hm, ((h.draw hs).register kind hmem).quiet (.enqueue hsubmit) ?_⟩
      rw [Connection.eq_push_of_enqueue hsubmit]
      exact (h.draw hs).intact.push _
    · cases hq

end Conversation

/-- Fewer queries than there are numbers: every query with a reply gets that reply, and every
other waits. -/
theorem replies_reach_their_queries {log : List Exchange} {drawn : List UInt32} {c : Connection}
    {d : Dispatcher} (h : Conversation log drawn c d)
    (room : log.length + drawn.length < 2 ^ 32 - 1) : ∀ x ∈ log, Settled d.table x := by
  intro x hx
  obtain ⟨i, hi⟩ := List.mem_iff_getElem?.mp hx
  exact (h.ongoing room).settled hi

def sizeOfOne : Reply := .windowSize ⟨1, 10, 10⟩
def sizeOfTwo : Reply := .windowSize ⟨2, 20, 20⟩

/-- Two queries for sizes.  The second was answered first, by its number, and its caller has the
answer; then the first was answered with a zero. -/
def crossedQueries : List Exchange := [
  ⟨0, .windowSize, 1, some sizeOfOne, none⟩,
  ⟨1, .windowSize, 2, some sizeOfTwo, some (.ok sizeOfTwo)⟩]

theorem conversation_crossed : ∃ c d, Conversation crossedQueries [] c d := by
  have hone : Sequence.next ⟨1⟩ = (1, ⟨2⟩) := Sequence.next_of_ne_zero (by decide)
  have htwo : Sequence.next ⟨2⟩ = (2, ⟨3⟩) := Sequence.next_of_ne_zero (by decide)
  have hstart : Conversation [] [] {} .empty := .start {} .empty rfl
  have hfirst : Conversation [⟨0, .windowSize, 1, none, none⟩] [] { sequence := ⟨2⟩ }
      (Dispatcher.empty.register .windowSize 1).2 :=
    (hstart.draw hone).register .windowSize List.mem_cons_self
  have hsecond : Conversation
      [⟨0, .windowSize, 1, none, none⟩, ⟨1, .windowSize, 2, none, none⟩] [] { sequence := ⟨3⟩ }
      ((Dispatcher.empty.register .windowSize 1).2.register .windowSize 2).2 :=
    (hfirst.draw htwo).register .windowSize List.mem_cons_self
  have harrived := hsecond.quiet (.accept (.bytes ((Frame.ofMessage (.reply sizeOfTwo) 2).encode ++
    (Frame.ofMessage (.reply sizeOfOne) 0).encode))) ⟨.inr rfl, .inl rfl⟩
  have hecho := harrived.answer rfl rfl (r := sizeOfTwo) (i := 1) ⟨rfl, rfl, rfl, .inl rfl⟩ rfl
    ⟨.inr rfl, .inl rfl⟩
  have hzero := hecho.answer rfl rfl (r := sizeOfOne) (i := 0)
    ⟨rfl, rfl, rfl, .inr ⟨rfl, fun j _ _ _ _ => Nat.zero_le j⟩⟩ rfl ⟨.inr rfl, .inl rfl⟩
  have hsettled := (hzero.ongoing (by decide)).settled (i := 1) rfl
  exact ⟨_, _, hzero.collect (i := 1) rfl (hsettled.collect_eq rfl rfl)⟩

theorem replies_reach_their_queries_crossed : ∃ c d, Conversation crossedQueries [] c d ∧
    crossedQueries.length + ([] : List UInt32).length < 2 ^ 32 - 1 ∧
    ∀ x ∈ crossedQueries, Settled d.table x := by
  obtain ⟨c, d, h⟩ := conversation_crossed
  exact ⟨c, d, h, by decide, replies_reach_their_queries h (by decide)⟩

end CompositorClient
