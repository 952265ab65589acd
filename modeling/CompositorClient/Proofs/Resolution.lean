import CompositorClient.Proofs.Switchboard

/-! Where the results of a client's queries come from, over all of its connections.  Every ticket
is held by one query, and its slot waits or holds what one of the connections has brought. -/

namespace CompositorClient
namespace Switchboard

structure Brings (line : Nat) (kind : ReplyKind) (ticket : Ticket) (ans : Answer)
    (before : List Action) (a : Action) : Prop where
  step : a = .step line .reader
  frame : ∃ f, (run before).Takes line f ∧ f.answer? = some (kind, ans)
  waiting : (run before).table.slots[ticket]? = some .waiting
  answered : (run (before ++ [a])).table.slots[ticket]? = some (.answered ans)

inductive Source (actions : List Action) (line : Nat) (kind : ReplyKind) (ticket : Ticket) :
    Answer → Prop
  | brought {ans} (brings : During (Brings line kind ticket ans) actions) :
    Source actions line kind ticket ans
  | ended (told : (line, .closed) ∈ (run actions).events) :
    Source actions line kind ticket (.error .connectionClosed)

/-- One of the two checks that a query makes of its connection fails. -/
structure TurnsAway (k : Nat) (x : Inquiry) (before : List Action) (a : Action) : Prop where
  step : a = .call (.query x.query) ∧ k = (run before).inquiries.length ∨
    ∃ ticket sequence, a = .submit k ∧
      (run before).inquiries[k]? = some ⟨x.line, x.query, .registered ticket sequence⟩
  refuses : (run before).Refuses x.line

/-- How the query at `k` can have come to its result, if only the connections in `lines` can answer
it. -/
inductive Cause (actions : List Action) (lines : Nat → Prop) (k : Nat) (x : Inquiry)
    (result : Except ClientError Reply) : Prop
  | answered {ticket ans line} (finished : x.progress = .finished ticket result)
      (gives : result = Client.result x.query.answer ans) (among : lines line)
      (source : Source actions line x.query.answer ticket ans)
  | refused (gives : result = .error .connectionClosed)
      (turned : During (TurnsAway k x) actions)
  | unconnected (gives : result = .error .notConnected)
      (alone : During (fun before a => a = .call (.query x.query) ∧
        k = (run before).inquiries.length ∧ (run before).client.connections = []) actions)

variable {actions : List Action} {a : Action} {line k : Nat} {kind : ReplyKind} {ticket : Ticket}
  {ans : Answer} {lines : Nat → Prop} {x : Inquiry} {result : Except ClientError Reply}

theorem Change.events {s : Switchboard} {b : Books} (h : Change s a b) :
    ∃ es, b.events = s.events ++ es := by
  cases h with
  | quiet | answered | told => exact ⟨_, rfl⟩
  | asked | drawn | registered | submitted | refused | polled | dropped =>
    exact ⟨[], (List.append_nil _).symm⟩

theorem events_concat (actions : List Action) (a : Action) :
    ∃ es, (run (actions ++ [a])).events = (run actions).events ++ es := by
  rw [run_concat]
  exact (change (run actions) a).events

theorem Source.concat (h : Source actions line kind ticket ans) (a : Action) :
    Source (actions ++ [a]) line kind ticket ans := by
  cases h with
  | brought brings => exact .brought (brings.append [a])
  | ended told =>
    obtain ⟨es, hes⟩ := events_concat actions a
    exact .ended (hes ▸ List.mem_append_left es told)

theorem Cause.concat (h : Cause actions lines k x result) (a : Action) :
    Cause (actions ++ [a]) lines k x result := by
  cases h with
  | answered finished gives among source => exact .answered finished gives among (source.concat a)
  | refused gives turned => exact .refused gives (turned.append [a])
  | unconnected gives alone => exact .unconnected gives (alone.append [a])

structure Tracked (actions : List Action) (b : Books) (k : Nat) (x : Inquiry) : Prop where
  registered : ∀ t, x.ticket? = some t → ∃ sequence, b.log[t]? = some (x.query.answer, sequence)
  slot : ∀ t, x.ticket? = some t → b.table.slots[t]? = some .waiting ∨
    ∃ ans line, b.table.slots[t]? = some (.answered ans) ∧
      Source actions line x.query.answer t ans
  cause : ∀ r, x.result? = some r → Cause actions (fun _ => True) k x r

structure Orderly (actions : List Action) (b : Books) : Prop where
  consistent : ReplyTable.Consistent b.log b.table
  closed_iff : b.table.closed = true ↔ ∃ line, (line, Event.closed) ∈ b.events
  tracked : ∀ {k : Nat} {x : Inquiry}, b.inquiries[k]? = some x → Tracked actions b k x
  owned : ∀ {k l : Nat} {x y : Inquiry} {t : Ticket}, b.inquiries[k]? = some x →
    b.inquiries[l]? = some y → x.ticket? = some t → y.ticket? = some t → k = l

variable {b b' : Books}

theorem Tracked.of_free (free : x.ticket? = none)
    (cause : ∀ r, x.result? = some r → Cause actions (fun _ => True) k x r) :
    Tracked actions b k x where
  registered t h := by simp [free] at h
  slot t h := by simp [free] at h
  cause := cause

theorem Tracked.carry (h : Tracked actions b k x)
    (log : ∀ (t : Ticket) v, b.log[t]? = some v → b'.log[t]? = some v)
    (slots : ∀ t, x.ticket? = some t → b'.table.slots[t]? = b.table.slots[t]? ∨
      ∃ ans line, b'.table.slots[t]? = some (.answered ans) ∧
        Source (actions ++ [a]) line x.query.answer t ans) :
    Tracked (actions ++ [a]) b' k x where
  registered t ht := by
    obtain ⟨sequence, hlog⟩ := h.registered t ht
    exact ⟨sequence, log t _ hlog⟩
  slot t ht := by
    rcases slots t ht with heq | hanswered
    · rw [heq]
      exact (h.slot t ht).imp_right fun ⟨ans, line, hans, source⟩ =>
        ⟨ans, line, hans, source.concat a⟩
    · exact .inr hanswered
  cause r hr := (h.cause r hr).concat a

theorem Orderly.ticket_lt (h : Orderly actions b) (held : b.inquiries[k]? = some x)
    {t : Ticket} (ht : x.ticket? = some t) : t < b.log.length := by
  obtain ⟨sequence, hlog⟩ := (h.tracked held).registered t ht
  exact (List.getElem?_eq_some_iff.mp hlog).1

/-- An action that is not one query's own. -/
theorem Orderly.keep (h : Orderly actions b)
    (consistent : ReplyTable.Consistent b'.log b'.table)
    (closed : b'.table.closed = true ↔ ∃ line, (line, Event.closed) ∈ b'.events)
    (inquiries : b'.inquiries = b.inquiries) (log : b'.log = b.log)
    (slots : ∀ {k : Nat} {x : Inquiry}, b.inquiries[k]? = some x → ∀ t, x.ticket? = some t →
      b'.table.slots[t]? = b.table.slots[t]? ∨
        ∃ ans line, b'.table.slots[t]? = some (.answered ans) ∧
          Source (actions ++ [a]) line x.query.answer t ans) :
    Orderly (actions ++ [a]) b' where
  consistent := consistent
  closed_iff := closed
  tracked held := by
    rw [inquiries] at held
    exact (h.tracked held).carry (by simp [log]) (slots held)
  owned := by
    rw [inquiries]
    exact h.owned

/-- An action of one query, which touches no slot but its own. -/
theorem Orderly.replace (h : Orderly actions b) {y : Inquiry}
    (held : b.inquiries[k]? = some x) (inquiries : b'.inquiries = b.inquiries.set k y)
    (consistent : ReplyTable.Consistent b'.log b'.table)
    (closed : b'.table.closed = b.table.closed) (events : b'.events = b.events)
    (log : ∀ (t : Ticket) v, b.log[t]? = some v → b'.log[t]? = some v)
    (slots : ∀ t : Ticket, t < b.log.length → x.ticket? ≠ some t →
      b'.table.slots[t]? = b.table.slots[t]?)
    (fresh : ∀ t, y.ticket? = some t → x.ticket? = some t ∨ t = b.log.length)
    (tracked : Tracked (actions ++ [a]) b' k y) : Orderly (actions ++ [a]) b' where
  consistent := consistent
  closed_iff := by
    rw [closed, events]
    exact h.closed_iff
  tracked hl := by
    rw [inquiries] at hl
    rcases of_getElem?_set hl with ⟨rfl, rfl⟩ | ⟨hz, hkl⟩
    · exact tracked
    · refine (h.tracked hz).carry log fun t ht => .inl ?_
      exact slots t (h.ticket_lt hz ht) fun hx => hkl (h.owned held hz hx ht)
  owned := by
    have hnew {l : Nat} {z : Inquiry} {t : Ticket} (hz : b.inquiries[l]? = some z)
        (hkl : k ≠ l) (hy : y.ticket? = some t) (ht : z.ticket? = some t) : False := by
      rcases fresh t hy with hx | rfl
      · exact hkl (h.owned held hz hx ht)
      · exact Nat.lt_irrefl _ (h.ticket_lt hz ht)
    intro i j v w t hv hw hvt hwt
    rw [inquiries] at hv hw
    rcases of_getElem?_set hv with ⟨rfl, hki⟩ | ⟨hv, hki⟩ <;>
      rcases of_getElem?_set hw with ⟨rfl, hkj⟩ | ⟨hw, hkj⟩
    · exact hki.symm.trans hkj
    · exact (hnew hw hkj hvt hwt).elim
    · exact (hnew hv hki hwt hvt).elim
    · exact h.owned hv hw hvt hwt

theorem Orderly.begin (h : Orderly actions b) {y : Inquiry} (free : y.ticket? = none)
    (cause : ∀ r, y.result? = some r →
      Cause (actions ++ [a]) (fun _ => True) b.inquiries.length y r) :
    Orderly (actions ++ [a]) { b with inquiries := b.inquiries ++ [y] } where
  consistent := h.consistent
  closed_iff := h.closed_iff
  tracked hz := by
    rcases of_getElem?_concat hz with hz | ⟨rfl, rfl⟩
    · exact (h.tracked hz).carry (fun _ _ => id) fun _ _ => .inl rfl
    · exact .of_free free cause
  owned := by
    intro i j v w t hv hw hvt hwt
    rcases of_getElem?_concat hv with hv | ⟨-, rfl⟩
    · rcases of_getElem?_concat hw with hw | ⟨-, rfl⟩
      · exact h.owned hv hw hvt hwt
      · simp [free] at hwt
    · simp [free] at hvt

/-- Events that do not tell of an end leave open whether one has been told of. -/
theorem exists_closed_append {told es : List (Nat × Event)}
    (ordinary : ∀ e ∈ es, ¬ Event.Terminal e.2) :
    (∃ line, (line, Event.closed) ∈ told ++ es) ↔ ∃ line, (line, Event.closed) ∈ told := by
  refine exists_congr fun line => ?_
  rw [List.mem_append]
  exact or_iff_left fun h => ordinary _ h trivial

theorem orderly_start : Orderly [] (run []).books where
  consistent := .empty
  closed_iff := by simp [books, start, table, Client.new, Dispatcher.subscribe, Dispatcher.empty]
  tracked h := by simp [books, start] at h
  owned h := by simp [books, start] at h

-- One lemma for each entry in the books; `hb` says that the entry has been made.

section

variable (h : Orderly actions (run actions).books)
include h

theorem Orderly.answered {f : Frame} {es : List (Nat × Event)}
    (takes : (run actions).Takes line f) (answer : f.answer? = some (kind, ans))
    (ordinary : ∀ e ∈ es, ¬ Event.Terminal e.2)
    (hb : (run (actions ++ [.step line .reader])).table =
      ((run actions).table.deliver kind f.header.sequence ans).2) :
    Orderly (actions ++ [.step line .reader]) { (run actions).books with
      table := ((run actions).table.deliver kind f.header.sequence ans).2
      events := (run actions).events ++ es } := by
  refine h.keep (h.consistent.deliver ..) ?_ rfl rfl fun {k x} held t ht => ?_
  · dsimp only
    rw [ReplyTable.closed_deliver]
    exact h.closed_iff.trans (exists_closed_append ordinary).symm
  · obtain ⟨sequence, hlog⟩ := (h.tracked held).registered t ht
    refine (h.consistent.deliver_slot kind f.header.sequence ans t).imp_right ?_
    rintro ⟨hwaiting, hanswered, n, hlog'⟩
    have hkind : kind = x.query.answer := by
      rw [hlog] at hlog'
      cases hlog'
      rfl
    refine ⟨ans, line, hanswered, .brought (during_concat.mpr (.inr ?_))⟩
    exact ⟨rfl, ⟨f, takes, hkind ▸ answer⟩, hwaiting, (congrArg (·.slots[t]?) hb).trans hanswered⟩

theorem Orderly.told {es : List (Nat × Event)} (closed : (line, .closed) ∈ es)
    (hb : (run (actions ++ [a])).events = (run actions).events ++ es) :
    Orderly (actions ++ [a]) { (run actions).books with
      table := (run actions).table.close.2
      events := (run actions).events ++ es } := by
  have htold : (line, Event.closed) ∈ (run actions).events ++ es := List.mem_append_right _ closed
  refine h.keep h.consistent.close ⟨fun _ => ⟨line, htold⟩, fun _ => rfl⟩ rfl rfl
    fun _ t _ => ?_
  refine (h.consistent.close_slot t).imp_right fun ⟨_, hanswered⟩ => ?_
  exact ⟨_, line, hanswered, .ended (hb ▸ htold)⟩

/-- A ticket taken from a closed table is answered at once, for the end told before. -/
theorem Orderly.registered {q : Query} {n : UInt32}
    (held : (run actions).inquiries[k]? = some ⟨line, q, .drawn n⟩) :
    Orderly (actions ++ [a]) { (run actions).books with
      table := ((run actions).table.register q.answer n).2
      inquiries := (run actions).inquiries.set k
        ⟨line, q, .registered ((run actions).table.register q.answer n).1 n⟩
      log := (run actions).log ++ [(q.answer, n)] } := by
  have hlength : (run actions).table.slots.length = (run actions).log.length :=
    h.consistent.length_slots
  rw [ReplyTable.register_ticket]
  refine h.replace held rfl (h.consistent.register ..) (ReplyTable.closed_register ..) rfl
    ?_ ?_ ?_ ⟨?_, ?_, nofun⟩
  · intro t v hlog
    exact (List.getElem?_append_left (List.getElem?_eq_some_iff.mp hlog).1).trans hlog
  · intro t ht _
    dsimp only
    rw [ReplyTable.register_slots]
    exact List.getElem?_append_left (hlength ▸ ht)
  · rintro t ⟨⟩
    exact .inr hlength
  · rintro t ⟨⟩
    exact ⟨n, by simp [hlength]⟩
  · rintro t ⟨⟩
    dsimp only
    rw [ReplyTable.register_slots, List.getElem?_concat_length]
    by_cases hclosed : (run actions).table.closed = true
    · obtain ⟨i, told⟩ := h.closed_iff.mp hclosed
      exact .inr ⟨_, i, by rw [if_pos hclosed], (Source.ended told).concat a⟩
    · exact .inl (by rw [if_neg hclosed])

/-- A query that lets go of its ticket, with the slot filled otherwise. -/
theorem Orderly.released {t : Ticket} {slot : Slot} {y : Inquiry}
    (held : (run actions).inquiries[k]? = some x) (owns : x.ticket? = some t)
    (consistent : ReplyTable.Consistent (run actions).log ((run actions).table.setSlot t slot))
    (free : y.ticket? = none)
    (cause : ∀ r, y.result? = some r → Cause (actions ++ [a]) (fun _ => True) k y r) :
    Orderly (actions ++ [a]) { (run actions).books with
      table := (run actions).table.setSlot t slot
      inquiries := (run actions).inquiries.set k y } := by
  refine h.replace held rfl consistent rfl rfl (fun _ _ => id) (fun i _ hi => ?_)
    (fun i hi => by simp [free] at hi) (.of_free free cause)
  exact List.getElem?_set_ne fun heq => hi (owns.trans (congrArg some heq))

end

theorem Orderly.concat (h : Orderly actions (run actions).books) (a : Action) :
    Orderly (actions ++ [a]) (run (actions ++ [a])).books := by
  have hchange : Change (run actions) a (run (actions ++ [a])).books := by
    rw [run_concat]
    exact change ..
  generalize hb : (run (actions ++ [a])).books = b at hchange ⊢
  cases hchange with
  | quiet ordinary =>
    refine h.keep h.consistent ?_ rfl rfl fun _ _ _ => .inl rfl
    exact h.closed_iff.trans (exists_closed_append ordinary).symm
  | answered takes answer ordinary =>
    exact h.answered takes answer ordinary (congrArg Books.table hb)
  | @told line => exact h.told (by simp : (line, Event.closed) ∈ _) (congrArg Books.events hb)
  | asked turn =>
    rcases turn with rfl | ⟨rfl, alone⟩ | ⟨rfl, refuses⟩
    · exact h.begin rfl nofun
    · refine h.begin rfl fun r hr => ?_
      cases hr
      exact .unconnected rfl (during_concat.mpr (.inr ⟨rfl, rfl, alone⟩))
    · refine h.begin rfl fun r hr => ?_
      cases hr
      exact .refused rfl (during_concat.mpr (.inr ⟨.inl ⟨rfl, rfl⟩, refuses⟩))
  | drawn held =>
    exact h.replace held rfl h.consistent rfl rfl (fun _ _ => id) (fun _ _ _ => rfl) nofun
      (.of_free rfl nofun)
  | registered held => exact h.registered held
  | submitted held =>
    have htracked := h.tracked held
    exact h.replace held rfl h.consistent rfl rfl (fun _ _ => id) (fun _ _ _ => rfl)
      (fun t ht => .inl ht) ⟨htracked.registered, fun t ht => (htracked.slot t ht).imp_right
        fun ⟨ans, line, hans, source⟩ => ⟨ans, line, hans, source.concat _⟩, nofun⟩
  | refused held refuses =>
    refine h.released held rfl (h.consistent.abandon _) rfl fun r hr => ?_
    cases hr
    exact .refused rfl (during_concat.mpr (.inr ⟨.inr ⟨_, _, rfl, held⟩, refuses⟩))
  | polled held slot =>
    refine h.released held rfl (h.consistent.collected slot) rfl fun r hr => ?_
    cases hr
    obtain hwaiting | ⟨ans, i, hslot, source⟩ := (h.tracked held).slot _ rfl
    · cases slot.symm.trans hwaiting
    · cases slot.symm.trans hslot
      exact .answered rfl rfl trivial (source.concat _)
  | dropped held => exact h.released held rfl (h.consistent.abandon _) rfl nofun

theorem orderly (actions : List Action) : Orderly actions (run actions).books := by
  induction actions using List.reverseRecOn with
  | nil => exact orderly_start
  | append_singleton actions a ih => exact ih.concat a

end Switchboard
end CompositorClient
