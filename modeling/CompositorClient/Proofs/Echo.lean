import CompositorClient.Proofs.Numbers
import CompositorClient.Proofs.Tickets

/-! Replies from a server that marks each with the number of the query it answers.  A reply
finds its query as long as the query waits, and goes to the oldest of its kind otherwise; so a
caller gets the reply to another query only after one of that kind was dropped unanswered. -/

namespace CompositorClient

open ReplyTable

theorem Waiter.Addressee.own_or_oldest {p : Waiter → Prop} {sequence : UInt32} {w : Waiter}
    (h : Addressee p sequence w) (hne : sequence ≠ 0) :
    p w ∧ w.sequence = sequence ∨ (∀ v, p v → v.sequence ≠ sequence) ∧ Earliest p w := by
  by_cases howner : ∃ v, p v ∧ v.sequence = sequence
  · exact .inl (h.echoed hne howner).1
  · have hgone : ∀ v, p v → v.sequence ≠ sequence := fun v hv heq => howner ⟨v, hv, heq⟩
    exact .inr ⟨hgone, h.oldest (.inr hgone)⟩

namespace Session

variable {s : Session}

def numbers (s : Session) : List UInt32 := s.log.map Prod.snd ++ s.drawn

def Numbered (s : Session) : Prop := Sequence.Issued s.numbers s.connection.sequence

def Waits (s : Session) (kind : ReplyKind) : Waiter → Prop := Live s.log s.dispatcher.table kind

def echoed (s : Session) : List UInt32 :=
  (s.frames.filter (·.replyKind.isSome)).map (·.header.sequence)

/-- The next frame, if there is a reply in it, carries the number of a query for this kind of
reply, and none did before. -/
def Echoes (s : Session) : Prop :=
  ∀ f kind, s.incoming = some f → f.replyKind = some kind →
    (kind, f.header.sequence) ∈ s.log ∧ f.header.sequence ∉ s.echoed

def Echoing (origin : Session) : List Move → Prop :=
  Always fun before m => m = .step .reader → Echoes (origin.run before)

def Resolved (s : Session) (i : Ticket) (a : Answer) : Prop :=
  s.dispatcher.table.slots[i]? = some (.answered a) ∨ (i, a) ∈ s.collected

def Brings (s : Session) (m : Move) (kind : ReplyKind) (a : Answer) (n : UInt32) : Prop :=
  m = .step .reader ∧
    ∃ f, s.incoming = some f ∧ f.answer? = some (kind, a) ∧ f.header.sequence = n

def Drops (origin : Session) (kind : ReplyKind) (before : List Move) (m : Move) : Prop :=
  ∃ w, (origin.run before).Waits kind w ∧ m = .abandon w.ticket

/-- The query gets the answer that carries its own number. -/
def Own (origin : Session) (i : Ticket) (kind : ReplyKind) (a : Answer) (before : List Move)
    (m : Move) : Prop :=
  ∃ n, Brings (origin.run before) m kind a n ∧ (origin.run before).Waits kind ⟨i, n⟩

/-- The query gets an answer as the oldest that waits, after a drop; the one that the answer was
for waits no more. -/
def Stray (origin : Session) (i : Ticket) (kind : ReplyKind) (a : Answer) (before : List Move)
    (m : Move) : Prop :=
  During (Drops origin kind) before ∧
    ∃ n own, Brings (origin.run before) m kind a n ∧
      (∀ v, (origin.run before).Waits kind v → v.sequence ≠ n) ∧
      Waiter.Earliest ((origin.run before).Waits kind) ⟨i, own⟩

structure Delivered (s s' : Session) (kind : ReplyKind) (a : Answer) (n : UInt32) : Prop where
  own : ∀ i, s.Waits kind ⟨i, n⟩ →
    s'.dispatcher.table.slots = s.dispatcher.table.slots.set i (.answered a)
  oldest : (∀ v, s.Waits kind v → v.sequence ≠ n) → ∀ w, Waiter.Earliest (s.Waits kind) w →
    s'.dispatcher.table.slots = s.dispatcher.table.slots.set w.ticket (.answered a)
  nobody : (∀ v, ¬ s.Waits kind v) → s'.dispatcher.table.slots = s.dispatcher.table.slots

theorem log_move (s : Session) (m : Move) :
    (s.move m).log = s.log ∨ ∃ kind n, n ∈ s.drawn ∧ m = .register kind n ∧
      (s.move m).log = s.log ++ [(kind, n)] := by
  cases m with
  | step task => exact .inl (s.untouched_step task).log
  | register kind n =>
    rw [move, register]
    split
    · next hn => exact .inr ⟨kind, n, hn, rfl, rfl⟩
    · exact .inl rfl
  | arrive | fault | refuse | push | draw | abandon | collect | subscribe | unsubscribe =>
    exact .inl rfl

theorem Numbered.move (h : s.Numbered) (m : Move) : (s.move m).Numbered := by
  cases m with
  | step task =>
    have huntouched := s.untouched_step task
    rw [Numbered, numbers, huntouched.log, huntouched.drawn, huntouched.sequence]
    exact h
  | push item =>
    rw [Numbered, Session.move]
    dsimp only
    rw [Connection.sequence_push]
    exact h
  | draw =>
    have hdraw := Sequence.Issued.draw h
    rw [numbers, List.append_assoc] at hdraw
    exact hdraw
  | register kind n =>
    rw [Session.move, register]
    split
    · next hn =>
      refine Sequence.Issued.of_perm h ?_
      rw [numbers, numbers, List.map_append, List.append_assoc]
      exact (List.perm_cons_erase hn).symm.append_left _
    · exact h
  | arrive | fault | refuse | abandon | collect | subscribe | unsubscribe => exact h

theorem length_numbers_le (s : Session) (m : Move) :
    s.numbers.length ≤ (s.move m).numbers.length := by
  cases m with
  | step task =>
    have huntouched := s.untouched_step task
    rw [numbers, numbers, huntouched.log, huntouched.drawn]
  | draw =>
    simp only [numbers, move, draw, List.length_append]
    omega
  | register kind n =>
    rw [move, register]
    split
    · next hn =>
      have hpos := List.length_pos_of_mem hn
      simp only [numbers, List.map_append, List.length_append, List.length_map,
        List.length_singleton, List.length_erase_of_mem hn]
      omega
    · exact Nat.le_refl _
  | arrive | fault | refuse | push | abandon | collect | subscribe | unsubscribe =>
    exact Nat.le_refl _

theorem length_numbers_run_le (s : Session) (moves : List Move) :
    s.numbers.length ≤ (s.run moves).numbers.length := by
  induction moves using List.reverseRecOn with
  | nil => exact Nat.le_refl _
  | append_singleton moves m ih =>
    rw [run_concat]
    exact Nat.le_trans ih (length_numbers_le _ m)

theorem ReadStep.frames_prefixed {s' : Session} (step : ReadStep s s') :
    s.frames <+: s'.frames := by
  cases step with
  | idle | bytes | again | finish | drained | malformed => exact List.prefix_refl _
  | frame => exact List.prefix_append _ _
  | ending => exact ⟨[], by rw [List.append_nil, (concludes ..).frames]⟩

theorem WriteStep.frames {s' : Session} (step : WriteStep s s') : s'.frames = s.frames := by
  cases step with
  | idle | frame | failed | shutdown => rfl
  | ending => exact (concludes ..).frames

theorem frames_prefix_of_move (s : Session) (m : Move) : s.frames <+: (s.move m).frames := by
  cases m with
  | step task =>
    cases task with
    | reader => exact s.readStep.frames_prefixed
    | writer => exact s.writeStep.frames ▸ List.prefix_refl _
  | register kind n =>
    rw [move, register]
    split <;> exact List.prefix_refl _
  | arrive | fault | refuse | push | draw | abandon | collect | subscribe | unsubscribe =>
    exact List.prefix_refl _

theorem mem_echoed_move {n : UInt32} (h : n ∈ s.echoed) (m : Move) : n ∈ (s.move m).echoed := by
  obtain ⟨fs, hfs⟩ := s.frames_prefix_of_move m
  rw [echoed, ← hfs, List.filter_append, List.map_append]
  exact List.mem_append_left _ h

theorem mem_echoed_of_incoming {f : Frame} (incoming : s.incoming = some f)
    (carries : f.replyKind.isSome) : f.header.sequence ∈ (s.move (.step .reader)).echoed := by
  rw [read_of_incoming incoming]
  simp [echoed, carries]

theorem of_mem_collected_move {m : Move} {i : Ticket} {a : Answer}
    (h : (i, a) ∈ (s.move m).collected) : Resolved s i a := by
  cases m with
  | step task =>
    rw [(s.untouched_step task).collected] at h
    exact .inr h
  | register kind n =>
    rw [move, register] at h
    split at h <;> exact .inr h
  | collect j =>
    rcases List.mem_append.mp h with hold | hnew
    · exact .inr hold
    · rw [Option.mem_toList, Option.map_eq_some_iff] at hnew
      obtain ⟨b, hb, heq⟩ := hnew
      cases heq
      exact .inl (collect_eq_some hb).1
  | arrive | fault | refuse | push | draw | abandon | subscribe | unsubscribe => exact .inr h

theorem Sound.not_closed (h : s.Sound) {kind : ReplyKind} {w : Waiter} (hw : s.Waits kind w) :
    s.dispatcher.table.closed = false := by
  cases hclosed : s.dispatcher.table.closed with
  | false => rfl
  | true =>
    have hmem := Consistent.queued h hw.1 hw.2
    rw [Consistent.emptied h hclosed] at hmem
    cases hmem

theorem Numbered.eq_of_number_eq (h : s.Numbered) (room : s.numbers.length < 2 ^ 32)
    {kind : ReplyKind} {v w : Waiter} (hv : s.Waits kind v) (hw : s.Waits kind w)
    (heq : v.sequence = w.sequence) : v = w := by
  have hnodup : (s.log.map Prod.snd).Nodup := (List.nodup_append.mp (h.nodup room)).1
  have hlt : v.ticket < (s.log.map Prod.snd).length := by
    rw [List.length_map]
    exact (List.getElem?_eq_some_iff.mp hv.1).1
  have hticket : v.ticket = w.ticket := by
    refine (List.getElem?_inj hlt hnodup).mp ?_
    rw [List.getElem?_map, List.getElem?_map, hv.1, hw.1, Option.map_some, Option.map_some, heq]
  obtain ⟨i, n⟩ := v
  obtain ⟨j, k⟩ := w
  cases hticket
  cases heq
  rfl

theorem table_of_brings {m : Move} {kind : ReplyKind} {a : Answer} {n : UInt32}
    (h : Brings s m kind a n) :
    (s.move m).dispatcher.table = (s.dispatcher.table.deliver kind n a).2 := by
  obtain ⟨rfl, f, hincoming, hanswer, rfl⟩ := h
  rw [read_of_incoming hincoming]
  simp only [absorb, Dispatcher.dispatchFrame_eq, hanswer]

theorem Numbered.ne_zero (h : s.Numbered) {kind : ReplyKind} {n : UInt32}
    (hlog : (kind, n) ∈ s.log) : n ≠ 0 :=
  Sequence.Issued.ne_zero h (List.mem_append_left _ (List.mem_map_of_mem hlog))

/-- Whom an answer goes to depends only on whether the one it echoes still waits. -/
theorem delivered {m : Move} {kind : ReplyKind} {a : Answer} {n : UInt32} (sound : s.Sound)
    (numbered : s.Numbered) (room : s.numbers.length < 2 ^ 32) (echoes : s.Echoes)
    (h : Brings s m kind a n) : Delivered s (s.move m) kind a n := by
  have htable := table_of_brings h
  obtain ⟨-, f, hincoming, hanswer, rfl⟩ := h
  have hne : f.header.sequence ≠ 0 :=
    numbered.ne_zero (echoes f kind hincoming (Frame.replyKind_of_answer hanswer)).1
  rcases Consistent.deliver_cases sound kind f.header.sequence a with ⟨hnone, heq⟩ | ⟨w, hw, heq⟩
  · rw [heq] at htable
    refine ⟨fun i hi => absurd hi (hnone _), fun _ w hw => absurd hw.1 (hnone w), fun _ => ?_⟩
    rw [htable, slots_setQueue]
  · have hslots : (s.move m).dispatcher.table.slots =
        s.dispatcher.table.slots.set w.ticket (.answered a) := by
      rw [htable, heq, slots_setQueue, slots_setSlot]
    refine ⟨fun i hi => ?_, fun hgone v hv => ?_, fun hnobody => absurd hw.mem (hnobody w)⟩
    · have hown : w = ⟨i, f.header.sequence⟩ :=
        numbered.eq_of_number_eq room hw.mem hi (hw.echoed hne ⟨_, hi, rfl⟩).1.2
      rw [hslots, hown]
    · have hw' := hw.oldest (.inr hgone)
      rw [hslots, Nat.le_antisymm (hv.2 w hw'.1) (hw'.2 v hv.1)]

section

variable {origin : Session} {moves : List Move} {m : Move}

/-- A query that no longer waits got an answer marked for it, unless one of its kind was dropped
or all failed. -/
def Owed (origin : Session) (moves : List Move) : Prop :=
  ∀ i kind n, (origin.run moves).log[i]? = some (kind, n) →
    (origin.run moves).Waits kind ⟨i, n⟩ ∨ n ∈ (origin.run moves).echoed ∨
      (origin.run moves).dispatcher.table.closed = true ∨ During (Drops origin kind) moves

/-- Only a drop lets an answer come for a query that does not wait, to one that does. -/
theorem Owed.dropped (owed : Owed origin moves) (sound : (origin.run moves).Sound)
    (echoes : (origin.run moves).Echoes) {f : Frame} {kind : ReplyKind} {w : Waiter}
    (incoming : (origin.run moves).incoming = some f) (carries : f.replyKind = some kind)
    (waits : (origin.run moves).Waits kind w)
    (gone : ∀ v, (origin.run moves).Waits kind v → v.sequence ≠ f.header.sequence) :
    During (Drops origin kind) moves := by
  obtain ⟨hlog, hfresh⟩ := echoes f kind incoming carries
  obtain ⟨i, hi⟩ := List.mem_iff_getElem?.mp hlog
  rcases owed i kind _ hi with hwaits | hechoed | hclosed | hdrops
  · exact absurd rfl (gone _ hwaits)
  · exact absurd hechoed hfresh
  · rw [sound.not_closed waits] at hclosed
    cases hclosed
  · exact hdrops

/-- The answers that the reader hands out are for their own queries, or a query was dropped. -/
theorem Owed.own_or_stray (owed : Owed origin moves) (sound : (origin.run moves).Sound)
    (numbered : (origin.run moves).Numbered) (echoes : (origin.run moves).Echoes) {f : Frame}
    {kind : ReplyKind} {a : Answer} {w : Waiter}
    (incoming : (origin.run moves).incoming = some f) (answer : f.answer? = some (kind, a))
    (addressee : Waiter.Addressee ((origin.run moves).Waits kind) f.header.sequence w) :
    Own origin w.ticket kind a moves (.step .reader) ∧ w.sequence = f.header.sequence ∨
      Stray origin w.ticket kind a moves (.step .reader) := by
  have hkind := Frame.replyKind_of_answer answer
  have hbrings : Brings (origin.run moves) (.step .reader) kind a f.header.sequence :=
    ⟨rfl, f, incoming, answer, rfl⟩
  have hne : f.header.sequence ≠ 0 := numbered.ne_zero (echoes f kind incoming hkind).1
  rcases addressee.own_or_oldest hne with ⟨hwaits, heq⟩ | ⟨hgone, holdest⟩
  · exact .inl ⟨⟨f.header.sequence, hbrings, heq ▸ hwaits⟩, heq⟩
  · exact .inr ⟨owed.dropped sound echoes incoming hkind holdest.1 hgone,
      f.header.sequence, w.sequence, hbrings, hgone, holdest⟩

theorem owed_start (transport : Transport) (subscribers : List Subscriber)
    (lastId : SubscriptionId) : Owed (start transport subscribers lastId) [] := by
  intro i kind n hlog
  simp [start] at hlog

theorem Sound.registered (sound : s.Sound) {kind : ReplyKind} {n : UInt32}
    (hlog : (s.move m).log[s.log.length]? = some (kind, n)) :
    (s.move m).Waits kind ⟨s.log.length, n⟩ ∨ (s.move m).dispatcher.table.closed = true := by
  have hturn := sound.turn m s.log.length
  have hlength : s.dispatcher.table.slots.length = s.log.length := Consistent.length_slots sound
  have hlength' : (s.move m).dispatcher.table.slots.length = (s.move m).log.length :=
    Consistent.length_slots (sound.move m)
  have hlt : s.log.length < (s.move m).dispatcher.table.slots.length :=
    hlength' ▸ (List.getElem?_eq_some_iff.mp hlog).1
  rw [List.getElem?_eq_none (Nat.le_of_eq hlength), List.getElem?_eq_getElem hlt] at hturn
  generalize hslot : (s.move m).dispatcher.table.slots[s.log.length] = slot at hturn
  cases hturn with
  | opened => exact .inl ⟨hlog, List.getElem?_eq_some_iff.mpr ⟨hlt, hslot⟩⟩
  | refused closed => exact .inr (closed_move closed m)

theorem Owed.concat (owed : Owed origin moves) (sound : (origin.run moves).Sound)
    (numbered : (origin.run moves).Numbered)
    (echoes : m = .step .reader → (origin.run moves).Echoes) : Owed origin (moves ++ [m]) := by
  intro i kind n hlog'
  rw [run_concat] at hlog' ⊢
  rw [during_concat]
  have hold : (origin.run moves).log[i]? = some (kind, n) ∨ i = (origin.run moves).log.length := by
    rcases (origin.run moves).log_move m with heq | ⟨k, number, -, -, heq⟩
    · exact .inl (heq ▸ hlog')
    · rw [heq] at hlog'
      exact (of_getElem?_concat hlog').imp_right And.left
  rcases hold with hlog | rfl
  · rcases owed i kind n hlog with hwaits | hechoed | hclosed | hdrops
    · have hslot : (origin.run moves).dispatcher.table.slots[i]? = some .waiting := hwaits.2
      have hturn := sound.turn m i
      rw [hslot] at hturn
      generalize hnew : ((origin.run moves).move m).dispatcher.table.slots[i]? = new at hturn
      cases hturn with
      | same => exact .inl ⟨hlog', hnew⟩
      | @answered f k a w step incoming answer ticket addressee =>
        subst step
        have hkey := addressee.mem.1
        rw [ticket, hlog] at hkey
        cases hkey
        rcases owed.own_or_stray sound numbered (echoes rfl) incoming answer addressee with
          ⟨-, hmarked⟩ | ⟨hdrops, -⟩
        · rw [hmarked]
          refine .inr (.inl (mem_echoed_of_incoming incoming ?_))
          rw [Frame.replyKind_of_answer answer]
          rfl
        · exact .inr (.inr (.inr (.inl hdrops)))
      | ended step stands =>
        subst step
        exact .inr (.inr (.inl (closed_of_notify stands)))
      | abandoned held => exact .inr (.inr (.inr (.inr ⟨_, hwaits, held⟩)))
    · exact .inr (.inl (mem_echoed_move hechoed m))
    · exact .inr (.inr (.inl (closed_move hclosed m)))
    · exact .inr (.inr (.inr (.inl hdrops)))
  · rcases sound.registered hlog' with hwaits | hclosed
    · exact .inl hwaits
    · exact .inr (.inr (.inl hclosed))

/-- Every reply that a caller got was handed out at some moment, in one of the two ways. -/
def Traced (origin : Session) (moves : List Move) : Prop :=
  ∀ i r, (origin.run moves).Resolved i (.ok r) →
    During (Own origin i r.kind (.ok r)) moves ∨ During (Stray origin i r.kind (.ok r)) moves

theorem traced_start (transport : Transport) (subscribers : List Subscriber)
    (lastId : SubscriptionId) : Traced (start transport subscribers lastId) [] := by
  intro i r h
  simp [Resolved, start, Connection.start] at h

theorem Traced.concat (traced : Traced origin moves) (owed : Owed origin moves)
    (sound : (origin.run moves).Sound) (numbered : (origin.run moves).Numbered)
    (echoes : m = .step .reader → (origin.run moves).Echoes) : Traced origin (moves ++ [m]) := by
  intro i r h
  rw [during_concat, during_concat]
  have hbefore : (origin.run moves).Resolved i (.ok r) →
      (During (Own origin i r.kind (.ok r)) moves ∨ Own origin i r.kind (.ok r) moves m) ∨
        During (Stray origin i r.kind (.ok r)) moves ∨ Stray origin i r.kind (.ok r) moves m :=
    fun hresolved => (traced i r hresolved).imp .inl .inl
  rw [run_concat] at h
  rcases h with hslot | hcollected
  · have hturn := sound.turn m i
    rw [hslot] at hturn
    generalize hold : (origin.run moves).dispatcher.table.slots[i]? = old at hturn
    cases hturn with
    | same => exact hbefore (.inl hold)
    | @answered f k a w step incoming answer ticket addressee =>
      subst step ticket
      obtain ⟨-, rfl⟩ := Frame.message_of_answer answer
      rcases owed.own_or_stray sound numbered (echoes rfl) incoming answer addressee with
        ⟨hown, -⟩ | hstray
      · exact .inl (.inr hown)
      · exact .inr (.inr hstray)
  · exact hbefore (of_mem_collected_move hcollected)

structure Echoed (origin : Session) (moves : List Move) : Prop where
  sound : (origin.run moves).Sound
  numbered : (origin.run moves).Numbered
  owed : Owed origin moves
  traced : Traced origin moves

theorem echoed_run (transport : Transport) (subscribers : List Subscriber)
    (lastId : SubscriptionId) {moves : List Move}
    (echoing : Echoing (start transport subscribers lastId) moves) :
    Echoed (start transport subscribers lastId) moves := by
  induction moves using List.reverseRecOn with
  | nil =>
    exact ⟨sound_start .., Sequence.Issued.start, owed_start transport subscribers lastId,
      traced_start transport subscribers lastId⟩
  | append_singleton moves m ih =>
    obtain ⟨hmoves, hm⟩ := always_concat.mp echoing
    have h := ih hmoves
    refine ⟨?_, ?_, h.owed.concat h.sound h.numbered hm,
      h.traced.concat h.owed h.sound h.numbered hm⟩
    · rw [run_concat]
      exact h.sound.move m
    · rw [run_concat]
      exact h.numbered.move m

end

theorem own_echoed {origin : Session} {moves : List Move} {i : Ticket} {kind : ReplyKind}
    {a : Answer} (h : During (Own origin i kind a) moves) :
    ∃ n, (origin.run moves).log[i]? = some (kind, n) ∧ n ∈ (origin.run moves).echoed := by
  induction moves using List.reverseRecOn with
  | nil => exact absurd h not_during_nil
  | append_singleton moves m ih =>
    have hkept {n : UInt32} (hlog : (origin.run moves).log[i]? = some (kind, n)) :
        ((origin.run moves).move m).log[i]? = some (kind, n) := by
      rcases (origin.run moves).log_move m with heq | ⟨k, number, -, -, heq⟩
      · rw [heq, hlog]
      · rw [heq, List.getElem?_append_left (List.getElem?_eq_some_iff.mp hlog).1, hlog]
    rw [run_concat]
    rcases during_concat.mp h with hold | ⟨n, ⟨rfl, f, incoming, answer, rfl⟩, hwaits⟩
    · obtain ⟨n, hlog, hechoed⟩ := ih hold
      exact ⟨n, hkept hlog, mem_echoed_move hechoed m⟩
    · refine ⟨_, hkept hwaits.1, mem_echoed_of_incoming incoming ?_⟩
      rw [Frame.replyKind_of_answer answer]
      rfl

theorem echoing_of_notMem {origin : Session} {moves : List Move} (h : .step .reader ∉ moves) :
    Echoing origin moves := by
  rintro before m after rfl rfl
  exact absurd (by simp) h

theorem always_of_append {P : List Move → Move → Prop} {before after : List Move}
    (h : Always P (before ++ after)) : Always P before := by
  rintro b m rest rfl
  exact h b m (rest ++ after) (by simp)

/-- With a server that echoes, numbers tell the queries apart, and an answer goes to the query
that it echoes or, when that one waits no more, to the oldest of its kind.  So a caller gets the
reply to another query only after the caller of a query of the same kind has dropped it. -/
theorem echoed_replies_find_their_queries (transport : Transport) (subscribers : List Subscriber)
    (lastId : SubscriptionId) (moves : List Move)
    (echoing : Echoing (start transport subscribers lastId) moves)
    (room : ((start transport subscribers lastId).run moves).log.length +
      ((start transport subscribers lastId).run moves).drawn.length < 2 ^ 32 - 1) :
    let origin := start transport subscribers lastId
    (∀ n ∈ (origin.run moves).log.map Prod.snd, n ≠ 0) ∧
    ((origin.run moves).log.map Prod.snd).Nodup ∧
    Always (fun before m => ∀ kind a n, Brings (origin.run before) m kind a n →
      Delivered (origin.run before) ((origin.run before).move m) kind a n) moves ∧
    ∀ i r, (origin.run moves).Resolved i (.ok r) →
      (During (Own origin i r.kind (.ok r)) moves ∨
        During (Stray origin i r.kind (.ok r)) moves) ∧
      (¬ During (Drops origin r.kind) moves → During (Own origin i r.kind (.ok r)) moves) := by
  intro origin
  have hroom : (origin.run moves).numbers.length < 2 ^ 32 - 1 := by
    rw [numbers, List.length_append, List.length_map]
    exact room
  have h : Echoed origin moves := echoed_run transport subscribers lastId echoing
  have hnodup := Sequence.Issued.nodup h.numbered (by omega)
  refine ⟨fun n hn => Sequence.Issued.ne_zero h.numbered (List.mem_append_left _ hn),
    (List.nodup_append.mp hnodup).1, ?_, fun i r hresolved => ⟨h.traced i r hresolved, ?_⟩⟩
  · rintro before m after rfl kind a n hbrings
    have hbefore : Echoed origin before :=
      echoed_run transport subscribers lastId (always_of_append echoing)
    have hle := (origin.run before).length_numbers_run_le (m :: after)
    rw [← run_append] at hle
    exact delivered hbefore.sound hbefore.numbered (by omega)
      (echoing before m after rfl hbrings.1) hbrings
  · intro hnever
    refine (h.traced i r hresolved).resolve_right fun ⟨before, m, after, heq, hdrops, _⟩ => ?_
    obtain ⟨earlier, a, later, rfl, hdrop⟩ := hdrops
    exact hnever ⟨earlier, a, later ++ m :: after, by simp [heq], hdrop⟩

def firstSize : Reply := .windowSize ⟨1, 10, 10⟩

def firstReply : Frame := Frame.ofMessage (.reply firstSize) 1

def dropping : List Move := [
  .draw, .draw, .register .windowSize 1, .register .windowSize 2, .abandon 0,
  .arrive (.bytes firstReply.encode)]

def drawnTwice : Session :=
  { connection := { sequence := ⟨3⟩ }, dispatcher := {}, drawn := [1, 2], events := [.connected] }

theorem run_dropping (moves : List Move) :
    (start {} [] 0).run (dropping ++ moves) = (drawnTwice.run (dropping.drop 2)).run moves := by
  have hone : Sequence.next ⟨1⟩ = (1, ⟨2⟩) := Sequence.next_of_ne_zero (by decide)
  have htwo : Sequence.next ⟨2⟩ = (2, ⟨3⟩) := Sequence.next_of_ne_zero (by decide)
  have htwice : ((start {} [] 0).move .draw).move .draw = drawnTwice := by
    simp [move, draw, start, Connection.start, drawnTwice, hone, htwo, Dispatcher.calls,
      Dispatcher.listeners]
  rw [run_append, ← htwice]
  rfl

/-- The whole run: the reader takes the bytes, and then the frame in them. -/
def straying : List Move := dropping ++ [.step .reader] ++ [.step .reader]

theorem incoming_dropping :
    ((start {} [] 0).run (dropping ++ [.step .reader])).incoming = some firstReply := by
  rw [run_dropping]
  rfl

theorem echoing_straying : Echoing (start {} [] 0) straying := by
  refine always_concat.mpr ⟨always_concat.mpr ⟨echoing_of_notMem (by decide), ?_⟩, ?_⟩
  · -- the reader waits for the bytes
    rintro - f kind hincoming -
    rw [← List.append_nil dropping, run_dropping] at hincoming
    cases hincoming
  · rintro - f kind hincoming hkind
    rw [incoming_dropping] at hincoming
    cases hincoming
    obtain rfl : ReplyKind.windowSize = kind := Option.some.inj hkind
    rw [run_dropping]
    decide

theorem room_straying : ((start {} [] 0).run straying).log.length +
    ((start {} [] 0).run straying).drawn.length < 2 ^ 32 - 1 := by
  rw [straying, run_concat, read_of_incoming incoming_dropping, run_dropping]
  decide

theorem resolved_straying : ((start {} [] 0).run straying).Resolved 1 (.ok firstSize) := by
  have hlive : ((drawnTwice.run (dropping.drop 2)).run [.step .reader]).dispatcher.table.live
      .windowSize = [⟨1, 2⟩] := by decide
  have htable := table_of_brings (s := (start {} [] 0).run (dropping ++ [.step .reader]))
    (m := .step .reader) ⟨rfl, firstReply, incoming_dropping, rfl, rfl⟩
  refine .inl ?_
  rw [straying, run_concat, htable, run_dropping, ReplyTable.deliver_of_live hlive]
  rfl

/-- After a drop, a reply with the number of one query has come to the caller of another. -/
theorem echoed_reply_strays :
    Echoing (start {} [] 0) straying ∧
    ((start {} [] 0).run straying).log.length + ((start {} [] 0).run straying).drawn.length <
      2 ^ 32 - 1 ∧
    ((start {} [] 0).run straying).Resolved 1 (.ok firstSize) ∧
    ¬ During (Own (start {} [] 0) 1 firstSize.kind (.ok firstSize)) straying := by
  refine ⟨echoing_straying, room_straying, resolved_straying, fun hown => ?_⟩
  obtain ⟨n, hlog, hechoed⟩ := own_echoed hown
  rw [straying, run_concat, read_of_incoming incoming_dropping, run_dropping] at hlog hechoed
  obtain rfl : 2 = n := congrArg Prod.snd (Option.some.inj hlog)
  exact absurd hechoed (by decide)

theorem echoed_replies_find_their_queries_straying :
    Echoing (start {} [] 0) straying ∧
    ((start {} [] 0).run straying).log.length + ((start {} [] 0).run straying).drawn.length <
      2 ^ 32 - 1 ∧
    (During (Own (start {} [] 0) 1 firstSize.kind (.ok firstSize)) straying ∨
      During (Stray (start {} [] 0) 1 firstSize.kind (.ok firstSize)) straying) :=
  ⟨echoing_straying, room_straying,
    ((echoed_replies_find_their_queries {} [] 0 straying echoing_straying room_straying).2.2.2 1
      firstSize resolved_straying).1⟩

end Session
end CompositorClient
