import CompositorClient.Proofs.Tickets

/-! How a connection ends.  Either task may find a reason to end it, and callers may close it at
any time; whichever task claims the right to notify first tells the subscribers, once, and
fails what is unanswered in the same step. -/

namespace CompositorClient

open ReplyTable

namespace Connection

theorem ending?_congr {c c' : Connection} (reader : c'.reader = c.reader)
    (writer : c'.writer = c.writer) (task : Task) : c'.ending? task = c.ending? task := by
  cases task with
  | reader => rw [ending?, ending?, reader]
  | writer => rw [ending?, ending?, writer]

@[simp] theorem ending?_push (c : Connection) (item : Outbound) (task : Task) :
    (c.push item).ending? task = c.ending? task :=
  ending?_congr (reader_push c item) (writer_push c item) task

@[simp] theorem ending?_advance_self (c : Connection) (terminal : Option Event)
    (next : Option Stage) (task : Task) :
    (c.advance terminal next task).ending? task = next.map fun stage => (stage, terminal) := by
  cases task <;> cases next <;> rfl

theorem ending?_advance_of_ne (c : Connection) (terminal : Option Event) (next : Option Stage)
    {task other : Task} (h : other ≠ task) :
    (c.advance terminal next task).ending? other = c.ending? other := by
  cases task <;> cases other <;> first | rfl | exact absurd rfl h

end Connection

namespace Session

variable {s s' : Session} {task : Task} {stage : Stage} {terminal : Option Event} {m : Move}

/-- What makes a task end the connection, with the event by which it says so. -/
inductive Fails (s : Session) : Task → Option Event → Prop
  | endOfStream {rest} (waiting : s.connection.reader = .waiting)
      (brought : s.reads = .endOfStream :: rest) : Fails s .reader none
  | readError {text rest} (waiting : s.connection.reader = .waiting)
      (brought : s.reads = .failure text :: rest) : Fails s .reader (some (.transportError text))
  | malformed {e} (cutting : s.connection.reader = .cutting)
      (next : s.connection.inbox.next.1 = some (.error e)) :
    Fails s .reader (some (.protocolViolation e))
  | writeError {bytes rest text} (running : s.connection.writer = .running)
      (front : s.connection.outbox = .frame bytes :: rest)
      (fault : s.connection.transport.fault = some text) :
    Fails s .writer (some (.transportError text))

structure Claims (s : Session) (task : Task) (terminal : Option Event) : Prop where
  stands : s.connection.ending? task = some (.claim, terminal)
  first : s.connection.notified = false

structure Ordinary (s s' : Session) : Prop where
  notified_eq : s'.connection.notified = s.connection.notified
  closed_of : s.connection.closed = true → s'.connection.closed = true
  table_closed : s'.dispatcher.table.closed = s.dispatcher.table.closed
  notifying : ∀ task terminal, s'.connection.ending? task = some (.notify, terminal) ↔
    s.connection.ending? task = some (.notify, terminal)
  claiming : ∀ task terminal, s'.connection.ending? task = some (.claim, terminal) →
    s.connection.ending? task = some (.claim, terminal) ∨ s'.connection.closed = true
  events : ∃ es, s'.events = s.events ++ es ∧ ∀ e ∈ es, ¬ e.Terminal

theorem Ordinary.of_eq (reader : s'.connection.reader = s.connection.reader)
    (writer : s'.connection.writer = s.connection.writer)
    (notified : s'.connection.notified = s.connection.notified)
    (closed : s.connection.closed = true → s'.connection.closed = true)
    (table : s'.dispatcher.table.closed = s.dispatcher.table.closed)
    (events : s'.events = s.events) : Ordinary s s' where
  notified_eq := notified
  closed_of := closed
  table_closed := table
  notifying task terminal := by rw [Connection.ending?_congr reader writer]
  claiming task terminal h := by
    rw [Connection.ending?_congr reader writer] at h
    exact .inl h
  events := ⟨[], by rw [events, List.append_nil], by simp⟩

theorem Ordinary.refl (s : Session) : Ordinary s s :=
  .of_eq rfl rfl rfl id rfl rfl

theorem Ordinary.of_task (task : Task)
    (others : ∀ other ≠ task, s'.connection.ending? other = s.connection.ending? other)
    (before : ∀ terminal, s.connection.ending? task ≠ some (.notify, terminal))
    (after : ∀ terminal, s'.connection.ending? task ≠ some (.notify, terminal))
    (claim : ∀ terminal, s'.connection.ending? task = some (.claim, terminal) →
      s'.connection.closed = true)
    (notified : s'.connection.notified = s.connection.notified)
    (closed : s.connection.closed = true → s'.connection.closed = true)
    (table : s'.dispatcher.table.closed = s.dispatcher.table.closed)
    (events : ∃ es, s'.events = s.events ++ es ∧ ∀ e ∈ es, ¬ e.Terminal) : Ordinary s s' where
  notified_eq := notified
  closed_of := closed
  table_closed := table
  notifying other terminal := by
    by_cases h : other = task
    · subst h
      exact ⟨fun hn => absurd hn (after terminal), fun hn => absurd hn (before terminal)⟩
    · rw [others other h]
  claiming other terminal hc := by
    by_cases h : other = task
    · subst h
      exact .inr (claim terminal hc)
    · rw [others other h] at hc
      exact .inl hc
  events := events

theorem no_events (s : Session) : ∃ es, s.events = s.events ++ es ∧ ∀ e ∈ es, ¬ e.Terminal :=
  ⟨[], by rw [List.append_nil], by simp⟩

theorem Concludes.ordinary (step : Concludes s task stage terminal s')
    (stands : s.connection.ending? task = some (stage, terminal))
    (hclaim : stage = .claim → s.connection.notified = true) (hnotify : stage ≠ .notify) :
    Ordinary s s' := by
  have hbefore : ∀ t, s.connection.ending? task ≠ some (.notify, t) := by
    intro t ht
    rw [stands] at ht
    cases ht
    exact hnotify rfl
  cases step with
  | signal =>
    refine .of_task task (fun other h => ?_) hbefore ?_ ?_ ?_ ?_ rfl (no_events s)
    · rw [Connection.ending?_advance_of_ne _ _ _ h, Connection.ending?_push]
    all_goals simp
  | refuse =>
    refine .of_task task (fun other h => ?_) hbefore ?_ ?_ ?_ ?_ rfl (no_events s)
    · rw [Connection.ending?_advance_of_ne _ _ _ h]
      exact Connection.ending?_congr rfl rfl other
    all_goals simp
  | late =>
    refine .of_task task (fun other h => ?_) hbefore ?_ ?_ ?_ ?_ rfl (no_events s)
    · rw [Connection.ending?_advance_of_ne _ _ _ h]
    all_goals simp
  | claim first =>
    rw [hclaim rfl] at first
    cases first
  | notify => exact absurd rfl hnotify

theorem ReadStep.ordinary (step : ReadStep s s')
    (hclaim : ∀ terminal, s.connection.ending? .reader = some (.claim, terminal) →
      s.connection.notified = true)
    (hnotify : ∀ terminal, s.connection.ending? .reader ≠ some (.notify, terminal)) :
    Ordinary s s' := by
  have hothers {s' : Session} (hw : s'.connection.writer = s.connection.writer) :
      ∀ other ≠ Task.reader, s'.connection.ending? other = s.connection.ending? other := by
    intro other h
    cases other with
    | reader => exact absurd rfl h
    | writer => rw [Connection.ending?, Connection.ending?, hw]
  cases step with
  | idle => exact .refl s
  | again => exact .of_eq rfl rfl rfl id rfl rfl
  | bytes | finish | drained | malformed =>
    refine .of_task .reader (hothers rfl) hnotify ?_ ?_ rfl id rfl (no_events s)
    all_goals simp [Connection.ending?]
  | @frame f cutting next =>
    refine .of_task .reader (hothers rfl) hnotify ?_ ?_ rfl id (closed_dispatchFrame s f)
      ⟨f.events, rfl, fun e he => Frame.not_terminal he⟩
    all_goals simp [Connection.ending?, absorb, cutting]
  | @ending stage terminal stands =>
    have hstands : s.connection.ending? .reader = some (stage, terminal) := by
      rw [Connection.ending?, stands]
    refine (concludes ..).ordinary hstands ?_ ?_
    · rintro rfl
      exact hclaim terminal hstands
    · rintro rfl
      exact hnotify terminal hstands

theorem WriteStep.ordinary (step : WriteStep s s')
    (hclaim : ∀ terminal, s.connection.ending? .writer = some (.claim, terminal) →
      s.connection.notified = true)
    (hnotify : ∀ terminal, s.connection.ending? .writer ≠ some (.notify, terminal)) :
    Ordinary s s' := by
  have hothers {s' : Session} (hr : s'.connection.reader = s.connection.reader) :
      ∀ other ≠ Task.writer, s'.connection.ending? other = s.connection.ending? other := by
    intro other h
    cases other with
    | writer => exact absurd rfl h
    | reader => rw [Connection.ending?, Connection.ending?, hr]
  cases step with
  | idle => exact .refl s
  | frame => exact .of_eq rfl rfl rfl id rfl rfl
  | failed | shutdown =>
    refine .of_task .writer (hothers rfl) hnotify ?_ ?_ rfl id rfl (no_events s)
    all_goals simp [Connection.ending?]
  | @ending stage terminal stands =>
    have hstands : s.connection.ending? .writer = some (stage, terminal) := by
      rw [Connection.ending?, stands]
    refine (concludes ..).ordinary hstands ?_ ?_
    · rintro rfl
      exact hclaim terminal hstands
    · rintro rfl
      exact hnotify terminal hstands

theorem ordinary_move (s : Session) (m : Move)
    (hclaim : ∀ task terminal, m = .step task → ¬ Claims s task terminal)
    (hnotify : ∀ task terminal, m = .step task →
      s.connection.ending? task ≠ some (.notify, terminal)) : Ordinary s (s.move m) := by
  have hlate : ∀ task terminal, m = .step task →
      s.connection.ending? task = some (.claim, terminal) → s.connection.notified = true := by
    intro task terminal hm stands
    cases hn : s.connection.notified with
    | true => rfl
    | false => exact absurd ⟨stands, hn⟩ (hclaim task terminal hm)
  cases m with
  | step task =>
    cases task with
    | reader => exact s.readStep.ordinary (hlate _ · rfl) (hnotify _ · rfl)
    | writer => exact s.writeStep.ordinary (hlate _ · rfl) (hnotify _ · rfl)
  | refuse => exact .of_eq rfl rfl rfl (fun _ => rfl) rfl rfl
  | push item =>
    exact .of_eq (Connection.reader_push ..) (Connection.writer_push ..)
      (Connection.notified_push ..) (fun h => (Connection.closed_push ..).trans h) rfl rfl
  | register kind sequence =>
    rw [move, register]
    split
    · refine .of_eq rfl rfl rfl id ?_ rfl
      rw [Dispatcher.register, ReplyTable.register]
      split <;> rfl
    · exact .refl s
  | collect ticket =>
    refine .of_eq rfl rfl rfl id ?_ rfl
    rw [move, collect, ReplyTable.collect]
    dsimp only
    split <;> rfl
  | arrive | fault | draw | abandon | subscribe | unsubscribe =>
    exact .of_eq rfl rfl rfl id rfl rfl

theorem move_claim (h : Claims s task terminal) : s.move (.step task) =
    { s with
      connection :=
        { s.connection with notified := true }.advance terminal (some .notify) task } := by
  rw [move_of_ending h.stands]
  have hfirst := h.first
  generalize hs' : s.conclude task .claim terminal = s'
  have step := concludes s task .claim terminal
  rw [hs'] at step
  cases step with
  | late notified =>
    rw [notified] at hfirst
    cases hfirst
  | claim => rfl

theorem move_notify (stands : s.connection.ending? task = some (.notify, terminal)) :
    s.move (.step task) = s.absorb ⟨s.connection.advance terminal none task, s.dispatcher.close,
      terminal.toList ++ [.closed]⟩ :=
  move_of_ending stands

structure Calm (s : Session) : Prop where
  sound : s.Sound
  silent : ∀ e ∈ s.events, ¬ e.Terminal
  opened : s.dispatcher.table.closed = false
  unfailed : ∀ i : Ticket,
    s.dispatcher.table.slots[i]? ≠ some (.answered (.error .connectionClosed))

structure Going (s : Session) : Prop extends Calm s where
  unclaimed : s.connection.notified = false
  claiming : ∀ task terminal, s.connection.ending? task = some (.claim, terminal) →
    s.connection.closed = true
  notifying : ∀ task terminal, s.connection.ending? task ≠ some (.notify, terminal)

/-- The task has claimed the right to notify, and will with its next step. -/
structure Claimed (s : Session) (task : Task) (terminal : Option Event) : Prop extends Calm s where
  notified : s.connection.notified = true
  refused : s.connection.closed = true
  stands : s.connection.ending? task = some (.notify, terminal)
  only : ∀ other t, s.connection.ending? other = some (.notify, t) → other = task

structure Over (s : Session) : Prop where
  sound : s.Sound
  notified : s.connection.notified = true
  refused : s.connection.closed = true
  ended : s.dispatcher.table.closed = true
  notifying : ∀ task terminal, s.connection.ending? task ≠ some (.notify, terminal)

theorem answer_ne_connectionClosed (f : Frame) (kind : ReplyKind) :
    f.answer? ≠ some (kind, .error .connectionClosed) := by
  intro h
  obtain ⟨k, -, hmatch⟩ := Option.bind_eq_some_iff.mp h
  split at hmatch <;> cases hmatch

theorem Calm.move (h : Calm s) (ordinary : Ordinary s (s.move m))
    (hnotify : ∀ task terminal, m = .step task →
      s.connection.ending? task ≠ some (.notify, terminal)) : Calm (s.move m) where
  sound := h.sound.move m
  silent e he := by
    obtain ⟨es, hes, hordinary⟩ := ordinary.events
    rw [hes, List.mem_append] at he
    exact he.elim (h.silent e) (hordinary e)
  opened := ordinary.table_closed.trans h.opened
  unfailed i := by
    have hold := h.unfailed i
    have hturn := h.sound.turn m i
    generalize s.dispatcher.table.slots[i]? = old at hold hturn
    generalize (s.move m).dispatcher.table.slots[i]? = new at hturn ⊢
    cases hturn with
    | same => exact hold
    | opened | abandoned | collected => simp
    | refused closed =>
      rw [h.opened] at closed
      cases closed
    | answered _ _ answer =>
      rintro ⟨⟩
      exact answer_ne_connectionClosed _ _ answer
    | ended hm stands => exact absurd stands (hnotify _ _ hm)

theorem Going.move (h : Going s)
    (hclaim : ∀ task terminal, m = .step task → ¬ Claims s task terminal) : Going (s.move m) := by
  have ordinary : Ordinary s (s.move m) :=
    ordinary_move s m hclaim fun task terminal _ => h.notifying task terminal
  refine ⟨h.toCalm.move ordinary fun task terminal _ => h.notifying task terminal,
    ordinary.notified_eq.trans h.unclaimed, fun task terminal hc => ?_, fun task terminal hn => ?_⟩
  · rcases ordinary.claiming task terminal hc with hold | hclosed
    · exact ordinary.closed_of (h.claiming task terminal hold)
    · exact hclosed
  · exact h.notifying task terminal ((ordinary.notifying task terminal).mp hn)

theorem Going.claim (h : Going s) (claims : Claims s task terminal) :
    Claimed (s.move (.step task)) task terminal := by
  rw [move_claim claims]
  refine ⟨⟨h.sound, h.silent, h.opened, h.unfailed⟩, by simp, ?_, by simp, ?_⟩
  · rw [Connection.closed_advance]
    exact h.claiming task terminal claims.stands
  · intro other t hother
    by_contra hne
    rw [Connection.ending?_advance_of_ne _ _ _ hne] at hother
    exact h.notifying other t hother

theorem Claimed.move (h : Claimed s task terminal) (hm : m ≠ .step task) :
    Claimed (s.move m) task terminal := by
  have hnotify : ∀ other t, m = .step other → s.connection.ending? other ≠ some (.notify, t) := by
    intro other t hstep hother
    exact hm (h.only other t hother ▸ hstep)
  have ordinary : Ordinary s (s.move m) := by
    refine ordinary_move s m (fun other t _ claims => ?_) hnotify
    have hfirst := claims.first
    rw [h.notified] at hfirst
    cases hfirst
  exact ⟨h.toCalm.move ordinary hnotify, ordinary.notified_eq.trans h.notified,
    ordinary.closed_of h.refused, (ordinary.notifying task terminal).mpr h.stands,
    fun other t hother => h.only other t ((ordinary.notifying other t).mp hother)⟩

theorem Claimed.run (h : Claimed s task terminal) {moves : List Move}
    (unmoved : .step task ∉ moves) : Claimed (s.run moves) task terminal := by
  induction moves using List.reverseRecOn with
  | nil => exact h
  | append_singleton moves m ih =>
    rw [List.mem_append, List.mem_singleton, not_or] at unmoved
    rw [run_concat]
    exact (ih unmoved.1).move (Ne.symm unmoved.2)

theorem Claimed.notify (h : Claimed s task terminal) : Over (s.move (.step task)) := by
  rw [move_notify h.stands]
  refine ⟨?_, ?_, ?_, rfl, ?_⟩
  · rw [← move_notify h.stands]
    exact h.sound.move _
  · exact (Connection.notified_advance ..).trans h.notified
  · exact (Connection.closed_advance ..).trans h.refused
  · intro other t hother
    have hother : (s.connection.advance terminal none task).ending? other = some (.notify, t) :=
      hother
    by_cases hne : other = task
    · subst hne
      simp at hother
    · rw [Connection.ending?_advance_of_ne _ _ _ hne] at hother
      exact hne (h.only other t hother)

theorem Over.ordinary (h : Over s) (m : Move) : Ordinary s (s.move m) := by
  refine ordinary_move s m (fun other t _ claims => ?_) fun other t _ => h.notifying other t
  have hfirst := claims.first
  rw [h.notified] at hfirst
  cases hfirst

theorem Over.move (h : Over s) (m : Move) : Over (s.move m) where
  sound := h.sound.move m
  notified := (h.ordinary m).notified_eq.trans h.notified
  refused := (h.ordinary m).closed_of h.refused
  ended := (h.ordinary m).table_closed.trans h.ended
  notifying task terminal hn := h.notifying task terminal (((h.ordinary m).notifying _ _).mp hn)

theorem Over.run (h : Over s) (moves : List Move) : Over (s.run moves) := by
  induction moves using List.reverseRecOn with
  | nil => exact h
  | append_singleton moves m ih =>
    rw [run_concat]
    exact ih.move m

theorem Over.events_run (h : Over s) (moves : List Move) :
    ∃ es, (s.run moves).events = s.events ++ es ∧ ∀ e ∈ es, ¬ e.Terminal := by
  induction moves using List.reverseRecOn with
  | nil => exact no_events s
  | append_singleton moves m ih =>
    obtain ⟨es, hes, hold⟩ := ih
    obtain ⟨new, hnew, hfresh⟩ := ((h.run moves).ordinary m).events
    refine ⟨es ++ new, ?_, fun e he => ?_⟩
    · rw [run_concat, hnew, hes, List.append_assoc]
    · exact (List.mem_append.mp he).elim (hold e) (hfresh e)

theorem Concludes.ending_of_ne (step : Concludes s task stage terminal s') {other : Task}
    (h : other ≠ task) : s'.connection.ending? other = s.connection.ending? other := by
  cases step with
  | signal =>
    exact (Connection.ending?_advance_of_ne _ _ _ h).trans (Connection.ending?_push ..)
  | refuse | claim =>
    exact (Connection.ending?_advance_of_ne _ _ _ h).trans (Connection.ending?_congr rfl rfl _)
  | late | notify => exact Connection.ending?_advance_of_ne _ _ _ h

theorem ReadStep.ending_writer (step : ReadStep s s') :
    s'.connection.ending? .writer = s.connection.ending? .writer := by
  cases step with
  | idle | bytes | again | finish | drained | malformed | frame => rfl
  | ending => exact (concludes ..).ending_of_ne (by simp)

theorem WriteStep.ending_reader (step : WriteStep s s') :
    s'.connection.ending? .reader = s.connection.ending? .reader := by
  cases step with
  | idle | frame | failed | shutdown => rfl
  | ending => exact (concludes ..).ending_of_ne (by simp)

theorem ending_move_of_ne (hm : m ≠ .step task) :
    (s.move m).connection.ending? task = s.connection.ending? task := by
  cases m with
  | step other =>
    cases other with
    | reader =>
      cases task with
      | reader => exact absurd rfl hm
      | writer => exact s.readStep.ending_writer
    | writer =>
      cases task with
      | reader => exact s.writeStep.ending_reader
      | writer => exact absurd rfl hm
  | push item => exact Connection.ending?_push ..
  | register => exact congrArg (·.ending? task) (connection_register ..)
  | arrive | fault | refuse | draw | abandon | collect | subscribe | unsubscribe =>
    exact Connection.ending?_congr rfl rfl task

theorem Concludes.ending (step : Concludes s task stage terminal s') :
    (∃ next, s'.connection.ending? task = some (next, terminal) ∧ next.rank < stage.rank) ∨
      s'.connection.ending? task = none ∧ (stage = .notify ∨ s.connection.notified = true) := by
  cases step with
  | signal | refuse | claim => exact .inl ⟨_, Connection.ending?_advance_self .., by decide⟩
  | late notified => exact .inr ⟨Connection.ending?_advance_self .., .inr notified⟩
  | notify => exact .inr ⟨Connection.ending?_advance_self .., .inl rfl⟩

theorem Fails.not_ending (h : Fails s task terminal) : s.connection.ending? task = none := by
  cases h with
  | endOfStream waiting => rw [Connection.ending?, waiting]
  | readError waiting => rw [Connection.ending?, waiting]
  | malformed cutting => rw [Connection.ending?, cutting]
  | writeError running => rw [Connection.ending?, running]

theorem fails_reader_iff : Fails s .reader terminal ↔
    (s.connection.reader = .waiting ∧
      ∃ input rest, s.reads = input :: rest ∧ input.end? = some terminal) ∨
    (s.connection.reader = .cutting ∧
      ∃ e, s.connection.inbox.next.1 = some (.error e) ∧
        terminal = some (.protocolViolation e)) := by
  constructor
  · rintro (⟨waiting, brought⟩ | ⟨waiting, brought⟩ | ⟨cutting, next⟩ | _)
    · exact .inl ⟨waiting, _, _, brought, rfl⟩
    · exact .inl ⟨waiting, _, _, brought, rfl⟩
    · exact .inr ⟨cutting, _, next, rfl⟩
  · rintro (⟨waiting, input, rest, brought, last⟩ | ⟨cutting, e, next, rfl⟩)
    · cases input with
      | bytes | interruption => cases last
      | endOfStream =>
        cases last
        exact .endOfStream waiting brought
      | failure text =>
        cases last
        exact .readError waiting brought
    · exact .malformed cutting next

theorem fails_writer_iff : Fails s .writer terminal ↔ s.connection.writer = .running ∧
    ∃ bytes rest text, s.connection.outbox = .frame bytes :: rest ∧
      s.connection.transport.fault = some text ∧ terminal = some (.transportError text) := by
  constructor
  · rintro (_ | _ | _ | ⟨running, front, fault⟩)
    exact ⟨running, _, _, _, front, fault, rfl⟩
  · rintro ⟨running, bytes, rest, text, front, fault, rfl⟩
    exact .writeError running front fault

theorem ReadStep.fails_iff (step : ReadStep s s') (h : s.connection.ending? .reader = none) :
    Fails s .reader terminal ↔
      ∃ stage, s'.connection.ending? .reader = some (stage, terminal) := by
  rw [fails_reader_iff]
  cases step with
  | idle rests =>
    rcases rests with ⟨waiting, nothing⟩ | stopped
    · simp [Connection.ending?, waiting, nothing]
    · simp [Connection.ending?, stopped]
  | bytes waiting brought => simp [Connection.ending?, waiting, brought, Input.end?]
  | again waiting brought => simp [Connection.ending?, waiting, brought, Input.end?]
  | finish waiting brought last => simp [Connection.ending?, waiting, brought, last]
  | drained cutting next => simp [Connection.ending?, cutting, next]
  | malformed cutting next => simp [Connection.ending?, cutting, next, eq_comm]
  | frame cutting next => simp [Connection.ending?, absorb, cutting, next]
  | ending stands =>
    rw [Connection.ending?, stands] at h
    cases h

theorem WriteStep.fails_iff (step : WriteStep s s') (h : s.connection.ending? .writer = none) :
    Fails s .writer terminal ↔
      ∃ stage, s'.connection.ending? .writer = some (stage, terminal) := by
  rw [fails_writer_iff]
  cases step with
  | idle rests =>
    rcases rests with ⟨running, nothing⟩ | stopped
    · simp [Connection.ending?, running, nothing]
    · simp [Connection.ending?, stopped]
  | frame running front sound => simp [Connection.ending?, running, sound]
  | failed running front fault => simp [Connection.ending?, running, front, fault, eq_comm]
  | shutdown running front => simp [Connection.ending?, running, front]
  | ending stands =>
    rw [Connection.ending?, stands] at h
    cases h

theorem fails_iff (h : s.connection.ending? task = none) : Fails s task terminal ↔
    ∃ stage, (s.move (.step task)).connection.ending? task = some (stage, terminal) := by
  cases task with
  | reader => exact s.readStep.fails_iff h
  | writer => exact s.writeStep.fails_iff h

def FailsAt (origin : Session) (task : Task) (terminal : Option Event) (before : List Move)
    (m : Move) : Prop :=
  m = .step task ∧ Fails (origin.run before) task terminal

theorem concludes_move (stands : s.connection.ending? task = some (stage, terminal)) :
    Concludes s task stage terminal (s.move (.step task)) := by
  rw [move_of_ending stands]
  exact concludes ..

theorem failsAt_of_ending {origin : Session} (fresh : ∀ task, origin.connection.ending? task = none)
    {moves : List Move}
    (stands : (origin.run moves).connection.ending? task = some (stage, terminal)) :
    During (FailsAt origin task terminal) moves := by
  induction moves using List.reverseRecOn generalizing stage with
  | nil =>
    rw [run_nil, fresh] at stands
    cases stands
  | append_singleton moves m ih =>
    rw [run_concat] at stands
    rw [during_concat]
    by_cases hm : m = .step task
    · subst hm
      cases hold : (origin.run moves).connection.ending? task with
      | none => exact .inr ⟨rfl, (fails_iff hold).mpr ⟨stage, stands⟩⟩
      | some p =>
        obtain ⟨old, t⟩ := p
        rcases (concludes_move hold).ending with ⟨next, hnext, -⟩ | ⟨hnone, -⟩
        · rw [hnext] at stands
          cases stands
          exact .inl (ih hold)
        · rw [hnone] at stands
          cases stands
    · rw [ending_move_of_ne hm] at stands
      exact .inl (ih stands)

/-- Nobody has claimed the right to notify, or one task has and waits for its next step, or that
step has been taken. -/
inductive Course (origin : Session) : List Move → Prop
  | going {moves} (h : Going (origin.run moves)) : Course origin moves
  | claimed {before task terminal between} (claims : Claims (origin.run before) task terminal)
      (h : Claimed (origin.run (before ++ .step task :: between)) task terminal) :
    Course origin (before ++ .step task :: between)
  | finished {before task terminal between} (after : List Move)
      (claims : Claims (origin.run before) task terminal)
      (h : Claimed (origin.run (before ++ .step task :: between)) task terminal) :
    Course origin (before ++ .step task :: between ++ .step task :: after)

theorem course {origin : Session} (h : Going origin) (moves : List Move) :
    Course origin moves := by
  induction moves using List.reverseRecOn with
  | nil => exact .going h
  | append_singleton moves m ih =>
    cases ih with
    | going h =>
      by_cases hc : ∃ task terminal, m = .step task ∧ Claims (origin.run moves) task terminal
      · obtain ⟨task, terminal, rfl, claims⟩ := hc
        refine .claimed claims ?_
        rw [run_concat]
        exact h.claim claims
      · refine .going ?_
        rw [run_concat]
        exact h.move fun task terminal hm claims => hc ⟨task, terminal, hm, claims⟩
    | @claimed before task terminal between claims h =>
      by_cases hm : m = .step task
      · subst hm
        exact .finished [] claims h
      · rw [List.append_assoc, List.cons_append]
        refine .claimed claims ?_
        rw [← List.cons_append, ← List.append_assoc, run_concat]
        exact h.move hm
    | @finished before task terminal between after claims h =>
      rw [List.append_assoc, List.cons_append]
      exact .finished (after ++ [m]) claims h

theorem Course.notified_of_notify {origin : Session} {moves : List Move} (h : Course origin moves)
    (stands : (origin.run moves).connection.ending? task = some (.notify, terminal)) :
    (origin.run moves).connection.notified = true := by
  cases h with
  | going h => exact absurd stands (h.notifying _ _)
  | claimed _ h => exact h.notified
  | finished after _ h =>
    rw [run_append]
    exact (h.notify.run after).notified

theorem notified_move (h : s.connection.notified = true) (m : Move) :
    (s.move m).connection.notified = true := by
  have hclaim : ∀ task terminal, m = .step task → ¬ Claims s task terminal := by
    intro task terminal _ claims
    have hfirst := claims.first
    rw [h] at hfirst
    cases hfirst
  by_cases hn : ∃ task terminal, m = .step task ∧
      s.connection.ending? task = some (.notify, terminal)
  · obtain ⟨task, terminal, rfl, stands⟩ := hn
    rw [move_notify stands]
    exact (Connection.notified_advance ..).trans h
  · exact (ordinary_move s m hclaim fun task terminal hm stands =>
      hn ⟨task, terminal, hm, stands⟩).notified_eq.trans h

/-- A task that has failed goes on to the end, unless the other has claimed already. -/
theorem ending_or_notified {origin : Session} (h : Going origin) {moves : List Move}
    (failed : During (FailsAt origin task terminal) moves) :
    (∃ stage, (origin.run moves).connection.ending? task = some (stage, terminal)) ∨
      (origin.run moves).connection.notified = true := by
  induction moves using List.reverseRecOn with
  | nil => exact absurd failed not_during_nil
  | append_singleton moves m ih =>
    rw [run_concat]
    rcases during_concat.mp failed with hold | ⟨rfl, hfails⟩
    · rcases ih hold with ⟨stage, stands⟩ | hnotified
      · by_cases hm : m = .step task
        · subst hm
          rcases (concludes_move stands).ending with ⟨next, hnext, -⟩ | ⟨-, rfl | hnotified⟩
          · exact .inl ⟨next, hnext⟩
          · exact .inr (notified_move ((course h moves).notified_of_notify stands) _)
          · exact .inr (notified_move hnotified _)
        · rw [ending_move_of_ne hm]
          exact .inl ⟨stage, stands⟩
      · exact .inr (notified_move hnotified m)
    · exact .inl ((fails_iff hfails.not_ending).mp hfails)

/-- A task that has failed comes nearer to its end with each of its steps, until one task has
claimed and it is not this one. -/
theorem nears_end {origin : Session} (h : Going origin) {moves : List Move}
    (failed : During (FailsAt origin task terminal) moves) (more : List Move) :
    (∃ stage t, (origin.run (moves ++ more)).connection.ending? task = some (stage, t) ∧
      stage.rank + more.count (.step task) ≤ 4) ∨
    (origin.run (moves ++ more)).connection.notified = true ∧
      ∀ t, (origin.run (moves ++ more)).connection.ending? task ≠ some (.notify, t) := by
  induction more using List.reverseRecOn with
  | nil =>
    rw [List.append_nil]
    cases hending : (origin.run moves).connection.ending? task with
    | some p => exact .inl ⟨p.1, p.2, rfl, p.1.rank_le⟩
    | none => exact .inr ⟨(ending_or_notified h failed).resolve_left (by simp [hending]), by simp⟩
  | append_singleton more m ih =>
    rw [← List.append_assoc, run_concat, List.count_append]
    rcases ih with ⟨stage, t, stands, hrank⟩ | ⟨hnotified, hnot⟩
    · by_cases hm : m = .step task
      · subst hm
        rcases (concludes_move stands).ending with ⟨next, hnext, hlt⟩ | ⟨hnone, hwhy⟩
        · exact .inl ⟨next, t, hnext, by simp; omega⟩
        · have hnotified : (origin.run (moves ++ more)).connection.notified = true := by
            rcases hwhy with rfl | hnotified
            · exact (course h _).notified_of_notify stands
            · exact hnotified
          exact .inr ⟨notified_move hnotified _, by simp [hnone]⟩
      · rw [ending_move_of_ne hm]
        exact .inl ⟨stage, t, stands, by simpa [hm] using hrank⟩
    · refine .inr ⟨notified_move hnotified m, fun t stands => ?_⟩
      by_cases hm : m = .step task
      · subst hm
        have ordinary := ordinary_move (origin.run (moves ++ more)) (.step task)
          (fun _ _ _ claims => by simp [claims.first] at hnotified)
          (fun other t' hm => by cases hm; exact hnot t')
        exact hnot t ((ordinary.notifying task t).mp stands)
      · rw [ending_move_of_ne hm] at stands
        exact hnot t stands

/-- A task that has claimed tells the subscribers with its next step. -/
theorem Claimed.told (h : Claimed s task terminal) {later : List Move}
    (step : .step task ∈ later) : .closed ∈ (s.run later).events := by
  obtain ⟨between, after, rfl, hfirst⟩ := List.eq_append_cons_of_mem step
  have hclaimed := h.run hfirst
  obtain ⟨es, hes, -⟩ := hclaimed.notify.events_run after
  rw [run_append, run_cons, hes, move_notify hclaimed.stands]
  simp [absorb]

/-- Four steps after it has failed a task has told the subscribers, unless the other has claimed
first. -/
theorem told_or_claimed {origin : Session} (h : Going origin) {moves more : List Move}
    (failed : During (FailsAt origin task terminal) moves)
    (enough : 4 ≤ more.count (.step task)) :
    .closed ∈ (origin.run (moves ++ more)).events ∨
      ∃ other ≠ task, ∃ t, Claimed (origin.run (moves ++ more)) other t := by
  have hnears := nears_end h failed more
  generalize moves ++ more = all at hnears ⊢
  rcases hnears with ⟨stage, -, -, hrank⟩ | ⟨hnotified, hnot⟩
  · have := stage.rank_pos
    omega
  · cases course h all with
    | going hgoing => simp [hgoing.unclaimed] at hnotified
    | claimed claims hclaimed =>
      refine .inr ⟨_, ?_, _, hclaimed⟩
      rintro rfl
      exact hnot _ hclaimed.stands
    | finished after claims hclaimed =>
      refine .inl ?_
      rw [run_append]
      exact hclaimed.told List.mem_cons_self

theorem going_start (transport : Transport) (subscribers : List Subscriber)
    (lastId : SubscriptionId) : Going (start transport subscribers lastId) where
  sound := sound_start transport subscribers lastId
  silent e he := by
    rw [List.mem_singleton.mp he]
    exact id
  opened := rfl
  unfailed i := by simp [start, Connection.start]
  unclaimed := rfl
  claiming task terminal h := by cases task <;> cases h
  notifying task terminal h := by cases task <;> cases h

theorem not_ending_start (transport : Transport) (subscribers : List Subscriber)
    (lastId : SubscriptionId) (task : Task) :
    (start transport subscribers lastId).connection.ending? task = none := by
  cases task <;> rfl

/-- How it stands with the end of a connection after `moves`. -/
inductive Parting (origin : Session) (moves : List Move) : Prop
  | going
      (silent : ∀ e ∈ (origin.run moves).events, ¬ e.Terminal)
      (unfailed : ∀ i : Ticket, (origin.run moves).dispatcher.table.slots[i]? ≠
        some (.answered (.error .connectionClosed)))
      (underway : ∀ task terminal, During (FailsAt origin task terminal) moves →
        ∃ stage, (origin.run moves).connection.ending? task = some (stage, terminal))
  | claimed {before task terminal between}
      (moves_eq : moves = before ++ .step task :: between)
      (failed : During (FailsAt origin task terminal) before)
      (claims : Claims (origin.run before) task terminal)
      (silent : ∀ e ∈ (origin.run moves).events, ¬ e.Terminal)
      (unfailed : ∀ i : Ticket, (origin.run moves).dispatcher.table.slots[i]? ≠
        some (.answered (.error .connectionClosed)))
      (refused : (origin.run moves).connection.closed = true)
      (underway : (origin.run moves).connection.ending? task = some (.notify, terminal))
  | told {before task terminal between after earlier later}
      (moves_eq : moves = before ++ .step task :: between ++ .step task :: after)
      (failed : During (FailsAt origin task terminal) before)
      (claims : Claims (origin.run before) task terminal)
      (refused : (origin.run (before ++ .step task :: between)).connection.closed = true)
      (events : (origin.run (before ++ .step task :: between)).events = earlier ∧
        (origin.run (before ++ .step task :: between ++ [.step task])).events =
          earlier ++ (terminal.toList ++ [.closed]) ∧
        (origin.run moves).events = earlier ++ (terminal.toList ++ [.closed]) ++ later)
      (once : ∀ e ∈ earlier ++ later, ¬ e.Terminal)
      (unanswered : ∀ i : Ticket, (origin.run
          (before ++ .step task :: between)).dispatcher.table.slots[i]? = some .waiting →
        .abandon i ∉ after → .collect i ∉ after →
        (origin.run moves).dispatcher.table.slots[i]? =
          some (.answered (.error .connectionClosed)))
      (sends : ∀ m, (origin.run moves).connection.send m = .error .connectionClosed)
      (queries : ∀ m, (origin.run moves).connection.query (origin.run moves).dispatcher m =
        (.error (if m.expectedReply = none then .notAQuery m.type else .connectionClosed),
          (origin.run moves).connection, (origin.run moves).dispatcher))

theorem Claimed.resolved (h : Claimed s task terminal) {after : List Move} {i : Ticket}
    (waiting : s.dispatcher.table.slots[i]? = some .waiting) (habandon : .abandon i ∉ after)
    (hcollect : .collect i ∉ after) :
    ((s.move (.step task)).run after).dispatcher.table.slots[i]? =
      some (.answered (.error .connectionClosed)) := by
  refine h.notify.sound.kept_run ?_ (by simp) habandon hcollect
  rw [move_notify h.stands]
  show s.dispatcher.table.close.2.slots[i]? = _
  rw [Consistent.close_slots h.sound, List.getElem?_map, waiting]
  rfl

theorem run_closes {closes : List Move} (h : ∀ m ∈ closes, m = .refuse ∨ m = .push .shutdown)
    (s : Session) :
    (s.run closes).events = s.events ∧ (s.run closes).dispatcher = s.dispatcher := by
  induction closes generalizing s with
  | nil => exact ⟨rfl, rfl⟩
  | cons m closes ih =>
    rw [run_cons]
    have hrest := ih (fun a ha => h a (List.mem_cons_of_mem _ ha)) (s.move m)
    rcases h m List.mem_cons_self with rfl | rfl
    · exact hrest
    · exact hrest

theorem parting (transport : Transport) (subscribers : List Subscriber) (lastId : SubscriptionId)
    (moves : List Move) : Parting (start transport subscribers lastId) moves := by
  have hgoing : Going (start transport subscribers lastId) := going_start ..
  have hfresh : ∀ task, (start transport subscribers lastId).connection.ending? task = none :=
    not_ending_start transport subscribers lastId
  cases course hgoing moves with
  | going h =>
    refine .going h.silent h.unfailed fun task terminal failed => ?_
    refine (ending_or_notified hgoing failed).resolve_right fun hnotified => ?_
    rw [h.unclaimed] at hnotified
    cases hnotified
  | claimed claims h =>
    exact .claimed rfl (failsAt_of_ending hfresh claims.stands) claims h.silent h.unfailed h.refused
      h.stands
  | @finished before task terminal between after claims h =>
    have hrun : (start transport subscribers lastId).run
        (before ++ .step task :: between ++ .step task :: after) =
        (((start transport subscribers lastId).run (before ++ .step task :: between)).move
          (.step task)).run after := by
      rw [run_append, run_cons]
    obtain ⟨later, hlater, hordinary⟩ := h.notify.events_run after
    have hover := h.notify.run after
    rw [← hrun] at hlater hover
    have hnotify := congrArg Session.events (move_notify h.stands)
    refine .told rfl (failsAt_of_ending hfresh claims.stands) claims h.refused
      ⟨rfl, ?_, ?_⟩ (fun e he => (List.mem_append.mp he).elim (h.silent e) (hordinary e)) ?_
      (Connection.send_of_closed hover.refused) (Connection.query_of_closed hover.refused _)
    · rw [run_concat]
      exact hnotify
    · rw [hlater, hnotify]
      rfl
    · intro i waiting habandon hcollect
      rw [hrun]
      exact h.resolved waiting habandon hcollect

/-- Under every schedule the subscribers are told of the end once, by the task that claimed
first and with its reason, when nothing more can be sent; what is unanswered then fails, and
later calls are refused.  A task that has failed tells within four steps, unless the other has
claimed, which then tells with its next.  Closing by itself does none of this. -/
theorem told_once (transport : Transport) (subscribers : List Subscriber)
    (lastId : SubscriptionId) (moves : List Move) :
    let origin := start transport subscribers lastId
    Parting origin moves ∧
    (∀ task terminal more, During (FailsAt origin task terminal) moves →
      4 ≤ more.count (.step task) →
      .closed ∈ (origin.run (moves ++ more)).events ∨
      ∃ other ≠ task, ∃ t,
        (origin.run (moves ++ more)).connection.ending? other = some (.notify, t) ∧
        ∀ later, .step other ∈ later →
          .closed ∈ (origin.run (moves ++ more ++ later)).events) ∧
    ∀ closes : List Move, (∀ m ∈ closes, m = .refuse ∨ m = .push .shutdown) →
      let s := origin.run moves
      (s.run closes).events = s.events ∧ (s.run closes).dispatcher = s.dispatcher := by
  intro origin
  refine ⟨parting .., fun task terminal more failed enough => ?_, fun closes h => run_closes h _⟩
  rcases told_or_claimed (going_start ..) failed enough with told | ⟨other, hne, t, claimed⟩
  · exact .inl told
  · refine .inr ⟨other, hne, t, claimed.stands, fun later step => ?_⟩
    rw [run_append]
    exact claimed.told step

def failingTwice : List Move :=
  [.push (.frame []), .step .writer, .arrive .endOfStream, .step .reader]

/-- The reader has its four steps, but the writer claims first. -/
def racing : List Move := [.step .reader, .step .writer, .step .reader, .step .writer] ++
  List.replicate 2 (.step .reader)

theorem told_once_racing :
    let origin := start { fault := some "broken pipe" } [] 0
    During (FailsAt origin .reader none) failingTwice ∧ 4 ≤ racing.count (.step .reader) ∧
    .closed ∉ (origin.run (failingTwice ++ racing)).events ∧
    .closed ∈ (origin.run (failingTwice ++ racing ++ [.step .writer])).events := by
  intro origin
  have failed : During (FailsAt origin .reader none) failingTwice :=
    ⟨failingTwice.take 3, .step .reader, [], rfl, rfl, .endOfStream rfl rfl⟩
  have enough : 4 ≤ racing.count (.step .reader) := by decide
  have unsaid : .closed ∉ (origin.run (failingTwice ++ racing)).events := by decide +kernel
  refine ⟨failed, enough, unsaid, ?_⟩
  obtain ⟨-, hends, -⟩ := told_once { fault := some "broken pipe" } [] 0 failingTwice
  obtain ⟨other, hne, t, -, htold⟩ :=
    (hends .reader none racing failed enough).resolve_left unsaid
  cases other with
  | reader => exact absurd rfl hne
  | writer => exact htold [.step .writer] List.mem_cons_self

end Session
end CompositorClient
