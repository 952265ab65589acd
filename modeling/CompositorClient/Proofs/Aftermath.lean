import CompositorClient.Proofs.Inbound
import CompositorClient.Proofs.Teardown

/-! What a connection still tells once it has told of its end.  A reader that has ended it tells
nothing more; after a failed write the reader goes on, and what it reads is still told. -/

namespace CompositorClient
namespace Session

variable {s s' : Session} {task : Task} {stage : Stage} {terminal : Option Event}

/-- What is told in between comes from these frames, which the reader has taken up. -/
structure Relays (s s' : Session) (fs : List Frame) : Prop where
  frames : s'.frames = s.frames ++ fs
  events : s'.events = s.events ++ fs.flatMap Frame.events

theorem Relays.nothing (frames : s'.frames = s.frames) (events : s'.events = s.events) :
    Relays s s' [] :=
  ⟨by simp [frames], by simp [events]⟩

theorem Relays.trans {s'' : Session} {fs gs : List Frame} (h : Relays s s' fs)
    (h' : Relays s' s'' gs) : Relays s s'' (fs ++ gs) :=
  ⟨by simp [h'.frames, h.frames], by simp [h'.events, h.events]⟩

theorem Concludes.relays (step : Concludes s task stage terminal s') (h : stage ≠ .notify) :
    Relays s s' [] := by
  cases step with
  | signal | refuse | late | claim => exact .nothing rfl rfl
  | notify => exact absurd rfl h

theorem ReadStep.relays (step : ReadStep s s')
    (unsaid : ∀ terminal, s.connection.ending? .reader ≠ some (.notify, terminal)) :
    ∃ fs, Relays s s' fs ∧ (s.connection.reader = .stopped → fs = []) := by
  cases step with
  | idle | bytes | again | finish | drained | malformed =>
    exact ⟨[], .nothing rfl rfl, fun _ => rfl⟩
  | @frame f cutting =>
    refine ⟨[f], ⟨rfl, by simp [absorb]⟩, fun stopped => ?_⟩
    rw [cutting] at stopped
    cases stopped
  | @ending stage terminal stands =>
    refine ⟨[], (concludes ..).relays ?_, fun _ => rfl⟩
    rintro rfl
    exact unsaid terminal (by rw [Connection.ending?, stands])

theorem WriteStep.relays (step : WriteStep s s')
    (unsaid : ∀ terminal, s.connection.ending? .writer ≠ some (.notify, terminal)) :
    Relays s s' [] := by
  cases step with
  | idle | frame | failed | shutdown => exact .nothing rfl rfl
  | @ending stage terminal stands =>
    refine (concludes ..).relays ?_
    rintro rfl
    exact unsaid terminal (by rw [Connection.ending?, stands])

theorem Over.relays (h : Over s) (m : Move) :
    ∃ fs, Relays s (s.move m) fs ∧ (s.connection.reader = .stopped → fs = []) := by
  cases m with
  | step task =>
    cases task with
    | reader => exact s.readStep.relays (h.notifying .reader)
    | writer => exact ⟨[], s.writeStep.relays (h.notifying .writer), fun _ => rfl⟩
  | register kind sequence =>
    rw [Session.move, register]
    split <;> exact ⟨[], .nothing rfl rfl, fun _ => rfl⟩
  | arrive | fault | refuse | push | draw | abandon | collect | subscribe | unsubscribe =>
    exact ⟨[], .nothing rfl rfl, fun _ => rfl⟩

theorem Concludes.reader_of_writer (step : Concludes s .writer stage terminal s') :
    s'.connection.reader = s.connection.reader := by
  cases step with
  | signal => exact Connection.reader_push ..
  | refuse | late | claim | notify => rfl

theorem WriteStep.reader (step : WriteStep s s') :
    s'.connection.reader = s.connection.reader := by
  cases step with
  | idle | frame | failed | shutdown => rfl
  | ending => exact (concludes ..).reader_of_writer

theorem reader_move_of_ne {m : Move} (hm : m ≠ .step .reader) :
    (s.move m).connection.reader = s.connection.reader := by
  cases m with
  | step task =>
    cases task with
    | reader => exact absurd rfl hm
    | writer => exact s.writeStep.reader
  | push item => exact Connection.reader_push ..
  | register => exact congrArg Connection.reader (connection_register ..)
  | arrive | fault | refuse | draw | abandon | collect | subscribe | unsubscribe => rfl

theorem stopped_move (h : s.connection.reader = .stopped) (m : Move) :
    (s.move m).connection.reader = .stopped := by
  by_cases hm : m = .step .reader
  · subst hm
    exact s.readStep.stopped h
  · exact (reader_move_of_ne hm).trans h

theorem stopped_run (h : s.connection.reader = .stopped) (moves : List Move) :
    (s.run moves).connection.reader = .stopped := by
  induction moves using List.reverseRecOn with
  | nil => exact h
  | append_singleton moves m ih =>
    rw [run_concat]
    exact stopped_move ih m

theorem Over.relays_run (h : Over s) (moves : List Move) :
    ∃ fs, Relays s (s.run moves) fs ∧ (s.connection.reader = .stopped → fs = []) := by
  induction moves using List.reverseRecOn with
  | nil => exact ⟨[], .nothing rfl rfl, fun _ => rfl⟩
  | append_singleton moves m ih =>
    obtain ⟨fs, hfs, hnone⟩ := ih
    obtain ⟨gs, hgs, hnone'⟩ := (h.run moves).relays m
    rw [run_concat]
    refine ⟨fs ++ gs, hfs.trans hgs, fun stopped => ?_⟩
    rw [hnone stopped, hnone' (stopped_run stopped moves), List.append_nil]

/-- Once the end has been told all is over, and the reader has stopped or a write has failed. -/
theorem over_of_closed {origin : Session} (going : Going origin)
    (fresh : ∀ task, origin.connection.ending? task = none) {moves : List Move}
    (told : .closed ∈ (origin.run moves).events) :
    Over (origin.run moves) ∧ ((origin.run moves).connection.reader = .stopped ∨
      ∃ text, During (FailsAt origin .writer (some (.transportError text))) moves) := by
  cases course going moves with
  | going h => exact absurd trivial (h.silent _ told)
  | claimed _ h => exact absurd trivial (h.silent _ told)
  | @finished before task terminal between after claims h =>
    have hover := h.notify.run after
    have hfails := failsAt_of_ending fresh claims.stands
    rw [run_append, run_cons]
    refine ⟨hover, ?_⟩
    cases task with
    | reader =>
      refine .inl (stopped_run ?_ after)
      rw [move_notify h.stands]
      rfl
    | writer =>
      obtain ⟨text, rfl⟩ : ∃ text, terminal = some (.transportError text) := by
        obtain ⟨first, m, later, -, -, failed⟩ := hfails
        obtain ⟨-, bytes, rest, text, -, -, htext⟩ := fails_writer_iff.mp failed
        exact ⟨text, htext⟩
      refine .inr ⟨text, ?_⟩
      rw [List.append_assoc]
      exact hfails.append _

/-- After the end has been told nothing is told but what frames tell that the reader still reads,
none of it of an end; and there are such frames only after a write has failed. -/
theorem only_frames_told_after_closed (transport : Transport) (subscribers : List Subscriber)
    (lastId : SubscriptionId) (moves more : List Move)
    (told : .closed ∈ ((start transport subscribers lastId).run moves).events) :
    let origin := start transport subscribers lastId
    ∃ fs : List Frame,
      (origin.run (moves ++ more)).frames = (origin.run moves).frames ++ fs ∧
      (origin.run (moves ++ more)).events =
        (origin.run moves).events ++ fs.flatMap Frame.events ∧
      (∀ e ∈ fs.flatMap Frame.events, ¬ e.Terminal) ∧
      ((origin.run moves).connection.reader = .stopped → fs = []) ∧
      (fs ≠ [] → ∃ text, During (FailsAt origin .writer (some (.transportError text))) moves) := by
  intro origin
  have hfresh : ∀ task, origin.connection.ending? task = none :=
    not_ending_start transport subscribers lastId
  obtain ⟨hover, hwhy⟩ := over_of_closed (going_start ..) hfresh told
  obtain ⟨fs, relays, hnone⟩ := hover.relays_run more
  rw [run_append]
  refine ⟨fs, relays.frames, relays.events, fun e he => ?_, hnone, fun hsome => ?_⟩
  · obtain ⟨f, -, he⟩ := List.mem_flatMap.mp he
    exact Frame.not_terminal he
  · exact hwhy.resolve_left fun stopped => hsome (hnone stopped)

/-- A command is queued, its write fails, and the writer ends the connection. -/
def failing : List Move :=
  [.push (.frame keybindFrame.encode), .step .writer, .step .writer, .step .writer, .step .writer]

def reading : List Move := [.arrive (.bytes keybindFrame.encode), .step .reader, .step .reader]

def broken : Session := start { fault := some "broken pipe" } [] 0

theorem closed_told_failing : .closed ∈ (broken.run failing).events := by decide

/-- After a failed write the end is told, and then a notice all the same. -/
theorem notice_told_after_closed :
    .closed ∈ (broken.run failing).events ∧
      (broken.run (failing ++ reading)).events = (broken.run failing).events ++ [.keybind 7] := by
  refine ⟨closed_told_failing, ?_⟩
  rfl

theorem only_frames_told_after_closed_failing :
    .closed ∈ (broken.run failing).events ∧
    ∃ fs : List Frame,
      (broken.run (failing ++ reading)).events =
        (broken.run failing).events ++ fs.flatMap Frame.events ∧
      ∀ e ∈ fs.flatMap Frame.events, ¬ e.Terminal := by
  refine ⟨closed_told_failing, ?_⟩
  obtain ⟨fs, -, hevents, hterminal, -⟩ := only_frames_told_after_closed
    { fault := some "broken pipe" } [] 0 failing reading closed_told_failing
  exact ⟨fs, hevents, hterminal⟩

end Session
end CompositorClient
