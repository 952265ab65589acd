import CompositorClient.Proofs.Listeners
import CompositorClient.Proofs.Teardown

/-! The table of windows over the whole life of a client.  It is what the history of the calls
that succeeded and of the frames that were dispatched makes of it: a window stands in the table
from its making to its removal, with the place and the size that were last asked for.  Nothing
else touches the table, and the table touches nothing else. -/

namespace CompositorClient

inductive WindowChange
  | created (id : WindowId) (geometry : Geometry)
  | moved (id : WindowId) (x y : Int32)
  | resized (id : WindowId) (width height : UInt32)
  | removed (id : WindowId)
  deriving DecidableEq

namespace WindowChange

def window : WindowChange → WindowId
  | created id _ | moved id _ _ | resized id _ _ | removed id => id

def place? (id : WindowId) : WindowChange → Option (Int32 × Int32)
  | created i g => if i = id then some (g.x, g.y) else none
  | moved i x y => if i = id then some (x, y) else none
  | resized .. | removed _ => none

def extent? (id : WindowId) : WindowChange → Option (UInt32 × UInt32)
  | created i g => if i = id then some (g.width, g.height) else none
  | resized i width height => if i = id then some (width, height) else none
  | moved .. | removed _ => none

def lastPlace? (id : WindowId) (changes : List WindowChange) : Option (Int32 × Int32) :=
  (changes.filterMap (place? id)).getLast?

def lastExtent? (id : WindowId) (changes : List WindowChange) : Option (UInt32 × UInt32) :=
  (changes.filterMap (extent? id)).getLast?

/-- The window has been made, and has not been removed since. -/
def Present (id : WindowId) (changes : List WindowChange) : Prop :=
  ∃ before geometry after, changes = before ++ created id geometry :: after ∧ removed id ∉ after

def apply (es : List WindowEntry) : WindowChange → List WindowEntry
  | created id g => WindowEntry.put id g es
  | moved id x y => WindowEntry.modify id (fun g => { g with x, y }) es
  | resized id width height => WindowEntry.modify id (fun g => { g with width, height }) es
  | removed id => WindowEntry.remove id es

def replay (es : List WindowEntry) (changes : List WindowChange) : List WindowEntry :=
  changes.foldl apply es

variable {id : WindowId} {changes : List WindowChange} {change : WindowChange}

theorem not_present_nil : ¬ Present id [] := by
  rintro ⟨before, geometry, after, split, -⟩
  simp at split

theorem present_concat : Present id (changes ++ [change]) ↔
    (∃ g, change = created id g) ∨ Present id changes ∧ change ≠ removed id := by
  constructor
  · rintro ⟨before, g, after, split, kept⟩
    rcases List.eq_nil_or_concat after with rfl | ⟨after, last, rfl⟩
    · obtain ⟨-, hchange⟩ := List.append_inj' split rfl
      exact .inl ⟨g, (List.cons.inj hchange).1⟩
    · rw [List.concat_eq_append, ← List.cons_append, ← List.append_assoc] at split
      obtain ⟨rfl, hlast⟩ := List.append_inj' split rfl
      cases hlast
      rw [List.concat_eq_append, List.mem_append, List.mem_singleton, not_or] at kept
      exact .inr ⟨⟨before, g, after, rfl, kept.1⟩, Ne.symm kept.2⟩
  · rintro (⟨g, rfl⟩ | ⟨⟨before, g, after, rfl, kept⟩, other⟩)
    · exact ⟨changes, g, [], rfl, List.not_mem_nil⟩
    · refine ⟨before, g, after ++ [change], by simp, ?_⟩
      rw [List.mem_append, List.mem_singleton, not_or]
      exact ⟨kept, other.symm⟩

theorem present_concat_of_ne (other : change.window ≠ id) :
    Present id (changes ++ [change]) ↔ Present id changes := by
  have hcreated : ¬ ∃ g, change = created id g := fun ⟨g, h⟩ => other (h ▸ rfl)
  have hremoved : change ≠ removed id := fun h => other (h ▸ rfl)
  rw [present_concat, or_iff_right hcreated, and_iff_left hremoved]

theorem lastPlace?_concat (id : WindowId) (changes : List WindowChange) (change : WindowChange) :
    lastPlace? id (changes ++ [change]) = (place? id change).or (lastPlace? id changes) := by
  cases h : place? id change <;> simp [lastPlace?, h]

theorem lastExtent?_concat (id : WindowId) (changes : List WindowChange) (change : WindowChange) :
    lastExtent? id (changes ++ [change]) = (extent? id change).or (lastExtent? id changes) := by
  cases h : extent? id change <;> simp [lastExtent?, h]

theorem place?_of_ne (other : change.window ≠ id) : place? id change = none := by
  cases change with
  | created | moved => exact if_neg other
  | resized | removed => rfl

theorem extent?_of_ne (other : change.window ≠ id) : extent? id change = none := by
  cases change with
  | created | resized => exact if_neg other
  | moved | removed => rfl

theorem find_apply_of_ne (other : change.window ≠ id) (es : List WindowEntry) :
    WindowEntry.find id (apply es change) = WindowEntry.find id es := by
  cases change with
  | created => exact WindowEntry.find_put_of_ne (Ne.symm other) ..
  | moved | resized =>
    rw [apply]
    exact WindowEntry.find_modify_of_ne (Ne.symm other) ..
  | removed => exact WindowEntry.find_remove_of_ne (Ne.symm other) ..

inductive Describes (id : WindowId) (changes : List WindowChange) : Option Geometry → Prop
  | absent (absent : ¬ Present id changes) : Describes id changes none
  | present {g : Geometry} (present : Present id changes)
      (place : lastPlace? id changes = some (g.x, g.y))
      (extent : lastExtent? id changes = some (g.width, g.height)) : Describes id changes (some g)

theorem Describes.step_of_ne {g : Option Geometry} (h : Describes id changes g)
    (other : change.window ≠ id) : Describes id (changes ++ [change]) g := by
  have hplace : lastPlace? id (changes ++ [change]) = lastPlace? id changes := by
    rw [lastPlace?_concat, place?_of_ne other, Option.none_or]
  have hextent : lastExtent? id (changes ++ [change]) = lastExtent? id changes := by
    rw [lastExtent?_concat, extent?_of_ne other, Option.none_or]
  cases h with
  | absent absent => exact .absent (mt (present_concat_of_ne other).mp absent)
  | present present place extent =>
    exact .present ((present_concat_of_ne other).mpr present) (hplace.trans place)
      (hextent.trans extent)

theorem Describes.modified {es : List WindowEntry}
    (h : Describes id changes (WindowEntry.find id es)) {f : Geometry → Geometry}
    (kept : change ≠ removed id) (made : ¬ ∃ g, change = created id g)
    (place : ∀ g, (place? id change).or (some (g.x, g.y)) = some ((f g).x, (f g).y))
    (extent : ∀ g, (extent? id change).or (some (g.width, g.height)) =
      some ((f g).width, (f g).height)) :
    Describes id (changes ++ [change]) (WindowEntry.find id (WindowEntry.modify id f es)) := by
  have hpresent : Present id (changes ++ [change]) ↔ Present id changes := by
    rw [present_concat, or_iff_right made, and_iff_left kept]
  rw [WindowEntry.find_modify_self]
  generalize WindowEntry.find id es = g at h ⊢
  cases h with
  | absent absent => exact .absent (mt hpresent.mp absent)
  | @present g present hplace hextent =>
    refine .present (hpresent.mpr present) ?_ ?_
    · rw [lastPlace?_concat, hplace, place]
    · rw [lastExtent?_concat, hextent, extent]

theorem Describes.step {es : List WindowEntry}
    (h : Describes id changes (WindowEntry.find id es)) (change : WindowChange) :
    Describes id (changes ++ [change]) (WindowEntry.find id (apply es change)) := by
  by_cases other : change.window = id
  · cases change with
    | created i g =>
      obtain rfl : i = id := other
      rw [apply, WindowEntry.find_put_self]
      refine .present (present_concat.mpr (.inl ⟨g, rfl⟩)) ?_ ?_
      · rw [lastPlace?_concat, place?, if_pos rfl, Option.some_or]
      · rw [lastExtent?_concat, extent?, if_pos rfl, Option.some_or]
    | moved i x y =>
      obtain rfl : i = id := other
      rw [apply]
      refine h.modified ?_ ?_ ?_ ?_ <;> simp [place?, extent?]
    | resized i width height =>
      obtain rfl : i = id := other
      rw [apply]
      refine h.modified ?_ ?_ ?_ ?_ <;> simp [place?, extent?]
    | removed i =>
      obtain rfl : i = id := other
      rw [apply, WindowEntry.find_remove_self]
      refine .absent fun present => ?_
      rcases present_concat.mp present with ⟨g, h⟩ | ⟨-, h⟩
      · cases h
      · exact h rfl
  · rw [find_apply_of_ne other]
    exact h.step_of_ne other

/-- The entries that a history leads to are as it describes them. -/
theorem describes_replay (id : WindowId) (changes : List WindowChange) :
    Describes id changes (WindowEntry.find id (replay [] changes)) := by
  induction changes using List.reverseRecOn with
  | nil => exact .absent not_present_nil
  | append_singleton changes change ih =>
    rw [replay, List.foldl_concat]
    exact ih.step change

theorem replay_removed (es : List WindowEntry) (ids : List WindowId) :
    replay es (ids.map removed) = es.filter (·.1 ∉ ids) := by
  induction ids generalizing es with
  | nil => simp [replay]
  | cons id ids ih =>
    have hboth : ∀ e : WindowEntry, (decide (e.1 ∉ ids) && decide (e.1 ≠ id)) =
        decide (e.1 ∉ id :: ids) := by
      intro e
      by_cases h : e.1 = id <;> simp [h]
    rw [List.map_cons, replay, List.foldl_cons, ← replay, ih, apply, WindowEntry.remove,
      List.filter_filter]
    simp only [hboth]

end WindowChange

/-- A call that fails has nothing to do with them. -/
def Request.changes : Request → Except ClientError UInt32 → List WindowChange
  | .createWindow options, .ok id => [.created id options.geometry]
  | .perform (.setWindowPosition p), .ok _ => [.moved p.windowId p.x p.y]
  | .perform (.setWindowSize s), .ok _ => [.resized s.windowId s.width s.height]
  | .perform (.destroyBuffer id), .ok _ => [.removed id]
  | _, _ => []

def Event.destroyed? : Event → Option WindowId
  | windowDestroyed id => some id
  | _ => none

def Frame.destroyed? (f : Frame) : Option WindowId :=
  match f.message with
  | .ok (.notice (.windowDestroyed id)) => some id
  | _ => none

theorem Event.destroyed?_eq_some_iff {e : Event} {id : WindowId} :
    e.destroyed? = some id ↔ e = .windowDestroyed id := by
  cases e <;> simp [destroyed?]

theorem Event.destroyed?_of_terminal {e : Event} (h : e.Terminal) : e.destroyed? = none := by
  cases e with
  | windowDestroyed => exact h.elim
  | _ => rfl

theorem PointerMotion.filterMap_destroyed? (m : PointerMotion) :
    m.events.filterMap Event.destroyed? = [] := by
  refine List.filterMap_eq_nil_iff.mpr fun e he => ?_
  cases e with
  | windowDestroyed id =>
    unfold events buttonEvents at he
    split at he
    · simp at he
    · split at he
      · simp at he
      · dsimp only at he
        split at he
        · simp at he
        · split at he <;> simp at he
  | _ => rfl

theorem Frame.filterMap_destroyed? (f : Frame) :
    f.events.filterMap Event.destroyed? = f.destroyed?.toList := by
  unfold events destroyed?
  cases f.message with
  | error e => rfl
  | ok m =>
    cases m with
    | notice n =>
      cases n with
      | pointer m => exact m.filterMap_destroyed?
      | _ => rfl
    | _ => rfl

namespace Connection

/-- All that the tasks have to tell at their end is that the connection ends. -/
def TellsEnd (c : Connection) : Prop :=
  ∀ task stage e, c.ending? task = some (stage, some e) → e.Terminal

variable {c c' : Connection} {d : Dispatcher} {e : Effect}

theorem TellsEnd.congr (h : c.TellsEnd) (reader : c'.reader = c.reader)
    (writer : c'.writer = c.writer) : c'.TellsEnd := by
  intro task stage e hends
  rw [ending?_congr reader writer] at hends
  exact h task stage e hends

theorem TellsEnd.accept (h : c.TellsEnd) (input : Input) : (c.accept input).TellsEnd := by
  unfold Connection.accept
  split
  · cases input with
    | interruption => exact h
    | bytes | endOfStream | failure =>
      intro task stage e hends
      cases task with
      | reader =>
        cases hends
        try trivial
      | writer => exact h .writer stage e hends
  · exact h

theorem TellsEnd.advance (h : c.TellsEnd) {task : Task} {stage : Stage} {terminal : Option Event}
    (stands : c.ending? task = some (stage, terminal)) (next : Option Stage) :
    (c.advance terminal next task).TellsEnd := by
  intro other stage' e hends
  by_cases ho : other = task
  · subst ho
    rw [ending?_advance_self] at hends
    cases next with
    | none => cases hends
    | some next =>
      cases hends
      exact h other stage e stands
  · rw [ending?_advance_of_ne _ _ _ ho] at hends
    exact h other stage' e hends

theorem TellsEnd.endingStep (h : c.TellsEnd) {task : Task} {stage : Stage}
    {terminal : Option Event} (stands : c.ending? task = some (stage, terminal)) :
    ((endingStep stage terminal c d).2.connection.advance terminal
        (endingStep stage terminal c d).1 task).TellsEnd ∧
      (endingStep stage terminal c d).2.events.filterMap Event.destroyed? = [] := by
  cases stage with
  | signal =>
    exact ⟨TellsEnd.advance (h.congr (reader_push ..) (writer_push ..))
      ((ending?_push ..).trans stands) _, rfl⟩
  | refuse => exact ⟨TellsEnd.advance (c := { c with closed := true }) h stands _, rfl⟩
  | claim =>
    rw [Connection.endingStep]
    split
    · exact ⟨h.advance stands _, rfl⟩
    · exact ⟨TellsEnd.advance (c := { c with notified := true }) h stands _, rfl⟩
  | notify =>
    refine ⟨h.advance stands _, ?_⟩
    cases terminal with
    | none => rfl
    | some e =>
      have hnone := Event.destroyed?_of_terminal (h task .notify e stands)
      exact List.filterMap_cons_none hnone

def incoming (c : Connection) : Option Frame :=
  match c.reader, c.inbox.next.1 with
  | .cutting, some (.ok f) => some f
  | _, _ => none

def frame? (c : Connection) : Task → Option Frame
  | .reader => c.incoming
  | .writer => none

theorem frame?_of_idle {task : Task} (h : c.taskStep d task = none) : c.frame? task = none := by
  cases task with
  | writer => rfl
  | reader =>
    rw [taskStep] at h
    unfold Connection.readerStep at h
    split at h
    · next hr => simp [frame?, incoming, hr]
    · next hr => simp [frame?, incoming, hr]
    · split at h <;> cases h
    · cases h

theorem TellsEnd.readerStep (h : c.TellsEnd) (step : c.readerStep d = some e) :
    e.connection.TellsEnd ∧
      e.events.filterMap Event.destroyed? = (c.incoming.bind Frame.destroyed?).toList := by
  unfold Connection.readerStep at step
  split at step
  · cases step
  · cases step
  · next hr =>
    split at step
    · next hn =>
      cases step
      refine ⟨fun task stage e hends => ?_, by simp [incoming, hr, hn]⟩
      cases task with
      | reader => cases hends
      | writer => exact h .writer stage e hends
    · next hn =>
      cases step
      refine ⟨fun task stage e hends => ?_, by simp [incoming, hr, hn]⟩
      cases task with
      | reader =>
        cases hends
        trivial
      | writer => exact h .writer stage e hends
    · next f inbox hn =>
      cases step
      refine ⟨h.congr rfl rfl, ?_⟩
      rw [Dispatcher.emitted_dispatchFrame, Frame.filterMap_destroyed?]
      simp [incoming, hr, hn]
  · next stage terminal hr =>
    cases step
    have stands : c.ending? .reader = some (stage, terminal) := by rw [ending?, hr]
    have hincoming : c.incoming = none := by simp [incoming, hr]
    rw [hincoming]
    exact h.endingStep stands

theorem TellsEnd.writerStep (h : c.TellsEnd) (step : c.writerStep d = some e) :
    e.connection.TellsEnd ∧ e.events.filterMap Event.destroyed? = [] := by
  unfold Connection.writerStep at step
  split at step
  · cases step
  · next hw =>
    split at step
    · cases step
    · split at step
      · cases step
        exact ⟨h.congr rfl rfl, rfl⟩
      · cases step
        refine ⟨fun task stage e hends => ?_, rfl⟩
        cases task with
        | reader => exact h .reader stage e hends
        | writer =>
          cases hends
          trivial
    · cases step
      refine ⟨fun task stage e hends => ?_, rfl⟩
      cases task with
      | reader => exact h .reader stage e hends
      | writer => cases hends
  · next stage terminal hw =>
    cases step
    have stands : c.ending? .writer = some (stage, terminal) := by rw [ending?, hw]
    exact h.endingStep stands

theorem TellsEnd.taskStep (h : c.TellsEnd) {task : Task} (step : c.taskStep d task = some e) :
    e.connection.TellsEnd ∧
      e.events.filterMap Event.destroyed? =
        ((c.frame? task).bind Frame.destroyed?).toList := by
  cases task with
  | reader => exact h.readerStep step
  | writer => exact h.writerStep step

theorem TellsEnd.enqueue (h : c.TellsEnd) {bytes : List UInt8} (queued : c.enqueue bytes = .ok c') :
    c'.TellsEnd := by
  rw [eq_push_of_enqueue queued]
  exact h.congr (reader_push ..) (writer_push ..)

theorem TellsEnd.sendEach (h : c.TellsEnd) (i : Nat) (cs : List Command) :
    (c.sendEach (fun _ conn => conn) i cs).2.TellsEnd := by
  induction cs generalizing c i with
  | nil => exact h
  | cons m ms ih =>
    rw [Connection.sendEach]
    split
    · exact h
    · next hsend => exact ih (h.enqueue hsend) _

theorem TellsEnd.query (h : c.TellsEnd) (d : Dispatcher) (m : Message) :
    (c.query d m).2.1.TellsEnd := by
  unfold Connection.query
  split
  · exact h
  · next kind _ =>
    have henrolled : (c.enroll d kind).2.2.1.TellsEnd := h.congr rfl rfl
    dsimp only
    split
    · next hsubmit =>
      have hsubmitted := henrolled.enqueue hsubmit
      exact hsubmitted
    · exact henrolled

theorem TellsEnd.close (h : c.TellsEnd) : c.close.TellsEnd := by
  unfold Connection.close
  split
  · exact h
  · exact h.congr (reader_push ..) (writer_push ..)

end Connection

namespace Client

open WindowChange

variable {c : Client} {a : Action} {actions : List Action}

def Action.frame? (c : Client) : Action → Option Frame
  | .step line task => c.connections[line]?.bind (·.frame? task)
  | _ => none

def Action.changes (c : Client) : Action → List WindowChange
  | .call r => r.changes (c.call r).1
  | .emit events => (events.filterMap Event.destroyed?).map .removed
  | a => ((a.frame? c).bind Frame.destroyed?).toList.map .removed

def history : Client → List Action → List WindowChange := trace next fun c a => a.changes c

def TellsEnd (c : Client) : Prop := ∀ conn ∈ c.connections, conn.TellsEnd

theorem TellsEnd.setCurrent (h : c.TellsEnd) {conn : Connection} (hconn : conn.TellsEnd) :
    (c.setCurrent conn).TellsEnd := by
  intro other hmem
  rcases List.mem_append.mp hmem with hold | hnew
  · exact h other ((List.dropLast_sublist _).subset hold)
  · rw [List.mem_singleton.mp hnew]
    exact hconn

theorem TellsEnd.current (h : c.TellsEnd) {conn : Connection} (current : c.current? = some conn) :
    conn.TellsEnd :=
  h conn (List.mem_of_getLast? current)

theorem TellsEnd.modify (h : c.TellsEnd) (line : Nat) {f : Connection → Connection}
    (hf : ∀ conn : Connection, conn.TellsEnd → (f conn).TellsEnd) :
    ∀ conn ∈ c.connections.modify line f, conn.TellsEnd := by
  intro conn hmem
  obtain ⟨i, hi, rfl⟩ := List.mem_iff_getElem.mp hmem
  rw [List.length_modify] at hi
  rw [List.getElem_modify]
  split
  · exact hf _ (h _ (List.getElem_mem hi))
  · exact h _ (List.getElem_mem hi)

theorem TellsEnd.call (h : c.TellsEnd) (r : Request) : (c.call r).2.TellsEnd := by
  cases r with
  | perform command =>
    rw [Client.call, perform]
    cases command.check with
    | error => exact h
    | ok =>
      rw [send]
      cases hcurrent : c.current? with
      | none => exact h
      | some conn =>
        dsimp only
        cases hsend : conn.send (.command command) with
        | error => exact h
        | ok conn' => exact h.setCurrent ((h.current hcurrent).enqueue hsend)
  | createWindow options =>
    rw [Client.call, createWindow, createWindowAmid]
    split
    · exact h
    · next conn hcurrent =>
      have hsent := (h.current hcurrent).sendEach 0 (options.commands c.windows.allocate.1)
      dsimp only
      split
      · next heq =>
        rw [heq] at hsent
        exact TellsEnd.setCurrent (c := { c with windows := _ }) h hsent
      · next heq =>
        rw [heq] at hsent
        exact TellsEnd.setCurrent (c := { c with windows := _ }) h hsent
  | uploadImage width height format data =>
    rw [Client.call, uploadImage]
    split
    · exact h
    · next conn hcurrent =>
      dsimp only
      split
      · exact h
      · next hsend =>
        exact TellsEnd.setCurrent (c := { c with nextImage := _ }) h
          ((h.current hcurrent).enqueue hsend)
  | query q =>
    rw [Client.call, Client.query]
    split
    · exact h
    · next conn hcurrent =>
      exact TellsEnd.setCurrent (c := { c with dispatcher := _ }) h
        ((h.current hcurrent).query c.dispatcher (.query q))
  | close =>
    rw [Client.call, Client.close]
    split
    · exact h
    · next conn hcurrent => exact h.setCurrent (h.current hcurrent).close

theorem TellsEnd.next (h : c.TellsEnd) (a : Action) : (c.next a).TellsEnd := by
  cases a with
  | connect transport =>
    intro conn hmem
    rw [Client.next, act, connect, connections_emit] at hmem
    rcases List.mem_append.mp hmem with hold | hnew
    · exact h conn hold
    · rw [List.mem_singleton.mp hnew]
      intro task stage e hends
      cases task <;> cases hends
  | step line task =>
    rw [Client.next, act, stepAt]
    split
    · exact h
    · next conn hconn =>
      split
      · exact h
      · next e he =>
        intro other hmem
        rw [absorb, connections_emit] at hmem
        rcases List.mem_or_eq_of_mem_set hmem with hold | rfl
        · exact h other hold
        · exact ((h conn (List.mem_of_getElem? hconn)).taskStep he).1
  | emit events =>
    intro conn hmem
    rw [Client.next, act, connections_emit] at hmem
    exact h conn hmem
  | arrive line input => exact h.modify line fun conn hconn => hconn.accept input
  | fault line text => exact h.modify line fun conn hconn => hconn.congr rfl rfl
  | call r => exact h.call r
  | receive id =>
    rw [Client.next, act, tryReceive]
    split <;> exact h
  | on | subscribe | unsubscribe | collect | drop | dropChannel => exact h

theorem tellsEnd_run (actions : List Action) : (new.run actions).TellsEnd := by
  induction actions using List.reverseRecOn with
  | nil =>
    intro conn hmem
    cases hmem
  | append_singleton actions a ih =>
    rw [run_concat]
    exact ih.next a

theorem windows_of_perform {command : Command} {c' : Client} (h : c.perform command = .ok c') :
    c'.windows = c.windows.record command := by
  unfold perform at h
  split at h
  · cases h
  · cases hsend : c.send (.command command) with
    | error e =>
      rw [hsend] at h
      cases h
    | ok sent =>
      obtain ⟨conn, rfl⟩ := eq_of_send hsend
      rw [hsend] at h
      cases h
      rfl

theorem entries_record (t : WindowTable) (command : Command) (id : UInt32) :
    (t.record command).entries =
      replay t.entries (Request.changes (.perform command) (.ok id)) := by
  cases command <;> rfl

theorem entries_call (c : Client) (r : Request) :
    (c.call r).2.windows.entries = replay c.windows.entries (r.changes (c.call r).1) := by
  cases r with
  | perform command =>
    rw [call]
    cases hperform : c.perform command with
    | error e => cases command <;> rfl
    | ok c' =>
      exact (congrArg WindowTable.entries (windows_of_perform hperform)).trans (entries_record ..)
  | createWindow options =>
    rw [call, createWindow, createWindowAmid]
    split
    · rfl
    · dsimp only
      split <;> rfl
  | uploadImage width height format data =>
    rw [call, uploadImage]
    split
    · rfl
    · dsimp only
      split <;> rfl
  | query q =>
    rw [call, query]
    split <;> rfl
  | close =>
    rw [call, close]
    split <;> rfl

theorem entries_handle (c : Client) (call : Call) :
    (c.handle call).windows.entries =
      c.windows.entries.filter fun e => decide (call ≠ (evictor, .windowDestroyed e.1)) := by
  obtain ⟨id, event⟩ := call
  unfold handle evict
  split
  · next hid =>
    obtain rfl : id = evictor := hid
    cases event with
    | windowDestroyed w =>
      refine List.filter_congr fun e _ => ?_
      simp [eq_comm]
    | _ => exact (List.filter_eq_self.mpr fun e _ => decide_eq_true (by simp)).symm
  · next hid =>
    have hne : ∀ e : WindowEntry, (id, event) ≠ (evictor, .windowDestroyed e.1) :=
      fun e h => hid (congrArg Prod.fst h)
    exact (List.filter_eq_self.mpr fun e _ => decide_eq_true (hne e)).symm

theorem entries_foldl_handle (c : Client) (calls : List Call) :
    (calls.foldl handle c).windows.entries =
      c.windows.entries.filter fun e => decide ((evictor, .windowDestroyed e.1) ∉ calls) := by
  induction calls generalizing c with
  | nil => simp
  | cons call calls ih =>
    rw [List.foldl_cons, ih, entries_handle, List.filter_filter]
    refine List.filter_congr fun e _ => ?_
    simp [eq_comm, Bool.and_comm]

theorem mem_calls_iff {d : Dispatcher} (h : own ∈ d.subscribers) (events : List Event)
    (w : WindowId) :
    (evictor, .windowDestroyed w) ∈ d.calls events ↔ w ∈ events.filterMap Event.destroyed? := by
  rw [List.mem_filterMap, Dispatcher.calls, List.mem_flatMap]
  refine exists_congr fun e => and_congr_right fun _ => ?_
  rw [Event.destroyed?_eq_some_iff, List.mem_map]
  constructor
  · rintro ⟨id, -, heq⟩
    exact congrArg Prod.snd heq
  · rintro rfl
    exact ⟨evictor, List.mem_map.mpr ⟨own, List.mem_filter.mpr ⟨h, rfl⟩, rfl⟩, rfl⟩

theorem entries_emit (h : own ∈ c.dispatcher.subscribers) (events : List Event) :
    (c.emit events).2.windows.entries =
      replay c.windows.entries ((events.filterMap Event.destroyed?).map .removed) := by
  rw [emit, entries_foldl_handle, replay_removed]
  simp only [mem_calls_iff h]

theorem entries_next (told : c.TellsEnd) (h : own ∈ c.dispatcher.subscribers) (a : Action) :
    (c.next a).windows.entries = replay c.windows.entries (a.changes c) := by
  cases a with
  | call r => exact c.entries_call r
  | emit events => exact entries_emit h events
  | connect transport =>
    exact entries_emit (c := { c with connections := c.connections ++ [{ transport }] }) h _
  | step line task =>
    show (c.stepAt line task).2.windows.entries = replay c.windows.entries
      (((c.connections[line]?.bind (·.frame? task)).bind Frame.destroyed?).toList.map .removed)
    rw [stepAt]
    cases hconn : c.connections[line]? with
    | none => rfl
    | some conn =>
      dsimp only [Option.bind_some]
      cases hstep : conn.taskStep c.dispatcher task with
      | none =>
        rw [Connection.frame?_of_idle hstep]
        rfl
      | some e =>
        obtain ⟨table, hd⟩ := Connection.dispatcher_taskStep hstep
        have hsubscribed : own ∈ e.dispatcher.subscribers := by
          rw [hd]
          exact h
        have htold := (told conn (List.mem_of_getElem? hconn)).taskStep hstep
        rw [← htold.2]
        exact entries_emit (c := { c with
          connections := c.connections.set line e.connection, dispatcher := e.dispatcher })
          hsubscribed e.events
  | receive id =>
    rw [next, act, tryReceive]
    split <;> rfl
  | on | subscribe | unsubscribe | arrive | fault | collect | drop | dropChannel => rfl

theorem history_concat (c : Client) (actions : List Action) (a : Action) :
    c.history (actions ++ [a]) = c.history actions ++ a.changes (c.run actions) := trace_concat ..

/-- What a run makes of the table, as long as the client's own subscription stands. -/
theorem entries_run (kept : .unsubscribe evictor ∉ actions) :
    (new.run actions).windows.entries = replay [] (new.history actions) := by
  induction actions using List.reverseRecOn with
  | nil => rfl
  | append_singleton actions a ih =>
    rw [List.mem_append, not_or] at kept
    have hown : own ∈ (new.run actions).dispatcher.subscribers :=
      (mem_subscribers_run actions own).mpr (.own rfl kept.1)
    rw [run_concat, entries_next (tellsEnd_run actions) hown, ih kept.1, history_concat, replay,
      replay, replay, List.foldl_append]

theorem entries_call_of_error {r : Request} {e : ClientError} (failed : (c.call r).1 = .error e) :
    (c.call r).2.windows.entries = c.windows.entries := by
  rw [entries_call, failed]
  unfold Request.changes
  split <;> first | rfl | contradiction

theorem modify_of_absent {id : WindowId} {es : List WindowEntry}
    (absent : WindowEntry.find id es = none) (f : Geometry → Geometry) :
    WindowEntry.modify id f es = es := by
  have hnone : id ∉ es.map (·.1) := by
    rw [← WindowEntry.find_isSome_iff, absent]
    exact Bool.false_ne_true
  have hne : ∀ e ∈ es, e.1 ≠ id := fun e he h => hnone (h ▸ List.mem_map_of_mem he)
  rw [WindowEntry.modify, List.map_congr_left fun e he => if_neg (hne e he), List.map_id']

theorem entries_call_of_absent {command : Command} {id : WindowId}
    (absent : c.windows.get? id = none)
    (modifies : (∃ x y, command = .setWindowPosition ⟨id, x, y⟩) ∨
      ∃ width height, command = .setWindowSize ⟨id, width, height⟩) :
    (c.call (.perform command)).2.windows.entries = c.windows.entries := by
  rw [entries_call]
  cases (c.call (.perform command)).1 with
  | error e => rcases modifies with ⟨x, y, rfl⟩ | ⟨width, height, rfl⟩ <;> rfl
  | ok =>
    rcases modifies with ⟨x, y, rfl⟩ | ⟨width, height, rfl⟩
    · exact modify_of_absent absent fun g => { g with x, y }
    · exact modify_of_absent absent fun g => { g with width, height }

def forget (c : Client) : Client :=
  { c with windows := { WindowTable.empty with nextId := c.windows.nextId } }

theorem nextId_record (t : WindowTable) (command : Command) :
    (t.record command).nextId = t.nextId := by
  cases command <;> rfl

theorem forget_call (c : Client) (r : Request) :
    (c.forget.call r).1 = (c.call r).1 ∧ (c.forget.call r).2.forget = (c.call r).2.forget := by
  have hcurrent : c.forget.current? = c.current? := rfl
  cases r with
  | perform command =>
    rw [call, call, perform, perform]
    cases command.check with
    | error e => exact ⟨rfl, rfl⟩
    | ok =>
      rw [send, send, hcurrent]
      cases c.current? with
      | none => exact ⟨rfl, rfl⟩
      | some conn =>
        dsimp only
        cases conn.send (.command command) with
        | error e => exact ⟨rfl, rfl⟩
        | ok conn' =>
          refine ⟨rfl, ?_⟩
          simp [forget, Except.map, nextId_record, setCurrent]
  | createWindow options =>
    rw [call, call, createWindow, createWindowAmid, createWindowAmid, hcurrent]
    cases c.current? with
    | none => exact ⟨rfl, rfl⟩
    | some conn =>
      have hid : c.forget.windows.allocate.1 = c.windows.allocate.1 := rfl
      dsimp only
      rw [hid]
      rcases conn.sendEach (fun _ conn => conn) 0 (options.commands c.windows.allocate.1) with
        ⟨_ | _, conn'⟩ <;> exact ⟨rfl, rfl⟩
  | uploadImage width height format data =>
    rw [call, call, uploadImage, uploadImage, hcurrent]
    cases c.current? with
    | none => exact ⟨rfl, rfl⟩
    | some conn =>
      have hid : c.forget.nextImage = c.nextImage := rfl
      dsimp only
      rw [hid]
      cases conn.send (.command (.uploadImage ⟨c.nextImage, width, height, format, data⟩)) <;>
        exact ⟨rfl, rfl⟩
  | query q =>
    rw [call, call, query, query, hcurrent]
    cases c.current? <;> exact ⟨rfl, rfl⟩
  | close =>
    rw [call, call, close, close, hcurrent]
    cases c.current? <;> exact ⟨rfl, rfl⟩

theorem forget_handle (c : Client) (call : Call) :
    (c.forget.handle call).forget = (c.handle call).forget := by
  unfold handle evict
  split
  · split <;> rfl
  · rfl

theorem forget_foldl_handle {c c' : Client} (h : c'.forget = c.forget) (calls : List Call) :
    (calls.foldl handle c').forget = (calls.foldl handle c).forget := by
  induction calls generalizing c c' with
  | nil => exact h
  | cons call calls ih =>
    refine ih ?_
    rw [← forget_handle c', h, forget_handle]

theorem forget_emit (c : Client) (events : List Event) :
    (c.forget.emit events).2.forget = (c.emit events).2.forget := by
  have hself : c.forget.forget = c.forget := rfl
  exact forget_foldl_handle hself (c.dispatcher.calls events)

theorem forget_next (c : Client) (a : Action) :
    (c.forget.next a).forget = (c.next a).forget := by
  cases a with
  | emit events => exact c.forget_emit events
  | connect transport =>
    exact forget_emit { c with connections := c.connections ++ [{ transport }] } _
  | step line task =>
    rw [next, next, act, act, stepAt, stepAt]
    have hconn : c.forget.connections[line]? = c.connections[line]? := rfl
    rw [hconn]
    cases c.connections[line]? with
    | none => rfl
    | some conn =>
      have hdispatcher : c.forget.dispatcher = c.dispatcher := rfl
      dsimp only
      rw [hdispatcher]
      cases conn.taskStep c.dispatcher task with
      | none => rfl
      | some e =>
        exact forget_emit { c with
          connections := c.connections.set line e.connection, dispatcher := e.dispatcher } _
  | call r => exact (c.forget_call r).2
  | receive id =>
    rw [next, next, act, act, tryReceive, tryReceive]
    have hchannels : c.forget.channels = c.channels := rfl
    rw [hchannels]
    split <;> rfl
  | on | subscribe | unsubscribe | arrive | fault | collect | drop | dropChannel => rfl

theorem forget_run {c c' : Client} (h : c'.forget = c.forget) (actions : List Action) :
    (c'.run actions).forget = (c.run actions).forget := by
  induction actions generalizing c c' with
  | nil => exact h
  | cons a actions ih =>
    refine ih ?_
    rw [← forget_next c', h, forget_next]

/-- Nothing that is sent, and no call, depends on the records. -/
theorem run_of_forget {c c' : Client} (h : c'.forget = c.forget) (actions : List Action) :
    (c'.run actions).connections = (c.run actions).connections ∧
      ∀ r, ((c'.run actions).call r).1 = ((c.run actions).call r).1 := by
  have hrun := forget_run h actions
  have hconnections : (c'.run actions).forget.connections = (c.run actions).forget.connections :=
    congrArg connections hrun
  refine ⟨hconnections, fun r => ?_⟩
  rw [← (forget_call _ r).1, hrun, (forget_call _ r).1]

/-- At every moment of a client's life the table is what the history makes of it: a window that
has been made, and not been removed since, has the place and the size that it was given last, and
no other window has any.  Calls that fail, and changes to windows that are not there, leave the
records alone, and so does all that has nothing to do with windows; nothing that is sent, and no
later call, depends on them.  Callers cannot undo the client's own subscription, whose id they
are never given. -/
theorem windows_follow_history (actions : List Action) (kept : .unsubscribe evictor ∉ actions) :
    let c := new.run actions
    let changes := new.history actions
    (∀ id, ¬ Present id changes → c.windows.get? id = none) ∧
    (∀ id, Present id changes → ∃ g, c.windows.get? id = some g ∧
      lastPlace? id changes = some (g.x, g.y) ∧
      lastExtent? id changes = some (g.width, g.height)) ∧
    (c.windows.ids.Pairwise (· < ·) ∧
      ∀ id, id ∈ c.windows.ids ↔ c.windows.get? id ≠ none) ∧
    (∀ a, a.changes c = [] → (c.next a).windows.entries = c.windows.entries) ∧
    (∀ r e, (c.call r).1 = .error e → (c.call r).2.windows.entries = c.windows.entries) ∧
    (∀ id, c.windows.get? id = none →
      (∀ x y, (c.call (.perform (.setWindowPosition ⟨id, x, y⟩))).2.windows.entries =
        c.windows.entries) ∧
      ∀ width height, (c.call (.perform (.setWindowSize ⟨id, width, height⟩))).2.windows.entries =
        c.windows.entries) ∧
    ∀ t : WindowTable, t.nextId = c.windows.nextId → ∀ later,
      ({ c with windows := t }.run later).connections = (c.run later).connections ∧
      ∀ r, (({ c with windows := t }.run later).call r).1 = ((c.run later).call r).1 := by
  intro c changes
  have hdescribes (id : WindowId) : Describes id changes (c.windows.get? id) := by
    rw [WindowTable.get?, entries_run kept]
    exact describes_replay id changes
  have hown : own ∈ c.dispatcher.subscribers :=
    (mem_subscribers_run actions own).mpr (.own rfl kept)
  refine ⟨fun id absent => ?_, fun id present => ?_, ⟨c.windows.ids_ascending, fun id => ?_⟩,
    fun a quiet => ?_, fun r e failed => entries_call_of_error failed, fun id absent =>
    ⟨fun x y => entries_call_of_absent absent (.inl ⟨x, y, rfl⟩),
      fun width height => entries_call_of_absent absent (.inr ⟨width, height, rfl⟩)⟩,
    fun t same later => run_of_forget ?_ later⟩
  · have h := hdescribes id
    generalize c.windows.get? id = record at h ⊢
    cases h with
    | absent => rfl
    | present present => exact absurd present absent
  · have h := hdescribes id
    generalize c.windows.get? id = record at h ⊢
    cases h with
    | absent absent => exact absurd present absent
    | present _ place extent => exact ⟨_, rfl, place, extent⟩
  · rw [← WindowTable.isSome_get?_iff, Option.isSome_iff_ne_none]
  · rw [entries_next (tellsEnd_run actions) hown, quiet]
    rfl
  · rw [forget, forget]
    dsimp only
    rw [same]

/-- The compositor destroys the first of two windows, which is moved all the same. -/
def lateMove : List Action := [.connect {}, .call (.createWindow ⟨30, 40, 1, 2, none⟩),
  .call (.createWindow ⟨50, 60, 3, 4, none⟩),
  .arrive 0 (.bytes (Frame.ofMessage (.notice (.windowDestroyed 1)) 0).encode), .step 0 .reader,
  .call (.perform (.setWindowPosition ⟨1, 9, 9⟩)), .call (.perform (.setWindowSize ⟨2, 7, 8⟩))]

theorem windows_follow_history_lateMove :
    .unsubscribe evictor ∉ lateMove ∧
    new.history lateMove = [.created 1 ⟨1, 2, 30, 40⟩, .created 2 ⟨3, 4, 50, 60⟩, .removed 1,
      .moved 1 9 9, .resized 2 7 8] ∧
    (new.run lateMove).windows.get? 1 = none ∧
    (new.run lateMove).windows.get? 2 = some ⟨3, 4, 7, 8⟩ := by
  have hkept : .unsubscribe evictor ∉ lateMove := by simp [lateMove]
  have hhistory : new.history lateMove = [.created 1 ⟨1, 2, 30, 40⟩, .created 2 ⟨3, 4, 50, 60⟩,
      .removed 1, .moved 1 9 9, .resized 2 7 8] := by decide +kernel
  obtain ⟨habsent, hpresent, -⟩ := windows_follow_history lateMove hkept
  rw [hhistory] at habsent hpresent
  refine ⟨hkept, hhistory, habsent 1 ?_, ?_⟩
  · show ¬ Present 1 ((((([] ++ [_]) ++ [_]) ++ [_]) ++ [_]) ++ [_])
    simp only [present_concat, not_present_nil]
    simp
  · obtain ⟨⟨x, y, width, height⟩, hget, hplace, hextent⟩ :=
      hpresent 2 ⟨[_], ⟨3, 4, 50, 60⟩, _, rfl, by decide⟩
    cases hplace
    cases hextent
    exact hget

end Client
end CompositorClient
