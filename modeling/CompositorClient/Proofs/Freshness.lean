import CompositorClient.Proofs.Creation
import CompositorClient.Proofs.Minting
import CompositorClient.Proofs.WindowHistory

/-! The ids that a client gives to its windows.  Every call that makes a window uses one up, also
one that fails, and nothing else does, so that over a whole life they run through the cycle.  The
table is not asked which of them are taken: behind the last id comes the first again, and a window
that has been there for that long has its id given to another. -/

namespace CompositorClient

open WindowChange

namespace WindowChange

/-- No window enters a table but by being made. -/
theorem find_replay {id : WindowId} {es : List WindowEntry} {changes : List WindowChange}
    (h : (WindowEntry.find id (replay es changes)).isSome) :
    (WindowEntry.find id es).isSome ∨ ∃ g, created id g ∈ changes := by
  induction changes generalizing es with
  | nil => exact .inl h
  | cons change changes ih =>
    rcases ih h with hfind | ⟨g, hg⟩
    · by_cases other : change.window = id
      · cases change <;> simp_all [apply, window]
      · rw [find_apply_of_ne other] at hfind
        exact .inl hfind
    · exact .inr ⟨g, List.mem_cons_of_mem _ hg⟩

end WindowChange

theorem Request.eq_of_created {r : Request} {result : Except ClientError UInt32} {id : WindowId}
    {g : Geometry} (h : created id g ∈ r.changes result) :
    ∃ o, r = .createWindow o ∧ result = .ok id := by
  unfold Request.changes at h
  split at h <;> simp_all

namespace Client

variable {c : Client} {a : Action} {id : WindowId}

def Action.minted (c : Client) : Action → List WindowId
  | .call (.createWindow _) => if c.current?.isSome then [c.windows.allocate.1] else []
  | _ => []

def idsMinted : Client → List Action → List WindowId := trace next fun c a => a.minted c

@[simp] theorem nextId_handle (c : Client) (call : Call) :
    (c.handle call).windows.nextId = c.windows.nextId := by
  unfold handle evict
  split
  · split <;> rfl
  · rfl

@[simp] theorem nextId_emit (c : Client) (events : List Event) :
    (c.emit events).2.windows.nextId = c.windows.nextId := by
  show ((c.dispatcher.calls events).foldl handle c).windows.nextId = c.windows.nextId
  generalize c.dispatcher.calls events = calls
  induction calls generalizing c with
  | nil => rfl
  | cons call calls ih => simp [ih]

/-- Making a window moves the table on by one id, and no other action moves it. -/
theorem next_minted (c : Client) (a : Action) :
    a.minted c = [] ∧ (c.next a).windows.nextId = c.windows.nextId ∨
      a.minted c = [c.windows.nextId] ∧
        (c.next a).windows.nextId = WindowTable.following c.windows.nextId := by
  cases a with
  | call r =>
    rw [next, act]
    cases r with
    | createWindow o =>
      rw [Action.minted, call, createWindow, createWindowAmid]
      cases c.current? with
      | none => exact .inl ⟨rfl, rfl⟩
      | some conn =>
        refine .inr ⟨rfl, ?_⟩
        dsimp only
        split <;> rfl
    | perform command =>
      refine .inl ⟨rfl, ?_⟩
      rw [call]
      cases h : c.perform command with
      | error e => rfl
      | ok c' => simp [windows_of_perform h, nextId_record]
    | uploadImage width height format data =>
      refine .inl ⟨rfl, ?_⟩
      rw [call, uploadImage]
      split
      · rfl
      · dsimp only
        split <;> rfl
    | query q =>
      refine .inl ⟨rfl, ?_⟩
      rw [call, query]
      split <;> rfl
    | close =>
      refine .inl ⟨rfl, ?_⟩
      rw [call, close]
      split <;> rfl
  | emit events => exact .inl ⟨rfl, nextId_emit c events⟩
  | connect transport => exact .inl ⟨rfl, nextId_emit ..⟩
  | step line task =>
    refine .inl ⟨rfl, ?_⟩
    rw [next, act, stepAt]
    split
    · rfl
    · split
      · rfl
      · exact nextId_emit ..
  | receive id =>
    refine .inl ⟨rfl, ?_⟩
    rw [next, act, tryReceive]
    split <;> rfl
  | on | subscribe | unsubscribe | arrive | fault | collect | drop | dropChannel =>
    exact .inl ⟨rfl, rfl⟩

theorem idsMinted_concat (c : Client) (actions : List Action) (a : Action) :
    c.idsMinted (actions ++ [a]) = c.idsMinted actions ++ a.minted (c.run actions) :=
  trace_concat ..

theorem idsMinted_eq (actions : List Action) :
    new.idsMinted actions = (List.range (new.idsMinted actions).length).map Sequence.nth ∧
      (new.run actions).windows.nextId = Sequence.nth (new.idsMinted actions).length := by
  induction actions using List.reverseRecOn with
  | nil => exact ⟨rfl, rfl⟩
  | append_singleton actions a ih =>
    obtain ⟨hids, hnext⟩ := ih
    rw [idsMinted_concat, run_concat]
    rcases next_minted (new.run actions) a with ⟨hnone, hsame⟩ | ⟨hone, hmoved⟩
    · rw [hnone, hsame, List.append_nil]
      exact ⟨hids, hnext⟩
    · rw [hone, hmoved, hnext, WindowTable.following_nth]
      refine ⟨?_, by simp⟩
      conv_lhs => rw [hids]
      simp [List.range_succ]

theorem getElem?_idsMinted {actions : List Action} {i : Nat}
    (h : (new.idsMinted actions)[i]? = some id) :
    i < (new.idsMinted actions).length ∧ id = Sequence.nth i := by
  obtain ⟨hlt, -⟩ := List.getElem?_eq_some_iff.mp h
  refine ⟨hlt, ?_⟩
  rw [(idsMinted_eq actions).1] at h
  simpa [hlt, eq_comm] using h

theorem minted_of_created {g : Geometry} (h : created id g ∈ a.changes c) :
    a.minted c = [id] := by
  cases a with
  | call r =>
    obtain ⟨o, rfl, hid⟩ := Request.eq_of_created h
    have hminted : id = c.windows.allocate.1 := eq_of_createWindowAmid hid
    cases hcurrent : c.current? with
    | none => simp [call, createWindow, createWindowAmid, hcurrent] at hid
    | some conn => simp [Action.minted, hcurrent, hminted]
  | _ => simp [Action.changes] at h

theorem mem_ids_of_emit {events : List Event} (h : id ∈ (c.emit events).2.windows.ids) :
    id ∈ c.windows.ids := by
  have hentries := entries_foldl_handle c (c.dispatcher.calls events)
  rw [WindowTable.ids, emit, hentries] at h
  exact (List.filter_sublist.map _).mem h

theorem mem_ids_of_next (h : id ∈ (c.next a).windows.ids) :
    id ∈ c.windows.ids ∨ a.minted c = [id] := by
  cases a with
  | call r =>
    rw [← WindowTable.isSome_get?_iff, WindowTable.get?, next, act, entries_call] at h
    rcases find_replay h with hold | ⟨g, hg⟩
    · exact .inl ((WindowTable.isSome_get?_iff _ _).mp hold)
    · exact .inr (minted_of_created (a := .call r) hg)
  | emit events => exact .inl (mem_ids_of_emit h)
  | connect transport =>
    exact .inl (mem_ids_of_emit (c := { c with connections := c.connections ++ [{ transport }] }) h)
  | step line task =>
    rw [next, act, stepAt] at h
    split at h
    · exact .inl h
    · split at h
      · exact .inl h
      · next e _ =>
        exact .inl (mem_ids_of_emit (c := { c with
          connections := c.connections.set line e.connection, dispatcher := e.dispatcher }) h)
  | receive id =>
    rw [next, act, tryReceive] at h
    split at h <;> exact .inl h
  | on | subscribe | unsubscribe | arrive | fault | collect | drop | dropChannel => exact .inl h

theorem mem_idsMinted {actions : List Action} (h : id ∈ (new.run actions).windows.ids) :
    id ∈ new.idsMinted actions := by
  induction actions using List.reverseRecOn with
  | nil => cases h
  | append_singleton actions a ih =>
    rw [run_concat] at h
    rw [idsMinted_concat, List.mem_append]
    exact (mem_ids_of_next h).imp ih fun hone => by simp [hone]

/-- While the client's own subscription stands, the table lists the windows that are there. -/
theorem mem_ids_iff_present {actions : List Action} (kept : .unsubscribe evictor ∉ actions) :
    id ∈ (new.run actions).windows.ids ↔ Present id (new.history actions) := by
  rw [← WindowTable.isSome_get?_iff, WindowTable.get?, entries_run kept]
  have hdescribes := describes_replay id (new.history actions)
  generalize WindowEntry.find id (replay [] (new.history actions)) = record at hdescribes ⊢
  cases hdescribes with
  | absent absent => simp [absent]
  | present present => simp [present]

def ask : Action := .call (.createWindow ⟨30, 40, 1, 2, none⟩)

/-- Makes a window, closes the connection, and asks for `n` more all the same. -/
def asking (n : Nat) : List Action := [.connect {}, ask, .call .close] ++ List.replicate n ask

theorem next_ask_of_closed {conn : Connection} (current : c.current? = some conn)
    (closed : conn.closed = true) :
    (c.next ask).current? = some conn ∧ (c.next ask).windows.entries = c.windows.entries ∧
      ask.minted c = [c.windows.nextId] := by
  obtain ⟨hcurrent, hfails⟩ := call_of_closed current closed (.createWindow ⟨30, 40, 1, 2, none⟩)
  refine ⟨hcurrent, entries_call_of_error (hfails rfl (by simp)), ?_⟩
  simp [ask, Action.minted, current, WindowTable.allocate]

theorem run_replicate_ask {conn : Connection} (current : c.current? = some conn)
    (closed : conn.closed = true) (n : Nat) :
    (c.run (List.replicate n ask)).windows.entries = c.windows.entries ∧
      (c.idsMinted (List.replicate n ask)).length = n := by
  induction n generalizing c with
  | zero => exact ⟨rfl, rfl⟩
  | succ n ih =>
    obtain ⟨hcurrent, hentries, hminted⟩ := next_ask_of_closed current closed
    obtain ⟨hrest, hlength⟩ := ih hcurrent
    rw [List.replicate_succ, run_cons, hrest, hentries, idsMinted, trace_cons, hminted]
    exact ⟨rfl, by simpa [idsMinted] using hlength⟩

theorem createWindow_of_accepting {conn : Connection} (current : c.current? = some conn)
    (accepting : conn.Accepting) (o : WindowOptions) :
    (c.createWindow o).1 = .ok c.windows.nextId := by
  simp [createWindow, createWindowAmid, current, Connection.sendEach_of_accepting accepting,
    WindowTable.allocate]

theorem run_asking (n : Nat) : (new.run (asking n)).windows.ids = [1] ∧
    (new.idsMinted (asking n)).length = n + 1 := by
  obtain ⟨conn, current, closed⟩ : ∃ conn : Connection,
      (new.run [.connect {}, ask, .call .close]).current? = some conn ∧ conn.closed = true :=
    ⟨_, rfl, rfl⟩
  obtain ⟨hentries, hlength⟩ := run_replicate_ask current closed n
  refine ⟨?_, ?_⟩
  · rw [asking, run, List.foldl_append]
    exact congrArg (List.map Prod.fst) hentries
  · rw [asking, idsMinted, trace_append, List.length_append, Nat.add_comm n]
    exact congrArg (1 + ·) hlength

def reconnecting (n : Nat) : List Action := asking n ++ [.connect {}]

theorem unsubscribe_not_mem_reconnecting (n : Nat) : .unsubscribe evictor ∉ reconnecting n := by
  simp [reconnecting, asking, ask, List.mem_replicate]

theorem ids_reconnecting (n : Nat) : (new.run (reconnecting n)).windows.ids = [1] := by
  have kept := unsubscribe_not_mem_reconnecting n
  rw [reconnecting, List.mem_append, not_or] at kept
  have hown : own ∈ (new.run (asking n)).dispatcher.subscribers :=
    (mem_subscribers_run _ own).mpr (.own rfl kept.1)
  rw [reconnecting, run_concat, WindowTable.ids, entries_next (tellsEnd_run _) hown]
  exact (run_asking n).1

/-- The window that is made then has the id `n + 1` places further on in the cycle. -/
theorem createWindow_reconnecting (n : Nat) (o : WindowOptions) :
    ((new.run (reconnecting n)).createWindow o).1 = .ok (Sequence.nth (n + 1)) := by
  have current : (new.run (reconnecting n)).current? = some { transport := {} } := by
    rw [reconnecting, run_concat]
    exact current?_connect ..
  have hlength : (new.idsMinted (reconnecting n)).length = n + 1 := by
    rw [reconnecting, idsMinted_concat, List.length_append, (run_asking n).2]
    rfl
  rw [createWindow_of_accepting current (by simp [Connection.Accepting]),
    (idsMinted_eq (reconnecting n)).2, hlength]

theorem nth_round : Sequence.nth (2 ^ 32 - 2 + 1) = 1 := by
  apply UInt32.toNat_inj.mp
  rw [Sequence.toNat_nth]
  rfl

/-- Whatever a client has done, and whatever others do to the connection meanwhile, the id that it
gives to a window is that of its place in the cycle, and not zero.  All the other ids have been
used up since it was used before.  It stands in the table at the time if and only if a window that
was given it so long ago has not been removed since; within the first round of the cycle no window
has been. -/
theorem new_ids_return_after_a_round {actions : List Action}
    {disturb : Nat → Connection → Connection} {o : WindowOptions}
    (made : ((new.run actions).createWindowAmid disturb o).1 = .ok id) :
    id ≠ 0 ∧
    id.toNat = (new.idsMinted actions).length % (2 ^ 32 - 1) + 1 ∧
    (∀ i, (new.idsMinted actions)[i]? = some id →
      i + (2 ^ 32 - 1) ≤ (new.idsMinted actions).length) ∧
    (.unsubscribe evictor ∉ actions →
      (id ∈ (new.run actions).windows.ids ↔ Present id (new.history actions))) ∧
    ((new.idsMinted actions).length < 2 ^ 32 - 1 → id ∉ (new.run actions).windows.ids) := by
  have hid : id = Sequence.nth (new.idsMinted actions).length :=
    (eq_of_createWindowAmid made).trans (idsMinted_eq actions).2
  have hround : ∀ i, (new.idsMinted actions)[i]? = some id →
      i + (2 ^ 32 - 1) ≤ (new.idsMinted actions).length := by
    intro i hi
    obtain ⟨hlt, hnth⟩ := getElem?_idsMinted hi
    have hnat := congrArg UInt32.toNat (hnth.symm.trans hid)
    rw [Sequence.toNat_nth, Sequence.toNat_nth] at hnat
    omega
  refine ⟨hid ▸ Sequence.nth_ne_zero _, hid ▸ Sequence.toNat_nth _, hround, mem_ids_iff_present,
    fun few listed => ?_⟩
  obtain ⟨i, hi⟩ := List.mem_iff_getElem?.mp (mem_idsMinted listed)
  have hle := hround i hi
  omega

theorem new_ids_return_after_a_round_reconnecting :
    ((new.run (reconnecting (2 ^ 32 - 2))).createWindow ⟨50, 60, 3, 4, none⟩).1 = .ok 1 ∧
      Present 1 (new.history (reconnecting (2 ^ 32 - 2))) := by
  have made : ((new.run (reconnecting (2 ^ 32 - 2))).createWindow ⟨50, 60, 3, 4, none⟩).1 =
      .ok 1 := by rw [createWindow_reconnecting, nth_round]
  obtain ⟨-, -, -, listed, -⟩ := new_ids_return_after_a_round made
  exact ⟨made, (listed (unsubscribe_not_mem_reconnecting _)).mp (by simp [ids_reconnecting])⟩

/-- The window with the first id is there, and another is given its id. -/
theorem listed_id_given_again :
    1 ∈ (new.run (reconnecting (2 ^ 32 - 2))).windows.ids ∧
      ((new.run (reconnecting (2 ^ 32 - 2))).createWindow ⟨50, 60, 3, 4, none⟩).1 = .ok 1 := by
  rw [ids_reconnecting, createWindow_reconnecting, nth_round]
  simp

end Client
end CompositorClient
