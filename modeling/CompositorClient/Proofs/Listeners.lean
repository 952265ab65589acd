import CompositorClient.Proofs.Switchboard
import CompositorClient.Proofs.Trace

/-! The subscriptions of a client over its whole life.  Whatever else it does, each of them is
told of the events of its kind from the time it is made until it is undone, in the order in which
the subscriptions were made; the client's own comes before all others. -/

namespace CompositorClient

namespace Connection

theorem dispatcher_taskStep {c : Connection} {d : Dispatcher} {task : Task} {e : Effect}
    (h : c.taskStep d task = some e) : ∃ table, e.dispatcher = { d with table } := by
  have hstep := consequence_taskStep h
  generalize e.dispatcher = d', e.events = events at hstep
  cases hstep with
  | quiet => exact ⟨d.table, rfl⟩
  | frame =>
    rw [Dispatcher.dispatchFrame_eq]
    split
    · exact ⟨d.table, rfl⟩
    · exact ⟨_, rfl⟩
  | told => exact ⟨_, rfl⟩

theorem dispatcher_query (c : Connection) (d : Dispatcher) (m : Message) :
    ∃ table, (c.query d m).2.2 = { d with table } := by
  unfold query
  split
  · exact ⟨d.table, rfl⟩
  · dsimp only
    split <;> exact ⟨_, rfl⟩

end Connection

namespace Client

inductive Action
  | on (kind : EventKind)
  | subscribe (kind : EventKind)
  | unsubscribe (id : SubscriptionId)
  | emit (events : List Event)
  | connect (transport : Transport)
  | step (line : Nat) (task : Task)
  | arrive (line : Nat) (input : Input)
  | fault (line : Nat) (text : Option String)
  | call (request : Request)
  | collect (p : PendingQuery)
  | drop (p : PendingQuery)
  | receive (id : SubscriptionId)
  | dropChannel (id : SubscriptionId)

def act (c : Client) : Action → List Call × Client
  | .on kind => ([], (c.on kind).2)
  | .subscribe kind => ([], (c.subscribe kind).2)
  | .unsubscribe id => ([], (c.unsubscribe id).2)
  | .emit events => c.emit events
  | .connect transport => c.connect transport
  | .step line task => c.stepAt line task
  | .arrive line input => ([], c.accept line input)
  | .fault line text => ([], c.setFault line text)
  | .call request => ([], (c.call request).2)
  | .collect p => ([], (c.collect p).2)
  | .drop p => ([], c.drop p)
  | .receive id => ([], (c.tryReceive id).2)
  | .dropChannel id => ([], (c.dropChannel id).2)

def next (c : Client) (a : Action) : Client := (c.act a).2

def run (c : Client) (actions : List Action) : Client := actions.foldl next c

def Action.made (c : Client) : Action → List Subscriber
  | .on kind => [⟨(c.on kind).1, kind⟩]
  | .subscribe kind => [⟨(c.subscribe kind).1, kind⟩]
  | _ => []

def Action.events (c : Client) : Action → List Event
  | .emit events => events
  | .connect _ => [.connected]
  | .step line task =>
    match c.connections[line]? with
    | none => []
    | some conn => (conn.taskStep c.dispatcher task).elim [] (·.events)
  | _ => []

def made : Client → List Action → List Subscriber := trace next fun c a => a.made c

def occurred : Client → List Action → List Event := trace next fun c a => a.events c

def heard : Client → List Action → List Call := trace next fun c a => (c.act a).1

variable {c : Client} {a : Action}

theorem dispatcher_query (c : Client) (q : Query) :
    ∃ table, (c.query q).2.dispatcher = { c.dispatcher with table } := by
  unfold query
  split
  · exact ⟨c.dispatcher.table, rfl⟩
  · next conn _ => exact conn.dispatcher_query c.dispatcher (.query q)

theorem calls_act (c : Client) (a : Action) : (c.act a).1 = c.dispatcher.calls (a.events c) := by
  cases a with
  | emit | connect => rfl
  | step line task =>
    rw [act, Action.events, stepAt]
    cases c.connections[line]? with
    | none => rfl
    | some conn =>
      dsimp only
      cases he : conn.taskStep c.dispatcher task with
      | none => rfl
      | some e =>
        obtain ⟨table, hd⟩ := Connection.dispatcher_taskStep he
        exact Dispatcher.calls_congr (congrArg Dispatcher.subscribers hd) e.events
  | _ => rfl

theorem act_cases (c : Client) (a : Action) :
    (∃ kind, a.made c = [⟨c.dispatcher.lastId + 1, kind⟩] ∧ (∀ id, a ≠ .unsubscribe id) ∧
      (c.next a).dispatcher = (c.dispatcher.subscribe kind).2) ∨
    (∃ id, a = .unsubscribe id ∧ a.made c = [] ∧
      (c.next a).dispatcher = (c.dispatcher.unsubscribe id).2) ∨
    (a.made c = [] ∧ (∀ id, a ≠ .unsubscribe id) ∧
      ∃ table, (c.next a).dispatcher = { c.dispatcher with table }) := by
  cases a with
  | on kind => exact .inl ⟨kind, rfl, by simp, rfl⟩
  | subscribe kind => exact .inl ⟨kind, rfl, by simp, rfl⟩
  | unsubscribe id => exact .inr (.inl ⟨id, rfl, rfl, rfl⟩)
  | emit events => exact .inr (.inr ⟨rfl, by simp, c.dispatcher.table, c.dispatcher_emit events⟩)
  | connect transport =>
    exact .inr (.inr ⟨rfl, by simp, c.dispatcher.table, dispatcher_emit ..⟩)
  | step line task =>
    refine .inr (.inr ⟨rfl, by simp, ?_⟩)
    rw [next, act, stepAt]
    split
    · exact ⟨c.dispatcher.table, rfl⟩
    · split
      · exact ⟨c.dispatcher.table, rfl⟩
      · next e he =>
        rw [absorb, dispatcher_emit]
        exact Connection.dispatcher_taskStep he
  | call request =>
    refine .inr (.inr ⟨rfl, by simp, ?_⟩)
    by_cases h : ∀ q, request ≠ .query q
    · exact ⟨c.dispatcher.table, dispatcher_call h⟩
    · obtain ⟨q, rfl⟩ := Classical.not_forall_not.mp h
      exact c.dispatcher_query q
  | receive id =>
    refine .inr (.inr ⟨rfl, by simp, c.dispatcher.table, ?_⟩)
    rw [next, act, tryReceive]
    split <;> rfl
  | arrive | fault | collect | drop | dropChannel => exact .inr (.inr ⟨rfl, by simp, _, rfl⟩)

variable {actions : List Action} {id : SubscriptionId} {s : Subscriber}

/-- The client's own subscription. -/
def own : Subscriber := ⟨evictor, .windowDestroyed⟩

@[simp] theorem run_nil (c : Client) : c.run [] = c := rfl
@[simp] theorem run_cons (c : Client) (a : Action) (actions : List Action) :
    c.run (a :: actions) = (c.next a).run actions := rfl
@[simp] theorem run_concat (c : Client) (actions : List Action) (a : Action) :
    c.run (actions ++ [a]) = (c.run actions).next a := List.foldl_concat _ _ _ _

theorem made_concat (c : Client) (actions : List Action) (a : Action) :
    c.made (actions ++ [a]) = c.made actions ++ a.made (c.run actions) := trace_concat ..

theorem ids_made (c : Client) (actions : List Action) :
    (c.run actions).dispatcher.lastId =
      c.dispatcher.lastId + UInt64.ofNat (c.made actions).length ∧
    (c.made actions).map (·.id) = (List.range (c.made actions).length).map fun i =>
      c.dispatcher.lastId + UInt64.ofNat (i + 1) := by
  induction actions using List.reverseRecOn with
  | nil => exact ⟨(UInt64.add_zero _).symm, rfl⟩
  | append_singleton actions a ih =>
    obtain ⟨hlast, hids⟩ := ih
    rw [made_concat, run_concat]
    obtain ⟨kind, hmade, -, hd⟩ | ⟨id, -, hmade, hd⟩ | ⟨hmade, -, table, hd⟩ :=
      act_cases (c.run actions) a
    · have hnext : (c.run actions).dispatcher.lastId + 1 =
          c.dispatcher.lastId + UInt64.ofNat ((c.made actions).length + 1) := by
        rw [hlast, UInt64.ofNat_add, UInt64.add_assoc]
        rfl
      rw [hmade, hd, List.length_append, List.map_append, hids, List.length_singleton,
        List.range_succ, List.map_append, List.map_singleton, List.map_singleton, hnext]
      exact ⟨hnext, rfl⟩
    · rw [hmade, hd, List.append_nil]
      exact ⟨hlast, hids⟩
    · rw [hmade, hd, List.append_nil]
      exact ⟨hlast, hids⟩

theorem nodup_ids (few : (new.made actions).length < 2 ^ 64) :
    ((own :: new.made actions).map (·.id)).Nodup := by
  have hids : (own :: new.made actions).map (·.id) =
      (List.range ((new.made actions).length + 1)).map fun i => UInt64.ofNat (i + 1) := by
    rw [List.map_cons, (ids_made new actions).2, List.range_succ_eq_map, List.map_cons,
      List.map_map]
    refine congrArg _ (List.map_congr_left fun i _ => ?_)
    show 1 + UInt64.ofNat (i + 1) = UInt64.ofNat (i + 1 + 1)
    rw [UInt64.ofNat_add (i + 1) 1, UInt64.add_comm]
    rfl
  rw [hids]
  refine List.nodup_range.map_on fun i hi j hj heq => ?_
  have hmod := congrArg UInt64.toNat heq
  rw [List.mem_range] at hi hj
  rw [UInt64.toNat_ofNat', UInt64.toNat_ofNat'] at hmod
  omega

inductive Stands (actions : List Action) (s : Subscriber) : Prop
  | own (first : s = own) (kept : .unsubscribe s.id ∉ actions)
  | made (before after : List Action) (a : Action) (split : actions = before ++ a :: after)
      (made : s ∈ a.made (new.run before)) (kept : .unsubscribe s.id ∉ after)

theorem stands_nil : Stands [] s ↔ s = own := by
  constructor
  · rintro (⟨first, -⟩ | ⟨before, after, a, split, -⟩)
    · exact first
    · simp at split
  · exact fun first => .own first List.not_mem_nil

theorem stands_concat : Stands (actions ++ [a]) s ↔
    Stands actions s ∧ a ≠ .unsubscribe s.id ∨ s ∈ a.made (new.run actions) := by
  constructor
  · rintro (⟨first, kept⟩ | ⟨before, after, b, split, made, kept⟩)
    · rw [List.mem_append, List.mem_singleton, not_or] at kept
      exact .inl ⟨.own first kept.1, Ne.symm kept.2⟩
    · rcases List.eq_nil_or_concat after with rfl | ⟨after, d, rfl⟩
      · obtain ⟨rfl, hab⟩ := List.append_inj' split rfl
        cases hab
        exact .inr made
      · rw [List.concat_eq_append, ← List.cons_append, ← List.append_assoc] at split
        obtain ⟨rfl, hd⟩ := List.append_inj' split rfl
        cases hd
        rw [List.concat_eq_append, List.mem_append, List.mem_singleton, not_or] at kept
        exact .inl ⟨.made before after b rfl made kept.1, Ne.symm kept.2⟩
  · rintro (⟨⟨first, kept⟩ | ⟨before, after, b, rfl, made, kept⟩, other⟩ | made)
    · refine .own first ?_
      rw [List.mem_append, List.mem_singleton, not_or]
      exact ⟨kept, other.symm⟩
    · refine .made before (after ++ [a]) b (by simp) made ?_
      rw [List.mem_append, List.mem_singleton, not_or]
      exact ⟨kept, other.symm⟩
    · exact .made actions [] a rfl made List.not_mem_nil

theorem mem_subscribers_run (actions : List Action) (s : Subscriber) :
    s ∈ (new.run actions).dispatcher.subscribers ↔ Stands actions s := by
  induction actions using List.reverseRecOn with
  | nil => rw [stands_nil, run_nil]; exact List.mem_singleton
  | append_singleton actions a ih =>
    rw [run_concat, stands_concat, ← ih]
    obtain ⟨kind, hmade, other, hd⟩ | ⟨id, rfl, hmade, hd⟩ | ⟨hmade, other, table, hd⟩ :=
      act_cases (new.run actions) a
    · simp [hmade, hd, other, Dispatcher.subscribe]
    · simp [hmade, hd, Dispatcher.unsubscribe, @eq_comm _ id]
    · simp [hmade, hd, other]

theorem sublist_subscribers_run (actions : List Action) :
    (new.run actions).dispatcher.subscribers.Sublist (own :: new.made actions) := by
  induction actions using List.reverseRecOn with
  | nil => exact List.Sublist.refl _
  | append_singleton actions a ih =>
    rw [run_concat, made_concat, ← List.cons_append]
    obtain ⟨kind, hmade, -, hd⟩ | ⟨id, -, hmade, hd⟩ | ⟨hmade, -, table, hd⟩ :=
      act_cases (new.run actions) a
    · rw [hmade, hd]
      exact ih.append_right _
    · rw [hmade, hd, List.append_nil]
      exact List.filter_sublist.trans ih
    · rw [hmade, hd, List.append_nil]
      exact ih

theorem unsubscribe_eq_true_iff (c : Client) (id : SubscriptionId) :
    (c.unsubscribe id).1 = true ↔ ∃ s ∈ c.dispatcher.subscribers, s.id = id := by
  rw [unsubscribe, Dispatcher.unsubscribe, List.any_eq_true]
  simp

def heldBy (c : Client) (id : SubscriptionId) : List Subscriber :=
  c.dispatcher.subscribers.filter (·.id == id)

theorem heldBy_next (kept : c.heldBy id = [] ∨ a ≠ .unsubscribe id)
    (others : ∀ s ∈ a.made c, s.id ≠ id) : (c.next a).heldBy id = c.heldBy id := by
  obtain ⟨kind, hmade, -, hd⟩ | ⟨id', rfl, -, hd⟩ | ⟨-, -, table, hd⟩ := act_cases c a
  · have hne : (⟨c.dispatcher.lastId + 1, kind⟩ : Subscriber).id ≠ id :=
      others _ (hmade ▸ List.mem_singleton_self _)
    simpa [heldBy, hd, Dispatcher.subscribe] using hne
  · rw [heldBy, hd, Dispatcher.unsubscribe, List.filter_filter]
    by_cases hid : id' = id
    · subst hid
      rw [kept.resolve_right (fun h => h rfl)]
      simp
    · refine List.filter_congr fun s _ => ?_
      by_cases hs : s.id = id
      · simp [hs, Ne.symm hid]
      · simp [hs]
  · rw [heldBy, hd, heldBy]

theorem calls_filter (d : Dispatcher) (events : List Event) (id : SubscriptionId) :
    (d.calls events).filter (·.1 == id) = events.flatMap fun e =>
      ((d.subscribers.filter (·.id == id)).filter (·.kind == e.kind)).map fun s => (s.id, e) := by
  rw [Dispatcher.calls, List.filter_flatMap]
  refine congrArg (List.flatMap · events) (funext fun e => ?_)
  rw [Dispatcher.listeners, List.map_map, List.filter_map, List.filter_comm]
  rfl

/-- As long as nothing changes under the id, what is heard there are the events. -/
theorem heard_filter (kept : c.heldBy id = [] ∨ .unsubscribe id ∉ actions)
    (others : ∀ s ∈ c.made actions, s.id ≠ id) :
    (c.run actions).heldBy id = c.heldBy id ∧
      (c.heard actions).filter (·.1 == id) = (c.occurred actions).flatMap fun e =>
        ((c.heldBy id).filter (·.kind == e.kind)).map fun s => (s.id, e) := by
  induction actions generalizing c with
  | nil => exact ⟨rfl, rfl⟩
  | cons a actions ih =>
    rw [List.mem_cons, not_or] at kept
    have hsame : (c.next a).heldBy id = c.heldBy id :=
      heldBy_next (kept.imp_right fun h => Ne.symm h.1) fun s hs =>
        others s (List.mem_append_left _ hs)
    obtain ⟨hrun, hheard⟩ := ih (kept.imp hsame.trans And.right) fun s hs =>
      others s (List.mem_append_right _ hs)
    refine ⟨hrun.trans hsame, ?_⟩
    rw [heard, trace_cons, List.filter_append, calls_act, calls_filter, occurred, trace_cons,
      List.flatMap_append]
    exact congrArg _ (hsame ▸ hheard)

theorem heard_of_unheld (unheld : c.heldBy id = []) (others : ∀ s ∈ c.made actions, s.id ≠ id) :
    (c.run actions).heldBy id = [] ∧ (c.heard actions).filter (·.1 == id) = [] := by
  obtain ⟨hrun, hheard⟩ := heard_filter (.inl unheld) others
  rw [unheld] at hrun hheard
  exact ⟨hrun, hheard.trans (List.flatMap_eq_nil_iff.mpr fun _ _ => rfl)⟩

theorem heard_of_held (held : c.heldBy s.id = [s]) (kept : .unsubscribe s.id ∉ actions)
    (others : ∀ v ∈ c.made actions, v.id ≠ s.id) :
    (c.run actions).heldBy s.id = [s] ∧ (c.heard actions).filter (·.1 == s.id) =
      ((c.occurred actions).filter (·.kind == s.kind)).map fun e => (s.id, e) := by
  obtain ⟨hrun, hheard⟩ := heard_filter (.inr kept) others
  refine ⟨hrun.trans held, hheard.trans ?_⟩
  rw [held]
  induction c.occurred actions with
  | nil => rfl
  | cons e events ih =>
    rw [List.flatMap_cons, ih]
    by_cases he : s.kind = e.kind
    · simp [he]
    · simp [he, Ne.symm he]

theorem heldBy_of_made (h : a.made c = [s]) (unheld : c.heldBy s.id = []) :
    (c.next a).heldBy s.id = [s] := by
  obtain ⟨kind, hmade, -, hd⟩ | ⟨id', -, hmade, -⟩ | ⟨hmade, -⟩ := act_cases c a
  · cases hmade.symm.trans h
    rw [heldBy, hd, Dispatcher.subscribe, List.filter_append]
    rw [heldBy] at unheld
    simp [unheld]
  · cases hmade.symm.trans h
  · cases hmade.symm.trans h

theorem heldBy_unsubscribe (c : Client) (id : SubscriptionId) :
    (c.next (.unsubscribe id)).heldBy id = [] := by
  simp [heldBy, next, act, unsubscribe, Dispatcher.unsubscribe, List.filter_filter]

theorem own_first (kept : .unsubscribe evictor ∉ actions) :
    ∃ rest, (new.run actions).dispatcher.subscribers = own :: rest := by
  induction actions using List.reverseRecOn with
  | nil => exact ⟨[], rfl⟩
  | append_singleton actions a ih =>
    rw [List.mem_append, List.mem_singleton, not_or] at kept
    obtain ⟨rest, hrest⟩ := ih kept.1
    rw [run_concat]
    obtain ⟨kind, -, -, hd⟩ | ⟨id, rfl, -, hd⟩ | ⟨-, -, table, hd⟩ :=
      act_cases (new.run actions) a
    · rw [hd, Dispatcher.subscribe, hrest]
      exact ⟨_, rfl⟩
    · have hid : own.id ≠ id := fun h => kept.2 (h ▸ rfl)
      rw [hd, Dispatcher.unsubscribe, hrest, List.filter_cons_of_pos (by simpa using hid)]
      exact ⟨_, rfl⟩
    · rw [hd]
      exact ⟨rest, hrest⟩

theorem head_mem_of_split {l earlier later : List Call} {x first : Call} (h : l.head? = some first)
    (split : l = earlier ++ x :: later) (other : x ≠ first) : first ∈ earlier := by
  cases earlier with
  | nil =>
    rw [split] at h
    exact absurd (Option.some.inj h) other
  | cons y earlier =>
    rw [split] at h
    cases h
    exact List.mem_cons_self

/-- Whoever else is told that a window is gone, the client has been told before. -/
theorem own_called_before {d : Dispatcher} {rest : List Subscriber}
    (h : d.subscribers = own :: rest) {events : List Event} {earlier later : List Call}
    {w : WindowId}
    (calls : d.calls events = earlier ++ (id, .windowDestroyed w) :: later) (other : id ≠ evictor) :
    (evictor, .windowDestroyed w) ∈ earlier := by
  induction events generalizing earlier with
  | nil => simp at calls
  | cons e events ih =>
    rw [Dispatcher.calls, List.flatMap_cons] at calls
    obtain ⟨more, rfl, hmore⟩ | ⟨block, hblock, hlater⟩ := List.append_eq_append_iff.mp calls
    · exact List.mem_append_right _ (ih hmore)
    · cases block with
      | nil =>
        have hrest : d.calls events = [] ++ (id, .windowDestroyed w) :: later := hlater.symm
        exact absurd (ih hrest) List.not_mem_nil
      | cons x block =>
        obtain ⟨rfl, -⟩ := List.cons.inj hlater
        -- the call is one of those for the event, and the first of them is the client's own
        have hmem : (id, Event.windowDestroyed w) ∈ (d.listeners e.kind).map fun i => (i, e) := by
          rw [hblock]
          exact List.mem_append_right _ List.mem_cons_self
        obtain ⟨i, -, hi⟩ := List.mem_map.mp hmem
        cases hi
        have hfirst : ((d.listeners .windowDestroyed).map fun i =>
            (i, Event.windowDestroyed w)).head? = some (evictor, .windowDestroyed w) := by
          rw [Dispatcher.listeners, h]
          rfl
        exact head_mem_of_split hfirst hblock fun heq => other (congrArg Prod.fst heq)

theorem get?_handle_of_none {w : WindowId} (h : c.windows.get? w = none) (call : Call) :
    (c.handle call).windows.get? w = none := by
  unfold handle evict
  split
  · split
    · next w' _ =>
      by_cases hw : w = w'
      · subst hw
        exact WindowTable.get?_erase_self ..
      · exact (WindowTable.get?_erase_of_ne _ hw).trans h
    · exact h
  · exact h

theorem get?_foldl_handle_of_none {w : WindowId} (h : c.windows.get? w = none)
    (calls : List Call) : (calls.foldl handle c).windows.get? w = none := by
  induction calls generalizing c with
  | nil => exact h
  | cons call calls ih => exact ih (get?_handle_of_none h call)

theorem get?_of_evicted {calls : List Call} {w : WindowId}
    (h : (evictor, .windowDestroyed w) ∈ calls) (c : Client) :
    (calls.foldl handle c).windows.get? w = none := by
  induction calls generalizing c with
  | nil => exact absurd h List.not_mem_nil
  | cons call calls ih =>
    rcases List.mem_cons.mp h with rfl | hmem
    · exact get?_foldl_handle_of_none (WindowTable.get?_erase_self ..) calls
    · exact ih hmem _

def channelsOf (c : Client) (id : SubscriptionId) : List Channel := c.channels.filter (·.id == id)

def Action.taken (id : SubscriptionId) (c : Client) : Action → List Event
  | .receive i => if i = id then (c.tryReceive i).1.toList else []
  | _ => []

def taken (id : SubscriptionId) : Client → List Action → List Event :=
  trace next fun c a => a.taken id c

/-- What is told goes into the channel at one end, and what is taken comes from the other. -/
inductive Flows (told taken : List Event) : List Channel → List Channel → Prop
  | closed : Flows told taken [] []
  | opened {ch ch' : Channel} (same : ch'.id = ch.id)
      (order : ch.queue ++ told = taken ++ ch'.queue) : Flows told taken [ch] [ch']

theorem Flows.refl {l : List Channel} (single : l.length ≤ 1) : Flows [] [] l l := by
  match l, single with
  | [], _ => exact .closed
  | [ch], _ => exact .opened rfl (List.append_nil _)

theorem Flows.trans {told told' taken taken' : List Event} {l l' l'' : List Channel}
    (h : Flows told taken l l') (h' : Flows told' taken' l' l'') :
    Flows (told ++ told') (taken ++ taken') l l'' := by
  cases h with
  | closed =>
    cases h'
    exact .closed
  | opened same order =>
    cases h' with
    | opened same' order' =>
      refine .opened (same'.trans same) ?_
      rw [← List.append_assoc, order, List.append_assoc, order', List.append_assoc]

theorem Flows.single {told taken : List Event} {l l' : List Channel} (h : Flows told taken l l') :
    l'.length ≤ 1 := by
  cases h <;> simp

theorem channelsOf_setChannel (c : Client) (ch : Channel) (id : SubscriptionId) :
    (c.setChannel ch).channelsOf id =
      (c.channelsOf id).map fun old => if old.id = ch.id then ch else old := by
  rw [channelsOf, setChannel, List.filter_map]
  refine congrArg _ (List.filter_congr fun old _ => ?_)
  by_cases h : old.id = ch.id <;> simp [h]

theorem id_of_mem_channelsOf {ch : Channel} (h : ch ∈ c.channelsOf id) : ch.id = id := by
  simpa using (List.mem_filter.mp h).2

theorem channelsOf_handle (other : id ≠ evictor) (call : Call) :
    (c.handle call).channelsOf id = (c.channelsOf id).map (·.handle call) := by
  unfold handle
  split
  · next hown =>
    have hsame : (c.evict call.2).channels = c.channels := by
      unfold evict
      split <;> rfl
    have hskip : ∀ ch ∈ c.channelsOf id, ch.handle call = ch := by
      intro ch hch
      refine if_neg fun h => other ?_
      rw [← id_of_mem_channelsOf hch, h, hown]
    rw [channelsOf, hsame, List.map_congr_left hskip, List.map_id']
    rfl
  · rw [channelsOf, List.filter_map]
    refine congrArg _ (List.filter_congr fun ch _ => ?_)
    unfold Channel.handle
    dsimp only [Function.comp]
    split <;> rfl

theorem flows_handle (single : (c.channelsOf id).length ≤ 1) (other : id ≠ evictor)
    (calls : List Call) :
    Flows ((calls.filter (·.1 == id)).map (·.2)) [] (c.channelsOf id)
      ((calls.foldl handle c).channelsOf id) := by
  induction calls generalizing c with
  | nil => exact .refl single
  | cons call calls ih =>
    have hfirst : Flows (([call].filter (·.1 == id)).map (·.2)) [] (c.channelsOf id)
        ((c.handle call).channelsOf id) := by
      rw [channelsOf_handle other]
      match h : c.channelsOf id, single with
      | [], _ => exact .closed
      | [ch], _ =>
        have hid : ch.id = id := id_of_mem_channelsOf (h ▸ List.mem_singleton_self ch)
        by_cases hcall : id = call.1
        · exact .opened (by simp [Channel.handle, hid, hcall])
            (by simp [Channel.handle, hid, hcall])
        · exact .opened (by simp [Channel.handle, hid, hcall])
            (by simp [Channel.handle, hid, hcall, Ne.symm hcall])
    have hboth := hfirst.trans (ih hfirst.single)
    rwa [← List.map_append, ← List.filter_append] at hboth

theorem flows_receive (single : (c.channelsOf id).length ≤ 1) (i : SubscriptionId) :
    Flows [] (Action.taken id c (.receive i)) (c.channelsOf id)
      ((c.tryReceive i).2.channelsOf id) := by
  by_cases hi : i = id
  · subst hi
    have hfind : c.channels.find? (·.id == i) = (c.channelsOf i).head? :=
      List.head?_filter.symm
    rw [Action.taken, if_pos rfl, tryReceive, hfind]
    match h : c.channelsOf i, single with
    | [], _ =>
      simp only [List.head?_nil, h]
      exact .closed
    | [⟨j, []⟩], _ =>
      simp only [List.head?_cons, h]
      exact .opened rfl rfl
    | [⟨j, e :: es⟩], _ =>
      have hid : j = i := id_of_mem_channelsOf (c := c) (h ▸ List.mem_singleton_self _)
      simp only [List.head?_cons, channelsOf_setChannel, h, List.map_singleton, hid, if_true]
      exact .opened rfl (List.append_nil _)
  · rw [Action.taken, if_neg hi, tryReceive]
    split
    · have hskip : ∀ ch ∈ c.channelsOf id, ch.id ≠ i := fun ch hch =>
        id_of_mem_channelsOf hch ▸ Ne.symm hi
      rw [channelsOf_setChannel, List.map_congr_left fun ch hch => if_neg (hskip ch hch),
        List.map_id']
      exact .refl single
    · exact .refl single

theorem channels_call (c : Client) (r : Request) : (c.call r).2.channels = c.channels := by
  cases r with
  | perform command =>
    rw [call]
    split
    · next hperform =>
      obtain ⟨conn, windows, rfl⟩ := eq_of_perform hperform
      rfl
    · rfl
  | createWindow options =>
    rw [call, createWindow, createWindowAmid]
    split
    · rfl
    · dsimp only
      split <;> rfl
  | uploadImage width height format data =>
    rw [call, uploadImage]
    split
    · rfl
    · dsimp only
      split <;> rfl
  | query q =>
    rw [call, query]
    split <;> rfl
  | close =>
    rw [call, close]
    split <;> rfl

/-- What the subscription is told goes into its channel, and what the channel gives comes out. -/
theorem flows_next (single : (c.channelsOf id).length ≤ 1) (other : id ≠ evictor)
    (others : ∀ s ∈ a.made c, s.id ≠ id) (kept : c.channelsOf id = [] ∨ a ≠ .dropChannel id) :
    Flows (((c.act a).1.filter (·.1 == id)).map (·.2)) (a.taken id c) (c.channelsOf id)
      ((c.next a).channelsOf id) := by
  have hsame {c' : Client} (h : c'.channelsOf id = c.channelsOf id) :
      Flows [] [] (c.channelsOf id) (c'.channelsOf id) := by
    rw [h]
    exact .refl single
  cases a with
  | emit events => exact flows_handle single other _
  | connect transport =>
    exact flows_handle (c := { c with connections := c.connections ++ [{ transport }] }) single
      other _
  | step line task =>
    rw [next, act, stepAt]
    split
    · exact .refl single
    · split
      · exact .refl single
      · next e _ =>
        exact flows_handle (c := { c with
          connections := c.connections.set line e.connection, dispatcher := e.dispatcher })
          single other _
  | subscribe kind =>
    have hne : (c.on kind).1 ≠ id := others ⟨_, kind⟩ (List.mem_singleton_self _)
    refine hsame ?_
    rw [channelsOf, next, act, subscribe, List.filter_append,
      List.filter_cons_of_neg (by simpa using hne), List.filter_nil, List.append_nil, channelsOf]
  | receive i => exact flows_receive single i
  | dropChannel i =>
    refine hsame ?_
    rw [channelsOf, next, act, dropChannel, List.filter_filter]
    by_cases hi : i = id
    · subst hi
      rw [kept.resolve_right (fun h => h rfl)]
      simp
    · refine List.filter_congr fun ch _ => ?_
      by_cases hch : ch.id = id
      · simp [hch, Ne.symm hi]
      · simp [hch]
  | call request => exact hsame (congrArg (List.filter _) (c.channels_call request))
  | on | unsubscribe | arrive | fault | collect | drop => exact hsame rfl

theorem flows_run (single : (c.channelsOf id).length ≤ 1) (other : id ≠ evictor)
    (others : ∀ s ∈ c.made actions, s.id ≠ id)
    (kept : c.channelsOf id = [] ∨ .dropChannel id ∉ actions) :
    Flows (((c.heard actions).filter (·.1 == id)).map (·.2)) (c.taken id actions)
      (c.channelsOf id) ((c.run actions).channelsOf id) := by
  induction actions generalizing c with
  | nil => exact .refl single
  | cons a actions ih =>
    rw [List.mem_cons, not_or] at kept
    have hfirst := flows_next single other (fun s hs => others s (List.mem_append_left _ hs))
      (kept.imp_right fun h => Ne.symm h.1)
    have hkept : (c.next a).channelsOf id = [] ∨ .dropChannel id ∉ actions := by
      refine kept.imp (fun hnil => ?_) And.right
      rw [hnil] at hfirst
      generalize (c.next a).channelsOf id = l at hfirst ⊢
      cases hfirst
      rfl
    have hboth := hfirst.trans
      (ih hfirst.single (fun s hs => others s (List.mem_append_right _ hs)) hkept)
    rwa [← List.map_append, ← List.filter_append] at hboth

/-- The subscription that `a` makes is told of the events of its kind in `middle`, and of no
others; if it has a channel, that is what comes out of the channel and what is left in it. -/
structure Serves (before : List Action) (a : Action) (middle after : List Action)
    (s : Subscriber) : Prop where
  told : (new.heard (before ++ a :: (middle ++ after))).filter (·.1 == s.id) =
    ((((new.run before).next a).occurred middle).filter (·.kind == s.kind)).map fun e => (s.id, e)
  channel : a = .subscribe s.kind → .dropChannel s.id ∉ middle ++ after →
    ∃ left, (new.run (before ++ a :: (middle ++ after))).channelsOf s.id = [⟨s.id, left⟩] ∧
      ((new.run before).next a).taken s.id (middle ++ after) ++ left =
        (((new.run before).next a).occurred middle).filter (·.kind == s.kind)

theorem made_split (before : List Action) (a : Action) (later : List Action) :
    c.made (before ++ a :: later) =
      c.made before ++ (a.made (c.run before) ++ ((c.run before).next a).made later) :=
  trace_append ..

theorem heard_split (before : List Action) (a : Action) (later : List Action) :
    c.heard (before ++ a :: later) =
      c.heard before ++ (((c.run before).act a).1 ++ ((c.run before).next a).heard later) :=
  trace_append ..

theorem run_split (before : List Action) (a : Action) (later : List Action) :
    c.run (before ++ a :: later) = ((c.run before).next a).run later :=
  List.foldl_append

theorem apart {before later : List Action}
    (few : (new.made (before ++ a :: later)).length < 2 ^ 64)
    (made : a.made (new.run before) = [s]) :
    s.id ≠ evictor ∧ (∀ v ∈ new.made before, v.id ≠ s.id) ∧
      ∀ v ∈ ((new.run before).next a).made later, v.id ≠ s.id := by
  have hnodup := nodup_ids few
  rw [made_split, made, ← List.cons_append, List.map_append, List.map_append, List.map_singleton,
    List.singleton_append, List.nodup_middle, List.nodup_cons, List.mem_append, List.map_cons,
    List.mem_cons, not_or, not_or] at hnodup
  obtain ⟨⟨⟨hown, hbefore⟩, hlater⟩, -⟩ := hnodup
  exact ⟨hown, fun v hv h => hbefore (h ▸ List.mem_map_of_mem hv),
    fun v hv h => hlater (h ▸ List.mem_map_of_mem hv)⟩

theorem heard_of_undone {after : List Action}
    (undone : after = [] ∨ ∃ rest, after = .unsubscribe id :: rest)
    (others : ∀ v ∈ c.made after, v.id ≠ id) : (c.heard after).filter (·.1 == id) = [] := by
  rcases undone with rfl | ⟨rest, rfl⟩
  · rfl
  · exact (heard_of_unheld (c.heldBy_unsubscribe id) others).2

theorem serves {before middle after : List Action}
    (few : (new.made (before ++ a :: (middle ++ after))).length < 2 ^ 64)
    (made : a.made (new.run before) = [s]) (kept : .unsubscribe s.id ∉ middle)
    (undone : after = [] ∨ ∃ rest, after = .unsubscribe s.id :: rest) :
    Serves before a middle after s := by
  obtain ⟨hown, hbefore, hlater⟩ := apart few made
  have hmade : ((new.run before).next a).made (middle ++ after) =
      ((new.run before).next a).made middle ++ (((new.run before).next a).run middle).made after :=
    trace_append ..
  have hheard : ((new.run before).next a).heard (middle ++ after) =
      ((new.run before).next a).heard middle ++
        (((new.run before).next a).run middle).heard after :=
    trace_append ..
  rw [hmade] at hlater
  have hnone : new.heldBy s.id = [] :=
    List.filter_cons_of_neg (fun h => hown (beq_iff_eq.mp h).symm)
  obtain ⟨hunheld, hsilent⟩ := heard_of_unheld hnone hbefore
  obtain ⟨-, htold⟩ := heard_of_held (heldBy_of_made made hunheld) kept fun v hv =>
    hlater v (List.mem_append_left _ hv)
  have hover := heard_of_undone undone fun v hv => hlater v (List.mem_append_right _ hv)
  have hlate : (((new.run before).next a).heard (middle ++ after)).filter (·.1 == s.id) =
      ((((new.run before).next a).occurred middle).filter (·.kind == s.kind)).map
        fun e => (s.id, e) := by
    rw [hheard, List.filter_append, htold, hover, List.append_nil]
  refine ⟨?_, ?_⟩
  · have hact : ((new.run before).act a).1.filter (·.1 == s.id) = [] := by
      rw [calls_act, calls_filter, ← heldBy, hunheld]
      exact List.flatMap_eq_nil_iff.mpr fun _ _ => rfl
    rw [heard_split, List.filter_append, List.filter_append, hsilent, hact, hlate]
    rfl
  · rintro rfl hdrop
    have hunopened : (new.run before).channelsOf s.id = [] := by
      have hflows := flows_run (c := new) (Nat.zero_le 1) hown hbefore (.inl rfl)
      generalize (new.run before).channelsOf s.id = l at hflows ⊢
      cases hflows
      rfl
    have hid : ((new.run before).on s.kind).1 = s.id :=
      congrArg Subscriber.id (List.cons.inj made).1
    have hopened : ((new.run before).next (.subscribe s.kind)).channelsOf s.id = [⟨s.id, []⟩] := by
      rw [channelsOf, next, act, subscribe, List.filter_append, hid, ← channelsOf, hunopened]
      simp
    have hflows := flows_run (hopened ▸ Nat.le_refl 1) hown (hmade ▸ hlater) (.inr hdrop)
    rw [run_split]
    rw [hopened, hlate] at hflows
    generalize (((new.run before).next (.subscribe s.kind)).run (middle ++ after)).channelsOf s.id =
      l at hflows ⊢
    cases hflows with
    | @opened _ ch same order =>
      obtain ⟨j, left⟩ := ch
      cases same
      refine ⟨left, rfl, ?_⟩
      rw [← order, List.nil_append, List.map_map]
      exact List.map_id' _

/-- Callers undo only what they have made, and so never the client's own subscription, whose id
is not among those handed out. -/
theorem own_kept (few : (new.made actions).length < 2 ^ 64)
    (given : ∀ before id after, actions = before ++ .unsubscribe id :: after →
      id ∈ (new.made before).map (·.id)) : .unsubscribe evictor ∉ actions := by
  intro hmem
  obtain ⟨before, after, rfl⟩ := List.append_of_mem hmem
  have hnodup := nodup_ids few
  rw [List.map_cons, List.nodup_cons, made_split, List.map_append, List.mem_append,
    not_or] at hnodup
  exact hnodup.1.1 (given before evictor after rfl)

/-- Over its whole life a client hands out no id twice.  Each subscription is told exactly of the
events of its kind that occur from its making to its undoing, once each and in order, whatever
happens to the others.  Undoing succeeds for what stands and for nothing else, and leaves all
others as they are.  Every event goes to those who stand, in the order in which they came; the
client's own comes first, so whoever is told that a window is gone finds its geometry gone. -/
theorem subscriptions_hear_their_events (actions : List Action)
    (few : (new.made actions).length < 2 ^ 64) :
    let c := new.run actions
    ((own :: new.made actions).map (·.id)).Nodup ∧
    (∀ before a middle after s, actions = before ++ a :: (middle ++ after) →
      a.made (new.run before) = [s] → .unsubscribe s.id ∉ middle →
      (after = [] ∨ ∃ rest, after = .unsubscribe s.id :: rest) → Serves before a middle after s) ∧
    (∀ id, ((c.unsubscribe id).1 = true ↔ ∃ s, Stands actions s ∧ s.id = id) ∧
      (c.unsubscribe id).2.dispatcher.subscribers =
        c.dispatcher.subscribers.filter (·.id != id)) ∧
    (∀ s, s ∈ c.dispatcher.subscribers ↔ Stands actions s) ∧
    c.dispatcher.subscribers.Sublist (own :: new.made actions) ∧
    (∀ a, (c.act a).1 = (a.events c).flatMap fun e =>
      (c.dispatcher.subscribers.filter (·.kind == e.kind)).map fun s => (s.id, e)) ∧
    ((∀ before id after, actions = before ++ .unsubscribe id :: after →
      id ∈ (new.made before).map (·.id)) → .unsubscribe evictor ∉ actions) ∧
    (.unsubscribe evictor ∉ actions → ∀ a earlier id w later,
      (c.act a).1 = earlier ++ (id, .windowDestroyed w) :: later → id ≠ evictor →
      ∀ c', (earlier.foldl handle c').windows.get? w = none) := by
  intro c
  refine ⟨nodup_ids few, ?_, fun id => ⟨?_, rfl⟩, mem_subscribers_run actions,
    sublist_subscribers_run actions, fun a => ?_, own_kept few, ?_⟩
  · rintro before a middle after s rfl made kept undone
    exact serves few made kept undone
  · rw [unsubscribe_eq_true_iff]
    simp only [c, mem_subscribers_run]
  · rw [calls_act, Dispatcher.calls]
    simp only [Dispatcher.listeners, List.map_map]
    rfl
  · intro kept a earlier id w later calls other c'
    obtain ⟨rest, hrest⟩ := own_first kept
    rw [calls_act] at calls
    exact get?_of_evicted (own_called_before hrest calls other) c'

/-- Subscription 2 is undone between two events, and 3 stays.  Then 4 listens for windows that are
gone, and the compositor names one. -/
def twoListeners : List Action := [.on .keybind, .subscribe .keybind, .emit [.keybind 7],
  .unsubscribe 2, .emit [.keybind 8], .on .windowDestroyed, .connect {},
  .arrive 0 (.bytes (Frame.ofMessage (.notice (.windowDestroyed 9)) 0).encode)]

def holding : Client := { new with windows := new.windows.insert 9 ⟨30, 40, 1, 2⟩ }

theorem subscriptions_hear_their_events_twoListeners :
    (new.made twoListeners).length < 2 ^ 64 ∧
    (new.heard twoListeners).filter (·.1 == 2) = [(2, .keybind 7)] ∧
    (new.heard twoListeners).filter (·.1 == 3) = [(3, .keybind 7), (3, .keybind 8)] ∧
    ((new.run twoListeners).act (.step 0 .reader)).1 =
      [(evictor, .windowDestroyed 9), (4, .windowDestroyed 9)] ∧
    holding.windows.get? 9 = some ⟨30, 40, 1, 2⟩ ∧
    ([(evictor, .windowDestroyed 9)].foldl handle holding).windows.get? 9 = none := by
  have hfew : (new.made twoListeners).length < 2 ^ 64 := by decide
  obtain ⟨-, hserves, -, -, -, -, -, hfirst⟩ := subscriptions_hear_their_events twoListeners hfew
  have hundone := hserves [] (.on .keybind) [.subscribe .keybind, .emit [.keybind 7]]
    (.unsubscribe 2 :: twoListeners.drop 4) ⟨2, .keybind⟩ rfl rfl (by simp) (.inr ⟨_, rfl⟩)
  have hkept := hserves [.on .keybind] (.subscribe .keybind) (twoListeners.drop 2) []
    ⟨3, .keybind⟩ rfl rfl (by simp [twoListeners]) (.inl rfl)
  have hcalls : ((new.run twoListeners).act (.step 0 .reader)).1 =
      [(evictor, .windowDestroyed 9), (4, .windowDestroyed 9)] := by decide +kernel
  have hother : evictor ≠ 2 := by decide
  have hgone := hfirst (by simp [twoListeners, hother]) (.step 0 .reader)
    [(evictor, .windowDestroyed 9)] 4 9 [] hcalls (by decide) holding
  exact ⟨hfew, hundone.told.trans rfl, hkept.told.trans rfl, hcalls, rfl, hgone⟩

end Client
end CompositorClient
