import CompositorClient.Proofs.Outbound

/-! Making a window while others use the connection.  Its commands are queued one by one, and the
connection may be closed before any of them; what has been queued by then stays queued, and the
window enters the table only when nothing is missing. -/

namespace CompositorClient

namespace Connection

def command (m : Command) : Frame := Frame.ofMessage (.command m) 0

/-- Each of the commands, in order, has found the connection accepting when its turn came, and
has been put at the end of the queue as others had left it. -/
inductive Queued (disturb : Nat → Connection → Connection) :
    Nat → Connection → List Command → Connection → Prop
  | nil {i c} : Queued disturb i c [] c
  | cons {i c m sent last} (accepting : (disturb i c).Accepting)
      (rest : Queued disturb (i + 1) ((disturb i c).enlist [command m]) sent last) :
    Queued disturb i c (m :: sent) last

variable {disturb : Nat → Connection → Connection} {i k : Nat} {c last : Connection}
  {sent rest cs : List Command}

theorem sendEach_cases (disturb : Nat → Connection → Connection) (i : Nat) (c : Connection)
    (cs : List Command) :
    ∃ sent rest last, cs = sent ++ rest ∧ Queued disturb i c sent last ∧
      (rest = [] ∧ c.sendEach disturb i cs = (.ok (), last) ∨
        rest ≠ [] ∧ ¬ (disturb (i + sent.length) last).Accepting ∧
          c.sendEach disturb i cs =
            (.error .connectionClosed, disturb (i + sent.length) last)) := by
  induction cs generalizing c i with
  | nil => exact ⟨[], [], c, rfl, .nil, .inl ⟨rfl, rfl⟩⟩
  | cons m ms ih =>
    by_cases accepting : (disturb i c).Accepting
    · obtain ⟨sent, rest, last, rfl, queued, outcome⟩ :=
        ih (i + 1) ((disturb i c).enlist [command m])
      have hstep : c.sendEach disturb i (m :: (sent ++ rest)) =
          ((disturb i c).enlist [command m]).sendEach disturb (i + 1) (sent ++ rest) := by
        rw [sendEach, send, enqueue_of_accepting accepting]
        rfl
      have hindex : i + (m :: sent).length = i + 1 + sent.length := by
        rw [List.length_cons]
        omega
      refine ⟨m :: sent, rest, last, rfl, .cons accepting queued, ?_⟩
      rw [hstep, hindex]
      exact outcome
    · refine ⟨[], m :: ms, c, rfl, .nil, .inr ⟨by simp, accepting, ?_⟩⟩
      rw [sendEach, send, enqueue_of_not_accepting accepting]
      rfl

def frames (c : Connection) : List Outbound := c.outbox.filter (· ≠ .shutdown)

theorem frames_enlist (c : Connection) (fs : List Frame) :
    (c.enlist fs).frames = c.frames ++ fs.map Frame.outbound := by
  rw [frames, enlist, List.filter_append, frames]
  refine congrArg _ (List.filter_eq_self.mpr fun item hitem => ?_)
  obtain ⟨f, -, rfl⟩ := List.mem_map.mp hitem
  rfl

/-- If others put no frames into the queue and take none from it, the commands stand there
without a gap. -/
theorem Queued.frames_eq (queued : Queued disturb i c sent last)
    (keeps : ∀ j conn, (disturb j conn).frames = conn.frames) :
    last.frames = c.frames ++ sent.map fun m => (command m).outbound := by
  induction queued with
  | nil => simp
  | cons _ _ ih =>
    rw [ih, frames_enlist, keeps]
    simp

theorem Queued.length_le (queued : Queued disturb i c sent last) (le : i ≤ k)
    (refuses : ∀ conn, ¬ (disturb k conn).Accepting) : i + sent.length ≤ k := by
  induction queued with
  | nil => exact le
  | @cons i c m sent last accepting _ ih =>
    have hne : i ≠ k := fun h => refuses c (h ▸ accepting)
    have hle := ih (by omega)
    rw [List.length_cons]
    omega

theorem Queued.accepting (queued : Queued disturb i c sent last) (open_ : c.Accepting) :
    last.Accepting := by
  induction queued with
  | nil => exact open_
  | cons accepting _ ih => exact ih accepting

end Connection

theorem WindowTable.following_ne (id : WindowId) : following id ≠ id := by
  rw [following]
  split
  · next h =>
    rintro rfl
    exact absurd h (by decide)
  · intro h
    have hnat := congrArg UInt32.toNat h
    rw [UInt32.toNat_add, UInt32.toNat_one] at hnat
    have hlt := id.toNat_lt
    omega

namespace Client

open Connection

variable {disturb : Nat → Connection → Connection} {c : Client} {o : WindowOptions}

/-- What making a window comes to: of its commands `sent` have been queued and `rest` have not,
and `last` is the connection after the last one that has. -/
structure Creation (disturb : Nat → Connection → Connection) (c : Client) (conn : Connection)
    (o : WindowOptions) (sent rest : List Command) (last : Connection) : Prop where
  commands : o.commands c.windows.allocate.1 = sent ++ rest
  queued : conn.Queued disturb 0 sent last
  outcome :
    rest = [] ∧ c.createWindowAmid disturb o = (.ok c.windows.allocate.1,
      { c with windows := c.windows.allocate.2.insert c.windows.allocate.1 o.geometry }.setCurrent
        last) ∨
    rest ≠ [] ∧ ¬ (disturb sent.length last).Accepting ∧
      c.createWindowAmid disturb o = (.error .connectionClosed,
        { c with windows := c.windows.allocate.2 }.setCurrent (disturb sent.length last))

theorem creation {conn : Connection} (current : c.current? = some conn)
    (disturb : Nat → Connection → Connection) (o : WindowOptions) :
    ∃ sent rest last, Creation disturb c conn o sent rest last := by
  obtain ⟨sent, rest, last, commands, queued, outcome⟩ :=
    conn.sendEach_cases disturb 0 (o.commands c.windows.allocate.1)
  rw [Nat.zero_add] at outcome
  refine ⟨sent, rest, last, commands, queued, outcome.imp ?_ ?_⟩
  · rintro ⟨hnil, hsent⟩
    rw [createWindowAmid, current]
    dsimp only
    rw [hsent]
    exact ⟨hnil, rfl⟩
  · rintro ⟨hne, refused, hsent⟩
    rw [createWindowAmid, current]
    dsimp only
    rw [hsent]
    exact ⟨hne, refused, rfl⟩

namespace Creation

variable {conn last : Connection} {sent rest : List Command}

theorem result (h : Creation disturb c conn o sent rest last) :
    ((c.createWindowAmid disturb o).1 = .ok c.windows.allocate.1 ↔ rest = []) ∧
      ((c.createWindowAmid disturb o).1 = .error .connectionClosed ↔ rest ≠ []) := by
  rcases h.outcome with ⟨hnil, hcall⟩ | ⟨hne, -, hcall⟩
  · simp [hcall, hnil]
  · simp [hcall, hne]

theorem get?_windows (h : Creation disturb c conn o sent rest last) (id : WindowId) :
    (c.createWindowAmid disturb o).2.windows.get? id =
      if rest = [] ∧ id = c.windows.allocate.1 then some o.geometry else c.windows.get? id := by
  rcases h.outcome with ⟨hnil, hcall⟩ | ⟨hne, -, hcall⟩
  · rw [hcall]
    by_cases hid : id = c.windows.allocate.1
    · rw [if_pos ⟨hnil, hid⟩, hid]
      exact WindowTable.get?_insert_self ..
    · rw [if_neg fun hboth => hid hboth.2]
      exact WindowTable.get?_insert_of_ne _ hid _
  · rw [hcall, if_neg fun hboth => hne hboth.1]
    rfl

theorem next_id (h : Creation disturb c conn o sent rest last) :
    (c.createWindowAmid disturb o).2.windows.allocate.1 =
      WindowTable.following c.windows.allocate.1 := by
  rcases h.outcome with ⟨-, hcall⟩ | ⟨-, -, hcall⟩ <;> rw [hcall] <;> rfl

theorem frames (h : Creation disturb c conn o sent rest last)
    (keeps : ∀ j conn, (disturb j conn).frames = conn.frames) :
    ∃ after, (c.createWindowAmid disturb o).2.current? = some after ∧
      after.frames = conn.frames ++ sent.map fun m => (command m).outbound := by
  have hframes := h.queued.frames_eq keeps
  rcases h.outcome with ⟨-, hcall⟩ | ⟨-, -, hcall⟩
  · rw [hcall]
    exact ⟨last, current?_setCurrent .., hframes⟩
  · rw [hcall]
    exact ⟨_, current?_setCurrent .., (keeps ..).trans hframes⟩

/-- If others let the connection be up to the command at `k`, and close it there, exactly the
commands before that one are queued. -/
theorem sent_eq_take (h : Creation disturb c conn o sent rest last) (accepting : conn.Accepting)
    {k : Nat} (open_ : ∀ j conn, j < k → conn.Accepting → (disturb j conn).Accepting)
    (refuses : ∀ conn, ¬ (disturb k conn).Accepting) :
    sent = (o.commands c.windows.allocate.1).take k := by
  have hle := h.queued.length_le (Nat.zero_le k) refuses
  rw [Nat.zero_add] at hle
  rw [h.commands]
  rcases h.outcome with ⟨hnil, -⟩ | ⟨-, refused, -⟩
  · rw [hnil, List.append_nil, List.take_of_length_le hle]
  · have hge : k ≤ sent.length := by
      by_contra hlt
      exact refused (open_ _ _ (Nat.lt_of_not_le hlt) (h.queued.accepting accepting))
    rw [List.take_left' (Nat.le_antisymm hle hge)]

theorem sent_of_refused (h : Creation disturb c conn o sent rest last)
    (refused : ¬ (disturb 0 conn).Accepting) : sent = [] := by
  cases h.queued with
  | nil => rfl
  | cons accepting => exact absurd accepting refused

end Creation

theorem eq_of_createWindowAmid {id : WindowId} (h : (c.createWindowAmid disturb o).1 = .ok id) :
    id = c.windows.allocate.1 := by
  cases hcurrent : c.current? with
  | none =>
    rw [createWindowAmid, hcurrent] at h
    cases h
  | some conn =>
    obtain ⟨sent, rest, last, made⟩ := creation hcurrent disturb o
    rcases made.outcome with ⟨-, hcall⟩ | ⟨-, -, hcall⟩
    · rw [hcall] at h
      cases h
      rfl
    · rw [hcall] at h
      cases h

/-- Making a window, wherever others close the connection meanwhile, or whatever else they do to
it.  Without a connection nothing happens.  On a connection the first of the commands for a new id
are queued, and the rest are not: the call returns the id and the table gets the window if there
is no rest, and else the call says that the connection is closed and the table has what it had.
The id is used up in any case. -/
theorem createWindow_fails_cleanly (disturb : Nat → Connection → Connection) (c : Client)
    (o : WindowOptions) :
    (c.current? = none → c.createWindowAmid disturb o = (.error .notConnected, c)) ∧
    ∀ conn, c.current? = some conn →
      ∃ sent rest last, Creation disturb c conn o sent rest last ∧
        let r := c.createWindowAmid disturb o
        let id := c.windows.allocate.1
        (r.1 = .ok id ↔ rest = []) ∧
        (r.1 = .error .connectionClosed ↔ rest ≠ []) ∧
        (∀ j, r.2.windows.get? j =
          if rest = [] ∧ j = id then some o.geometry else c.windows.get? j) ∧
        (∀ disturb' o' id', (r.2.createWindowAmid disturb' o').1 = .ok id' → id' ≠ id) ∧
        ((∀ j conn, (disturb j conn).frames = conn.frames) → ∃ after,
          r.2.current? = some after ∧
          after.frames = conn.frames ++ sent.map fun m => (command m).outbound) ∧
        (∀ k, conn.Accepting →
          (∀ j conn, j < k → conn.Accepting → (disturb j conn).Accepting) →
          (∀ conn, ¬ (disturb k conn).Accepting) → sent = (o.commands id).take k) ∧
        (¬ (disturb 0 conn).Accepting → sent = []) := by
  refine ⟨fun absent => ?_, fun conn current => ?_⟩
  · rw [createWindowAmid, absent]
  · obtain ⟨sent, rest, last, h⟩ := creation current disturb o
    refine ⟨sent, rest, last, h, h.result.1, h.result.2, h.get?_windows, ?_, h.frames,
      fun k accepting open_ refuses => h.sent_eq_take accepting open_ refuses, h.sent_of_refused⟩
    intro disturb' o' id' hok
    rw [eq_of_createWindowAmid hok, h.next_id]
    exact WindowTable.following_ne _

def closingAt (k j : Nat) (conn : Connection) : Connection :=
  if j = k then conn.close else conn

theorem frames_closingAt (k j : Nat) (conn : Connection) :
    (closingAt k j conn).frames = conn.frames := by
  unfold closingAt Connection.close push Connection.frames
  split
  · split
    · rfl
    · split <;> simp
  · rfl

theorem not_accepting_closingAt (k : Nat) (conn : Connection) :
    ¬ (closingAt k k conn).Accepting := by
  rw [closingAt, if_pos rfl]
  exact fun h => absurd h.1 (by simp [closed_close])

/-- The commands before that one are queued, and all of them if there are no more. -/
theorem createWindow_closingAt {conn : Connection} (current : c.current? = some conn)
    (accepting : conn.Accepting) (k : Nat) (o : WindowOptions) :
    let commands := o.commands c.windows.allocate.1
    let r := c.createWindowAmid (closingAt k) o
    r.1 = (if commands.length ≤ k then .ok c.windows.allocate.1 else .error .connectionClosed) ∧
      ∃ after, r.2.current? = some after ∧
        after.frames = conn.frames ++ (commands.take k).map fun m => (command m).outbound := by
  intro commands r
  obtain ⟨sent, rest, last, h⟩ := creation current (closingAt k) o
  have hsent : sent = commands.take k := by
    refine h.sent_eq_take accepting (fun j conn hlt haccepting => ?_) (not_accepting_closingAt k)
    rw [closingAt, if_neg (Nat.ne_of_lt hlt)]
    exact haccepting
  have hrest : rest = commands.drop k := by
    have hcommands := h.commands
    rw [hsent] at hcommands
    exact (List.append_cancel_left ((List.take_append_drop k commands).trans hcommands)).symm
  refine ⟨?_, hsent ▸ h.frames (frames_closingAt k)⟩
  split
  · next hle => exact h.result.1.mpr (hrest.trans (List.drop_eq_nil_of_le hle))
  · next hlt =>
    refine h.result.2.mpr fun hnil => hlt ?_
    rw [hrest] at hnil
    exact List.drop_eq_nil_iff.mp hnil

end Client
end CompositorClient
