import CompositorClient.Client.Events
import CompositorClient.Proofs.Framing
import CompositorClient.Proofs.Intact
import CompositorClient.Proofs.Numbers
import CompositorClient.Proofs.Session

/-! The calls of a client, by what they queue on its current connection.  A connection that
accepts frames takes all of them, in order; one that does not is left as it was. -/

namespace CompositorClient

inductive Request
  | perform (command : Command)
  | createWindow (options : WindowOptions)
  | uploadImage (width height format : UInt32) (data : List UInt8)
  | query (q : Query)
  | close
  deriving DecidableEq

namespace Request

/-- What the call asks the compositor for, if `id` is the id that it has minted. -/
def messages (id : UInt32) : Request → List Message
  | perform command => [.command command]
  | createWindow options => (options.commands id).map .command
  | uploadImage width height format data =>
    [.command (.uploadImage ⟨id, width, height, format, data⟩)]
  | query q => [.query q]
  | close => []

def check : Request → Except ClientError Unit
  | perform command => command.check
  | _ => .ok ()

end Request

def Message.Asked : Message → Prop
  | .command c => c.check = .ok ()
  | .query _ => True
  | .reply _ | .notice _ => False

theorem Message.wellCounted_of_asked {m : Message} (asked : m.Asked)
    (short : m.encode.length < payloadLimit) : m.WellCounted := by
  cases m with
  | command c => exact Command.wellCounted_of_length asked short
  | query => trivial
  | reply | notice => exact asked.elim

theorem Request.asked {r : Request} (checked : r.check = .ok ()) (id : UInt32) :
    ∀ m ∈ r.messages id, m.Asked := by
  intro m hm
  cases r with
  | perform command =>
    rw [List.mem_singleton.mp hm]
    exact checked
  | createWindow options =>
    obtain ⟨c, hc, rfl⟩ := List.mem_map.mp hm
    cases hlayer : options.layer <;>
      simp only [WindowOptions.commands, hlayer, Option.map_none, Option.map_some,
        Option.toList_none, Option.toList_some, List.append_nil, List.cons_append,
        List.nil_append, List.mem_cons, List.not_mem_nil, or_false] at hc <;>
      rcases hc with rfl | rfl | rfl | rfl | rfl | rfl <;> rfl
  | uploadImage =>
    rw [List.mem_singleton.mp hm]
    rfl
  | query =>
    rw [List.mem_singleton.mp hm]
    trivial
  | close => cases hm

def queries (ms : List Message) : Nat := ms.countP fun m => m.expectedReply.isSome

theorem queries_append (ms ns : List Message) : queries (ms ++ ns) = queries ms + queries ns :=
  List.countP_append

/-- One frame for each message, in order.  Frames that expect no answer carry zero, and queries
the numbers from draw `i` on. -/
def stamp (i : Nat) : List Message → List Frame
  | [] => []
  | m :: ms =>
    match m.expectedReply with
    | none => Frame.ofMessage m 0 :: stamp i ms
    | some _ => Frame.ofMessage m (Sequence.nth i) :: stamp (i + 1) ms

theorem stamp_append (i : Nat) (ms ns : List Message) :
    stamp i (ms ++ ns) = stamp i ms ++ stamp (i + queries ms) ns := by
  induction ms generalizing i with
  | nil => rfl
  | cons m ms ih =>
    cases hm : m.expectedReply with
    | none => simp [stamp, queries, hm, ih]
    | some kind => simp [stamp, queries, hm, ih, Nat.add_assoc, Nat.add_comm 1]

theorem exists_of_mem_stamp {i : Nat} {ms : List Message} {f : Frame} (h : f ∈ stamp i ms) :
    ∃ m ∈ ms, ∃ sequence, f = Frame.ofMessage m sequence := by
  induction ms generalizing i with
  | nil => cases h
  | cons m ms ih =>
    have hrest {j : Nat} (hf : f ∈ stamp j ms) :
        ∃ n ∈ m :: ms, ∃ sequence, f = Frame.ofMessage n sequence := by
      obtain ⟨n, hn, hof⟩ := ih hf
      exact ⟨n, List.mem_cons_of_mem _ hn, hof⟩
    rw [stamp] at h
    split at h
    · rcases List.mem_cons.mp h with rfl | h
      · exact ⟨m, List.mem_cons_self, 0, rfl⟩
      · exact hrest h
    · rcases List.mem_cons.mp h with rfl | h
      · exact ⟨m, List.mem_cons_self, Sequence.nth i, rfl⟩
      · exact hrest h

theorem map_message_stamp {i : Nat} {ms : List Message} (h : ∀ m ∈ ms, m.WellCounted) :
    (stamp i ms).map Frame.message =
      ms.map fun m => .ok (m.mapTexts Padded.stored Padded.terminated) := by
  induction ms generalizing i with
  | nil => rfl
  | cons m ms ih =>
    obtain ⟨hm, hms⟩ := List.forall_mem_cons.mp h
    rw [stamp]
    split <;> rw [List.map_cons, List.map_cons, Frame.message_ofMessage hm, ih hms]

theorem map_message_of_stamp {ms : List Message} {fs gs : List Frame}
    (h : ∀ m ∈ ms, m.WellCounted) (hstamp : stamp 0 ms = fs ++ gs) :
    fs.map Frame.message = (ms.take fs.length).map
      fun m => .ok (m.mapTexts Padded.stored Padded.terminated) := by
  have htake := congrArg (List.take fs.length) (map_message_stamp (i := 0) h)
  rw [hstamp, List.map_append, List.take_left' (List.length_map Frame.message)] at htake
  rw [List.map_take]
  exact htake

def Frame.outbound (f : Frame) : Outbound := .frame f.encode

namespace Connection

variable {c : Connection}

def Accepting (c : Connection) : Prop := c.closed = false ∧ c.writer ≠ .stopped

def enlist (c : Connection) (fs : List Frame) : Connection :=
  { c with outbox := c.outbox ++ fs.map Frame.outbound }

theorem enlist_nil (c : Connection) : c.enlist [] = c := by
  simp [enlist]

theorem enlist_append (c : Connection) (fs gs : List Frame) :
    c.enlist (fs ++ gs) = (c.enlist fs).enlist gs := by
  simp [enlist]

theorem push_of_accepting (h : c.Accepting) (f : Frame) :
    c.push (.frame f.encode) = c.enlist [f] :=
  if_neg h.2

theorem enqueue_of_accepting (h : c.Accepting) (f : Frame) :
    c.enqueue f.encode = .ok (c.enlist [f]) := by
  rw [enqueue, if_neg (by simp [h.1]), if_neg h.2, push_of_accepting h]

theorem enqueue_of_not_accepting (h : ¬ c.Accepting) (bytes : List UInt8) :
    c.enqueue bytes = .error .connectionClosed := by
  rw [enqueue]
  split
  · rfl
  · next hopen =>
    rw [if_pos]
    by_contra hrunning
    exact h ⟨Bool.not_eq_true _ ▸ hopen, hrunning⟩

theorem sendEach_of_accepting (h : c.Accepting) (i : Nat) (cs : List Command) :
    c.sendEach (fun _ conn => conn) i cs =
      (.ok (), c.enlist (cs.map fun m => Frame.ofMessage (.command m) 0)) := by
  induction cs generalizing c i with
  | nil => rw [sendEach, List.map_nil, enlist_nil]
  | cons m ms ih =>
    rw [sendEach, send, enqueue_of_accepting h]
    dsimp only
    rw [ih (c := c.enlist [_]) h, ← enlist_append]
    rfl

theorem sendEach_of_not_accepting (h : ¬ c.Accepting) (i : Nat) {cs : List Command}
    (some : cs ≠ []) :
    c.sendEach (fun _ conn => conn) i cs = (.error .connectionClosed, c) := by
  cases cs with
  | nil => exact absurd rfl some
  | cons m ms => rw [sendEach, send, enqueue_of_not_accepting h]

@[simp] theorem expect_query (c : Connection) (q : Query) :
    c.expect (.query q) = if c.closed then .error .connectionClosed else .ok q.answer := rfl

theorem expect_of_accepting (h : c.Accepting) (q : Query) :
    c.expect (.query q) = .ok q.answer := by
  simp [h.1]

theorem query_of_accepting (h : c.Accepting) (d : Dispatcher) (q : Query) :
    (c.query d (.query q)).1 = .ok (d.register q.answer c.sequence.next.1).1 ∧
      (c.query d (.query q)).2.1 =
        { c with sequence := c.sequence.next.2 }.enlist
          [Frame.ofMessage (.query q) c.sequence.next.1] := by
  have hdrawn : { c with sequence := c.sequence.next.2 }.Accepting := h
  rw [query, expect_of_accepting h]
  dsimp only [enroll, submit]
  rw [enqueue_of_accepting hdrawn]
  exact ⟨rfl, rfl⟩

/-- A query that is turned away may have used a number up. -/
theorem query_of_not_accepting (h : ¬ c.Accepting) (d : Dispatcher) (q : Query) :
    (c.query d (.query q)).1 = .error .connectionClosed ∧
      ∃ sequence, (c.query d (.query q)).2.1 = { c with sequence } ∧
        (c.closed = true → sequence = c.sequence) := by
  by_cases hclosed : c.closed = true
  · rw [query_of_closed hclosed]
    exact ⟨rfl, c.sequence, rfl, fun _ => rfl⟩
  · have hexpect : c.expect (.query q) = .ok q.answer := by simp [hclosed]
    have hdrawn : ¬ { c with sequence := c.sequence.next.2 }.Accepting := h
    rw [query, hexpect]
    dsimp only [enroll, submit]
    rw [enqueue_of_not_accepting hdrawn]
    exact ⟨rfl, c.sequence.next.2, rfl, fun hc => absurd hc hclosed⟩

end Connection

namespace Client

variable {c : Client} {conn : Connection}

/-- The id that the call mints, or zero, and what becomes of the client. -/
def call (c : Client) : Request → Except ClientError UInt32 × Client
  | .perform command =>
    match c.perform command with
    | .ok c => (.ok 0, c)
    | .error e => (.error e, c)
  | .createWindow options => c.createWindow options
  | .uploadImage width height format data => c.uploadImage width height format data
  | .query q => ((c.query q).1.map fun _ => 0, (c.query q).2)
  | .close => (.ok 0, c.close)

@[simp] theorem current?_setCurrent (c : Client) (conn : Connection) :
    (c.setCurrent conn).current? = some conn := List.getLast?_concat

theorem setCurrent_of_current (h : c.current? = some conn) : c.setCurrent conn = c := by
  obtain ⟨older, hconns⟩ := List.getLast?_eq_some_iff.mp h
  rw [setCurrent, hconns, List.dropLast_concat, ← hconns]

@[simp] theorem setCurrent_setCurrent (c : Client) (conn conn' : Connection) :
    (c.setCurrent conn).setCurrent conn' = c.setCurrent conn' := by
  simp [setCurrent]

theorem call_of_check {r : Request} {e : ClientError} (failed : r.check = .error e) :
    c.call r = (.error e, c) := by
  cases r with
  | perform command =>
    rw [Request.check] at failed
    rw [call, perform, failed]
  | createWindow | uploadImage | query | close => cases failed

theorem call_close (current : c.current? = some conn) :
    c.call .close = (.ok 0, c.setCurrent conn.close) := by
  rw [call, close, current]

theorem call_of_not_accepting (current : c.current? = some conn) (refuses : ¬ conn.Accepting)
    {r : Request} (checked : r.check = .ok ()) (other : r ≠ .close) :
    (c.call r).1 = .error .connectionClosed ∧
      ∃ sequence, (c.call r).2.current? = some { conn with sequence } ∧
        (conn.closed = true → sequence = conn.sequence) := by
  cases r with
  | perform command =>
    rw [Request.check] at checked
    have hperform : c.perform command = .error .connectionClosed := by
      rw [perform, checked, send, current]
      dsimp only
      rw [Connection.send, Connection.enqueue_of_not_accepting refuses]
      rfl
    rw [call, hperform]
    exact ⟨rfl, conn.sequence, current, fun _ => rfl⟩
  | createWindow options =>
    rw [call, createWindow, createWindowAmid, current]
    dsimp only
    rw [Connection.sendEach_of_not_accepting refuses 0 (by simp [WindowOptions.commands])]
    exact ⟨rfl, conn.sequence, current?_setCurrent .., fun _ => rfl⟩
  | uploadImage width height format data =>
    rw [call, uploadImage, current]
    dsimp only
    rw [Connection.send, Connection.enqueue_of_not_accepting refuses]
    exact ⟨rfl, conn.sequence, current, fun _ => rfl⟩
  | query q =>
    obtain ⟨hresult, sequence, hconn, hsame⟩ :=
      Connection.query_of_not_accepting refuses c.dispatcher q
    rw [call, query, current]
    dsimp only
    rw [hresult, current?_setCurrent, hconn]
    exact ⟨rfl, sequence, rfl, hsame⟩
  | close => exact absurd rfl other

/-- A closed connection stays as it is, whatever is called. -/
theorem call_of_closed (current : c.current? = some conn) (closed : conn.closed = true)
    (r : Request) :
    (c.call r).2.current? = some conn ∧
      (r.check = .ok () → r ≠ .close → (c.call r).1 = .error .connectionClosed) := by
  have refuses : ¬ conn.Accepting := fun h => absurd h.1 (by simp [closed])
  by_cases hclose : r = .close
  · subst hclose
    rw [call_close current, Connection.close, if_pos closed]
    exact ⟨current?_setCurrent .., fun _ other => absurd rfl other⟩
  · cases hcheck : r.check with
    | error e =>
      rw [call_of_check hcheck]
      exact ⟨current, fun checked => by cases checked⟩
    | ok =>
      obtain ⟨hresult, sequence, hcurrent, hsame⟩ :=
        call_of_not_accepting current refuses hcheck hclose
      rw [hsame closed] at hcurrent
      exact ⟨hcurrent, fun _ _ => hresult⟩

end Client
end CompositorClient
