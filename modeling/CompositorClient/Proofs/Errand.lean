import CompositorClient.Proofs.Outbound
import CompositorClient.Proofs.Withdrawal

/-! The calls of a client step by step, as the tasks may take steps in between.  A command is queued
after a look at whether the connection is open; one call may queue several. -/

namespace CompositorClient

/-- Where a call stands: it looks whether the first of its commands can be queued, or has looked and
queues the command next, or takes the steps of a query, or puts the marker of a `close`. -/
inductive Standing
  | sending (left : List Command)
  | passed (m : Command) (left : List Command)
  | asking (q : Query) (phase : Phase)
  | closing
  | returned (result : Except ClientError UInt32)

/-- A call with the id that it has minted, or zero, and what it has queued so far. -/
structure Errand where
  request : Request
  id : UInt32 := 0
  queued : List Message := []
  standing : Standing

namespace Client

def enter (c : Client) (r : Request) : Errand × Client :=
  match r.check with
  | .error e => ({ request := r, standing := .returned (.error e) }, c)
  | .ok () =>
    match c.current? with
    | none =>
      ({ request := r, standing := .returned (if r = .close then .ok 0 else .error .notConnected) },
        c)
    | some conn =>
      match r with
      | .perform command => ({ request := r, standing := .sending [command] }, c)
      | .createWindow o =>
        let (id, windows) := c.windows.allocate
        ({ request := r, id, standing := .sending (o.commands id) }, { c with windows })
      | .uploadImage width height format data =>
        let id := c.nextImage
        let command := .uploadImage ⟨id, width, height, format, data⟩
        ({ request := r, id, standing := .sending [command] }, { c with nextImage := id + 1 })
      | .query q => ({ request := r, standing := .asking q .entered }, c)
      | .close =>
        if conn.closed then ({ request := r, standing := .returned (.ok 0) }, c)
        else ({ request := r, standing := .closing }, c.setCurrent { conn with closed := true })

def finish (c : Client) (id : UInt32) : Request → Client
  | .perform command => { c with windows := c.windows.record command }
  | .createWindow o => { c with windows := c.windows.insert id o.geometry }
  | .uploadImage .. | .query _ | .close => c

end Client

def Standing.asked (q : Query) : Phase → Standing
  | .returned _ result => .returned (result.map fun _ => 0)
  | phase => .asking q phase

/-- What the next step of the call queues, where the call stands then, and the client. -/
def Errand.proceed (x : Errand) (conn : Connection) (c : Client) :
    List Message × Standing × Client :=
  match x.standing with
  | .sending [] => ([], .returned (.ok x.id), c.finish x.id x.request)
  | .sending (m :: left) =>
    ([], if conn.closed then .returned (.error .connectionClosed) else .passed m left, c)
  | .passed m left =>
    if conn.writer = .stopped then ([], .returned (.error .connectionClosed), c)
    else
      ([.command m], .sending left,
        c.setCurrent (conn.push (.frame (Frame.ofMessage (.command m) 0).encode)))
  | .asking q phase =>
    let a := Attempt.proceed (.query q) ⟨conn, c.dispatcher, phase⟩
    let taken := match a.phase with
      | .returned _ (.ok _) => [.query q]
      | _ => []
    (taken, .asked q a.phase, { c with dispatcher := a.dispatcher }.setCurrent a.connection)
  | .closing => ([], .returned (.ok 0), c.setCurrent (conn.push .shutdown))
  | .returned _ => ([], x.standing, c)

namespace Standing

def held? : Standing → Option UInt32
  | asking _ (.drawn _ n) | asking _ (.registered _ n) | asking _ (.rechecked _ n) => some n
  | _ => none

def rank : Standing → Nat
  | sending left => 2 * left.length + 1
  | passed _ left => 2 * left.length + 2
  | asking _ phase => phase.rank + 1
  | closing => 1
  | returned _ => 0

theorem rank_asked_le (q : Query) {phase : Phase} {n : Nat} (h : phase.rank ≤ n - 1) :
    (asked q phase).rank ≤ n := by
  cases phase <;> simp [asked, rank, Phase.rank] at h ⊢ <;> omega

theorem returned_of_rank {p : Standing} (h : p.rank = 0) : ∃ result, p = .returned result := by
  cases p with
  | returned result => exact ⟨result, rfl⟩
  | sending | passed | asking | closing => simp [rank] at h

end Standing

namespace Errand

variable {x y : Errand} {conn conn' : Connection} {c : Client} {r : Request} {sent : List Message}

theorem rank_proceed (x : Errand) (conn : Connection) (c : Client) :
    (x.proceed conn c).2.1.rank ≤ x.standing.rank - 1 := by
  obtain ⟨r, id, queued, standing⟩ := x
  cases standing with
  | sending left =>
    cases left with
    | nil => simp [proceed, Standing.rank]
    | cons m left =>
      simp only [proceed]
      split <;> simp [Standing.rank]
      omega
  | passed m left =>
    simp only [proceed]
    split <;> simp [Standing.rank]
  | asking q phase =>
    exact Standing.rank_asked_le q (Attempt.rank_proceed (.query q) ⟨conn, c.dispatcher, phase⟩)
  | closing | returned => simp [proceed, Standing.rank]

/-- What a call has come to: it has failed its check, or was turned away when part of what it had to
queue was queued, or has queued all of it. -/
inductive Returned (gone : Prop) : Errand → Prop
  | invalid {r e} (failed : r.check = .error e) : Returned gone ⟨r, 0, [], .returned (.error e)⟩
  | turnedAway {r id queued rest} (checked : r.check = .ok ())
      (messages : r.messages id = queued ++ rest) (some : rest ≠ []) (ended : gone) :
    Returned gone ⟨r, id, queued, .returned (.error .connectionClosed)⟩
  | taken {r id} (checked : r.check = .ok ()) :
    Returned gone ⟨r, id, r.messages id, .returned (.ok id)⟩

/-- What holds of a call at every moment.  One that has found the connection open and queues next is
overtaken by nothing but a reader that leaves. -/
inductive Sound (conn : Connection) : Errand → Prop
  | sending {r id queued left} (checked : r.check = .ok ())
      (messages : r.messages id = queued ++ left.map .command) :
    Sound conn ⟨r, id, queued, .sending left⟩
  | passed {r id queued m left} (checked : r.check = .ok ())
      (messages : r.messages id = queued ++ .command m :: left.map .command)
      (open_ : conn.leaving = false → conn.closed = false) :
    Sound conn ⟨r, id, queued, .passed m left⟩
  | entered {q} : Sound conn ⟨.query q, 0, [], .asking q .entered⟩
  | checked {q} : Sound conn ⟨.query q, 0, [], .asking q (.checked q.answer)⟩
  | drawn {q n} : Sound conn ⟨.query q, 0, [], .asking q (.drawn q.answer n)⟩
  | registered {q ticket n} : Sound conn ⟨.query q, 0, [], .asking q (.registered ticket n)⟩
  | rechecked {q ticket n} (open_ : conn.leaving = false → conn.closed = false) :
    Sound conn ⟨.query q, 0, [], .asking q (.rechecked ticket n)⟩
  | refused {q ticket} (ended : conn.Ended) :
    Sound conn ⟨.query q, 0, [], .asking q (.refused ticket)⟩
  | closing (closed : conn.closed = true) : Sound conn ⟨.close, 0, [], .closing⟩
  | returned {x : Errand} (h : Returned conn.Ended x) : Sound conn x

/-- A call after `close` queues nothing and is turned away, unless it is `close` again. -/
inductive Barred : Errand → Prop
  | sending {r id m left} : Barred ⟨r, id, [], .sending (m :: left)⟩
  | entered {q} : Barred ⟨.query q, 0, [], .asking q .entered⟩
  | failed {r id e} : Barred ⟨r, id, [], .returned (.error e)⟩
  | again : Barred ⟨.close, 0, [], .returned (.ok 0)⟩

theorem Returned.query {q : Query} {gone : Prop} (ended : gone) :
    Returned gone ⟨.query q, 0, [], .returned (.error .connectionClosed)⟩ :=
  .turnedAway rfl (List.nil_append [Message.query q]).symm (by simp) ended

theorem Returned.mono {p p' : Prop} (h : Returned p x) (imp : p → p') : Returned p' x := by
  cases h with
  | invalid failed => exact .invalid failed
  | turnedAway checked messages some ended => exact .turnedAway checked messages some (imp ended)
  | taken checked => exact .taken checked

theorem Returned.eq_of_invalid {gone : Prop} (h : Returned gone x) {e : ClientError}
    (failed : x.request.check = .error e) : x = ⟨x.request, 0, [], .returned (.error e)⟩ := by
  cases h with
  | invalid failed' =>
    cases failed'.symm.trans failed
    rfl
  | turnedAway checked | taken checked => cases checked.symm.trans failed

theorem Sound.eq_of_invalid (h : Sound conn x) {e : ClientError}
    (failed : x.request.check = .error e) : x = ⟨x.request, 0, [], .returned (.error e)⟩ := by
  cases h with
  | sending checked | passed checked => cases checked.symm.trans failed
  | entered | checked | drawn | registered | rechecked | refused | closing => cases failed
  | returned h => exact h.eq_of_invalid failed

theorem Sound.later (h : Sound conn x) (later : conn.Later conn') : Sound conn' x := by
  cases h with
  | sending checked messages => exact .sending checked messages
  | passed checked messages open_ => exact .passed checked messages (later.open_ open_)
  | entered => exact .entered
  | checked => exact .checked
  | drawn => exact .drawn
  | registered => exact .registered
  | rechecked open_ => exact .rechecked (later.open_ open_)
  | refused ended => exact .refused (later.ended ended)
  | closing closed => exact .closing (later.closed closed)
  | returned h => exact .returned (h.mono later.ended)

theorem Sound.returned_of_rank (h : Sound conn x) (rank : x.standing.rank = 0) :
    Returned conn.Ended x := by
  cases h with
  | returned h => exact h
  | sending | passed | entered | checked | drawn | registered | rechecked | refused | closing =>
    simp [Standing.rank] at rank

/-- What a call has queued is the first part of what it is for. -/
theorem Sound.queued (h : Sound conn x) :
    x.queued = [] ∨ x.request.check = .ok () ∧ x.queued <+: x.request.messages x.id := by
  cases h with
  | sending checked messages | passed checked messages => exact .inr ⟨checked, _, messages.symm⟩
  | entered | checked | drawn | registered | rechecked | refused | closing => exact .inl rfl
  | returned h =>
    cases h with
    | invalid => exact .inl rfl
    | turnedAway checked messages => exact .inr ⟨checked, _, messages.symm⟩
    | taken checked => exact .inr ⟨checked, List.prefix_rfl⟩

theorem Sound.asked (h : Sound conn x) : ∀ m ∈ x.queued, m.Asked := by
  intro m hm
  rcases h.queued with hnil | ⟨checked, begins⟩
  · simp [hnil] at hm
  · exact Request.asked checked x.id m (begins.subset hm)

variable {c' : Client} {taken : List Message} {standing : Standing}

/-- What a step of a call makes of it and of the connection, which it neither opens nor closes.
What it queues is sent unless the reader has left. -/
structure Steps (x : Errand) (conn : Connection) (sent taken : List Message) (standing : Standing)
    (c' : Client) (conn' : Connection) : Prop where
  current : c'.current? = some conn'
  closed : conn'.closed = conn.closed
  reader : conn'.reader = conn.reader
  sending : conn'.Sending (if conn.leaving then sent else sent ++ taken) standing.held?
  sound : Sound conn' { x with queued := x.queued ++ taken, standing }

theorem Steps.stay (current : c'.current? = some conn) (sending : conn.Sending sent standing.held?)
    (sound : Sound conn { x with standing }) : Steps x conn sent [] standing c' conn where
  current := current
  closed := rfl
  reader := rfl
  sending := by simpa using sending
  sound := by simpa using sound

theorem Steps.queue {item : Outbound}
    (sending : (conn.push item).Sending (if conn.leaving then sent else sent ++ taken)
      standing.held?)
    (sound : Sound (conn.push item) { x with queued := x.queued ++ taken, standing }) :
    Steps x conn sent taken standing (c.setCurrent (conn.push item)) (conn.push item) where
  current := Client.current?_setCurrent ..
  closed := conn.closed_push item
  reader := conn.reader_push item
  sending := sending
  sound := sound

theorem proceed_asked (current : c.current? = some conn) {q : Query} {phase : Phase}
    (stands : x.standing = .asked q phase) :
    let a := Attempt.proceed (.query q) ⟨conn, c.dispatcher, phase⟩
    (x.proceed conn c).2 =
      (.asked q a.phase, { c with dispatcher := a.dispatcher }.setCurrent a.connection) := by
  cases phase with
  | returned ticket? result =>
    simp [proceed, stands, Standing.asked, Attempt.proceed, Client.setCurrent_of_current current]
  | entered | checked | drawn | registered | rechecked | refused =>
    rw [proceed, stands]
    rfl

theorem current?_finish (c : Client) (id : UInt32) (r : Request) :
    (c.finish id r).current? = c.current? := by
  cases r <;> rfl

/-- One step of a query: a look at the connection, a draw, a registration, another look, and the
frame or the withdrawal. -/
theorem steps_asking (c : Client) {q : Query} {phase : Phase}
    (sending : conn.Sending sent (Standing.asking q phase).held?)
    (sound : Sound conn ⟨.query q, 0, [], .asking q phase⟩) :
    ∃ taken standing c' conn',
      Errand.proceed ⟨.query q, 0, [], .asking q phase⟩ conn c = (taken, standing, c') ∧
        Steps ⟨.query q, 0, [], .asking q phase⟩ conn sent taken standing c' conn' := by
  cases sound with
  | entered =>
    cases hclosed : conn.closed with
    | true =>
      exact ⟨[], .returned (.error .connectionClosed), c.setCurrent conn, conn,
        by simp [proceed, Attempt.proceed, Standing.asked, Except.map, hclosed],
        .stay (Client.current?_setCurrent ..) sending (.returned (.query (.inl hclosed)))⟩
    | false =>
      exact ⟨[], .asking q (.checked q.answer), c.setCurrent conn, conn,
        by simp [proceed, Attempt.proceed, Standing.asked, hclosed],
        .stay (Client.current?_setCurrent ..) sending .checked⟩
  | checked =>
    refine ⟨[], .asking q (.drawn q.answer conn.sequence.next.1), _,
      { conn with sequence := conn.sequence.next.2 }, rfl, Client.current?_setCurrent .., rfl, rfl,
      ?_, .drawn⟩
    rw [List.append_nil, ite_self]
    exact sending.draw
  | @drawn _ n =>
    exact ⟨[], .asking q (.registered (c.dispatcher.register q.answer n).1 n), _, conn, rfl,
      .stay (Client.current?_setCurrent ..) sending .registered⟩
  | @registered _ ticket n =>
    cases hclosed : conn.closed with
    | true =>
      exact ⟨[], .asking q (.refused ticket), c.setCurrent conn, conn,
        by simp [proceed, Attempt.proceed, Standing.asked, hclosed],
        .stay (Client.current?_setCurrent ..) (sending.release (.inl hclosed))
          (.refused (.inl hclosed))⟩
    | false =>
      exact ⟨[], .asking q (.rechecked ticket n), c.setCurrent conn, conn,
        by simp [proceed, Attempt.proceed, Standing.asked, hclosed],
        .stay (Client.current?_setCurrent ..) sending (.rechecked fun _ => hclosed)⟩
  | @rechecked _ ticket n open_ =>
    by_cases hstopped : conn.writer = .stopped
    · have hended := sending.ended_of_stopped hstopped
      exact ⟨[], .asking q (.refused ticket), c.setCurrent conn, conn,
        by simp [proceed, Attempt.proceed, Standing.asked, hstopped],
        .stay (Client.current?_setCurrent ..) (sending.release hended) (.refused hended)⟩
    · exact ⟨[.query q], .returned (.ok 0), c.setCurrent _, _,
        by simp [proceed, Attempt.proceed, Standing.asked, Except.map, hstopped],
        .queue (sending.push_query open_ q) (.returned (.taken rfl))⟩
  | refused ended =>
    exact ⟨[], .returned (.error .connectionClosed), _, conn, rfl,
      .stay (Client.current?_setCurrent ..) sending (.returned (.query ended))⟩
  | returned h => cases h

theorem steps (current : c.current? = some conn) (sending : conn.Sending sent x.standing.held?)
    (sound : Sound conn x) :
    ∃ taken standing c' conn', x.proceed conn c = (taken, standing, c') ∧
      Steps x conn sent taken standing c' conn' := by
  cases sound with
  | @sending r id queued left checked messages =>
    cases left with
    | nil =>
      have hqueued : r.messages id = queued := by simpa using messages
      exact ⟨[], .returned (.ok id), _, conn, rfl, .stay ((current?_finish ..).trans current)
        sending (.returned (hqueued ▸ .taken checked))⟩
    | cons m left =>
      cases hclosed : conn.closed with
      | true =>
        exact ⟨[], .returned (.error .connectionClosed), c, conn, by simp [proceed, hclosed],
          .stay current sending (.returned (.turnedAway checked messages (by simp) (.inl hclosed)))⟩
      | false =>
        exact ⟨[], .passed m left, c, conn, by simp [proceed, hclosed],
          .stay current sending (.passed checked messages fun _ => hclosed)⟩
  | @passed r id queued m left checked messages open_ =>
    by_cases hstopped : conn.writer = .stopped
    · exact ⟨[], .returned (.error .connectionClosed), c, conn, by simp [proceed, hstopped],
        .stay current sending (.returned (.turnedAway checked messages (by simp)
          (sending.ended_of_stopped hstopped)))⟩
    · exact ⟨[.command m], .sending left, _, _, if_neg hstopped,
        .queue (sending.push_command open_ m) (.sending checked (by simpa using messages))⟩
  | entered => exact steps_asking c sending .entered
  | checked => exact steps_asking c sending .checked
  | drawn => exact steps_asking c sending .drawn
  | registered => exact steps_asking c sending .registered
  | rechecked open_ => exact steps_asking c sending (.rechecked open_)
  | refused ended => exact steps_asking c sending (.refused ended)
  | closing closed =>
    refine ⟨[], .returned (.ok 0), _, conn.push .shutdown, rfl, .queue ?_ (.returned (.taken rfl))⟩
    rw [List.append_nil, ite_self]
    exact sending.mark (conn.transport_push _) (conn.writer_push _) rfl
      (.inl ((conn.closed_push _).trans closed))
  | returned h =>
    have hrests : x.proceed conn c = ([], x.standing, c) := by cases h <;> rfl
    exact ⟨[], x.standing, c, conn, hrests, .stay current sending (.returned h)⟩

theorem Barred.proceed (h : Barred x) (closed : conn.closed = true) (c : Client) :
    ∃ standing c', x.proceed conn c = ([], standing, c') ∧ Barred { x with standing } := by
  cases h with
  | sending => exact ⟨_, c, by simp only [Errand.proceed, if_pos closed]; rfl, .failed⟩
  | entered =>
    exact ⟨.returned (.error .connectionClosed), c.setCurrent conn,
      by simp [Errand.proceed, Attempt.proceed, Standing.asked, Except.map, closed], .failed⟩
  | failed => exact ⟨_, c, rfl, .failed⟩
  | again => exact ⟨_, c, rfl, .again⟩

end Errand

namespace Client

open Errand Connection

variable {c : Client} {conn : Connection} {r : Request}

inductive Enters (c : Client) (conn : Connection) : Request → Errand → Client → Prop
  | invalid {r e} (failed : r.check = .error e) :
    Enters c conn r ⟨r, 0, [], .returned (.error e)⟩ c
  | sends {r id m left c'} (checked : r.check = .ok ())
      (messages : r.messages id = (m :: left).map .command) (same : c'.current? = some conn)
      (other : r ≠ .close) : Enters c conn r ⟨r, id, [], .sending (m :: left)⟩ c'
  | asks {q} : Enters c conn (.query q) ⟨.query q, 0, [], .asking q .entered⟩ c
  | again (closed : conn.closed = true) : Enters c conn .close ⟨.close, 0, [], .returned (.ok 0)⟩ c
  | closes (open_ : conn.closed = false) : Enters c conn .close ⟨.close, 0, [], .closing⟩
    (c.setCurrent { conn with closed := true })

theorem enters (current : c.current? = some conn) (r : Request) :
    Enters c conn r (c.enter r).1 (c.enter r).2 := by
  cases hcheck : r.check with
  | error e => simpa [enter, hcheck] using Enters.invalid hcheck
  | ok =>
    rw [enter, hcheck, current]
    cases r with
    | perform command => exact .sends hcheck rfl current (by simp)
    | createWindow o =>
      exact .sends hcheck (by rfl) current (by simp)
    | uploadImage => exact .sends hcheck rfl current (by simp)
    | query q => exact .asks
    | close =>
      dsimp only
      split
      · next closed => exact .again closed
      · next open_ => exact .closes (by simpa using open_)

structure Sends (c : Client) (conn : Connection) (r : Request) (id : UInt32) (left : List Command)
    (c' : Client) : Prop where
  enter : c.enter r = (⟨r, id, [], .sending left⟩, c')
  nonempty : left ≠ []
  current : c'.current? = some conn
  accepted : conn.Accepting → c.call r = (.ok id, (c'.setCurrent (conn.enlist
    (left.map fun m => Frame.ofMessage (.command m) 0))).finish id r)
  refused : ¬ conn.Accepting → c.call r = (.error .connectionClosed, c')

theorem sends (current : c.current? = some conn) (checked : r.check = .ok ())
    (close : r ≠ .close) (query : ∀ q, r ≠ .query q) : ∃ id left c', Sends c conn r id left c' := by
  cases r with
  | perform command =>
    have hcheck : command.check = .ok () := checked
    refine ⟨0, [command], c, by simp [Client.enter, checked, current], by simp, current,
      fun accepting => ?_, fun refuses => ?_⟩
    · simp [call, perform, hcheck, send, current, Connection.send, enqueue_of_accepting accepting,
        Except.map, finish]
    · simp [call, perform, hcheck, send, current, Connection.send,
        enqueue_of_not_accepting refuses, Except.map]
  | createWindow o =>
    refine ⟨c.windows.allocate.1, o.commands c.windows.allocate.1,
      { c with windows := c.windows.allocate.2 }, by simp [Client.enter, checked, current],
      by simp [WindowOptions.commands], current, fun accepting => ?_, fun refuses => ?_⟩
    · simp [call, createWindow, createWindowAmid, current, sendEach_of_accepting accepting, finish]
      rfl
    · have hsame := setCurrent_of_current (c := { c with windows := c.windows.allocate.2 }) current
      have hsend := sendEach_of_not_accepting refuses 0
        (show o.commands c.windows.allocate.1 ≠ [] by simp [WindowOptions.commands])
      simp [call, createWindow, createWindowAmid, current, hsame, hsend]
  | uploadImage width height format data =>
    refine ⟨c.nextImage, [.uploadImage ⟨c.nextImage, width, height, format, data⟩],
      { c with nextImage := c.nextImage + 1 }, by simp [Client.enter, checked, current], by simp,
      current, fun accepting => ?_, fun refuses => ?_⟩
    · simp [call, uploadImage, current, Connection.send, enqueue_of_accepting accepting, finish]
    · simp [call, uploadImage, current, Connection.send, enqueue_of_not_accepting refuses]
  | query q => exact absurd rfl (query q)
  | close => exact absurd rfl close

end Client
end CompositorClient
