import CompositorClient.Proofs.Errand

/-! A dialogue of a client with the compositor over its newest connection.  The calls come one
after another and take their steps; between any two of these the tasks take theirs, in any order,
the compositor sends, and the callers of queries collect or drop them. -/

namespace CompositorClient

namespace Client

variable {c : Client} {conn : Connection}

def stepAt (c : Client) (i : Nat) (task : Task) : List Call × Client :=
  match c.connections[i]? with
  | none => ([], c)
  | some conn =>
    match conn.taskStep c.dispatcher task with
    | none => ([], c)
    | some e => c.absorb i e

theorem current?_connect (c : Client) (transport : Transport) :
    (c.connect transport).2.current? = some { transport } := by
  rw [connect, current?, connections_emit]
  exact List.getLast?_concat

theorem current?_stepAt (current : c.current? = some conn) (i : Nat) (task : Task) :
    (c.stepAt i task).2.current? = some conn ∨
      ∃ e, conn.taskStep c.dispatcher task = some e ∧
        (c.stepAt i task).2.current? = some e.connection := by
  have hlast := current
  rw [current?, List.getLast?_eq_getElem?] at hlast
  rw [stepAt]
  split
  · exact .inl current
  · next other hother =>
    split
    · exact .inl current
    · next e he =>
      rw [absorb, current?, connections_emit, List.getLast?_eq_getElem?, List.length_set,
        List.getElem?_set]
      split
      · next hi =>
        subst hi
        rw [hlast] at hother
        cases hother
        exact .inr ⟨e, he, if_pos (List.getElem?_eq_some_iff.mp hlast).1⟩
      · exact .inl hlast

theorem current?_accept (current : c.current? = some conn) (i : Nat) (input : Input) :
    (c.accept i input).current? = some conn ∨
      (c.accept i input).current? = some (conn.accept input) := by
  rw [current?, List.getLast?_eq_getElem?] at current
  rw [accept, current?, List.getLast?_eq_getElem?, List.length_modify, List.getElem?_modify,
    current]
  by_cases hi : i = c.connections.length - 1
  · exact .inr (congrArg some (if_pos hi))
  · exact .inl (congrArg some (if_neg hi))

end Client

/-- The calls that have returned and the one that came last.  `sent` is what they have queued while
the reader had not asked the writer to stop, and `belated` what they have queued since. -/
structure Dialogue where
  client : Client
  past : List Errand := []
  errand : Option Errand := none
  sent : List Message := []
  belated : List Message := []

inductive Act
  | call (r : Request)
  | proceed
  | step (i : Nat) (task : Task)
  | arrive (i : Nat) (input : Input)
  | collect (p : PendingQuery)
  | drop (p : PendingQuery)
  deriving DecidableEq

namespace Dialogue

def start (c : Client) : Dialogue where
  client := (c.connect {}).2

def calls (d : Dialogue) : List Errand := d.past ++ d.errand.toList

def idle (d : Dialogue) : Bool := d.errand.all (·.standing.rank == 0)

/-- A call waits for the last one to return. -/
def call (d : Dialogue) (r : Request) : Dialogue :=
  if d.idle then
    let (x, client) := d.client.enter r
    { d with client, past := d.calls, errand := some x }
  else d

def proceed (d : Dialogue) : Dialogue :=
  match d.errand, d.client.current? with
  | some x, some conn =>
    let (taken, standing, client) := x.proceed conn d.client
    { d with
      client
      errand := some { x with queued := x.queued ++ taken, standing }
      sent := if conn.leaving then d.sent else d.sent ++ taken
      belated := if conn.leaving then d.belated ++ taken else d.belated }
  | _, _ => d

def act (d : Dialogue) : Act → Dialogue
  | .call r => d.call r
  | .proceed => d.proceed
  | .step i task => { d with client := (d.client.stepAt i task).2 }
  | .arrive i input => { d with client := d.client.accept i input }
  | .collect p => { d with client := (d.client.collect p).2 }
  | .drop p => { d with client := d.client.drop p }

def run (d : Dialogue) (acts : List Act) : Dialogue := acts.foldl act d

@[simp] theorem run_nil (d : Dialogue) : d.run [] = d := rfl
@[simp] theorem run_cons (d : Dialogue) (a : Act) (acts : List Act) :
    d.run (a :: acts) = (d.act a).run acts := rfl
@[simp] theorem run_concat (d : Dialogue) (acts : List Act) (a : Act) :
    d.run (acts ++ [a]) = (d.run acts).act a := List.foldl_concat _ _ _ _

def held? (d : Dialogue) : Option UInt32 := d.errand.bind (·.standing.held?)

/-- What holds at every moment, `conn` being the connection. -/
structure Orderly (d : Dialogue) (conn : Connection) : Prop where
  current : d.client.current? = some conn
  sending : conn.Sending d.sent d.held?
  account : d.calls.flatMap (·.queued) = d.sent ++ d.belated
  belated : d.belated ≠ [] → conn.leaving = true
  past : ∀ x ∈ d.past, x.Returned conn.Ended
  sound : ∀ x ∈ d.errand, x.Sound conn
  ended : conn.closed = true → conn.leaving = true ∨ ∃ x ∈ d.calls, x.request = .close
  closed : ∀ x ∈ d.calls, x.request = .close → conn.closed = true
  barred : d.calls.Pairwise fun x y => x.request = .close → y.Barred

variable {d : Dialogue} {conn conn' : Connection}

theorem held?_of_idle (h : d.idle = true) : d.held? = none := by
  rw [held?]
  cases herrand : d.errand with
  | none => rfl
  | some x =>
    have hrank : x.standing.rank = 0 := by simpa [idle, herrand] using h
    obtain ⟨result, hresult⟩ := Standing.returned_of_rank hrank
    simp [hresult, Standing.held?]

namespace Orderly

theorem start (c : Client) : Orderly (start c) {} where
  current := c.current?_connect {}
  sending := .start
  account := rfl
  belated := absurd rfl
  past := by simp [Dialogue.start]
  sound := by simp [Dialogue.start]
  ended := by simp
  closed := by simp [Dialogue.start, calls]
  barred := .nil

theorem later (h : Orderly d conn) {client : Client} (current : client.current? = some conn')
    (sending : conn'.Sending d.sent d.held?) (later : conn.Later conn') :
    Orderly { d with client } conn' where
  current := current
  sending := sending
  account := h.account
  belated hne := later.leaving (h.belated hne)
  past x hx := (h.past x hx).mono later.ended
  sound x hx := (h.sound x hx).later later
  ended hclosed := by
    cases hleaving : conn'.leaving with
    | true => exact .inl rfl
    | false =>
      exact .inr ((h.ended (later.kept hleaving ▸ hclosed)).resolve_left
        (by simp [later.stays hleaving]))
  closed x hx hclose := later.closed (h.closed x hx hclose)
  barred := h.barred

theorem returned (h : Orderly d conn) (idle : d.idle = true) :
    ∀ x ∈ d.calls, x.Returned conn.Ended := by
  intro x hx
  rcases List.mem_append.mp hx with hpast | hlast
  · exact h.past x hpast
  · rw [Option.mem_toList] at hlast
    have hrank : x.standing.rank = 0 := by
      rw [Dialogue.idle, Option.mem_def.mp hlast] at idle
      simpa using idle
    exact (h.sound x hlast).returned_of_rank hrank

theorem enter (h : Orderly d conn) (idle : d.idle = true) {x : Errand} {client : Client}
    (current : client.current? = some conn') (sending : conn'.Sending d.sent x.standing.held?)
    (leaving : conn'.leaving = conn.leaving)
    (closed : conn'.closed = true ↔ conn.closed = true ∨ x.request = .close)
    (queued : x.queued = []) (sound : x.Sound conn') (barred : conn.closed = true → x.Barred) :
    Orderly { d with client, past := d.calls, errand := some x } conn' := by
  have hended : conn.Ended → conn'.Ended := by
    rw [Connection.Ended, Connection.Ended, leaving, closed]
    exact Or.imp_left .inl
  have hcalls : calls { d with client, past := d.calls, errand := some x } = d.calls ++ [x] := rfl
  refine ⟨current, sending, ?_, ?_, fun y hy => (h.returned idle y hy).mono hended, by simpa,
    fun hclosed => ?_, fun y hy hclose => ?_, ?_⟩
  · rw [hcalls, List.flatMap_append, h.account]
    simp [queued]
  · rw [leaving]
    exact h.belated
  · rw [leaving, hcalls]
    rcases closed.mp hclosed with hold | hclose
    · rcases h.ended hold with leaves | ⟨y, hy, hyclose⟩
      · exact .inl leaves
      · exact .inr ⟨y, List.mem_append_left _ hy, hyclose⟩
    · exact .inr ⟨x, by simp, hclose⟩
  · rw [hcalls, List.mem_append, List.mem_singleton] at hy
    rcases hy with hy | rfl
    · exact closed.mpr (.inl (h.closed y hy hclose))
    · exact closed.mpr (.inr hclose)
  · rw [hcalls, List.pairwise_append]
    refine ⟨h.barred, List.pairwise_singleton .., fun y hy z hz hclose => ?_⟩
    rw [List.mem_singleton.mp hz]
    exact barred (h.closed y hy hclose)

theorem call (h : Orderly d conn) (r : Request) : ∃ conn', Orderly (d.call r) conn' := by
  rw [Dialogue.call]
  split
  · next idle =>
    have hsending : conn.Sending d.sent none := held?_of_idle idle ▸ h.sending
    have enters := Client.enters h.current r
    generalize d.client.enter r = entered at enters ⊢
    obtain ⟨x, client⟩ := entered
    cases enters with
    | invalid failed =>
      refine ⟨conn, h.enter idle h.current hsending rfl ?_ rfl (.returned (.invalid failed))
        fun _ => .failed⟩
      cases r with
      | close => cases failed
      | perform | createWindow | uploadImage | query => simp
    | sends checked messages same other =>
      exact ⟨conn, h.enter idle same hsending rfl (by simp [other]) rfl (.sending checked messages)
        fun _ => .sending⟩
    | asks =>
      exact ⟨conn, h.enter idle h.current hsending rfl (by simp) rfl .entered fun _ => .entered⟩
    | again closed =>
      exact ⟨conn, h.enter idle h.current hsending rfl (by simp [closed]) rfl
        (.returned (.taken rfl)) fun _ => .again⟩
    | closes open_ =>
      refine ⟨{ conn with closed := true }, h.enter idle (Client.current?_setCurrent ..) ?_ rfl
        (by simp) rfl (.closing rfl) fun closed => by simp [open_] at closed⟩
      exact hsending.of_same rfl rfl rfl rfl id fun _ => .inl rfl
  · exact ⟨conn, h⟩

theorem account_taken (h : Orderly d conn) {x : Errand} (errand : d.errand = some x)
    (taken : List Message) : d.past.flatMap (·.queued) ++ (x.queued ++ taken) =
      (if conn.leaving then d.sent else d.sent ++ taken) ++
        (if conn.leaving then d.belated ++ taken else d.belated) := by
  have haccount : d.past.flatMap (·.queued) ++ x.queued = d.sent ++ d.belated := by
    simpa [calls, errand] using h.account
  rw [← List.append_assoc, haccount]
  split
  · exact List.append_assoc ..
  · next stays =>
    have hnone : d.belated = [] := by
      by_contra hsome
      exact stays (h.belated hsome)
    simp [hnone]

/-- A call that is barred stays so, for the connection is closed by then. -/
theorem barred_taken (h : Orderly d conn) {x : Errand} (errand : d.errand = some x)
    {taken : List Message} {standing : Standing} {client : Client}
    (proceeds : x.proceed conn d.client = (taken, standing, client)) :
    (d.past ++ [{ x with queued := x.queued ++ taken, standing }]).Pairwise
      fun (y z : Errand) => y.request = Request.close → z.Barred := by
  have hcalls : d.calls = d.past ++ [x] := by simp [calls, errand]
  obtain ⟨hpast, -, hlast⟩ := List.pairwise_append.mp (hcalls ▸ h.barred)
  refine List.pairwise_append.mpr ⟨hpast, List.pairwise_singleton .., fun y hy z hz hclose => ?_⟩
  obtain rfl : z = _ := by simpa using hz
  have hclosed := h.closed y (by simp [hcalls, hy]) hclose
  obtain ⟨standing', client', hproceed, hbarred⟩ :=
    (hlast y hy x (by simp) hclose).proceed hclosed d.client
  rw [proceeds] at hproceed
  cases hproceed
  simpa using hbarred

theorem proceed (h : Orderly d conn) : ∃ conn', Orderly d.proceed conn' := by
  rw [Dialogue.proceed, h.current]
  cases herrand : d.errand with
  | none => exact ⟨conn, h⟩
  | some x =>
    have hsending : conn.Sending d.sent x.standing.held? := by
      simpa [held?, herrand] using h.sending
    obtain ⟨taken, standing, client, conn', hproceed, steps⟩ :=
      Errand.steps h.current hsending (h.sound x herrand)
    have hleaving : conn'.leaving = conn.leaving := by simp [Connection.leaving, steps.reader]
    have hended : conn.Ended → conn'.Ended := by
      simp [Connection.Ended, steps.closed, hleaving]
    simp only [hproceed]
    refine ⟨conn', steps.current, steps.sending, ?_, ?_, fun y hy => (h.past y hy).mono hended,
      by simpa using steps.sound, ?_, ?_, h.barred_taken herrand hproceed⟩
    · simpa [calls] using h.account_taken herrand taken
    · rw [hleaving]
      split
      · next leaves => exact fun _ => leaves
      · exact h.belated
    · rw [steps.closed, hleaving]
      exact fun hclosed => (h.ended hclosed).imp_right (by simp [calls, herrand])
    · have hclosed := h.closed
      rw [steps.closed]
      simpa [calls, herrand, or_imp, forall_and] using hclosed

theorem act (h : Orderly d conn) (a : Act) : ∃ conn', Orderly (d.act a) conn' := by
  cases a with
  | call r => exact h.call r
  | proceed => exact h.proceed
  | step i task =>
    rcases Client.current?_stepAt h.current i task with hcurrent | ⟨e, he, hcurrent⟩
    · exact ⟨conn, h.later hcurrent h.sending (.of_eq rfl rfl)⟩
    · exact ⟨_, h.later hcurrent (h.sending.taskStep he) (h.sending.later_taskStep he)⟩
  | arrive i input =>
    rcases Client.current?_accept h.current i input with hcurrent | hcurrent
    · exact ⟨conn, h.later hcurrent h.sending (.of_eq rfl rfl)⟩
    · exact ⟨_, h.later hcurrent (h.sending.accept input) (conn.later_accept input)⟩
  | collect | drop => exact ⟨conn, h.later h.current h.sending (.of_eq rfl rfl)⟩

end Orderly

theorem orderly_run (c : Client) (acts : List Act) :
    ∃ conn, Orderly ((start c).run acts) conn := by
  induction acts using List.reverseRecOn with
  | nil => exact ⟨{}, .start c⟩
  | append_singleton acts a ih =>
    obtain ⟨conn, horderly⟩ := ih
    rw [run_concat]
    exact horderly.act a

theorem errand_proceed {x : Errand} (errand : d.errand = some x)
    (current : d.client.current? = some conn) :
    d.proceed.errand = some { x with
      queued := x.queued ++ (x.proceed conn d.client).1
      standing := (x.proceed conn d.client).2.1 } ∧
    d.proceed.client = (x.proceed conn d.client).2.2 := by
  rw [proceed, errand, current]
  exact ⟨rfl, rfl⟩

/-- A call comes to its end as soon as it has had its steps. -/
theorem returns (h : Orderly d conn) {x : Errand} (errand : d.errand = some x) {more : List Act}
    (alone : ∀ r, .call r ∉ more) (enough : x.standing.rank ≤ more.count .proceed) :
    ∃ y result, (d.run more).errand = some y ∧ y.request = x.request ∧
      y.standing = .returned result := by
  induction more generalizing d conn x with
  | nil =>
    obtain ⟨result, hresult⟩ := Standing.returned_of_rank (Nat.le_zero.mp enough)
    exact ⟨x, result, errand, rfl, hresult⟩
  | cons a more ih =>
    have halone : ∀ r, .call r ∉ more := fun r hr => alone r (List.mem_cons_of_mem _ hr)
    obtain ⟨conn', horderly⟩ := h.act a
    rw [run_cons]
    cases a with
    | call r => exact absurd List.mem_cons_self (alone r)
    | proceed =>
      have hrank := x.rank_proceed conn d.client
      rw [List.count_cons_self] at enough
      have hnext := (errand_proceed errand h.current).1
      obtain ⟨y, result, hy, hrequest, hresult⟩ := ih horderly hnext halone (by dsimp only; omega)
      exact ⟨y, result, hy, hrequest, hresult⟩
    | step | arrive | collect | drop =>
      exact ih horderly errand halone (by simpa using enough)

section

variable {r : Request} {id : UInt32} {queued : List Message}

theorem run_sending {left : List Command} (accepting : conn.Accepting)
    (current : d.client.current? = some conn)
    (errand : d.errand = some ⟨r, id, queued, .sending left⟩) :
    let d' := d.run (List.replicate (2 * left.length + 1) .proceed)
    d'.client = (d.client.setCurrent (conn.enlist
      (left.map fun m => Frame.ofMessage (.command m) 0))).finish id r ∧
      d'.errand = some ⟨r, id, queued ++ left.map .command, .returned (.ok id)⟩ := by
  induction left generalizing d conn queued with
  | nil =>
    obtain ⟨herrand, hclient⟩ := errand_proceed errand current
    simp only [Errand.proceed, List.append_nil] at herrand hclient
    simpa [act, Connection.enlist_nil, Client.setCurrent_of_current current] using
      ⟨hclient, herrand⟩
  | cons m left ih =>
    obtain ⟨herrand, hclient⟩ := errand_proceed errand current
    simp only [Errand.proceed, accepting.1, Bool.false_eq_true, if_false] at herrand hclient
    obtain ⟨herrand', hclient'⟩ := errand_proceed herrand (hclient ▸ current)
    simp only [Errand.proceed, if_neg accepting.2, Connection.push_of_accepting accepting, hclient]
      at herrand' hclient'
    have hlength : 2 * (m :: left).length + 1 = 2 * left.length + 1 + 1 + 1 := by
      simp only [List.length_cons]
      omega
    rw [hlength, List.replicate_succ, List.replicate_succ, run_cons, run_cons]
    have still : (conn.enlist [Frame.ofMessage (.command m) 0]).Accepting := accepting
    obtain ⟨hfinal, hreturned⟩ := ih still (hclient' ▸ Client.current?_setCurrent ..) herrand'
    simp only [act]
    refine ⟨hfinal.trans ?_, by simpa using hreturned⟩
    simp [hclient', ← Connection.enlist_append]

theorem run_refused {m : Command} {left : List Command} (refuses : ¬ conn.Accepting)
    (current : d.client.current? = some conn)
    (errand : d.errand = some ⟨r, id, queued, .sending (m :: left)⟩) :
    ∃ n, let d' := d.run (List.replicate n .proceed)
      d'.client = d.client ∧
        d'.errand = some ⟨r, id, queued, .returned (.error .connectionClosed)⟩ := by
  obtain ⟨herrand, hclient⟩ := errand_proceed errand current
  cases hclosed : conn.closed with
  | true =>
    simp only [Errand.proceed, hclosed, if_true, List.append_nil] at herrand hclient
    exact ⟨1, hclient, herrand⟩
  | false =>
    have hstopped : conn.writer = .stopped := by
      by_contra hrunning
      exact refuses ⟨hclosed, hrunning⟩
    simp only [Errand.proceed, hclosed, Bool.false_eq_true, if_false, List.append_nil]
      at herrand hclient
    obtain ⟨herrand', hclient'⟩ := errand_proceed herrand (hclient ▸ current)
    simp only [Errand.proceed, if_pos hstopped, List.append_nil] at herrand' hclient'
    exact ⟨2, hclient'.trans hclient, herrand'⟩

end

theorem run_asking (current : d.client.current? = some conn) {q : Query} {x : Errand}
    (errand : d.errand = some x) (entered : x.standing = .asking q .entered) (n : Nat) :
    let d' := d.run (List.replicate n .proceed)
    let a := Attempt.run (.query q) ⟨conn, d.client.dispatcher, .entered⟩ (List.replicate n .own)
    d'.client = { d.client with dispatcher := a.dispatcher }.setCurrent a.connection ∧
      ∃ y, d'.errand = some y ∧ y.standing = .asked q a.phase := by
  induction n with
  | zero =>
    exact ⟨(Client.setCurrent_of_current current).symm, x, errand, entered⟩
  | succ n ih =>
    obtain ⟨hclient, y, hy, hstanding⟩ := ih
    rw [List.replicate_succ', List.replicate_succ', run_concat, Attempt.run_concat]
    generalize Attempt.run (.query q) ⟨conn, d.client.dispatcher, .entered⟩
      (List.replicate n .own) = a at hclient hstanding ⊢
    obtain ⟨c, disp, phase⟩ := a
    have hcurrent : (d.run (List.replicate n .proceed)).client.current? = some c := by
      rw [hclient]
      exact Client.current?_setCurrent ..
    obtain ⟨herrand', hclient'⟩ := errand_proceed hy hcurrent
    rw [Errand.proceed_asked hcurrent hstanding] at herrand' hclient'
    refine ⟨hclient'.trans ?_, _, herrand', ?_⟩
    all_goals simp [hclient, Client.setCurrent, Attempt.turn]

/-- A call whose steps come right after one another does what the whole call does. -/
def Whole (d : Dialogue) (r : Request) : Prop :=
  ∃ n x, let d' := d.run (.call r :: List.replicate n .proceed)
    d'.client = (d.client.call r).2 ∧ d'.errand = some x ∧
      x.standing = .returned (d.client.call r).1

theorem act_call (idle : d.idle = true) (r : Request) :
    d.act (.call r) = { d with
      client := (d.client.enter r).2
      past := d.calls
      errand := some (d.client.enter r).1 } := by
  rw [act, call, if_pos idle]

theorem whole_close (current : d.client.current? = some conn) (idle : d.idle = true) :
    d.Whole .close := by
  have hcheck : Request.close.check = .ok () := rfl
  simp only [Whole, run_cons, act_call idle]
  rw [Client.call_close current, Connection.close]
  cases hclosed : conn.closed with
  | true =>
    refine ⟨0, ⟨.close, 0, [], .returned (.ok 0)⟩, ?_⟩
    simp [Client.enter, hcheck, current, hclosed, Client.setCurrent_of_current current]
  | false =>
    refine ⟨1, ⟨.close, 0, [], .returned (.ok 0)⟩, ?_⟩
    simp [Client.enter, hcheck, current, hclosed, act, proceed, Errand.proceed]

theorem whole_query (current : d.client.current? = some conn) (idle : d.idle = true) (q : Query) :
    d.Whole (.query q) := by
  have henter : d.client.enter (.query q) =
      (⟨.query q, 0, [], .asking q .entered⟩, d.client) := by
    simp [Client.enter, Request.check, current]
  simp only [Whole, run_cons, act_call idle, henter]
  obtain ⟨hclient, y, hy, hstanding⟩ := run_asking
    (d := { d with past := d.calls, errand := some ⟨.query q, 0, [], .asking q .entered⟩ })
    current rfl rfl 6
  obtain ⟨ticket?, hquery⟩ := Attempt.run_undisturbed conn d.client.dispatcher (.query q)
  rw [hquery] at hclient hstanding
  refine ⟨6, y, hclient.trans ?_, hy, hstanding.trans ?_⟩
  · simp [Client.call, Client.query, current]
  · cases hresult : (conn.query d.client.dispatcher (.query q)).1 <;>
      simp [Client.call, Client.query, current, hresult, Standing.asked, Except.map]

theorem whole_sends (idle : d.idle = true) {r : Request} {id : UInt32} {left : List Command}
    {c : Client} (sends : d.client.Sends conn r id left c) : d.Whole r := by
  simp only [Whole, run_cons, act_call idle, sends.enter]
  by_cases accepting : conn.Accepting
  · rw [sends.accepted accepting]
    obtain ⟨hclient, herrand⟩ := run_sending
      (d := { d with client := c, past := d.calls, errand := some ⟨r, id, [], .sending left⟩ })
      accepting sends.current rfl
    exact ⟨_, _, hclient, herrand, rfl⟩
  · rw [sends.refused accepting]
    obtain ⟨m, left, rfl⟩ := List.exists_cons_of_ne_nil sends.nonempty
    obtain ⟨n, hclient, herrand⟩ := run_refused
      (d := { d with
        client := c
        past := d.calls
        errand := some ⟨r, id, [], .sending (m :: left)⟩ })
      accepting sends.current rfl
    exact ⟨n, _, hclient, herrand, rfl⟩

theorem run_call (current : d.client.current? = some conn) (idle : d.idle = true) (r : Request) :
    d.Whole r := by
  cases hcheck : r.check with
  | error e =>
    simp only [Whole, run_cons, act_call idle]
    refine ⟨0, (d.client.enter r).1, ?_, rfl, ?_⟩
    all_goals simp [Client.enter, hcheck, Client.call_of_check hcheck]
  | ok =>
    cases r with
    | close => exact whole_close current idle
    | query q => exact whole_query current idle q
    | perform | createWindow | uploadImage =>
      obtain ⟨id, left, c, sends⟩ := Client.sends current hcheck (by simp) (by simp)
      exact whole_sends idle sends

namespace Orderly

theorem asked (h : Orderly d conn) : ∀ m ∈ d.sent, m.Asked := by
  intro m hm
  have hmem : m ∈ d.calls.flatMap (·.queued) := by
    rw [h.account]
    exact List.mem_append_left _ hm
  obtain ⟨x, hx, hmx⟩ := List.mem_flatMap.mp hmem
  rcases List.mem_append.mp hx with hpast | hlast
  · exact (Errand.Sound.returned (h.past x hpast)).asked m hmx
  · exact (h.sound x (by simpa using hlast)).asked m hmx

theorem returned_of_standing (h : Orderly d conn) {x : Errand} (hx : x ∈ d.calls)
    {result : Except ClientError UInt32} (stands : x.standing = .returned result) :
    x.Returned conn.Ended := by
  rcases List.mem_append.mp hx with hpast | hlast
  · exact h.past x hpast
  · exact (h.sound x (by simpa using hlast)).returned_of_rank (by simp [stands, Standing.rank])

theorem eq_of_invalid (h : Orderly d conn) {x : Errand} (hx : x ∈ d.calls) {e : ClientError}
    (failed : x.request.check = .error e) : x = ⟨x.request, 0, [], .returned (.error e)⟩ := by
  rcases List.mem_append.mp hx with hpast | hlast
  · exact (h.past x hpast).eq_of_invalid failed
  · exact (h.sound x (by simpa using hlast)).eq_of_invalid failed

theorem ended_iff (h : Orderly d conn) :
    conn.Ended ↔ conn.leaving = true ∨ ∃ x ∈ d.calls, x.request = .close := by
  constructor
  · rintro (closed | leaves)
    · exact h.ended closed
    · exact .inl leaves
  · rintro (leaves | ⟨x, hx, hclose⟩)
    · exact .inr leaves
    · exact .inl (h.closed x hx hclose)

end Orderly

/-- The compositor reads one frame for each message that the calls have queued before the reader
asks the writer to stop, in order: cut apart however the bytes come, each decodes to its message,
with the texts as the fields hold them.  Commands carry zero and queries the numbers of their draws.
Nothing of this is kept back once the writer has no more to do.  What a call queues after the reader
has asked is not written, whether the call is taken or not; and a call is turned away only then, or
after `close`.  A call that comes after `close` queues nothing. -/
theorem queued_messages_arrive (c : Client) (acts : List Act)
    (short : ∀ m ∈ ((start c).run acts).sent, m.encode.length < payloadLimit) :
    let d := (start c).run acts
    ∃ conn done todo, d.client.current? = some conn ∧
      stamp 0 d.sent = done ++ todo ∧
      conn.transport.written = done.flatMap Frame.encode ∧
      (∀ ops, FrameBuffer.fed ops = conn.transport.written →
        (FrameBuffer.empty.run ops).1 <+: done.map .ok ∧
        (FrameBuffer.empty.run (ops ++ [.drain])).1 = done.map .ok) ∧
      done.map Frame.message = (d.sent.take done.length).map
        (fun m => .ok (m.mapTexts Padded.stored Padded.terminated)) ∧
      (∀ f ∈ done, f.header.flags = 0 ∧ f.header.descriptors = 0) ∧
      (conn.writerStep d.client.dispatcher = none → todo = []) ∧
      (conn.runWriter d.client.dispatcher).connection.transport.written =
        (stamp 0 d.sent).flatMap Frame.encode ∧
      d.calls.flatMap (·.queued) = d.sent ++ d.belated ∧
      (d.belated ≠ [] → conn.leaving = true) ∧
      (∀ x ∈ d.calls, ∀ result, x.standing = .returned result → x.Returned conn.Ended) ∧
      (conn.Ended ↔ conn.leaving = true ∨ ∃ x ∈ d.calls, x.request = .close) ∧
      (∀ x ∈ d.calls, ∀ mesh : Mesh, x.request = .perform (.setWindowMeshTransform mesh) →
        mesh.vertices.length ≠ mesh.width.toNat * mesh.height.toNat →
        x.queued = [] ∧ x.standing = .returned (.error (.meshSize mesh.width mesh.height
          (mesh.width.toNat * mesh.height.toNat) mesh.vertices.length))) ∧
      (d.calls.Pairwise fun x y => x.request = .close → y.Barred) ∧
      (∀ x more, d.errand = some x → (∀ r, .call r ∉ more) →
        x.standing.rank ≤ more.count .proceed → ∃ y result, (d.run more).errand = some y ∧
          y.request = x.request ∧ y.standing = .returned result) := by
  intro d
  obtain ⟨conn, horderly⟩ : ∃ conn, Orderly d conn := orderly_run c acts
  obtain ⟨done, todo, hsent, hwritten, hbacklog⟩ := horderly.sending.backlog
  have hmade {f : Frame} (hf : f ∈ done) :
      ∃ m ∈ d.sent, ∃ sequence, f = Frame.ofMessage m sequence := by
    refine exists_of_mem_stamp (i := 0) ?_
    rw [hsent]
    exact List.mem_append_left _ hf
  have hmeasured : ∀ f ∈ done, f.Measured := by
    intro f hf
    obtain ⟨m, hm, sequence, rfl⟩ := hmade hf
    exact Frame.measured_ofMessage (short m hm) sequence
  have hcounted : ∀ m ∈ d.sent, m.WellCounted := fun m hm =>
    Message.wellCounted_of_asked (horderly.asked m hm) (short m hm)
  refine ⟨conn, done, todo, horderly.current, hsent, hwritten,
    fun ops hfed => FrameBuffer.run_of_frames hmeasured (hfed.trans hwritten),
    map_message_of_stamp hcounted hsent, fun f hf => ?_,
    hbacklog.nil_of_writerStep horderly.sending.sound, horderly.sending.written_runWriter _,
    horderly.account, horderly.belated,
    fun x hx result stands => horderly.returned_of_standing hx stands, horderly.ended_iff,
    fun x hx mesh hr hne => ?_, horderly.barred,
    fun x more errand alone enough => returns horderly errand alone enough⟩
  · obtain ⟨m, -, sequence, rfl⟩ := hmade hf
    exact ⟨rfl, rfl⟩
  · have hfailed : x.request.check = .error (.meshSize mesh.width mesh.height
        (mesh.width.toNat * mesh.height.toNat) mesh.vertices.length) := by
      rw [hr]
      exact if_neg hne
    rw [horderly.eq_of_invalid hx hfailed]
    exact ⟨rfl, rfl⟩

def farewell : List Act :=
  .call (.perform (.raiseWindow 9)) :: List.replicate 3 .proceed ++
    .call (.query .screenDimensions) :: List.replicate 6 .proceed ++
    .call .close :: .proceed :: List.replicate 3 (.step 0 .writer)

theorem sent_farewell : ((start .new).run farewell).sent =
    [.command (.raiseWindow 9), .query .screenDimensions] := rfl

theorem queued_messages_arrive_farewell :
    (∀ m ∈ ((start .new).run farewell).sent, m.encode.length < payloadLimit) ∧
    ∃ conn, ((start .new).run farewell).client.current? = some conn ∧
      ∀ ops, FrameBuffer.fed ops = conn.transport.written →
        (FrameBuffer.empty.run (ops ++ [.drain])).1 =
          [.ok (Frame.ofMessage (.command (.raiseWindow 9)) 0),
            .ok (Frame.ofMessage (.query .screenDimensions) 1)] := by
  have short : ∀ m ∈ ((start .new).run farewell).sent, m.encode.length < payloadLimit := by
    rw [sent_farewell]
    decide
  obtain ⟨conn, done, todo, hcurrent, hsent, -, hread, -, -, hrests, -⟩ :=
    queued_messages_arrive .new farewell short
  have hstopped : conn.writer = .stopped := by
    have hwriter : ((start .new).run farewell).client.current?.map (·.writer) = some .stopped := rfl
    rw [hcurrent] at hwriter
    exact Option.some.inj hwriter
  rw [hrests (by rw [Connection.writerStep, hstopped]), List.append_nil, sent_farewell] at hsent
  refine ⟨short, conn, hcurrent, fun ops hfed => ?_⟩
  rw [(hread ops hfed).2, ← hsent]
  rfl

/-- The compositor hangs up, and the reader has asked the writer to stop when a command comes. -/
def overtaken : List Act :=
  .arrive 0 .endOfStream :: .step 0 .reader ::
    .call (.perform (.raiseWindow 9)) :: List.replicate 3 .proceed ++
    .call .close :: .proceed :: List.replicate 3 (.step 0 .reader) ++ [.step 0 .writer]

def notANumber : Command := .setWindowOpacity 1 ⟨0x7fc00000⟩

def unequal : List Act :=
  .call (.perform notANumber) :: List.replicate 3 .proceed ++ [.step 0 .writer]

/-- A command is taken and never written, though no write fails and the writer has nothing more to
do; and an opacity that is no number is written, and what is read does not equal it. -/
theorem taken_message_not_written :
    ((start .new).run overtaken).calls =
      [⟨.perform (.raiseWindow 9), 0, [.command (.raiseWindow 9)], .returned (.ok 0)⟩,
        ⟨.close, 0, [], .returned (.ok 0)⟩] ∧
    (∃ conn, ((start .new).run overtaken).client.current? = some conn ∧
      conn.transport.fault = none ∧ conn.writer = .stopped ∧ conn.transport.written = []) ∧
    ((start .new).run unequal).calls =
      [⟨.perform notANumber, 0, [.command notANumber], .returned (.ok 0)⟩] ∧
    ∃ conn, ((start .new).run unequal).client.current? = some conn ∧
      conn.transport.written = (Frame.ofMessage (.command notANumber) 0).encode ∧
      (Frame.ofMessage (.command notANumber) 0).message = .ok (.command notANumber) ∧
      (Message.command notANumber).agrees (.command notANumber) = false := by
  have hread : (Frame.ofMessage (.command notANumber) 0).message = .ok (.command notANumber) := by
    have hcounted : (Message.command notANumber).WellCounted := trivial
    exact Frame.message_ofMessage hcounted 0
  exact ⟨rfl, ⟨_, rfl, rfl, rfl, rfl⟩, rfl, _, rfl, rfl, hread, by decide⟩

end Dialogue
end CompositorClient
