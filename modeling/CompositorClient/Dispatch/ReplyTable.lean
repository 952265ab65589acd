import CompositorClient.Protocol.Error
import CompositorClient.Protocol.Message

/-! The table of unanswered queries.  Each query holds a ticket, whose slot is filled once.
Queries of one kind queue in the order they were made; a reply goes to the one whose
sequence number it echoes, or else to the oldest. -/

namespace CompositorClient

inductive ReplyError
  | connectionClosed
  | undecodable (error : ProtocolError)
  deriving DecidableEq

def ReplyError.message : ReplyError → String
  | connectionClosed => "connection closed before the reply arrived"
  | undecodable e => "reply could not be decoded: " ++ e.message

abbrev Answer := Except ReplyError Reply

/-- What the holder of a ticket finds. -/
inductive Slot
  | waiting
  | answered (answer : Answer)
  | collected
  | abandoned

abbrev Ticket := Nat

structure Waiter where
  ticket : Ticket
  sequence : UInt32
  deriving DecidableEq

namespace Waiter

/-- Which of `queue` gets an answer marked `sequence`. -/
def choose (sequence : UInt32) (queue : List Waiter) : Nat :=
  if sequence = 0 then 0 else (queue.findIdx? (·.sequence == sequence)).getD 0

/-- Offers an answer to the chosen waiter, and to the next choice while the chosen one turns
out, in that round, to have gone.  Gives the waiter that took it and those left. -/
def offer (present : Nat → Waiter → Bool) (sequence : UInt32) (round : Nat)
    (queue : List Waiter) : Option Waiter × List Waiter :=
  match h : queue[choose sequence queue]? with
  | none => (none, queue)
  | some w =>
    let rest := queue.eraseIdx (choose sequence queue)
    have : rest.length < queue.length := by
      obtain ⟨hi, _⟩ := List.getElem?_eq_some_iff.mp h
      rw [List.length_eraseIdx_of_lt hi]
      omega
    if present round w then (some w, rest) else offer present sequence (round + 1) rest
termination_by queue.length

end Waiter

structure ReplyTable where
  slots : List Slot := []
  queues : ReplyKind → List Waiter := fun _ => []
  closed : Bool := false

namespace ReplyTable

def empty : ReplyTable := {}

def isWaiting (t : ReplyTable) (ticket : Ticket) : Bool :=
  match t.slots[ticket]? with
  | some .waiting => true
  | _ => false

def setSlot (t : ReplyTable) (ticket : Ticket) (s : Slot) : ReplyTable :=
  { t with slots := t.slots.set ticket s }

def setQueue (t : ReplyTable) (kind : ReplyKind) (queue : List Waiter) : ReplyTable :=
  { t with queues := fun k => if k = kind then queue else t.queues k }

/-- A closed table answers at once. -/
def register (t : ReplyTable) (kind : ReplyKind) (sequence : UInt32) : Ticket × ReplyTable :=
  let ticket := t.slots.length
  if t.closed then
    (ticket, { t with slots := t.slots ++ [.answered (.error .connectionClosed)] })
  else
    (ticket, { t.setQueue kind (t.queues kind ++ [⟨ticket, sequence⟩]) with
      slots := t.slots ++ [.waiting] })

/-- The holder gives the ticket up. -/
def abandon (t : ReplyTable) (ticket : Ticket) : ReplyTable :=
  t.setSlot ticket .abandoned

/-- The holder looks; an answer is handed out once. -/
def collect (t : ReplyTable) (ticket : Ticket) : Option Answer × ReplyTable :=
  match t.slots[ticket]? with
  | some (.answered a) => (some a, t.setSlot ticket .collected)
  | _ => (none, t)

/-- The waiters of a kind whose tickets have not been given up. -/
def live (t : ReplyTable) (kind : ReplyKind) : List Waiter :=
  (t.queues kind).filter fun w => t.isWaiting w.ticket

def pending (t : ReplyTable) (kind : ReplyKind) : Nat :=
  (t.live kind).length

/-- Forgets the tickets given up, then hands the answer to one waiter, if there is any. -/
def deliver (t : ReplyTable) (kind : ReplyKind) (sequence : UInt32) (answer : Answer) :
    Bool × ReplyTable :=
  match Waiter.offer (fun _ w => t.isWaiting w.ticket) sequence 0 (t.live kind) with
  | (some w, rest) => (true, (t.setSlot w.ticket (.answered answer)).setQueue kind rest)
  | (none, rest) => (false, t.setQueue kind rest)

def resolve (t : ReplyTable) (reply : Reply) (sequence : UInt32) : Bool × ReplyTable :=
  t.deliver reply.kind sequence (.ok reply)

def fail (t : ReplyTable) (kind : ReplyKind) (sequence : UInt32) (error : ReplyError) :
    Bool × ReplyTable :=
  t.deliver kind sequence (.error error)

/-- Every waiter of every kind. -/
def allLive (t : ReplyTable) : List Waiter :=
  ReplyKind.all.flatMap t.live

/-- Fails every waiter and tells how many there were. -/
def close (t : ReplyTable) : Nat × ReplyTable :=
  (t.allLive.length,
    { slots := t.allLive.foldl
        (fun slots w => slots.set w.ticket (.answered (.error .connectionClosed))) t.slots
      queues := fun _ => []
      closed := true })

end ReplyTable
end CompositorClient
