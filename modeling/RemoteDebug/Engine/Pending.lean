import RemoteDebug.Engine.Association

/-! Replies awaited by command name.

The wire has no request numbers: a reply names the command it answers. Each
command has a queue of slots, oldest first, and every slot belongs to a ticket.
The holder of a ticket has a receiver, which is waiting, answered or failed. A
receiver can be given up before its slot is withdrawn, so a slot may be dead:
`complete` passes over such slots. -/
namespace RemoteDebug.Engine

abbrev Ticket := Nat

/-- What the holder of a ticket sees. -/
inductive Receiver (α : Type) where
  | waiting
  | answered (value : α)
  /-- The slot went away without an answer. -/
  | failed
  deriving Repr, Inhabited

structure Pending (α : Type) where
  /-- The queues by command; a key may stay when its queue is empty. -/
  slots : List (String × List Ticket) := []
  /-- The receivers that are still held. -/
  receivers : List (Ticket × Receiver α) := []
  nextTicket : Ticket := 1
  deriving Repr

namespace Pending
variable {α : Type}

instance : Inhabited (Pending α) := ⟨{}⟩

def queue (p : Pending α) (command : String) : List Ticket := (p.slots.lookup command).getD []

def receiver? (p : Pending α) (t : Ticket) : Option (Receiver α) := p.receivers.lookup t

/-- Whether an answer sent to a slot would arrive. -/
def isLive (p : Pending α) (t : Ticket) : Bool :=
  match p.receiver? t with
  | some .waiting => true
  | _ => false

/-- Changes the receiver of a ticket, if it is held. -/
def setReceiver (p : Pending α) (t : Ticket) (r : Receiver α) : Pending α :=
  { p with receivers := p.receivers.map fun e => if e.1 = t then (t, r) else e }

/-- Adds a waiter for a command. -/
def register (p : Pending α) (command : String) : Ticket × Pending α :=
  (p.nextTicket,
    { slots := assign command (p.queue command ++ [p.nextTicket]) p.slots
      receivers := p.receivers ++ [(p.nextTicket, .waiting)]
      nextTicket := p.nextTicket + 1 })

/-- Hands a value to the oldest live waiter of a command and drops the dead slots before it.
Without one the value goes nowhere, and the first part is false. -/
def complete (p : Pending α) (command : String) (value : α) : Bool × Pending α :=
  match p.slots.lookup command with
  | none => (false, p)
  | some queue =>
    match queue.dropWhile (fun t => !p.isLive t) with
    | [] => (false, { p with slots := assign command [] p.slots })
    | t :: rest =>
      (true, { p.setReceiver t (.answered value) with slots := assign command rest p.slots })

/-- The receiver of a dropped slot: failed if it was still waiting. -/
def orphaned : Receiver α → Receiver α
  | .waiting => .failed
  | r => r

/-- Drops every slot, so that every waiter fails. -/
def failAll (p : Pending α) : Pending α :=
  let dropped := p.slots.flatMap (·.2)
  { p with
    slots := []
    receivers := p.receivers.map fun e => if e.1 ∈ dropped then (e.1, orphaned e.2) else e }

/-- The holder of a ticket gives up its receiver. -/
def release (p : Pending α) (t : Ticket) : Pending α :=
  { p with receivers := p.receivers.filter (·.1 != t) }

/-- Takes the slot of a ticket out of its queue, and the key of an empty queue with it. -/
def withdraw (p : Pending α) (command : String) (t : Ticket) : Pending α :=
  match p.slots.lookup command with
  | none => p
  | some queue =>
    let rest := queue.filter (· != t)
    { p with
      slots := if rest.isEmpty then p.slots.filter (·.1 != command) else assign command rest p.slots
      receivers := p.receivers.map fun e => if e.1 = t then (t, orphaned e.2) else e }

/-- What a waiter does when it stops waiting, with an answer or without. -/
def leave (p : Pending α) (command : String) (t : Ticket) : Pending α :=
  (p.release t).withdraw command t

end Pending

end RemoteDebug.Engine
