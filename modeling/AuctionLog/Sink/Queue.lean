namespace AuctionLog

inductive Receiver where
  | listening
  /-- Takes no more lines, but what is queued can still be received. -/
  | closed
  | gone
deriving DecidableEq

/-- Lines on their way to a writer, at most `capacity` of them at a time. -/
structure Queue where
  capacity : Nat
  lines : List String
  senders : Nat
  receiver : Receiver
deriving DecidableEq

inductive CapacityFault where
  | zero
  | tooGreat
deriving DecidableEq

inductive Refusal where
  | full
  | closed
deriving DecidableEq

def Refusal.message : Refusal → String
  | .full => "queue full"
  | .closed => "queue closed"

/-- What a receiver finds that does not wait. -/
inductive Received where
  | line (line : String)
  | empty
  | closed
deriving DecidableEq

def Received.message : Received → String
  | .line text => text
  | .empty => "receiving on an empty channel"
  | .closed => "receiving on a closed channel"

def Queue.maxCapacity : Nat := 0x1FFFFFFFFFFFFFFF

def CapacityFault.message : CapacityFault → String
  | .zero => "mpsc bounded channel requires buffer > 0"
  | .tooGreat =>
      "a semaphore may not have more than MAX_PERMITS permits (" ++
        String.ofList (Nat.toDigits 10 Queue.maxCapacity) ++ ")"

namespace Queue

/-- An empty queue with one sender. -/
def new (capacity : Nat) : Except CapacityFault Queue :=
  if capacity = 0 then .error .zero
  else if maxCapacity < capacity then .error .tooGreat
  else .ok { capacity, lines := [], senders := 1, receiver := .listening }

/-- Puts a line into the queue without waiting. A closed queue refuses it even when full. -/
def offer (queue : Queue) (line : String) : Except Refusal Queue :=
  if queue.receiver ≠ .listening then .error .closed
  else if queue.capacity ≤ queue.lines.length then .error .full
  else .ok { queue with lines := queue.lines ++ [line] }

def receive (queue : Queue) : Received × Queue :=
  match queue.lines with
  | line :: rest => (.line line, { queue with lines := rest })
  | [] =>
      if queue.receiver = .listening ∧ 0 < queue.senders then (.empty, queue) else (.closed, queue)

def drain (queue : Queue) (limit : Option Nat) : List String × Queue :=
  match limit with
  | none => (queue.lines, { queue with lines := [] })
  | some most => (queue.lines.take most, { queue with lines := queue.lines.drop most })

def addSender (queue : Queue) : Queue :=
  if queue.senders = 0 then queue else { queue with senders := queue.senders + 1 }

def dropSender (queue : Queue) : Queue :=
  { queue with senders := queue.senders - 1 }

def close (queue : Queue) : Queue :=
  match queue.receiver with
  | .listening => { queue with receiver := .closed }
  | _ => queue

/-- Lines that nobody can receive any more are lost with the receiver. -/
def dropReceiver (queue : Queue) : Queue :=
  { queue with receiver := .gone, lines := [] }

end Queue

end AuctionLog
