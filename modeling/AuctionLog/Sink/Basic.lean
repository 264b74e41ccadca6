import AuctionLog.Counter
import AuctionLog.Journal.Basic
import AuctionLog.Sink.Queue

namespace AuctionLog

inductive Sink where
  | memory (lines : List String)
  | closed
  | queue (queue : Queue)
  /-- The journal, under a target of its own. -/
  | journal
deriving DecidableEq

def recordTarget : String := "analytics_log"

def recordEntry (line : String) : Entry :=
  .plain .info recordTarget line

/-- What offering a line to a sink leaves, with the reason if the line was not taken. -/
structure Offered where
  sink : Sink
  refusal : Option String
  counts : Counts
  entries : List Entry

namespace Sink

/-- Offers a line to the sink, which takes it at once or not at all. A queue that is full is
counted. -/
def offer (sink : Sink) (line : String) : Offered :=
  match sink with
  | .memory lines => ⟨.memory (lines ++ [line]), none, [], []⟩
  | .closed => ⟨.closed, some "closed", [], []⟩
  | .queue held =>
      match held.offer line with
      | .ok held => ⟨.queue held, none, [], []⟩
      | .error .full => ⟨.queue held, some Refusal.full.message, [.queueFull], []⟩
      | .error .closed => ⟨.queue held, some Refusal.closed.message, [], []⟩
  | .journal => ⟨.journal, none, [], [recordEntry line]⟩

def lines : Sink → List String
  | .memory lines => lines
  | .queue held => held.lines
  | .closed | .journal => []

/-- Takes the oldest lines out of the sink. Only a queue heeds the limit. -/
def drain (sink : Sink) (limit : Option Nat) : List String × Sink :=
  match sink with
  | .memory lines => (lines, .memory [])
  | .queue held =>
      let (lines, held) := held.drain limit
      (lines, .queue held)
  | other => ([], other)

def dropReceiver : Sink → Sink
  | .queue held => .queue held.dropReceiver
  | other => other

end Sink

end AuctionLog
