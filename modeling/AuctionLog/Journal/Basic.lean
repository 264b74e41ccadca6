namespace AuctionLog

inductive Level where
  | error
  | warn
  | info
  | debug
  | trace
deriving DecidableEq

namespace Level

def all : List Level :=
  [.error, .warn, .info, .debug, .trace]

def name : Level → String
  | .error => "ERROR"
  | .warn => "WARN"
  | .info => "INFO"
  | .debug => "DEBUG"
  | .trace => "TRACE"

/-- The number of a level: a filter at a number lets through the levels up to it. -/
def number : Level → Nat
  | .error => 1
  | .warn => 2
  | .info => 3
  | .debug => 4
  | .trace => 5

end Level

structure Span where
  name : String
  target : String
deriving DecidableEq

/-- A line of the journal that the service keeps beside the records. -/
structure Entry where
  level : Level
  target : String
  message : String
  fields : List (String × String)
  /-- Whether the entry has a field for the event that it is about, which is not kept. -/
  hasEvent : Bool
  span : Option Span
deriving DecidableEq

namespace Entry

def plain (level : Level) (target message : String) : Entry :=
  { level, target, message, fields := [], hasEvent := false, span := none }

def within (entry : Entry) (span : Span) : Entry :=
  { entry with span := some span }

def hasField (entry : Entry) (name : String) : Bool :=
  name == "message" || (entry.hasEvent && name == "event") ||
    entry.fields.any fun field => field.1 == name

end Entry

end AuctionLog
