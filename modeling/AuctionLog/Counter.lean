import AuctionLog.Endpoint

namespace AuctionLog

inductive DropCause where
  | payload
  | encoding
  | sink
  | panic
deriving DecidableEq

def DropCause.name : DropCause → String
  | .payload => "conversion"
  | .encoding => "serialization"
  | .sink => "sink_unavailable"
  | .panic => "panic"

structure RequestLabels where
  method : String
  path : String
  status : Nat
deriving DecidableEq

inductive Counter where
  | processed (endpoint : Endpoint)
  | dropped (cause : DropCause)
  | queueFull
  | requests (labels : RequestLabels)
  /-- The requests whose duration was taken. -/
  | durations (labels : RequestLabels)
deriving DecidableEq

namespace Counter

/-- A label value between quotes. A pair of backslashes is taken as one that is escaped already. -/
def escapeFrom (afterBackslash : Bool) : List Char → List Char
  | [] => if afterBackslash then ['\\', '\\'] else []
  | '\n' :: rest => '\\' :: 'n' :: escapeFrom afterBackslash rest
  | '"' :: rest => '\\' :: '"' :: escapeFrom false rest
  | '\\' :: rest =>
      if afterBackslash then '\\' :: '\\' :: escapeFrom false rest else escapeFrom true rest
  | char :: rest =>
      if afterBackslash then '\\' :: '\\' :: char :: escapeFrom false rest
      else char :: escapeFrom false rest

def label (name value : String) : String :=
  name ++ "=\"" ++ String.ofList (escapeFrom false value.toList) ++ "\""

def labelled (name : String) (labels : List String) : String :=
  name ++ "\x7b" ++ ",".intercalate labels ++ "\x7d"

def requestLabels (labels : RequestLabels) : List String :=
  [ label "method" labels.method
  , label "path" labels.path
  , label "status" (String.ofList (Nat.toDigits 10 labels.status)) ]

def text : Counter → String
  | .processed endpoint =>
      labelled "analytics_events_processed_total" [label "type" endpoint.path]
  | .dropped cause => labelled "analytics_events_dropped_total" [label "cause" cause.name]
  | .queueFull => "analytics_channel_full_total"
  | .requests labels => labelled "http_requests_total" (requestLabels labels)
  | .durations labels =>
      labelled "http_requests_duration_seconds_count" (requestLabels labels)

end Counter

/-- Counters in the order they were raised, each time by one. -/
abbrev Counts := List Counter

/-- How often each counter was raised, in the order of the first time. -/
def Counts.totals (counts : Counts) : List (Counter × Nat) :=
  counts.eraseDups.map fun counter => (counter, counts.count counter)

end AuctionLog
