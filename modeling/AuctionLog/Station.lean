import AuctionLog.Sink.Basic

namespace AuctionLog

/-- A sink, with the counters and the journal of all that has happened at it. -/
structure Station where
  sink : Sink
  counts : Counts
  journal : List Entry

namespace Station

def start (sink : Sink) : Station :=
  { sink, counts := [], journal := [] }

def count (station : Station) (counter : Counter) : Station :=
  { station with counts := station.counts ++ [counter] }

def note (station : Station) (entry : Entry) : Station :=
  { station with journal := station.journal ++ [entry] }

def noteAll (station : Station) (entries : List Entry) : Station :=
  { station with journal := station.journal ++ entries }

/-- Offers a line to the sink in a span, with the reason if it is not taken. -/
def offer (station : Station) (span : Span) (line : String) : Option String × Station :=
  let offered := station.sink.offer line
  (offered.refusal,
    { sink := offered.sink
      counts := station.counts ++ offered.counts
      journal := station.journal ++ offered.entries.map (·.within span) })

variable (station : Station) (span : Span) (line : String)

@[simp]
theorem count_sink (counter : Counter) : (station.count counter).sink = station.sink := rfl

@[simp]
theorem count_counts (counter : Counter) :
    (station.count counter).counts = station.counts ++ [counter] := rfl

@[simp]
theorem note_sink (entry : Entry) : (station.note entry).sink = station.sink := rfl

@[simp]
theorem note_counts (entry : Entry) : (station.note entry).counts = station.counts := rfl

@[simp]
theorem noteAll_sink (entries : List Entry) : (station.noteAll entries).sink = station.sink := rfl

@[simp]
theorem noteAll_counts (entries : List Entry) :
    (station.noteAll entries).counts = station.counts := rfl

@[simp]
theorem offer_refusal : (station.offer span line).1 = (station.sink.offer line).refusal := rfl

@[simp]
theorem offer_sink : (station.offer span line).2.sink = (station.sink.offer line).sink := rfl

@[simp]
theorem offer_counts :
    (station.offer span line).2.counts = station.counts ++ (station.sink.offer line).counts := rfl

end Station

end AuctionLog
