import AuctionLog.Event.Facts
import AuctionLog.Event.Intake
import AuctionLog.Recorder.Outcome
import AuctionLog.Station

namespace AuctionLog

inductive Encoded where
  | line (text : String)
  | refused (reason : String)
  | panicked (message : String)
deriving DecidableEq

abbrev Encoder := LogRecord → Encoded

namespace Encoder

def json : Encoder := fun record => .line record.line

/-- Refuses every record, for the reason that an object without an end gives. -/
def failing : Encoder := fun _ =>
  match Json.parse [0x7B] with
  | .ok _ => .refused ""
  | .error fault => .refused (fault.message [0x7B])

def panicking : Encoder := fun _ => .panicked "encoder blew up"

end Encoder

structure Recorder where
  name : String
  encoder : Encoder

namespace Recorder

def defaultName : String := "psdoaAnalytics"

def vendorId : Int := 0

def endpointOf (event : Option Event) : Endpoint :=
  (event.map (·.endpoint)).getD .unknown

/-- What the journal tells of an attempt: an event of no known shape is worth a note. -/
def attemptEntries (event : Option Event) : List Entry :=
  { Entry.plain .debug "reporter::reporter" "processing analytics event" with
    fields := [("kind", (endpointOf event).path)]
    hasEvent := true } ::
    match event with
    | some (.unrecognized _) =>
        [{ Entry.plain .debug "reporter::dispatch" "handling unknown event type" with
          hasEvent := true }]
    | _ => []

def attemptSpan : Span := ⟨"try_process", "reporter::reporter"⟩

/-- Makes a record of the event and offers its line to the sink. What is wrong with a payload is
found first, then what the encoder refuses, then what the sink refuses. -/
def attempt (recorder : Recorder) (event : Option Event) (station : Station) :
    Except Stop LogRecord × Station :=
  let station := station.noteAll ((attemptEntries event).map (·.within attemptSpan))
  match Event.record event with
  | .error fault => (.error (.fault (.payload fault)), station)
  | .ok record =>
      match recorder.encoder record with
      | .panicked message => (.error (.panic message), station)
      | .refused reason => (.error (.fault (.encoding reason)), station)
      | .line line =>
          match station.offer attemptSpan line with
          | (none, station) => (.ok record, station)
          | (some reason, station) => (.error (.fault (.sink reason)), station)

def dropEntry : Stop → Entry
  | .fault reason =>
      { Entry.plain .error "reporter::reporter"
          ("error processing analytics event: " ++ reason.message) with
        fields := [("cause", reason.cause.name)]
        hasEvent := true }
  | .panic _ =>
      { Entry.plain .error "reporter::reporter" "analytics pipeline panicked" with
        hasEvent := true }

/-- Records an event and counts it, as processed or as dropped. -/
def record (recorder : Recorder) (event : Option Event) (station : Station) :
    Acknowledgment × Station :=
  match recorder.attempt event station with
  | (.ok record, station) => (.ok, station.count (.processed record.endpoint))
  | (.error stop, station) => (.ok, (station.count (.dropped stop.cause)).note (dropEntry stop))

end Recorder

def Intake.entries : Intake → List Entry
  | .misfit endpoint mismatch _ =>
      [{ Entry.plain .debug "reporter::events" "envelope does not fit its tag, keeping it raw" with
        fields := [("kind", endpoint.path), ("error", mismatch.message)] }]
  | _ => []

end AuctionLog
