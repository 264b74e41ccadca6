import AuctionLog.Recorder.Basic

namespace AuctionLog

/-- What a host and the owner of the sink may do with a recorder. -/
inductive SessionStep where
  | record (event : Option Event)
  | attempt (event : Option Event)
  | drain (limit : Option Nat)
  | dropReceiver
  /-- Goes on with a copy of the recorder, which shares the sink. -/
  | clone
  | rename (name : String)
  | identity

inductive SessionReply where
  | acknowledged (acknowledgment : Acknowledgment)
  | recorded (record : LogRecord)
  | faulted (fault : RecordFault)
  | panicked (message : String)
  | lines (lines : List String)
  | identity (name : String) (vendorId : Int)
  | done
deriving DecidableEq

structure Session where
  recorder : Recorder
  station : Station

namespace Session

def start (encoder : Encoder) (name : Option String) (sink : Sink) : Session :=
  { recorder := { name := name.getD Recorder.defaultName, encoder }, station := .start sink }

def withSink (session : Session) (sink : Sink) : Session :=
  { session with station := { session.station with sink } }

def step (session : Session) : SessionStep → SessionReply × Session
  | .record event =>
      let (acknowledgment, station) := session.recorder.record event session.station
      (.acknowledged acknowledgment, { session with station })
  | .attempt event =>
      match session.recorder.attempt event session.station with
      | (.ok record, station) => (.recorded record, { session with station })
      | (.error (.fault fault), station) => (.faulted fault, { session with station })
      | (.error (.panic message), station) => (.panicked message, { session with station })
  | .drain limit =>
      let (lines, sink) := session.station.sink.drain limit
      (.lines lines, session.withSink sink)
  | .dropReceiver => (.done, session.withSink session.station.sink.dropReceiver)
  | .clone => (.done, session)
  | .rename name => (.done, { session with recorder := { session.recorder with name } })
  | .identity => (.identity session.recorder.name Recorder.vendorId, session)

/-- Takes the steps in order. An attempt that panics ends the session. -/
def run (session : Session) : List SessionStep → List SessionReply × Session
  | [] => ([], session)
  | step :: rest =>
      match session.step step with
      | (.panicked message, session) => ([.panicked message], session)
      | (reply, session) =>
          let (replies, session) := run session rest
          (reply :: replies, session)

end Session

end AuctionLog
