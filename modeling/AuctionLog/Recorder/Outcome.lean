import AuctionLog.Counter
import AuctionLog.Summary.Basic

namespace AuctionLog

/-- What a host gets back for each event: there is no way to say that it was dropped. -/
inductive Acknowledgment where
  | ok
deriving DecidableEq

namespace Acknowledgment

def status : Acknowledgment → String
  | .ok => "Ok"

def isOk : Acknowledgment → Bool
  | .ok => true

def toJson (acknowledgment : Acknowledgment) : Json :=
  .obj [("status", .str acknowledgment.status)]

def decoder : Decoder Acknowledgment :=
  .record "Completion" [.required "status" (.choice [("Ok", .ok)]) fun _ value => value] .ok

end Acknowledgment

inductive RecordFault where
  | payload (fault : PayloadFault)
  | encoding (reason : String)
  | sink (reason : String)
deriving DecidableEq

namespace RecordFault

def cause : RecordFault → DropCause
  | .payload _ => .payload
  | .encoding _ => .encoding
  | .sink _ => .sink

def message : RecordFault → String
  | .payload fault =>
      "failed to convert payload into " ++ fault.payload.summaryName ++ ": " ++
        fault.mismatch.message
  | .encoding reason => "failed to encode canonical event: " ++ reason
  | .sink reason => "record sink unavailable: " ++ reason

end RecordFault

/-- How an attempt to record an event ends early: with a fault, or in a panic of the encoder. -/
inductive Stop where
  | fault (fault : RecordFault)
  | panic (message : String)
deriving DecidableEq

def Stop.cause : Stop → DropCause
  | .fault reason => reason.cause
  | .panic _ => .panic

end AuctionLog
