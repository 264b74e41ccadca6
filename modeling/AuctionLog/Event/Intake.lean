import AuctionLog.Event.Decoder

namespace AuctionLog

/-- What becomes of a JSON value that a host hands in, by its `event` member. -/
inductive Intake where
  /-- Null: there is no event. -/
  | nothing
  | fitting (event : Event)
  /-- The tag is missing, is no string, or names no endpoint. -/
  | untagged (value : Json)
  /-- The tag names an endpoint whose shape the value does not have. -/
  | misfit (endpoint : Endpoint) (mismatch : Json.Mismatch) (value : Json)
deriving DecidableEq

namespace Intake

def tag (value : Json) : Endpoint :=
  match value.get? "event" with
  | some (.str path) => .ofPath path
  | _ => .unknown

def ofJson (value : Json) : Intake :=
  if value.isNull then .nothing
  else if tag value = .unknown then .untagged value
  else
    match (Event.decoder (tag value)).ofJson value with
    | .ok event => .fitting event
    | .error mismatch => .misfit (tag value) mismatch value

/-- The event to record: a value that fits no endpoint is kept whole. -/
def event : Intake → Option Event
  | .nothing => none
  | .fitting event => some event
  | .untagged value => some (.unrecognized value)
  | .misfit _ _ value => some (.unrecognized value)

end Intake

end AuctionLog
