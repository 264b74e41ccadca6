import AuctionLog.Facts
import AuctionLog.RequestView

namespace AuctionLog

open Json

/-- What one line of the log tells: of an event, and of the request that it was served over. -/
structure LogRecord where
  facts : Facts
  request : Option RequestView
deriving DecidableEq

namespace LogRecord

def endpoint (record : LogRecord) : Endpoint :=
  record.facts.endpoint

def members (record : LogRecord) : Members :=
  ("type", .str record.endpoint.path) ::
    ((record.request.map (·.members)).getD [] ++ record.facts.members)

def toJson (record : LogRecord) : Json :=
  .obj record.members

/-- The line that a record is written as, without its line feed. -/
def line (record : LogRecord) : String :=
  record.toJson.compact

end LogRecord

end AuctionLog
