import AuctionLog.Endpoint
import AuctionLog.ServedRequest

namespace AuctionLog

open Json

structure AuctionInput where
  bidRequest : Option Json
deriving DecidableEq

structure Auction where
  request : Option ServedRequest
  input : Option AuctionInput
  bidResponse : Option Json
deriving DecidableEq

def Auction.bidRequest (auction : Auction) : Option Json :=
  auction.input.bind (·.bidRequest)

structure AmpAuction where
  auction : Auction
  targeting : Option Members
  origin : Option String
deriving DecidableEq

inductive SyncMethod where
  | iframe
  | redirect
deriving DecidableEq

def SyncMethod.name : SyncMethod → String
  | .iframe => "iframe"
  | .redirect => "redirect"

structure SyncOffer where
  url : Option String
  method : Option SyncMethod
  supportCors : Option Bool
  status : Option String
deriving DecidableEq

structure SyncStatus where
  bidder : Option String
  noCookie : Option Bool
  usersync : Option SyncOffer
  error : Option String
  responseTimeMs : Option UInt64
deriving DecidableEq

structure UidChange where
  bidder : Option String
  uid : Option String
  success : Option Bool
deriving DecidableEq

inductive NoticeType where
  | win
  | imp
deriving DecidableEq

def NoticeType.name : NoticeType → String
  | .win => "win"
  | .imp => "imp"

structure Notice where
  type : Option NoticeType
  bidId : Option String
  bidder : Option String
  /-- Milliseconds since the epoch. -/
  timestamp : Option Int64
  integration : Option String
  request : Option ServedRequest
deriving DecidableEq

/-- What a host may report. A value of no known shape is kept whole. -/
inductive Event where
  | auction (auction : Auction)
  | amp (amp : AmpAuction)
  | video (auction : Auction)
  | cookieSync (statuses : List SyncStatus)
  | setuid (change : UidChange)
  | notification (notice : Notice)
  | unrecognized (value : Json)
deriving DecidableEq

namespace Event

def endpoint : Event → Endpoint
  | .auction _ => .auction
  | .amp _ => .amp
  | .video _ => .video
  | .cookieSync _ => .cookieSync
  | .setuid _ => .setuid
  | .notification _ => .notification
  | .unrecognized _ => .unknown

/-- The request an event was served over. Cookie syncs and uid changes have none. -/
def request : Event → Option ServedRequest
  | .auction reported => reported.request
  | .amp reported => reported.auction.request
  | .video reported => reported.request
  | .notification reported => reported.request
  | .cookieSync _ | .setuid _ | .unrecognized _ => none

def withRequest (request : Option ServedRequest) : Event → Event
  | .auction reported => .auction { reported with request }
  | .amp reported => .amp { reported with auction := { reported.auction with request } }
  | .video reported => .video { reported with request }
  | .notification reported => .notification { reported with request }
  | other => other

end Event

end AuctionLog
