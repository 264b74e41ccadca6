import AuctionLog.Endpoint
import AuctionLog.NamedValues
import AuctionLog.Summary.Basic

namespace AuctionLog

open Json

structure AuctionFacts where
  bidRequest : Option BidRequest
  bidResponse : Option BidResponse
deriving DecidableEq

structure AmpFacts where
  auction : AuctionFacts
  targeting : Option (List (String × String))
  origin : Option String
deriving DecidableEq

/-- What a record tells of the sync that a bidder asks for: whether it allows other origins is left
out. -/
structure OfferFacts where
  url : Option String
  type : Option String
  status : Option String
deriving DecidableEq

structure SyncFacts where
  bidder : Option String
  noCookie : Option Bool
  usersync : Option OfferFacts
  error : Option String
  responseTimeMs : Option UInt64
deriving DecidableEq

structure UidFacts where
  bidder : Option String
  uid : Option String
  success : Option Bool
deriving DecidableEq

structure NoticeFacts where
  bidId : Option String
  timestamp : Option Int64
  type : Option String
  bidder : Option String
  integration : Option String
deriving DecidableEq

inductive Facts where
  | auction (facts : AuctionFacts)
  | amp (facts : AmpFacts)
  | video (facts : AuctionFacts)
  | cookieSync (statuses : List SyncFacts)
  | setuid (facts : UidFacts)
  | notification (facts : NoticeFacts)
  /-- A value that was kept whole, unless there was no event at all. -/
  | unknown (kept : Option Json)
deriving DecidableEq

def AuctionFacts.members (facts : AuctionFacts) : Members :=
  member? "bidRequest" (facts.bidRequest.map (·.toJson)) ++
    member? "bidResponse" (facts.bidResponse.map (·.toJson))

def AmpFacts.members (facts : AmpFacts) : Members :=
  facts.auction.members ++
    member? "targeting" (facts.targeting.map NamedValues.textMembers) ++
    member? "origin" (facts.origin.map .str)

def OfferFacts.members (facts : OfferFacts) : Members :=
  member? "url" (facts.url.map .str) ++
    member? "type" (facts.type.map .str) ++
    member? "status" (facts.status.map .str)

def SyncFacts.members (facts : SyncFacts) : Members :=
  member? "bidder" (facts.bidder.map .str) ++
    member? "noCookie" (facts.noCookie.map .bool) ++
    member? "usersync" (facts.usersync.map (.obj ·.members)) ++
    member? "error" (facts.error.map .str) ++
    member? "response_time_ms" (facts.responseTimeMs.map (.num <| .ofUInt64 ·))

def UidFacts.members (facts : UidFacts) : Members :=
  member? "bidder" (facts.bidder.map .str) ++
    member? "uid" (facts.uid.map .str) ++
    member? "success" (facts.success.map .bool)

def NoticeFacts.members (facts : NoticeFacts) : Members :=
  member? "bidId" (facts.bidId.map .str) ++
    member? "timestamp" (facts.timestamp.map (.num <| .ofInt64 ·)) ++
    member? "notificationType" (facts.type.map .str) ++
    member? "bidder" (facts.bidder.map .str) ++
    member? "integration" (facts.integration.map .str)

namespace Facts

def endpoint : Facts → Endpoint
  | .auction _ => .auction
  | .amp _ => .amp
  | .video _ => .video
  | .cookieSync _ => .cookieSync
  | .setuid _ => .setuid
  | .notification _ => .notification
  | .unknown _ => .unknown

def members : Facts → Members
  | .auction facts => facts.members
  | .amp facts => facts.members
  | .video facts => facts.members
  | .cookieSync statuses => [("bidderStatus", .arr (statuses.map (.obj ·.members)))]
  | .setuid facts => facts.members
  | .notification facts => facts.members
  | .unknown kept => member? "unknownEvent" kept

def toJson (facts : Facts) : Json :=
  .obj facts.members

end Facts

end AuctionLog
