import AuctionLog.Event.Basic
import AuctionLog.LogRecord

namespace AuctionLog

open Json

/-- The facts of an auction. Of two payloads that cannot be summarized the request is reported. -/
def Auction.facts (auction : Auction) : Except PayloadFault AuctionFacts := do
  let bidRequest ← BidRequest.ofPayload auction.bidRequest
  let bidResponse ← BidResponse.ofPayload auction.bidResponse
  return { bidRequest, bidResponse }

/-- Targeting is recorded as texts: a text as it is, another scalar as its JSON text, and nothing of
a list or an object. -/
def targetingText : Json → String
  | .str value => value
  | .arr _ | .obj _ => ""
  | scalar => scalar.compact

def AmpAuction.facts (amp : AmpAuction) : Except PayloadFault AmpFacts := do
  let auction ← amp.auction.facts
  let targeting := amp.targeting.map fun members =>
    members.map fun member => (member.1, targetingText member.2)
  return { auction, targeting, origin := amp.origin }

def SyncOffer.facts (offer : SyncOffer) : OfferFacts :=
  { url := offer.url, type := offer.method.map (·.name), status := offer.status }

def SyncStatus.facts (status : SyncStatus) : SyncFacts :=
  { bidder := status.bidder
    noCookie := status.noCookie
    usersync := status.usersync.map (·.facts)
    error := status.error
    responseTimeMs := status.responseTimeMs }

def UidChange.facts (change : UidChange) : UidFacts :=
  { bidder := change.bidder, uid := change.uid, success := change.success }

def Notice.facts (notice : Notice) : NoticeFacts :=
  { bidId := notice.bidId
    timestamp := notice.timestamp
    type := notice.type.map (·.name)
    bidder := notice.bidder
    integration := notice.integration }

namespace Event

def facts : Option Event → Except PayloadFault Facts
  | none => .ok (.unknown none)
  | some (.auction reported) => do return .auction (← reported.facts)
  | some (.amp reported) => do return .amp (← reported.facts)
  | some (.video reported) => do return .video (← reported.facts)
  | some (.cookieSync statuses) => .ok (.cookieSync (statuses.map (·.facts)))
  | some (.setuid reported) => .ok (.setuid reported.facts)
  | some (.notification reported) => .ok (.notification reported.facts)
  | some (.unrecognized value) => .ok (.unknown (some value))

def requestView (event : Option Event) : Option RequestView :=
  (event.bind (·.request)).map RequestView.ofRequest

def record (event : Option Event) : Except PayloadFault LogRecord := do
  return { facts := ← facts event, request := requestView event }

end Event

end AuctionLog
