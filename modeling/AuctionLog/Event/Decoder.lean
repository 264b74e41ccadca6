import AuctionLog.Event.Basic

namespace AuctionLog

open Json

def AuctionInput.decoder : Decoder AuctionInput :=
  .record "AuctionContext" [.optional "bidRequest" .json fun _ value => ⟨value⟩] ⟨none⟩

namespace Auction

def empty : Auction := ⟨none, none, none⟩

def fields : List (Field Auction) :=
  [ .optional "httpContext" ServedRequest.decoder fun auction value =>
      { auction with request := value }
  , .optional "auctionContext" AuctionInput.decoder fun auction value =>
      { auction with input := value }
  , .optional "bidResponse" .json fun auction value => { auction with bidResponse := value } ]

/-- Auctions over the web and for video have the same fields; only reports tell them apart. -/
def decoder (name : String) : Decoder Auction :=
  .record name fields empty

end Auction

namespace AmpAuction

def empty : AmpAuction := ⟨.empty, none, none⟩

def fields : List (Field AmpAuction) :=
  [ .optional "httpContext" ServedRequest.decoder fun amp value =>
      { amp with auction := { amp.auction with request := value } }
  , .optional "auctionContext" AuctionInput.decoder fun amp value =>
      { amp with auction := { amp.auction with input := value } }
  , .optional "bidResponse" .json fun amp value =>
      { amp with auction := { amp.auction with bidResponse := value } }
  , .optional "targeting" .object fun amp value => { amp with targeting := value }
  , .optional "origin" .text fun amp value => { amp with origin := value } ]

def decoder : Decoder AmpAuction :=
  .record "AmpEvent" fields empty

end AmpAuction

def SyncMethod.decoder : Decoder SyncMethod :=
  .choice [("iframe", .iframe), ("redirect", .redirect)]

namespace SyncOffer

def empty : SyncOffer := ⟨none, none, none, none⟩

def fields : List (Field SyncOffer) :=
  [ .optional "url" .text fun offer value => { offer with url := value }
  , .optional "type" SyncMethod.decoder fun offer value => { offer with method := value }
  , .optional "supportCORS" .flag fun offer value => { offer with supportCors := value }
  , .optional "status" .text fun offer value => { offer with status := value } ]

def decoder : Decoder SyncOffer :=
  .record "UsersyncInfo" fields empty

end SyncOffer

namespace SyncStatus

def empty : SyncStatus := ⟨none, none, none, none, none⟩

/-- The response time has a second name, under which it is recorded. -/
def fields : List (Field SyncStatus) :=
  [ .optional "bidder" .text fun status value => { status with bidder := value }
  , .optional "noCookie" .flag fun status value => { status with noCookie := value }
  , .optional "usersync" SyncOffer.decoder fun status value => { status with usersync := value }
  , .optional "error" .text fun status value => { status with error := value }
  , (Field.optional "responseTimeMs" .nat64 fun status value =>
      { status with responseTimeMs := value }).withAlias "response_time_ms" ]

def decoder : Decoder SyncStatus :=
  .record "BidderUsersyncStatus" fields empty

def listDecoder : Decoder (List SyncStatus) :=
  .record "CookieSyncEvent" [.defaulted "bidderStatus" decoder.list fun _ value => value] []

end SyncStatus

namespace UidChange

def empty : UidChange := ⟨none, none, none⟩

def fields : List (Field UidChange) :=
  [ .optional "bidder" .text fun change value => { change with bidder := value }
  , .optional "uid" .text fun change value => { change with uid := value }
  , .optional "success" .flag fun change value => { change with success := value } ]

def decoder : Decoder UidChange :=
  .record "SetuidEvent" fields empty

end UidChange

def NoticeType.decoder : Decoder NoticeType :=
  .choice [("win", .win), ("imp", .imp)]

namespace Notice

def empty : Notice := ⟨none, none, none, none, none, none⟩

def fields : List (Field Notice) :=
  [ .optional "type" NoticeType.decoder fun notice value => { notice with type := value }
  , .optional "bidId" .text fun notice value => { notice with bidId := value }
  , .optional "bidder" .text fun notice value => { notice with bidder := value }
  , .optional "timestamp" .int64 fun notice value => { notice with timestamp := value }
  , .optional "integration" .text fun notice value => { notice with integration := value }
  , .optional "httpContext" ServedRequest.decoder fun notice value =>
      { notice with request := value } ]

def decoder : Decoder Notice :=
  .record "NotificationEvent" fields empty

end Notice

/-- How the events of an endpoint are read. What comes from an unknown one is read as it is. -/
def Event.decoder : Endpoint → Decoder Event
  | .auction => (Auction.decoder "AuctionEvent").map .auction
  | .amp => AmpAuction.decoder.map .amp
  | .video => (Auction.decoder "VideoEvent").map .video
  | .cookieSync => SyncStatus.listDecoder.map .cookieSync
  | .setuid => UidChange.decoder.map .setuid
  | .notification => Notice.decoder.map .notification
  | .unknown => Decoder.json.map .unrecognized

end AuctionLog
