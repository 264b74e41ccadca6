namespace AuctionLog

inductive Endpoint where
  | auction
  | amp
  | video
  | cookieSync
  | setuid
  | notification
  | unknown
deriving DecidableEq

namespace Endpoint

def all : List Endpoint :=
  [.auction, .amp, .video, .cookieSync, .setuid, .notification, .unknown]

def index : Endpoint → Nat
  | .auction => 0
  | .amp => 1
  | .video => 2
  | .cookieSync => 3
  | .setuid => 4
  | .notification => 5
  | .unknown => 6

def path : Endpoint → String
  | .auction => "/openrtb2/auction"
  | .amp => "/openrtb2/amp"
  | .video => "/openrtb2/video"
  | .cookieSync => "/cookie_sync"
  | .setuid => "/setuid"
  | .notification => "/event"
  | .unknown => "unknown"

/-- The endpoint with the given path; every other text names the unknown one. -/
def ofPath (path : String) : Endpoint :=
  (all.find? fun endpoint => endpoint.path == path).getD .unknown

end Endpoint

end AuctionLog
