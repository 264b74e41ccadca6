import AuctionLog.Summary.Lenient

namespace AuctionLog

open Json

/-- The members of a bid request that are recorded. What is nested in them is carried as it
came. -/
structure BidRequest where
  id : Option String := none
  imp : Option (List Json) := none
  site : Option Json := none
  app : Option Json := none
  device : Option Json := none
  user : Option Json := none
  test : Option Int32 := none
  auctionType : Option Int32 := none
  tmax : Option Int32 := none
  cur : Option (List String) := none
  bcat : Option (List String) := none
  badv : Option (List String) := none
  bapp : Option (List String) := none
  source : Option Json := none
  regs : Option Json := none
  metric : Option (List Json) := none
  ext : Option Json := none
deriving DecidableEq

namespace BidRequest

def fields : List (Field BidRequest) :=
  [ .defaulted "id" Lenient.text fun request value => { request with id := value }
  , .optional "imp" Decoder.json.list fun request value => { request with imp := value }
  , .optional "site" .json fun request value => { request with site := value }
  , .optional "app" .json fun request value => { request with app := value }
  , .optional "device" .json fun request value => { request with device := value }
  , .optional "user" .json fun request value => { request with user := value }
  , .defaulted "test" Lenient.integer fun request value => { request with test := value }
  , .defaulted "at" Lenient.integer fun request value =>
      { request with auctionType := value }
  , .defaulted "tmax" Lenient.integer fun request value => { request with tmax := value }
  , .optional "cur" Decoder.text.list fun request value => { request with cur := value }
  , .optional "bcat" Decoder.text.list fun request value => { request with bcat := value }
  , .optional "badv" Decoder.text.list fun request value => { request with badv := value }
  , .optional "bapp" Decoder.text.list fun request value => { request with bapp := value }
  , .optional "source" .json fun request value => { request with source := value }
  , .optional "regs" .json fun request value => { request with regs := value }
  , .optional "metric" Decoder.json.list fun request value => { request with metric := value }
  , .optional "ext" .json fun request value => { request with ext := value } ]

def decoder : Decoder BidRequest :=
  .record "BidRequestSummary" fields {}

def members (request : BidRequest) : Members :=
  member? "id" (request.id.map .str) ++
    member? "imp" (request.imp.map .arr) ++
    member? "site" request.site ++
    member? "app" request.app ++
    member? "device" request.device ++
    member? "user" request.user ++
    member? "test" (request.test.map (.num <| .ofInt32 ·)) ++
    member? "at" (request.auctionType.map (.num <| .ofInt32 ·)) ++
    member? "tmax" (request.tmax.map (.num <| .ofInt32 ·)) ++
    member? "cur" (request.cur.map (.arr <| ·.map .str)) ++
    member? "bcat" (request.bcat.map (.arr <| ·.map .str)) ++
    member? "badv" (request.badv.map (.arr <| ·.map .str)) ++
    member? "bapp" (request.bapp.map (.arr <| ·.map .str)) ++
    member? "source" request.source ++
    member? "regs" request.regs ++
    member? "metric" (request.metric.map .arr) ++
    member? "ext" request.ext

def toJson (request : BidRequest) : Json :=
  .obj request.members

end BidRequest

end AuctionLog
