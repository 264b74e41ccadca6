import AuctionLog.Summary.Lenient

namespace AuctionLog

open Json

structure BidResponse where
  id : Option String := none
  seatbid : Option (List Json) := none
  bidid : Option String := none
  cur : Option String := none
  customdata : Option String := none
  nbr : Option Int32 := none
  ext : Option Json := none
deriving DecidableEq

namespace BidResponse

def fields : List (Field BidResponse) :=
  [ .defaulted "id" Lenient.text fun response value => { response with id := value }
  , .optional "seatbid" Decoder.json.list fun response value => { response with seatbid := value }
  , .defaulted "bidid" Lenient.text fun response value => { response with bidid := value }
  , .defaulted "cur" Lenient.text fun response value => { response with cur := value }
  , .defaulted "customdata" Lenient.text fun response value =>
      { response with customdata := value }
  , .defaulted "nbr" Lenient.integer fun response value => { response with nbr := value }
  , .optional "ext" .json fun response value => { response with ext := value } ]

def decoder : Decoder BidResponse :=
  .record "BidResponseSummary" fields {}

def members (response : BidResponse) : Members :=
  member? "id" (response.id.map .str) ++
    member? "seatbid" (response.seatbid.map .arr) ++
    member? "bidid" (response.bidid.map .str) ++
    member? "cur" (response.cur.map .str) ++
    member? "customdata" (response.customdata.map .str) ++
    member? "nbr" (response.nbr.map (.num <| .ofInt32 ·)) ++
    member? "ext" response.ext

def toJson (response : BidResponse) : Json :=
  .obj response.members

end BidResponse

end AuctionLog
