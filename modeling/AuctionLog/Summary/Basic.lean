import AuctionLog.Summary.BidRequest
import AuctionLog.Summary.BidResponse

namespace AuctionLog

inductive Payload where
  | bidRequest
  | bidResponse
deriving DecidableEq

def Payload.summaryName : Payload → String
  | .bidRequest => "BidRequestSummary"
  | .bidResponse => "BidResponseSummary"

structure PayloadFault where
  payload : Payload
  mismatch : Json.Mismatch
deriving DecidableEq

/-- The summary of a payload. Absent and null payloads have none. -/
def summarize {α : Type} (payload : Payload) (decoder : Decoder α) :
    Option Json → Except PayloadFault (Option α)
  | none => .ok none
  | some .null => .ok none
  | some value =>
      match decoder.ofJson value with
      | .ok summary => .ok (some summary)
      | .error mismatch => .error ⟨payload, mismatch⟩

def BidRequest.ofPayload : Option Json → Except PayloadFault (Option BidRequest) :=
  summarize .bidRequest decoder

def BidResponse.ofPayload : Option Json → Except PayloadFault (Option BidResponse) :=
  summarize .bidResponse decoder

end AuctionLog
