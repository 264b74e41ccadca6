import AuctionLog.Decoder.Fields
import AuctionLog.Text.Unicode
import AuctionLog.Text.Ascii

namespace AuctionLog.Lenient

open Json

def int32? (value : Int) : Option Int32 :=
  if -0x80000000 ≤ value ∧ value < 0x80000000 then some (Int32.ofInt value) else none

/-- The integer that a number or a text denotes, whichever way it is spelled. -/
def integer? : Json → Option Int
  | .num (.int value _ _) => some value
  | .num (.double value) => value.whole?
  | .str value => Numeral.integer? (Blank.trim value.toList)
  | _ => none

/-- A text, or the JSON text of a number or a truth value. -/
def text? : Json → Option String
  | .str value => some value
  | .num value => some (String.ofList value.text)
  | .bool value => some (if value then "true" else "false")
  | _ => none

/-- Exchanges send identifiers as numbers as well as texts. -/
def text : Decoder (Option String) :=
  Decoder.json.optional.refine fun
    | none => .ok none
    | some value =>
        match text? value with
        | some result => .ok (some result)
        | none => .error (.notText value)

/-- Exchanges spell one integer as `500`, `500.0` or `"500"`. -/
def integer : Decoder (Option Int32) :=
  Decoder.json.optional.refine fun
    | none => .ok none
    | some value =>
        match (integer? value).bind int32? with
        | some result => .ok (some result)
        | none => .error (.notInt32 value)

end AuctionLog.Lenient
