import AuctionLog.Journal.Basic
import AuctionLog.Text.Ascii

namespace AuctionLog

def Level.ofText? (text : String) : Option Level :=
  match Numeral.natural? text.toList with
  | some number => Level.all.find? fun level => level.number == number
  | none => Level.all.find? fun level => Ascii.sameFold level.name text

def Level.message : String :=
  "error parsing level: expected one of \"error\", \"warn\", \"info\", \"debug\", \"trace\", " ++
    "or a number 1-5"

inductive Ceiling where
  | off
  | upTo (level : Level)
deriving DecidableEq

namespace Ceiling

def allows : Ceiling → Level → Bool
  | .off, _ => false
  | .upTo ceiling, level => level.number ≤ ceiling.number

/-- A level, or `off` or zero for none. -/
def ofText? (text : String) : Option Ceiling :=
  if Ascii.sameFold text "off" || Numeral.natural? text.toList == some 0 then some .off
  else (Level.ofText? text).map .upTo

end Ceiling

end AuctionLog
