import AuctionLog.Journal.Ceiling
import AuctionLog.Recorder.Basic
import AuctionLog.Settings.SocketAddress

namespace AuctionLog

structure Settings where
  /-- When off, events are acknowledged but never recorded. -/
  enabled : Bool
  name : String
  address : SocketAddress
  /-- Records go through a queue to an output of their own, and else into the journal. -/
  printsRecords : Bool
  queueCapacity : Nat
  showsCounters : Bool
  journalLevel : Level
deriving DecidableEq

structure SettingFault where
  variableName : String
deriving DecidableEq

def SettingFault.message (fault : SettingFault) : String :=
  "Failed to parse environment variable " ++ fault.variableName

namespace Settings

def flag? (text : String) : Option Bool :=
  if text = "true" then some true else if text = "false" then some false else none

def capacity? (text : String) : Option Nat :=
  (Numeral.natural? text.toList).filter (· < 0x10000000000000000)

def setting {α : Type} (environment : String → Option String) (name default : String)
    (parse? : String → Option α) : Except SettingFault α :=
  match parse? ((environment name).getD default) with
  | some value => .ok value
  | none => .error ⟨name⟩

/-- The settings of an environment. Of several bad variables the first in this order is reported. -/
def ofEnvironment (environment : String → Option String) : Except SettingFault Settings := do
  let enabled ← setting environment "ENABLED" "true" flag?
  let name ← setting environment "ADAPTER_NAME" Recorder.defaultName some
  let address ← setting environment "ADDRESS" "127.0.0.1:3000" SocketAddress.ofText?
  let printsRecords ← setting environment "PRINT_SINK" "false" flag?
  let queueCapacity ← setting environment "CHANNEL_CAPACITY" "10000" capacity?
  let showsCounters ← setting environment "EXPORT_PROMETHEUS" "true" flag?
  let journalLevel ← setting environment "LOG_LEVEL" "info" Level.ofText?
  return { enabled, name, address, printsRecords, queueCapacity, showsCounters, journalLevel }

end Settings

end AuctionLog
