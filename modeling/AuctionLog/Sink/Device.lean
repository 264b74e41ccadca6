namespace AuctionLog

inductive WriteFault where
  | diskFull
  | writeZero
  | flushFailed
  | brokenPipe
deriving DecidableEq

def WriteFault.message : WriteFault → String
  | .diskFull => "disk full"
  | .writeZero => "write zero"
  | .flushFailed => "flush failed"
  | .brokenPipe => "broken pipe"

/-- Where bytes are written to, and how far it is from perfect. -/
structure Device where
  written : List UInt8
  /-- The most bytes taken at a time. -/
  burst : Option Nat
  /-- The number of bytes after which each further one fails. -/
  room : Option Nat
  flushes : Bool
  /-- Nobody reads the other end. -/
  broken : Bool

namespace Device

def reliable : Device :=
  { written := [], burst := none, room := none, flushes := true, broken := false }

def accepts (device : Device) (offered : Nat) : Nat :=
  let free := match device.room with
    | none => offered
    | some room => room - device.written.length
  min offered (min free (device.burst.getD offered))

def isFull (device : Device) : Bool :=
  match device.room with
  | none => false
  | some room => room ≤ device.written.length

/-- One attempt to write one byte or more, with the bytes left over. A device that takes none would
never be done, so that is a fault. -/
def write (device : Device) (bytes : List UInt8) : Except WriteFault (Device × List UInt8) :=
  if device.broken then .error .brokenPipe
  else if device.isFull then .error .diskFull
  else
    match device.accepts bytes.length with
    | 0 => .error .writeZero
    | count =>
        .ok ({ device with written := device.written ++ bytes.take count }, bytes.drop count)

def flush (device : Device) : Option WriteFault :=
  if device.flushes then none else some .flushFailed

end Device

end AuctionLog
