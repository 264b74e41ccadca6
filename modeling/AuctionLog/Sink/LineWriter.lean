import AuctionLog.Journal.Basic
import AuctionLog.Sink.Device
import AuctionLog.Sink.Queue
import AuctionLog.Text.Utf8

namespace AuctionLog

inductive WriterStatus where
  | running
  /-- The queue has ended and the device has been flushed, which may have failed. -/
  | ended (fault : Option WriteFault)
  | failed (fault : WriteFault)
deriving DecidableEq

/-- Writes the lines of a queue to a device, each with a line feed. -/
structure LineWriter where
  device : Device
  /-- What is left to write of the line taken last. -/
  pending : List UInt8
  status : WriterStatus

namespace LineWriter

def start (device : Device) : LineWriter :=
  { device, pending := [], status := .running }

def lineBytes (line : String) : List UInt8 :=
  Utf8.encode line.toList ++ [0x0A]

/-- One attempt to write, or the next line from the queue. A writer that stops takes the receiver of
the queue with it; one that finds the queue empty waits. -/
def step (writer : LineWriter) (queue : Queue) : LineWriter × Queue :=
  match writer.status, writer.pending with
  | .running, [] =>
      match queue.receive with
      | (.line line, queue) => ({ writer with pending := lineBytes line }, queue)
      | (.empty, queue) => (writer, queue)
      | (.closed, queue) =>
          ({ writer with status := .ended writer.device.flush }, queue.dropReceiver)
  | .running, bytes =>
      match writer.device.write bytes with
      | .ok (device, pending) => ({ writer with device, pending }, queue)
      | .error fault => ({ writer with status := .failed fault }, queue.dropReceiver)
  | _, _ => (writer, queue)

def run : Nat → LineWriter → Queue → LineWriter × Queue
  | 0, writer, queue => (writer, queue)
  | steps + 1, writer, queue =>
      let (writer, queue) := writer.step queue
      run steps writer queue

/-- Enough steps for all that is queued: each byte takes one at most, as does each line and the
end. -/
def work (writer : LineWriter) (queue : Queue) : Nat :=
  writer.pending.length +
    queue.lines.foldr (fun line steps => (lineBytes line).length + 1 + steps) 1

/-- Writes on until the queue is empty or ended, or the device fails. -/
def catchUp (writer : LineWriter) (queue : Queue) : LineWriter × Queue :=
  run (writer.work queue) writer queue

/-- Writes what is queued once no sender is left. -/
def writeOut (device : Device) (queue : Queue) : LineWriter :=
  ((start device).catchUp { queue with senders := 0 }).1

def fault? (writer : LineWriter) : Option WriteFault :=
  match writer.status with
  | .running => none
  | .ended fault => fault
  | .failed fault => some fault

def entries (writer : LineWriter) : List Entry :=
  match writer.status with
  | .running => []
  | .ended _ =>
      [.plain .debug "reporter::sinks::channel" "analytics record queue closed"]
  | .failed fault =>
      [.plain .error "reporter::sinks::channel"
        ("failed to write analytics record: " ++ fault.message)]

end LineWriter

end AuctionLog
