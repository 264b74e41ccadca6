import AuctionLog.Http.Site
import AuctionLog.Settings.Basic
import AuctionLog.Sink.LineWriter

namespace AuctionLog

/-- The service at work: what it answers with, the station its recorder works at, and the writer
that empties the queue of records if there is one. -/
structure Service where
  site : Http.Site
  station : Station
  writer : Option LineWriter

/-- What is left of a service that has shut down. -/
structure Served where
  responses : List Http.Response
  printed : List UInt8
  journal : List Entry

namespace Service

/-- The service of some settings. There are capacities that no queue can have. -/
def start (settings : Settings) (output : Device) : Except CapacityFault Service :=
  if !settings.enabled then
    .ok {
      site := ⟨none, settings.showsCounters⟩
      station := (Station.start .closed).note
        (.plain .warn "reporter_server::server"
          "analytics reporting disabled, events will be acknowledged only")
      writer := none }
  else
    let site : Http.Site := ⟨some ⟨settings.name, Encoder.json⟩, settings.showsCounters⟩
    if settings.printsRecords then
      match Queue.new settings.queueCapacity with
      | .error fault => .error fault
      | .ok queue => .ok { site, station := .start (.queue queue), writer := some (.start output) }
    else .ok { site, station := .start .journal, writer := none }

def handle (service : Service) (request : Http.Request) : Http.Response × Service :=
  let (response, station) := service.site.handle request service.station
  (response, { service with station })

def stopEntries (writer : LineWriter) : List Entry :=
  writer.entries ++
    match writer.fault? with
    | none => []
    | some fault =>
        [.plain .error "reporter_server::server" ("print sink stopped: " ++ fault.message)]

/-- Lets the writer use the queue, and notes it if the writer stops at that. -/
def advance (service : Service) (use : LineWriter → Queue → LineWriter × Queue) : Service :=
  match service.writer, service.station.sink with
  | some writer, .queue queue =>
      let (next, queue) := use writer queue
      let station := { service.station with sink := .queue queue }
      let stopped := writer.status = .running ∧ next.status ≠ .running
      { service with
        writer := some next
        station := if stopped then station.noteAll (stopEntries next) else station }
  | _, _ => service

def writeStep (service : Service) : Service :=
  service.advance LineWriter.step

def write (service : Service) : Service :=
  service.advance LineWriter.catchUp

/-- No more requests come, so the queue has no sender any more. -/
def close (service : Service) : Service :=
  match service.station.sink with
  | .queue queue =>
      { service with
        station := { service.station with sink := .queue { queue with senders := 0 } } }
  | _ => service

/-- Answers requests one after another, with the writer keeping up. -/
def answerAll (service : Service) : List Http.Request → List Http.Response × Service
  | [] => ([], service)
  | request :: rest =>
      let (response, service) := service.handle request
      let (responses, service) := service.write.answerAll rest
      (response :: responses, service)

/-- Answers all requests, then closes and writes out what is still queued. -/
def serve (service : Service) (requests : List Http.Request) : List Http.Response × Service :=
  let (responses, service) := service.answerAll requests
  (responses, service.close.write)

def printed (service : Service) : List UInt8 :=
  (service.writer.map (·.device.written)).getD []

/-- Serves all requests under some settings, from start to shutdown. -/
def session (settings : Settings) (output : Device) (requests : List Http.Request) :
    Except CapacityFault Served := do
  let (responses, service) := (← start settings output).serve requests
  return { responses, printed := service.printed, journal := service.station.journal }

end Service

end AuctionLog
