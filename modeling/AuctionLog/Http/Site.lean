import AuctionLog.Http.Message
import AuctionLog.Recorder.Basic

namespace AuctionLog.Http

inductive Route where
  | index
  | liveness
  | event
  | metrics
deriving DecidableEq

namespace Route

def all : List Route :=
  [.index, .liveness, .event, .metrics]

def path : Route → String
  | .index => "/"
  | .liveness => "/_liveness"
  | .event => "/event"
  | .metrics => "/metrics"

end Route

/-- What requests are answered with: the recorder of events, unless recording is off, and whether
the counters are shown. -/
structure Site where
  recorder : Option Recorder
  showsCounters : Bool

namespace Site

/-- Longer bodies are not read. -/
def maxBody : Nat := 2097152

def routes (site : Site) : List Route :=
  Route.all.filter fun route => route ≠ .metrics || site.showsCounters

def routeFor? (site : Site) (path : String) : Option Route :=
  site.routes.find? fun route => route.path == path

/-- Whatever value the body holds is acknowledged, whether or not it could be recorded. -/
def acceptEvent (site : Site) (body : List UInt8) (station : Station) : Response × Station :=
  if maxBody < body.length then (.tooLarge, station)
  else
    match Json.parse body with
    | .error fault => (.unreadable fault body, station)
    | .ok value =>
        let intake := Intake.ofJson value
        let station := station.noteAll intake.entries
        match site.recorder with
        | none => (.acknowledge .ok, station)
        | some recorder =>
            let (acknowledgment, station) := recorder.record intake.event station
            (.acknowledge acknowledgment, station)

def readOnly (method : String) (response : Response) : Response :=
  if method = "GET" then response
  else if method = "HEAD" then response.head
  else .notAllowed "GET,HEAD"

/-- The answer to a request, before it is counted. -/
def answer (site : Site) (request : Request) (station : Station) : Response × Station :=
  match site.routeFor? request.path with
  | none => (.notFound, station)
  | some .index => (readOnly request.method (.text "analytics reporter"), station)
  | some .liveness => (readOnly request.method (.text "ok"), station)
  | some .metrics => (readOnly request.method (.counts station.counts), station)
  | some .event =>
      if request.method = "POST" then site.acceptEvent request.body station
      else (.notAllowed "POST", station)

/-- The path that a request is counted under: of the route it found, or else as it is. -/
def pathLabel (site : Site) (request : Request) : String :=
  ((site.routeFor? request.path).map (·.path)).getD request.path

/-- Probes are not counted, lest they drown out the events. -/
def isCounted (path : String) : Bool :=
  path ≠ "/_liveness" && path ≠ "/metrics"

/-- Answers a request, and counts it under the status it was answered with. -/
def handle (site : Site) (request : Request) (station : Station) : Response × Station :=
  let path := site.pathLabel request
  let (response, station) := site.answer request station
  if isCounted path then
    let labels : RequestLabels := ⟨request.method, path, response.status⟩
    (response, (station.count (.requests labels)).count (.durations labels))
  else (response, station)

end Site

end AuctionLog.Http
