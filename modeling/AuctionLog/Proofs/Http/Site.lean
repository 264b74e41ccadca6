import AuctionLog.Http.Site
import AuctionLog.Proofs.Recorder.Attempt

/-!
# What a request does

Only a request that posts an event reaches the recorder, and of all that a recorder has it touches
no more than the sink, the counters and the journal. Its answer depends on the request alone.
-/

namespace AuctionLog

def Counter.processed? : Counter → Option Endpoint
  | .processed endpoint => some endpoint
  | _ => none

/-- The endpoints of all calls that were counted as processed, in order. -/
def Counts.processed (counts : Counts) : List Endpoint :=
  counts.filterMap Counter.processed?

namespace Counts

theorem processed_append (left right : Counts) :
    processed (left ++ right) = left.processed ++ right.processed :=
  List.filterMap_append

theorem processed_offer_counts (sink : Sink) (line : String) :
    (sink.offer line).counts.processed = [] := by
  rcases sink.offer_cases line with ⟨-, hcounts, -⟩ | ⟨_, -, -, hcounts | hcounts⟩ <;>
    rw [hcounts] <;> rfl

end Counts

namespace Http

/-- Whether a request posts an event. -/
def Request.PostsEvent (request : Request) : Prop :=
  request.method = "POST" ∧ request.path = Route.event.path

instance (request : Request) : Decidable request.PostsEvent :=
  inferInstanceAs (Decidable (_ ∧ _))

/-- The record that a request asks for, if it posts an event that there is a record of. -/
def Request.record? (request : Request) : Option LogRecord :=
  if request.PostsEvent ∧ request.body.length ≤ Site.maxBody then
    match Json.parse request.body with
    | .error _ => none
    | .ok value => (Event.record (Intake.ofJson value).event).toOption
  else none

/-- The record that a request asks for, if a sink takes its line. -/
def Request.accepted? (request : Request) (sink : Sink) : Option LogRecord :=
  request.record?.filter fun record => (sink.offer record.line).refusal.isNone

end Http

/-- What recording an event as JSON leaves: the sink has been offered the line of its record, if it
has one, and a line that was taken is counted. -/
theorem Recorder.record_json (name : String) (event : Option Event) (station : Station) :
    let recorder : Recorder := ⟨name, Encoder.json⟩
    let record? := (Event.record event).toOption
    (recorder.record event station).2.sink =
        (record?.map fun record => (station.sink.offer record.line).sink).getD station.sink ∧
      (recorder.record event station).2.counts.processed =
        station.counts.processed ++
          ((record?.filter fun record => (station.sink.offer record.line).refusal.isNone).map
            (·.endpoint)).toList := by
  intro recorder record?
  have hends := recorder.attempt_ends event station
  rw [record_sink, record_counts]
  generalize recorder.attempt event station = ended at *
  cases hends with
  | payload hrecord hsink hcounts =>
      have hnone : record? = none := by simp only [record?, hrecord, Except.toOption]
      rw [hnone, hsink, hcounts, Counts.processed_append]
      exact ⟨rfl, rfl⟩
  | encoding hrecord hencoder => simp [recorder, Encoder.json] at hencoder
  | panic hrecord hencoder => simp [recorder, Encoder.json] at hencoder
  | @refused record line reason next hrecord hencoder hrefused hsink hcounts =>
      have hsome : record? = some record := by simp only [record?, hrecord, Except.toOption]
      obtain rfl := Encoded.line.inj hencoder
      rw [hsome, hsink, hcounts, Counts.processed_append, Counts.processed_append,
        Counts.processed_offer_counts, Option.filter_some, hrefused]
      exact ⟨rfl, by simp [Counts.processed, outcomeOf, Counter.processed?]⟩
  | @taken record line next hrecord hencoder htaken hsink hcounts =>
      have hsome : record? = some record := by simp only [record?, hrecord, Except.toOption]
      obtain rfl := Encoded.line.inj hencoder
      rw [hsome, hsink, hcounts, Counts.processed_append, Counts.processed_append,
        Counts.processed_offer_counts, Option.filter_some, htaken]
      exact ⟨rfl, by simp [Counts.processed, outcomeOf, Counter.processed?]⟩

namespace Http.Site

variable {site : Site} {request : Request} {station : Station}

theorem routeFor?_eq_event_iff {path : String} :
    site.routeFor? path = some .event ↔ path = Route.event.path := by
  constructor
  · intro hroute
    have hpath := List.find?_some hroute
    exact (beq_iff_eq.mp hpath).symm
  · rintro rfl
    cases hcounters : site.showsCounters <;>
      simp [routeFor?, routes, hcounters, Route.all, Route.path, List.filter]

theorem answer_of_postsEvent (hposts : request.PostsEvent) :
    site.answer request station = site.acceptEvent request.body station := by
  obtain ⟨hmethod, hpath⟩ := hposts
  rw [answer, routeFor?_eq_event_iff.mpr hpath]
  exact if_pos hmethod

theorem answer_station (hposts : ¬ request.PostsEvent) :
    (site.answer request station).2 = station := by
  unfold answer
  split
  · rfl
  · rfl
  · rfl
  · rfl
  · rename_i hroute
    split_ifs with hmethod
    · exact absurd ⟨hmethod, routeFor?_eq_event_iff.mp hroute⟩ hposts
    · rfl

/-- **A body that can be read is acknowledged**, whatever becomes of the event in it. -/
theorem acceptEvent_response {value : Json} (hsize : request.body.length ≤ maxBody)
    (hparse : Json.parse request.body = .ok value) :
    (site.acceptEvent request.body station).1 = .acknowledge .ok := by
  rw [acceptEvent, if_neg (Nat.not_lt.mpr hsize), hparse]
  cases site.recorder with
  | none => rfl
  | some recorder => simp

theorem handle_response : (site.handle request station).1 = (site.answer request station).1 := by
  unfold handle
  by_cases hcounted : isCounted (site.pathLabel request)
  · simp only [hcounted, if_true]
  · simp only [hcounted, if_false, Bool.false_eq_true]

theorem handle_station :
    (site.handle request station).2.sink = (site.answer request station).2.sink ∧
      (site.handle request station).2.counts.processed =
        (site.answer request station).2.counts.processed := by
  unfold handle
  by_cases hcounted : isCounted (site.pathLabel request)
  · simp [hcounted, Counts.processed, Counter.processed?]
  · simp [hcounted]

/-- What a request leaves at a site that records events as JSON. -/
theorem handle_recording {name : String} (hrecorder : site.recorder = some ⟨name, Encoder.json⟩) :
    (site.handle request station).2.sink =
        (request.record?.map fun record => (station.sink.offer record.line).sink).getD
          station.sink ∧
      (site.handle request station).2.counts.processed =
        station.counts.processed ++
          ((request.accepted? station.sink).map (·.endpoint)).toList := by
  rw [handle_station.1, handle_station.2, Request.accepted?, Request.record?]
  by_cases hposts : request.PostsEvent
  · rw [answer_of_postsEvent hposts, acceptEvent, hrecorder]
    by_cases hsize : maxBody < request.body.length
    · rw [if_pos hsize, if_neg (by omega)]
      simp
    · rw [if_neg hsize, if_pos ⟨hposts, by omega⟩]
      cases hparse : Json.parse request.body with
      | error fault => simp
      | ok value =>
          have hrecord := Recorder.record_json name (Intake.ofJson value).event
            (station.noteAll (Intake.ofJson value).entries)
          simpa using hrecord
  · rw [answer_station hposts, if_neg fun h => hposts h.1]
    simp

end Http.Site

end AuctionLog
