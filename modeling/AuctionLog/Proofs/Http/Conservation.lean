import AuctionLog.Proofs.Http.Discretion
import AuctionLog.Proofs.Recorder.Accounting

/-!
# The books of a site

Requests are counted by the site and events by its recorder, and neither knows of the other. Still
the books agree: over any run each request that is not a probe is in one series of its own, under
the status it was answered with, and the events counted are as many as were acknowledged.
-/

namespace AuctionLog

/-- What recording an event adds to the counters: one outcome, among counters about events. -/
theorem Recorder.record_adds (recorder : Recorder) (event : Option Event) (station : Station) :
    ∃ added : Counts, (recorder.record event station).2.counts = station.counts ++ added ∧
      (∀ counter ∈ added, counter.isAnalytics) ∧ added.countP Counter.isOutcome = 1 := by
  set offered : Counts :=
    ((recorder.line? event).map fun line => (station.sink.offer line).counts).getD [] with hoffered
  set outcome := outcomeOf (recorder.attempt event station).1 with houtcome
  refine ⟨offered ++ [outcome], ?_, ?_, ?_⟩
  · rw [record_counts, attempt_counts, List.append_assoc]
  · have honly : ∀ counter ∈ offered, counter = .queueFull := by
      rw [hoffered]
      cases recorder.line? event with
      | none => simp
      | some line =>
          obtain ⟨-, hcounts, -⟩ | ⟨_, -, -, hcounts | hcounts⟩ :=
            station.sink.offer_cases line <;> simp [hcounts]
    have hlast : outcome.isAnalytics := by
      rw [houtcome]
      cases (recorder.attempt event station).1 <;> rfl
    intro counter hmem
    rcases List.mem_append.mp hmem with hmem | hmem
    · rw [honly counter hmem]
      rfl
    · rwa [List.mem_singleton.mp hmem]
  · have hnone : offered.countP Counter.isOutcome = 0 := by
      rw [hoffered]
      cases recorder.line? event with
      | none => rfl
      | some line => exact Sink.countP_offer_counts
    have hlast : outcome.isOutcome := by
      rw [houtcome]
      exact Recorder.isOutcome_outcomeOf _
    rw [List.countP_append, hnone, List.countP_singleton, if_pos hlast]

namespace Http

/-- A request that a site has answered, between what was there before and what is there since. -/
structure Visit where
  request : Request
  before : Station
  response : Response
  after : Station

/-- Whether an event was posted and acknowledged. -/
def Visit.Acknowledges (visit : Visit) : Prop :=
  visit.request.PostsEvent ∧ visit.response.status = 200

instance (visit : Visit) : Decidable visit.Acknowledges :=
  inferInstanceAs (Decidable (_ ∧ _))

namespace Site

def visit (site : Site) (request : Request) (station : Station) : Visit where
  request := request
  before := station
  response := (site.handle request station).1
  after := (site.handle request station).2

/-- The requests that a site answers one after another. -/
def visits (site : Site) (station : Station) : List Request → List Visit
  | [] => []
  | request :: rest =>
      site.visit request station :: site.visits (site.visit request station).after rest

/-- The station after all these requests. -/
def stationAfter (site : Site) (station : Station) (requests : List Request) : Station :=
  requests.foldl (fun station request => (site.handle request station).2) station

/-- What is on the books for one visit, given the path that it is counted under. -/
structure Books (site : Site) (visit : Visit) (path : String) : Prop where
  /-- The path is that of the route, if there is one, and else the one asked for. -/
  ofRoute : ∀ route, site.routeFor? visit.request.path = some route → path = route.path
  ofRequest : site.routeFor? visit.request.path = none → path = visit.request.path
  /-- One series grows, by one, unless the request is a probe. -/
  grows : path ≠ "/_liveness" → path ≠ "/metrics" → ∀ labels,
    visit.after.counts.count (.requests labels) = visit.before.counts.count (.requests labels) +
      if labels = ⟨visit.request.method, path, visit.response.status⟩ then 1 else 0
  probes : path = "/_liveness" ∨ path = "/metrics" → ∀ labels,
    visit.after.counts.count (.requests labels) = visit.before.counts.count (.requests labels)

variable {site : Site} {request : Request} {station : Station}

@[simp]
theorem visit_request : (site.visit request station).request = request := rfl

@[simp]
theorem visit_before : (site.visit request station).before = station := rfl

@[simp]
theorem visit_response :
    (site.visit request station).response = (site.handle request station).1 := by
  rw [visit]

@[simp]
theorem visit_after : (site.visit request station).after = (site.handle request station).2 := by
  rw [visit]

theorem isCounted_iff {path : String} :
    isCounted path ↔ path ≠ "/_liveness" ∧ path ≠ "/metrics" := by
  simp [isCounted]

/-- What an answer adds to the counters: an outcome if it acknowledges an event that is recorded,
and none otherwise, among counters about events. -/
theorem answer_adds (site : Site) (request : Request) (station : Station) :
    ∃ added : Counts, (site.answer request station).2.counts = station.counts ++ added ∧
      (∀ counter ∈ added, counter.isAnalytics) ∧
      added.countP Counter.isOutcome =
        if request.PostsEvent ∧ (site.answer request station).1.status = 200 ∧
          site.recorder.isSome then 1 else 0 := by
  by_cases hposts : request.PostsEvent
  · rw [answer_of_postsEvent hposts, acceptEvent]
    by_cases hsize : maxBody < request.body.length
    · rw [if_pos hsize]
      exact ⟨[], by simp, List.forall_mem_nil _, by simp [Response.tooLarge]⟩
    · rw [if_neg hsize]
      cases Json.parse request.body with
      | error fault => exact ⟨[], by simp, List.forall_mem_nil _, by simp [Response.unreadable]⟩
      | ok value =>
          cases site.recorder with
          | none => exact ⟨[], by simp, List.forall_mem_nil _, by simp⟩
          | some recorder =>
              obtain ⟨added, hcounts, honly, hone⟩ := recorder.record_adds
                (Intake.ofJson value).event (station.noteAll (Intake.ofJson value).entries)
              exact ⟨added, hcounts, honly, by simp [hone, hposts, Response.acknowledge]⟩
  · rw [answer_station hposts]
    exact ⟨[], by simp, List.forall_mem_nil _, by simp [hposts]⟩

theorem handle_counts (site : Site) (request : Request) (station : Station) :
    (site.handle request station).2.counts =
      (site.answer request station).2.counts ++
        if isCounted (site.pathLabel request) then
          [.requests ⟨request.method, site.pathLabel request,
            (site.handle request station).1.status⟩,
          .durations ⟨request.method, site.pathLabel request,
            (site.handle request station).1.status⟩]
        else [] := by
  rw [handle_response, handle]
  by_cases hcounted : isCounted (site.pathLabel request)
  · simp [hcounted]
  · simp [hcounted]

/-- The answer itself is in no series of requests. -/
theorem answer_requests (labels : RequestLabels) :
    (site.answer request station).2.counts.count (.requests labels) =
      station.counts.count (.requests labels) := by
  obtain ⟨added, hcounts, honly, -⟩ := site.answer_adds request station
  have hnone : added.count (.requests labels) = 0 :=
    List.count_eq_zero.mpr fun hmem => absurd (honly _ hmem) (by simp [Counter.isAnalytics])
  rw [hcounts, List.count_append, hnone, Nat.add_zero]

theorem count_requests (own labels : RequestLabels) :
    [Counter.requests own, .durations own].count (.requests labels) =
      if labels = own then 1 else 0 := by
  by_cases hown : labels = own
  · simp [hown]
  · simp [hown, Ne.symm hown]

theorem handle_books (site : Site) (request : Request) (station : Station) :
    site.Books (site.visit request station) (site.pathLabel request) where
  ofRoute route hroute := by
    rw [visit_request] at hroute
    simp only [pathLabel, hroute, Option.map_some, Option.getD_some]
  ofRequest hroute := by
    rw [visit_request] at hroute ⊢
    simp only [pathLabel, hroute, Option.map_none, Option.getD_none]
  grows hliveness hmetrics labels := by
    have hcounted := isCounted_iff.mpr ⟨hliveness, hmetrics⟩
    rw [visit_after, handle_counts, if_pos hcounted, List.count_append, answer_requests,
      count_requests]
    rfl
  probes hprobe labels := by
    have huncounted : ¬ isCounted (site.pathLabel request) := by
      rw [isCounted_iff]
      tauto
    rw [visit_after, handle_counts, if_neg huncounted, List.append_nil, answer_requests,
      visit_before]

/-- A request adds one outcome if it has an event acknowledged that is recorded. -/
theorem handle_outcomes (site : Site) (request : Request) (station : Station) :
    (site.handle request station).2.counts.countP Counter.isOutcome =
      station.counts.countP Counter.isOutcome +
        if (site.visit request station).Acknowledges ∧ site.recorder.isSome then 1 else 0 := by
  obtain ⟨added, hcounts, -, hadded⟩ := site.answer_adds request station
  simp only [Visit.Acknowledges, visit_request, visit_response, and_assoc]
  rw [handle_response, handle_counts, hcounts, List.countP_append, List.countP_append, hadded]
  split_ifs <;> simp [Counter.isOutcome, Counter.isProcessed_eq, Counter.isDropped_eq]

theorem stationAfter_outcomes (site : Site) (station : Station) (requests : List Request) :
    (site.stationAfter station requests).counts.countP Counter.isOutcome =
      station.counts.countP Counter.isOutcome +
        if site.recorder.isSome then
          (site.visits station requests).countP fun visit => visit.Acknowledges
        else 0 := by
  induction requests generalizing station with
  | nil => simp [stationAfter, visits]
  | cons request rest ih =>
      have hstep := site.handle_outcomes request station
      have hrest := ih (site.visit request station).after
      have hafter : site.stationAfter station (request :: rest) =
          site.stationAfter (site.visit request station).after rest := rfl
      rw [visit_after] at hafter hrest
      rw [hafter, hrest, hstep, visits, List.countP_cons]
      by_cases hrecorder : site.recorder.isSome
      · simp only [hrecorder, and_true, if_true, decide_eq_true_eq, visit_after]
        omega
      · simp [hrecorder]

end Site

end Http

end AuctionLog
