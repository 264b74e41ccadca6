import AuctionLog.Proofs.Http.Site
import AuctionLog.Proofs.Json.Grammar
import AuctionLog.Proofs.Recorder.Recorded

/-!
# What an answer gives away

Whoever posts an event learns whether its body is JSON, and nothing else: the answer is made from
the body alone. It does not tell whether events are recorded, how they are encoded, what the sink
holds or what was posted before. A body that is not JSON leaves no trace of an event either.
-/

namespace AuctionLog

/-- Whether a counter is about events and what becomes of them, and not about requests. -/
def Counter.isAnalytics : Counter → Bool
  | .processed _ | .dropped _ | .queueFull => true
  | .requests _ | .durations _ => false

/-- The counters about events, in the order they were raised. -/
def Counts.analytics (counts : Counts) : Counts :=
  counts.filter Counter.isAnalytics

/-- Whether nothing was recorded or counted of any event between two moments at a station. -/
structure Station.Untouched (before after : Station) : Prop where
  sink : after.sink = before.sink
  recorded : after.recorded = before.recorded
  analytics : after.counts.analytics = before.counts.analytics

theorem Intake.not_isRecord_entries (intake : Intake) :
    ∀ entry ∈ intake.entries, ¬ entry.isRecord := by
  intro entry hmem
  cases intake with
  | misfit endpoint mismatch value =>
      obtain rfl := List.mem_singleton.mp hmem
      simp [Entry.isRecord, Entry.plain, recordTarget]
  | nothing | fitting | untagged => exact absurd hmem List.not_mem_nil

namespace Http

/-- The answer to a posted event, as its body decides it. -/
def Response.ofPosted (body : List UInt8) : Response :=
  match Json.parse body with
  | .error fault => .unreadable fault body
  | .ok _ => .acknowledge .ok

/-- The answer to a posted event, whatever the length of its body. -/
def Response.toPosted (body : List UInt8) : Response :=
  if Site.maxBody < body.length then .tooLarge else .ofPosted body

namespace Site

variable {site : Site} {request : Request} {station : Station}

theorem handle_eq_ofPosted (hposts : request.PostsEvent) (hsize : request.body.length ≤ maxBody) :
    (site.handle request station).1 = .ofPosted request.body := by
  rw [handle_response, answer_of_postsEvent hposts, Response.ofPosted]
  cases hparse : Json.parse request.body with
  | ok value => exact acceptEvent_response hsize hparse
  | error fault => rw [acceptEvent, if_neg (Nat.not_lt.mpr hsize), hparse]

theorem handle_eq_toPosted (hposts : request.PostsEvent) :
    (site.handle request station).1 = .toPosted request.body := by
  unfold Response.toPosted
  split_ifs with hsize
  · rw [handle_response, answer_of_postsEvent hposts, acceptEvent, if_pos hsize]
  · exact handle_eq_ofPosted hposts (Nat.not_lt.mp hsize)

/-- An event is acknowledged exactly if its body is not too long and is a JSON value, however that
is written. -/
theorem handle_status_eq_ok_iff (hposts : request.PostsEvent) :
    (site.handle request station).1.status = 200 ↔ request.body.length ≤ maxBody ∧
      ∃ written value, Json.Spells request.body written ∧
        written.value? Json.maxLevels = some value := by
  rw [handle_eq_toPosted hposts, Response.toPosted]
  split_ifs with hsize
  · exact iff_of_false (by decide) fun hread => absurd hsize (Nat.not_lt.mpr hread.1)
  · rw [and_iff_right (Nat.not_lt.mp hsize), exists_comm]
    simp only [← Json.parse_eq_ok_iff, Response.ofPosted]
    cases Json.parse request.body with
    | error fault => simp [Response.unreadable]
    | ok value => simp [Response.acknowledge]

theorem untouched_handle (huntouched : station.Untouched (site.answer request station).2) :
    station.Untouched (site.handle request station).2 := by
  unfold handle
  -- A request is counted by counters of its own, which are not about events.
  by_cases hcounted : isCounted (site.pathLabel request)
  · simp only [hcounted, if_true]
    refine ⟨huntouched.sink, ?_, ?_⟩
    · rw [Station.recorded_count, Station.recorded_count, huntouched.recorded]
    · rw [← huntouched.analytics]
      simp [Counts.analytics, Counter.isAnalytics]
  · simp only [hcounted, Bool.false_eq_true, if_false]
    exact huntouched

theorem untouched_of_unreadable {fault : Json.Fault} (hposts : request.PostsEvent)
    (hsize : request.body.length ≤ maxBody) (hparse : Json.parse request.body = .error fault) :
    station.Untouched (site.handle request station).2 := by
  apply untouched_handle
  rw [answer_of_postsEvent hposts, acceptEvent, if_neg (Nat.not_lt.mpr hsize), hparse]
  exact ⟨rfl, rfl, rfl⟩

theorem untouched_of_disabled (hrecorder : site.recorder = none) (hposts : request.PostsEvent) :
    station.Untouched (site.handle request station).2 := by
  apply untouched_handle
  rw [answer_of_postsEvent hposts, acceptEvent, hrecorder]
  by_cases hsize : maxBody < request.body.length
  · rw [if_pos hsize]
    exact ⟨rfl, rfl, rfl⟩
  · rw [if_neg hsize]
    cases Json.parse request.body with
    | error fault => exact ⟨rfl, rfl, rfl⟩
    | ok value =>
        exact ⟨rfl, Station.recorded_noteAll (Intake.ofJson value).not_isRecord_entries, rfl⟩

/-- **An answer gives nothing away.** Requests that post the same body are answered alike by any two
sites, whatever their recorders and whatever has happened at their stations: with `Ok` if the body
is JSON, and otherwise with what is wrong with it. The sink and the counters about events stay as
they were if it is not, or if events are not recorded. What is JSON is said by its grammar. -/
theorem handle_posted_alike (first second : Site) (station elsewhere : Station)
    {request other : Request} (hposts : request.PostsEvent) (hother : other.PostsEvent)
    (hbody : request.body = other.body) (hsize : request.body.length ≤ maxBody) :
    (first.handle request station).1 = (second.handle other elsewhere).1 ∧
      (∀ value, Json.parse request.body = .ok value →
        (first.handle request station).1.status = 200 ∧
          (first.handle request station).1.body = .text "\x7b\"status\":\"Ok\"\x7d") ∧
      (∀ fault, Json.parse request.body = .error fault →
        (first.handle request station).1.status = 400 ∧
          (first.handle request station).1.body =
            .text ("failed to parse request: " ++ fault.message request.body) ∧
          station.Untouched (first.handle request station).2) ∧
      (first.recorder = none → station.Untouched (first.handle request station).2) ∧
      ((first.handle request station).1.status = 200 ↔
        ∃ written value, Json.Spells request.body written ∧
          written.value? Json.maxLevels = some value) := by
  have hstatus := @handle_status_eq_ok_iff first request station hposts
  rw [and_iff_right hsize, handle_eq_ofPosted hposts hsize] at hstatus
  have hsize' : other.body.length ≤ maxBody := by rwa [← hbody]
  rw [handle_eq_ofPosted hposts hsize, handle_eq_ofPosted hother hsize', ← hbody]
  refine ⟨rfl, ?_, ?_, ?_, hstatus⟩
  · intro value hparse
    rw [Response.ofPosted, hparse]
    exact ⟨rfl, rfl⟩
  · intro fault hparse
    refine ⟨?_, ?_, untouched_of_unreadable hposts hsize hparse⟩
    · rw [Response.ofPosted, hparse]
      rfl
    · rw [Response.ofPosted, hparse]
      rfl
  · intro hrecorder
    exact untouched_of_disabled hrecorder hposts

/-- A recorder whose encoder panics, and none at all. -/
theorem handle_posted_alike_panicking :
    let recording : Site := ⟨some ⟨Recorder.defaultName, Encoder.panicking⟩, false⟩
    let disabled : Site := ⟨none, true⟩
    let null : Request := ⟨"POST", "/event", [0x6E, 0x75, 0x6C, 0x6C]⟩
    null.PostsEvent ∧ null.body.length ≤ maxBody ∧
      (recording.handle null (.start (.memory []))).1 =
        (disabled.handle null (.start .journal)).1 ∧
      (recording.handle null (.start (.memory []))).1.status = 200 := by
  intro recording disabled null
  have hposts : null.PostsEvent := by decide
  have hsize : null.body.length ≤ maxBody := by decide
  obtain ⟨halike, hjson, -⟩ := handle_posted_alike recording disabled (.start (.memory []))
    (.start .journal) hposts hposts rfl hsize
  exact ⟨hposts, hsize, halike, (hjson .null (by rfl)).1⟩

end Site

end Http

end AuctionLog
