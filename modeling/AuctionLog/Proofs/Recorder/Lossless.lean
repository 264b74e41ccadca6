import AuctionLog.Proofs.Event.Recognized
import AuctionLog.Proofs.Json.RoundTrip
import AuctionLog.Proofs.Record.Names
import AuctionLog.Proofs.Recorder.Recorded

/-!
# No value is lost

Every value that a host hands in ends in one line of the log, unless it is recognized and one of its
payloads cannot be summarized: then it is counted as dropped. A value that is not recognized is in
its line as it came, at every depth, and no value is recorded under another type than its own tag.
-/

namespace AuctionLog.Recorder

open Json

variable {recorder : Recorder} {name : String} {event : Option Event} {record : LogRecord}
  {station : Station}

theorem record_of_error {fault : PayloadFault} (hfault : Event.record event = .error fault) :
    (recorder.record event station).2.sink = station.sink ∧
      (recorder.record event station).2.recorded = station.recorded ∧
      (recorder.record event station).2.counts = station.counts ++ [.dropped .payload] := by
  have hnone : recorder.added? event station.sink = none := by
    rw [added?, line?, hfault, Option.filter_none]
  have hends := recorder.attempt_ends event station
  rw [recorded_record, hnone, record_sink, record_counts]
  generalize recorder.attempt event station = ended at *
  cases hends with
  | payload _ hsink hcounts =>
      rw [hsink, hcounts]
      exact ⟨rfl, List.append_nil _, rfl⟩
  | encoding hrecord => simp [hfault] at hrecord
  | panic hrecord => simp [hfault] at hrecord
  | refused hrecord => simp [hfault] at hrecord
  | taken hrecord => simp [hfault] at hrecord

theorem record_of_ok (haccepts : station.sink.Accepts) (hrecord : Event.record event = .ok record) :
    ((writingJson name).record event station).2.recorded = station.recorded ++ [record.line] ∧
      ((writingJson name).record event station).2.counts =
        station.counts ++ [.processed record.endpoint] := by
  have hline : (writingJson name).line? event = some record.line := by
    simp only [line?, hrecord, Encoder.json]
  have htaken : (station.sink.offer record.line).refusal = none := haccepts record.line
  have hadded : (writingJson name).added? event station.sink = some record.line := by
    rw [added?, hline, Option.filter_some, htaken]
    rfl
  have hcounts : (station.sink.offer record.line).counts = [] := by
    rcases station.sink.offer_cases record.line with ⟨-, hnone, -⟩ | ⟨_, hrefused, -⟩
    · exact hnone
    · simp [htaken] at hrefused
  have hends := (writingJson name).attempt_ends event station
  rw [recorded_record, hadded, record_counts, attempt_counts, hline]
  generalize (writingJson name).attempt event station = ended at *
  refine ⟨rfl, ?_⟩
  cases hends with
  | taken hmade =>
      obtain rfl := Except.ok.inj (hrecord.symm.trans hmade)
      simp [hcounts, outcomeOf]
  | refused hmade hencoder hrefused =>
      obtain rfl := Except.ok.inj (hrecord.symm.trans hmade)
      obtain rfl := Encoded.line.inj hencoder
      simp [htaken] at hrefused
  | payload hmade => simp [hrecord] at hmade
  | encoding hmade hencoder => simp [Encoder.json] at hencoder
  | panic hmade hencoder => simp [Encoder.json] at hencoder

/-- Whether a text is that of an object with a type, and with one type only. -/
def IsTyped (line type : String) : Prop :=
  ∃ members, Denotes line (.obj (("type", .str type) :: members)) ∧
    ∀ member ∈ members, member.1 ≠ "type"

theorem isTyped_line (record : LogRecord) : IsTyped record.line record.endpoint.path := by
  obtain ⟨rest, hmembers, hrest⟩ := record.members_eq
  refine ⟨rest, ?_, hrest⟩
  rw [← hmembers]
  exact denotes_compact record.toJson

/-- What recording a value leaves at a station, by what the value is. -/
structure LosesNothing (value : Json) (before after : Station) : Prop where
  null : value = .null → (Intake.ofJson value).event = none ∧
    after.recorded = before.recorded ++ ["\x7b\"type\":\"unknown\"\x7d"] ∧
      after.counts = before.counts ++ [.processed .unknown]
  recognized : ∀ endpoint event, Intake.Recognizes value endpoint event →
    (Intake.ofJson value).event = some event ∧ event.endpoint = endpoint
  summarized : ∀ endpoint event, Intake.Recognizes value endpoint event → event.Summarizes →
    ∃ line, after.recorded = before.recorded ++ [line] ∧ IsTyped line endpoint.path ∧
      after.counts = before.counts ++ [.processed endpoint]
  dropped : ∀ endpoint event, Intake.Recognizes value endpoint event → ¬ event.Summarizes →
    after.sink = before.sink ∧ after.recorded = before.recorded ∧
      after.counts = before.counts ++ [.dropped .payload]
  kept : value ≠ .null → (∀ endpoint event, ¬ Intake.Recognizes value endpoint event) →
    ∃ line, after.recorded = before.recorded ++ [line] ∧
      Denotes line (.obj [("type", .str "unknown"), ("unknownEvent", value)]) ∧
      after.counts = before.counts ++ [.processed .unknown]
  typed : ∀ added, after.recorded = before.recorded ++ added → ∀ line ∈ added,
    IsTyped line "unknown" ∨
      ∃ path, value.get? "event" = some (.str path) ∧ IsTyped line path

/-- **No value is lost.** A recorder that writes JSON to a sink that takes every line adds one line
for each value it is handed, or counts a conversion drop when a payload cannot be summarized. -/
theorem record_losesNothing (name : String) (value : Json) (haccepts : station.sink.Accepts) :
    LosesNothing value station
      ((writingJson name).record (Intake.ofJson value).event station).2 where
  null := by
    rintro rfl
    have hrecord : Event.record none = .ok ⟨.unknown none, none⟩ := rfl
    exact ⟨rfl, record_of_ok haccepts hrecord⟩
  recognized := by
    intro endpoint event hrecognizes
    exact ⟨hrecognizes.event_eq, hrecognizes.endpoint_eq⟩
  summarized := by
    intro endpoint event hrecognizes hsummarizes
    obtain ⟨record, hrecord⟩ := event.exists_record_iff.mpr hsummarizes
    have hendpoint : record.endpoint = endpoint :=
      (Event.endpoint_of_record hrecord).trans hrecognizes.endpoint_eq
    obtain ⟨hline, hcounts⟩ := @record_of_ok name _ _ _ haccepts hrecord
    rw [hrecognizes.event_eq, ← hendpoint]
    exact ⟨record.line, hline, isTyped_line record, hcounts⟩
  dropped := by
    intro endpoint event hrecognizes hsummarizes
    rw [hrecognizes.event_eq]
    cases hrecord : Event.record (some event) with
    | error fault => exact record_of_error hrecord
    | ok record => exact absurd (event.exists_record_iff.mp ⟨record, hrecord⟩) hsummarizes
  kept := by
    intro hnull hnone
    have hrecord : Event.record (some (.unrecognized value)) =
        .ok ⟨.unknown (some value), none⟩ := rfl
    obtain ⟨hline, hcounts⟩ := @record_of_ok name _ _ _ haccepts hrecord
    rw [Intake.event_of_not_recognizes hnull hnone]
    exact ⟨_, hline, denotes_compact _, hcounts⟩
  typed := by
    intro added hadded line hmem
    cases hrecord : Event.record (Intake.ofJson value).event with
    | error fault =>
        rw [(record_of_error hrecord).2.1, List.self_eq_append_right] at hadded
        rw [hadded] at hmem
        exact absurd hmem List.not_mem_nil
    | ok record =>
        rw [(record_of_ok haccepts hrecord).1, List.append_cancel_left_eq] at hadded
        rw [← hadded, List.mem_singleton] at hmem
        have htyped := isTyped_line record
        rw [← hmem, Event.endpoint_of_record hrecord] at htyped
        by_cases hrecognized : ∃ endpoint event, Intake.Recognizes value endpoint event
        · obtain ⟨endpoint, event, hrecognizes⟩ := hrecognized
          rw [hrecognizes.event_eq] at htyped
          right
          refine ⟨endpoint.path, hrecognizes.tagged, ?_⟩
          rw [← hrecognizes.endpoint_eq]
          exact htyped
        · push Not at hrecognized
          left
          by_cases hnull : value = .null
          · rw [hnull] at htyped
            exact htyped
          · rw [Intake.event_of_not_recognizes hnull hrecognized] at htyped
            exact htyped

/-- A uid change whose flag is no truth value, at an empty memory. -/
theorem record_losesNothing_misfit :
    (Sink.memory []).Accepts ∧
      LosesNothing (.obj [("event", .str "/setuid"), ("success", .str "maybe")])
        (.start (.memory []))
        ((writingJson defaultName).record
          (Intake.ofJson (.obj [("event", .str "/setuid"), ("success", .str "maybe")])).event
          (.start (.memory []))).2 := by
  have haccepts : (Sink.memory []).Accepts := by
    intro line
    rfl
  exact ⟨haccepts, record_losesNothing defaultName _ haccepts⟩

end AuctionLog.Recorder
