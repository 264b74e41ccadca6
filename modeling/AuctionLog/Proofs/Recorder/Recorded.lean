import AuctionLog.Proofs.Recorder.Attempt

/-!
# The lines that are recorded

Whoever reads a log sees the lines that a sink has taken, and no more. A sink that is the journal
keeps them among other entries, under a target of their own, so that notes of a recorder are never
taken for records. An attempt adds the line of its event if the sink takes it, and no other line.
-/

namespace AuctionLog

/-- Whether a sink takes every line that it is offered. -/
def Sink.Accepts (sink : Sink) : Prop :=
  ∀ line, (sink.offer line).refusal = none

def Entry.isRecord (entry : Entry) : Bool :=
  entry.target == recordTarget

namespace Station

variable {station : Station} {span : Span} {line : String}

/-- The lines that a station has taken and still holds, the oldest first. -/
def recorded (station : Station) : List String :=
  match station.sink with
  | .journal => (station.journal.filter Entry.isRecord).map (·.message)
  | sink => sink.lines

theorem recorded_of_ne_journal (hsink : station.sink ≠ .journal) :
    station.recorded = station.sink.lines := by
  unfold recorded
  split
  · rename_i hjournal
    exact absurd hjournal hsink
  · rfl

theorem recorded_of_journal (hsink : station.sink = .journal) :
    station.recorded = (station.journal.filter Entry.isRecord).map (·.message) := by
  rw [recorded, hsink]

@[simp]
theorem recorded_count (counter : Counter) : (station.count counter).recorded = station.recorded :=
  rfl

theorem recorded_noteAll {entries : List Entry} (hentries : ∀ entry ∈ entries, ¬ entry.isRecord) :
    (station.noteAll entries).recorded = station.recorded := by
  by_cases hsink : station.sink = .journal
  · have hnone : entries.filter Entry.isRecord = [] := List.filter_eq_nil_iff.mpr hentries
    rw [recorded_of_journal hsink, recorded_of_journal (by simpa using hsink), noteAll,
      List.filter_append, hnone, List.append_nil]
  · rw [recorded_of_ne_journal hsink, recorded_of_ne_journal (by simpa using hsink), noteAll_sink]

theorem recorded_note {entry : Entry} (hentry : ¬ entry.isRecord) :
    (station.note entry).recorded = station.recorded := by
  have hentries : ∀ other ∈ [entry], ¬ other.isRecord := by
    intro other hmem
    rwa [List.mem_singleton.mp hmem]
  exact recorded_noteAll hentries

theorem recorded_offer :
    (station.offer span line).2.recorded =
      station.recorded ++ if (station.sink.offer line).refusal.isNone then [line] else [] := by
  rcases station.sink.offer_cases line with ⟨htaken, -, hlines⟩ | ⟨reason, hrefused, hsame, -⟩
  · rw [htaken, Option.isNone_none, if_pos rfl]
    by_cases hsink : station.sink = .journal
    · have hoffer : station.sink.offer line = ⟨.journal, none, [], [recordEntry line]⟩ := by
        rw [hsink]
        rfl
      have hentry : [(recordEntry line).within span].filter Entry.isRecord =
          [(recordEntry line).within span] := rfl
      rw [recorded_of_journal hsink, recorded_of_journal (by simp [hoffer]), offer, hoffer]
      simp only [List.map_cons, List.map_nil, List.filter_append, hentry, List.map_append]
      rfl
    · have hnext : (station.offer span line).2.sink ≠ .journal := Sink.offer_ne_journal hsink
      rw [recorded_of_ne_journal hsink, recorded_of_ne_journal hnext, offer_sink, hlines hsink]
  · have hsink : station.sink ≠ .journal := by
      intro hjournal
      simp [hjournal, Sink.offer] at hrefused
    rw [recorded_of_ne_journal hsink, recorded_of_ne_journal (by rwa [offer_sink, hsame]),
      offer_sink, hsame, hrefused]
    simp

end Station

namespace Recorder

/-- The recorder of the service, which writes records as JSON. -/
abbrev writingJson (name : String) : Recorder :=
  ⟨name, Encoder.json⟩

variable (recorder : Recorder) (event : Option Event) (station : Station)

/-- The line that a recorder adds for an event to what a sink holds, if the sink takes it. -/
def added? (sink : Sink) : Option String :=
  (recorder.line? event).filter fun line => (sink.offer line).refusal.isNone

theorem not_isRecord_attemptEntries :
    ∀ entry ∈ (attemptEntries event).map (·.within attemptSpan), ¬ entry.isRecord := by
  rw [List.forall_mem_map]
  intro entry hmem
  have htarget : entry.target = "reporter::reporter" ∨ entry.target = "reporter::dispatch" := by
    unfold attemptEntries at hmem
    split at hmem
    · rcases List.mem_cons.mp hmem with rfl | hmem
      · exact .inl rfl
      · obtain rfl := List.mem_singleton.mp hmem
        exact .inr rfl
    · obtain rfl := List.mem_singleton.mp hmem
      exact .inl rfl
  rcases htarget with htarget | htarget
  · simp [Entry.isRecord, Entry.within, htarget, recordTarget]
  · simp [Entry.isRecord, Entry.within, htarget, recordTarget]

theorem attempt_station :
    let noted := station.noteAll ((attemptEntries event).map (·.within attemptSpan))
    (recorder.attempt event station).2 =
      match recorder.line? event with
      | none => noted
      | some line => (noted.offer attemptSpan line).2 := by
  intro noted
  unfold attempt line?
  cases hrecord : Event.record event with
  | error fault => rfl
  | ok record =>
      cases hencoder : recorder.encoder record with
      | refused reason => simp [noted, hencoder]
      | panicked message => simp [noted, hencoder]
      | line line =>
          simp only [hencoder, noted]
          split
          · rename_i hoffer
            rw [hoffer]
          · rename_i hoffer
            rw [hoffer]

/-- **An attempt adds the line of its event**, if it has one and the sink takes it. -/
theorem recorded_attempt :
    (recorder.attempt event station).2.recorded =
      station.recorded ++ (recorder.added? event station.sink).toList := by
  have hnoted := @Station.recorded_noteAll station _ (not_isRecord_attemptEntries event)
  rw [attempt_station, added?]
  cases recorder.line? event with
  | none => simpa using hnoted
  | some line =>
      simp only [Station.recorded_offer, hnoted, Station.noteAll_sink, Option.filter_some]
      by_cases htaken : (station.sink.offer line).refusal.isNone
      · simp [htaken]
      · simp [htaken]

theorem recorded_record :
    (recorder.record event station).2.recorded =
      station.recorded ++ (recorder.added? event station.sink).toList := by
  rw [← recorded_attempt]
  unfold record
  rcases recorder.attempt event station with ⟨stop | record, next⟩
  · have hdrop : ¬ (dropEntry stop).isRecord := by
      cases stop with
      | fault reason => simp [dropEntry, Entry.isRecord, Entry.plain, recordTarget]
      | panic message => simp [dropEntry, Entry.isRecord, Entry.plain, recordTarget]
    rw [Station.recorded_note hdrop, Station.recorded_count]
  · rfl

end Recorder

end AuctionLog
