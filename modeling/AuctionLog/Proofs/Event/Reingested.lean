import AuctionLog.Proofs.Decoder.Tables
import AuctionLog.Proofs.Event.Undeclared
import AuctionLog.Proofs.Record.Line
import AuctionLog.Proofs.Recorder.Lossless

/-!
# Records that are taken in again

The record of a cookie sync or of a uid change is itself the report of one, but for the name of its
tag. Once that is changed it is recognized as an event of the same endpoint, and its record is the
one that it came from: only whether a sync allows other origins is not in it.
-/

namespace AuctionLog

open Json

/-! ## Another name for a member -/

namespace Json

/-- The object with one of its members under another name. -/
def renamed (old new : String) : Json → Json
  | .obj members =>
      match Members.get? members old with
      | none => .obj members
      | some value =>
          .obj (Members.ofList (members.filter (fun member => member.1 ≠ old) ++ [(new, value)]))
  | value => value

/-- Renaming the member that a table was merged with is merging it under the other name. -/
theorem renamed_merge {old new : String} {value : Json} {rest : Table}
    (hbefore : (Table.merge [(old, some value)] rest).Sorted)
    (hafter : (Table.merge [(new, some value)] rest).Sorted) :
    renamed old new (.obj (Table.merge [(old, some value)] rest).members) =
      .obj (Table.merge [(new, some value)] rest).members := by
  have hmembers : ∀ name, (Table.merge [(name, some value)] rest).members.Perm
      ((name, value) :: rest.members) :=
    fun name => (Table.merge_perm [(name, some value)] rest).filterMap _
  have hnames : ((Table.merge [(old, some value)] rest).members).Pairwise
      fun left right => left.1 ≠ right.1 :=
    hbefore.members.imp ne_of_lt
  have hget : Members.get? (Table.merge [(old, some value)] rest).members old = some value :=
    Members.get?_eq_some_of_mem hnames ((hmembers old).mem_iff.mpr (List.mem_cons_self ..))
  have hothers : ∀ member ∈ rest.members, member.1 ≠ old := by
    have hperm := ((hmembers old).pairwise_iff fun hne => Ne.symm hne).mp hnames
    intro member hmem
    exact ((List.pairwise_cons.mp hperm).1 member hmem).symm
  have hkept : ((Table.merge [(old, some value)] rest).members.filter
      fun member => member.1 ≠ old).Perm rest.members := by
    refine ((hmembers old).filter _).trans (List.Perm.of_eq ?_)
    rw [List.filter_cons_of_neg (by simp), List.filter_eq_self.mpr (by simpa using hothers)]
  rw [renamed, hget]
  refine congrArg obj (hafter.members.ofList_eq_of_perm ?_)
  exact ((hkept.append_right _).trans List.perm_append_comm).trans (hmembers new).symm

end Json

/-! ## What is read from the facts of an event -/

/-- The event that the record of an event tells of: all of it, apart from whether other origins are
allowed. -/
def SyncOffer.told (offer : SyncOffer) : SyncOffer :=
  { offer with supportCors := none }

def SyncStatus.told (status : SyncStatus) : SyncStatus :=
  { status with usersync := status.usersync.map (·.told) }

theorem SyncStatus.facts_told (status : SyncStatus) : status.told.facts = status.facts := by
  simp only [facts, told, Option.map_map]
  rfl

theorem SyncMethod.ofJson_name (method : SyncMethod) :
    SyncMethod.decoder.ofJson (.str method.name) = .ok method := by
  cases method <;> rfl

theorem SyncOffer.ofJson_table (offer : SyncOffer) :
    decoder.ofJson (.obj offer.facts.table.members) = .ok offer.told := by
  have htable : offer.facts.table =
      [ ("status", offer.status.map .str)
      , ("type", offer.method.map fun method => .str method.name)
      , ("url", offer.url.map .str) ] := by
    simp only [OfferFacts.table, facts, Option.map_map]
    rfl
  rw [htable]
  refine Decoder.ofMembers_of_readAs (by decide) ?_
  refine .optional rfl rfl (by decide) rfl (fun _ _ => text_of_str _) ?_
  refine .optional rfl rfl (by decide) rfl (fun _ _ => ⟨by simp, SyncMethod.ofJson_name _⟩) ?_
  exact .optional rfl rfl (by decide) rfl (fun _ _ => text_of_str _) (.nil _)

theorem SyncStatus.ofJson_table (status : SyncStatus) :
    decoder.ofJson (.obj status.facts.table.members) = .ok status.told := by
  have hoffers : ∀ offer ∈ status.told.usersync, Json.obj offer.facts.table.members ≠ .null ∧
      SyncOffer.decoder.ofJson (.obj offer.facts.table.members) = .ok offer := by
    intro offer hmem
    obtain ⟨listed, -, rfl⟩ := Option.map_eq_some_iff.mp hmem
    exact ⟨by simp, SyncOffer.ofJson_table listed.told⟩
  have htable : status.facts.table =
      [ ("bidder", status.bidder.map .str)
      , ("error", status.error.map .str)
      , ("noCookie", status.noCookie.map .bool)
      , ("response_time_ms", status.responseTimeMs.map (.num <| .ofUInt64 ·))
      , ("usersync", status.told.usersync.map fun offer => .obj offer.facts.table.members) ] := by
    rw [← status.facts_told]
    simp only [SyncFacts.table, facts, Option.map_map]
    rfl
  rw [htable]
  refine Decoder.ofMembers_of_readAs (by decide) ?_
  refine .optional rfl rfl (by decide) rfl (fun _ _ => text_of_str _) ?_
  refine .optional rfl rfl (by decide) rfl (fun _ _ => text_of_str _) ?_
  refine .optional rfl rfl (by decide) rfl (fun _ _ => flag_of_bool _) ?_
  refine .optional rfl rfl (by decide) rfl (fun _ _ => nat64_of_num _) ?_
  exact .optional rfl rfl (by decide) rfl hoffers (.nil _)

/-! ## What is read from a record -/

/-- The table of a record under the tag of a report, as its endpoint is read from it. -/
def Facts.reported (facts : Facts) : Table :=
  Table.merge [("event", some (.str facts.endpoint.path))] facts.table

theorem SyncStatus.ofJson_reported (statuses : List SyncStatus) :
    listDecoder.ofJson (.obj (Facts.cookieSync (statuses.map (·.facts))).reported.members) =
      .ok (statuses.map (·.told)) := by
  have htable : (Facts.cookieSync (statuses.map (·.facts))).reported =
      [ ("bidderStatus", some (.arr (statuses.map fun status => .obj status.facts.table.members)))
      , ("event", some (.str Endpoint.cookieSync.path)) ] := by
    simp [Facts.reported, Facts.table, Facts.endpoint, Table.merge]
  have hstatuses := Decoder.list_of_items SyncStatus.ofJson_table statuses
  have hupdate : (decoder.list.map fun value _ => value).ofJson
      (.arr (statuses.map fun status => .obj status.facts.table.members)) =
        .ok fun _ : List SyncStatus => statuses.map (·.told) := by
    simp only [Decoder.map, Decoder.refine, hstatuses, bind, Except.bind]
  rw [htable]
  refine Decoder.ofMembers_of_readAs (by decide) ?_
  exact .declared rfl (by decide) hupdate (.undeclared rfl (.nil _))

theorem UidChange.ofJson_reported (change : UidChange) :
    decoder.ofJson (.obj (Facts.setuid change.facts).reported.members) = .ok change := by
  have htable : (Facts.setuid change.facts).reported =
      [ ("bidder", change.bidder.map .str)
      , ("event", some (.str Endpoint.setuid.path))
      , ("success", change.success.map .bool)
      , ("uid", change.uid.map .str) ] := by
    simp [Facts.reported, Facts.table, Facts.endpoint, Table.merge, facts]
  rw [htable]
  refine Decoder.ofMembers_of_readAs (by decide) ?_
  refine .optional rfl rfl (by decide) rfl (fun _ _ => text_of_str _) ?_
  refine .undeclared rfl ?_
  refine .optional rfl rfl (by decide) rfl (fun _ _ => flag_of_bool _) ?_
  exact .optional rfl rfl (by decide) rfl (fun _ _ => text_of_str _) (.nil _)

theorem Facts.sorted_reported (facts : Facts) : facts.reported.Sorted := by
  refine Table.Sorted.merge (List.pairwise_singleton ..) facts.sorted_table ?_
  intro entry hentry other hother
  obtain rfl := List.mem_singleton.mp hentry
  have hnames : ∀ name ∈ facts.table.map (·.1), "event" ≠ name := by
    cases facts <;> simp [table]
  exact hnames other.1 (List.mem_map_of_mem hother)

/-- What is told of an event without a request is the report of it, under another tag. -/
theorem LogRecord.renamed_reference (facts : Facts) :
    renamed "type" "event" (LogRecord.reference ⟨facts, none⟩) = .obj facts.reported.members := by
  have htable : LogRecord.table ⟨facts, none⟩ =
      Table.merge [("type", some (.str facts.endpoint.path))] facts.table := by
    simp [LogRecord.table, Table.merge, LogRecord.endpoint]
  have hsorted := LogRecord.sorted_table ⟨facts, none⟩
  rw [htable] at hsorted
  rw [LogRecord.reference, htable]
  exact renamed_merge hsorted facts.sorted_reported

theorem Facts.get?_reported (facts : Facts) :
    (Json.obj facts.reported.members).get? "event" = some (.str facts.endpoint.path) := by
  refine Members.get?_eq_some_of_mem (facts.sorted_reported.members.imp ne_of_lt) ?_
  refine Table.mem_members.mpr ((Table.merge_perm _ _).mem_iff.mpr ?_)
  exact List.mem_cons_self ..

theorem LogRecord.parse_line_of_carries {record : LogRecord}
    (hcarries : record.facts.Carries (Fits 125))
    (hdoubles : record.facts.Carries (AllDoubles Double.Survives)) :
    parse (Utf8.encode record.line.toList) = .ok record.reference := by
  have hfits : Fits 127 record.reference := hcarries.reference (builds_fits 122) (builds_fits 123)
  obtain ⟨harranged, hdepth⟩ := record.same_reference
  have hshallow : record.toJson.depth ≤ maxLevels := hdepth ▸ hfits.2
  rw [line, parse_compact hdoubles.allDoubles_toJson hshallow, harranged, hfits.1]

/-- The event that the report of an event's record is read as. -/
def Event.told : Event → Event
  | .cookieSync statuses => .cookieSync (statuses.map (·.told))
  | other => other

/-- An event of which nothing but plain facts is recorded is told of by its record, which carries no
value. -/
theorem Event.recognizes_reported {event : Event}
    (hendpoint : event.endpoint = .cookieSync ∨ event.endpoint = .setuid) :
    ∃ facts : Facts, Event.record (some event) = .ok ⟨facts, none⟩ ∧
      (∀ P, facts.Carries P) ∧ event.RecordedAlike event.told ∧
      Intake.Recognizes (.obj facts.reported.members) event.endpoint event.told := by
  cases event with
  | cookieSync statuses =>
      have htold : (statuses.map (·.told)).map (·.facts) = statuses.map (·.facts) := by
        rw [List.map_map]
        exact List.map_congr_left fun status _ => status.facts_told
      refine ⟨.cookieSync (statuses.map (·.facts)), rfl, fun _ => trivial,
        .of_record ?_ rfl rfl, ?_⟩
      · simp only [Event.record, Event.told, Event.facts, htold]
        rfl
      · refine ⟨by simp [Event.endpoint], Facts.get?_reported _, ?_⟩
        simp only [Event.decoder, Event.endpoint, Decoder.map, Decoder.refine,
          SyncStatus.ofJson_reported, bind, Except.bind, Event.told]
  | setuid change =>
      refine ⟨.setuid change.facts, rfl, fun _ => trivial, .of_record rfl rfl rfl, ?_⟩
      refine ⟨by simp [Event.endpoint], Facts.get?_reported _, ?_⟩
      simp only [Event.decoder, Event.endpoint, Decoder.map, Decoder.refine,
        UidChange.ofJson_reported, bind, Except.bind, Event.told]
  | auction | amp | video | notification | unrecognized => simp [Event.endpoint] at hendpoint

/-- **A record can be taken in again**: the line of a cookie sync or of a uid change is read as an
object that, once its tag is named as that of a report, is recognized as an event of the same
endpoint. Recording that writes the same line as recording the event itself. -/
theorem Event.line_reingested (event : Event)
    (hendpoint : event.endpoint = .cookieSync ∨ event.endpoint = .setuid) :
    ∃ record value again, Event.record (some event) = .ok record ∧
      parse (Utf8.encode record.line.toList) = .ok value ∧
      Intake.ofJson (value.renamed "type" "event") = .fitting again ∧
      event.RecordedAlike again ∧
      ∀ (name : String) (station : Station), station.sink.Accepts →
        ((Recorder.writingJson name).record (some event) station).2.recorded =
            station.recorded ++ [record.line] ∧
          ((Recorder.writingJson name).record (some again) station).2.recorded =
            station.recorded ++ [record.line] := by
  obtain ⟨facts, hrecord, hcarries, halike, hrecognizes⟩ := recognizes_reported hendpoint
  have hparse := @LogRecord.parse_line_of_carries ⟨facts, none⟩ (hcarries _) (hcarries _)
  refine ⟨⟨facts, none⟩, _, event.told, hrecord, hparse, ?_, halike, ?_⟩
  · rw [LogRecord.renamed_reference]
    exact Intake.ofJson_eq_fitting_iff.mpr ⟨_, hrecognizes⟩
  · intro name station haccepts
    rw [halike.process]
    have hline := (@Recorder.record_of_ok name _ _ _ haccepts hrecord).1
    exact ⟨hline, hline⟩

/-- A sync that allows other origins, of a bidder that took its time. -/
theorem Event.line_reingested_cookieSync :
    let event : Event := .cookieSync
      [⟨some "a", some true, some ⟨some "u", some .iframe, some true, none⟩, none, some 250⟩]
    event.endpoint = .cookieSync ∧ ∃ record again,
      Event.record (some event) = .ok record ∧ event.RecordedAlike again ∧
        ((Recorder.writingJson "a").record (some again) (.start (.memory []))).2.recorded =
          [record.line] := by
  intro event
  have haccepts : (Station.start (.memory [])).sink.Accepts := by
    intro line
    rfl
  obtain ⟨record, _, again, hrecord, -, -, halike, hlines⟩ := event.line_reingested (.inl rfl)
  exact ⟨rfl, record, again, hrecord, halike, (hlines "a" _ haccepts).2⟩

end AuctionLog
