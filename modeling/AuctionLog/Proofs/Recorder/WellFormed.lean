import AuctionLog.Proofs.Event.Arranged
import AuctionLog.Proofs.Json.Outside
import AuctionLog.Proofs.Json.Plain
import AuctionLog.Proofs.Json.RoundTrip
import AuctionLog.Proofs.Recorder.Recorded
import AuctionLog.Proofs.Text.Utf8Order

/-!
# Lines are well formed

Every line that a recorder adds is one object on one line, without a blank between its parts. Its
type comes first, then what is told of the request if there was one, and then the facts. No name
comes twice in any of its objects, and the names of headers and parameters are in order.
-/

namespace AuctionLog

open Json

/-- Whether an event was served over a request, as all but cookie syncs and uid changes can be. -/
inductive Event.ServedOver (request : ServedRequest) : Event → Prop where
  | auction {reported : Auction} (hrequest : reported.request = some request) :
      ServedOver request (.auction reported)
  | amp {reported : AmpAuction} (hrequest : reported.auction.request = some request) :
      ServedOver request (.amp reported)
  | video {reported : Auction} (hrequest : reported.request = some request) :
      ServedOver request (.video reported)
  | notification {reported : Notice} (hrequest : reported.request = some request) :
      ServedOver request (.notification reported)

theorem Event.servedOver_iff {request : ServedRequest} {event : Event} :
    event.ServedOver request ↔ event.request = some request := by
  constructor
  · rintro (hrequest | hrequest | hrequest | hrequest) <;> exact hrequest
  · intro hrequest
    cases event with
    | auction => exact .auction hrequest
    | amp => exact .amp hrequest
    | video => exact .video hrequest
    | notification => exact .notification hrequest
    | cookieSync | setuid | unrecognized => exact absurd hrequest nofun

/-! ## The line of a record -/

namespace LogRecord

variable {record : LogRecord} {name : String} {value : Json}

theorem toList_line (record : LogRecord) : record.line.toList = record.toJson.chars := by
  rw [line, compact, String.toList_ofList]

theorem prefix_line (record : LogRecord) :
    ("\x7b\"type\":\"" ++ record.endpoint.path ++ "\"").toList <+: record.line.toList := by
  -- Nothing in the path of an endpoint has to be escaped.
  have hpath : quoted record.endpoint.path = '"' :: record.endpoint.path.toList ++ ['"'] := by
    cases record.endpoint <;> decide
  have htype : quoted "type" = "\"type\"".toList := by decide
  obtain ⟨rest, hmembers, -⟩ := record.members_eq
  rw [toList_line, toJson, hmembers, chars, memberChars, chars, separated_cons, hpath, htype]
  refine ⟨following (memberChars rest) ++ ['\x7d'], ?_⟩
  simp

theorem exists_sorted_textMembers {entries : List (String × String)}
    (hsorted : entries.Pairwise fun left right => left.1 < right.1) :
    ∃ members, NamedValues.textMembers entries = .obj members ∧
      members.Pairwise fun left right =>
        Utf8.encode left.1.toList < Utf8.encode right.1.toList := by
  refine ⟨_, rfl, ?_⟩
  rw [List.pairwise_map]
  exact hsorted.imp fun hlt => Utf8.encode_lt_encode (String.lt_iff_toList_lt.mp hlt)

theorem sorted_of_mem (hsingle : ∀ view ∈ record.request, view.Single)
    (htargeting : ∀ entries ∈ record.facts.targeting?,
      entries.Pairwise fun left right => left.1 < right.1)
    (hname : name ∈ ["headers", "queryParams", "targeting"])
    (hmem : (name, value) ∈ record.members) :
    ∃ entries, value = .obj entries ∧ entries.Pairwise fun left right =>
      Utf8.encode left.1.toList < Utf8.encode right.1.toList := by
  have hcases : name ∈ ["headers", "queryParams"] ∨ name = "targeting" := by
    simpa [or_assoc] using hname
  rcases hcases with htexts | rfl
  · obtain ⟨view, hview, ⟨-, rfl⟩ | ⟨-, rfl⟩⟩ := texts_of_mem htexts hmem
    · exact exists_sorted_textMembers (hsingle view hview).sortedHeaders
    · exact exists_sorted_textMembers (hsingle view hview).sortedParams
  · obtain ⟨entries, hentries, rfl⟩ := targeting_of_mem hmem
    exact exists_sorted_textMembers (htargeting entries hentries)

theorem distinct_of_mem (hsingle : ∀ view ∈ record.request, view.Single) {entries : Members}
    (hname : name ∈ ["headers", "queryParams"]) (hmem : (name, .obj entries) ∈ record.members) :
    entries.Pairwise fun left right => ¬ Ascii.sameFold left.1 right.1 := by
  obtain ⟨view, hview, ⟨-, htexts⟩ | ⟨-, htexts⟩⟩ := texts_of_mem hname hmem
  · obtain rfl := Json.obj.inj htexts
    exact List.pairwise_map.mpr (hsingle view hview).distinctHeaders
  · obtain rfl := Json.obj.inj htexts
    exact List.pairwise_map.mpr (hsingle view hview).distinctParams

theorem texts_mem {view : RequestView} (hview : record.request = some view) :
    "headers" ∈ record.members.map (·.1) ∧ "queryParams" ∈ record.members.map (·.1) := by
  simp [members, hview, RequestView.members]

theorem notMem_of_no_request (hnone : record.request = none) :
    ∀ name ∈ RequestView.names, name ∉ record.members.map (·.1) := by
  intro name hname hlisted
  obtain ⟨⟨listed, value⟩, hmem, rfl⟩ := List.mem_map.mp hlisted
  have hother := disjoint_names record.facts.endpoint listed hname
  rcases mem_members_iff.mp hmem with ⟨rfl, -⟩ | ⟨view, hview, -⟩ | hmem
  · exact hother (List.mem_cons_self ..)
  · exact absurd (Option.mem_def.mp hview) (by simp [hnone])
  · exact hother (List.mem_cons_of_mem _ (Facts.mem_names_of_mem hmem))

end LogRecord

/-! ## The line of an event -/

namespace Event

variable {event : Option Event}

theorem single_of_mem_requestView {view : RequestView} (hview : view ∈ requestView event) :
    view.Single := by
  obtain ⟨request, -, rfl⟩ := Option.map_eq_some_iff.mp hview
  exact RequestView.single_ofRequest request

theorem requestView_of_servedOver {reported : Event} (hreported : reported ∈ event)
    {request : ServedRequest} (hserved : reported.ServedOver request) :
    requestView event = some (RequestView.ofRequest request) := by
  rw [requestView, Option.mem_def.mp hreported, Option.bind_some, servedOver_iff.mp hserved,
    Option.map_some]

theorem requestView_eq_none (hnone : ∀ reported ∈ event, ∀ request, ¬ reported.ServedOver request) :
    requestView event = none := by
  by_contra hsome
  obtain ⟨view, hview⟩ := Option.ne_none_iff_exists'.mp hsome
  obtain ⟨request, hrequest, -⟩ := Option.map_eq_some_iff.mp hview
  obtain ⟨reported, hreported, hrequest⟩ := Option.bind_eq_some_iff.mp hrequest
  exact hnone reported hreported request (servedOver_iff.mpr hrequest)

theorem facts_of_arranged (harranged : ∀ reported ∈ event, reported.Arranged) {facts : Facts}
    (hfacts : Event.facts event = .ok facts) :
    facts.Carries Unrepeated ∧
      ∀ entries ∈ facts.targeting?, entries.Pairwise fun left right => left.1 < right.1 := by
  cases event with
  | none =>
      obtain rfl := Except.ok.inj hfacts
      exact ⟨nofun, nofun⟩
  | some reported => exact (harranged reported rfl).facts hfacts

end Event

namespace Recorder

/-- How the line of an event is formed, with the members of its object. -/
structure WellFormed (event : Option Event) (line : String) (members : Members) : Prop where
  denotes : Denotes line (.obj members)
  printable : ∀ byte ∈ Utf8.encode line.toList, 0x20 ≤ byte
  unspaced : ∀ char ∈ outside line.toList, 0x20 < char.toNat ∧ char.toNat < 0x7F
  typed : ("\x7b\"type\":\"" ++ (endpointOf event).path ++ "\"").toList <+: line.toList
  ordered : (members.map (·.1)).Sublist (LogRecord.names (endpointOf event))
  unrepeated : Unrepeated (.obj members)
  sorted : ∀ name ∈ ["headers", "queryParams", "targeting"], ∀ value, (name, value) ∈ members →
    ∃ entries, value = .obj entries ∧ entries.Pairwise fun left right =>
      Utf8.encode left.1.toList < Utf8.encode right.1.toList
  distinct : ∀ name ∈ ["headers", "queryParams"], ∀ entries, (name, .obj entries) ∈ members →
    entries.Pairwise fun left right => ¬ Ascii.sameFold left.1 right.1
  served : ∀ reported ∈ event, ∀ request, reported.ServedOver request →
    "headers" ∈ members.map (·.1) ∧ "queryParams" ∈ members.map (·.1)
  unserved : (∀ reported ∈ event, ∀ request, ¬ reported.ServedOver request) →
    ∀ name ∈ RequestView.names, name ∉ members.map (·.1)

variable {name : String} {event : Option Event} {record : LogRecord} {station next : Station}

theorem wellFormed_line (harranged : ∀ reported ∈ event, reported.Arranged)
    (hrecord : Event.record event = .ok record) :
    WellFormed event record.line record.members := by
  have hendpoint := Event.endpoint_of_record hrecord
  obtain ⟨facts, hfacts, rfl⟩ := Event.exists_of_record hrecord
  obtain ⟨hcarries, htargeting⟩ := Event.facts_of_arranged harranged hfacts
  have hsingle : ∀ view ∈ Event.requestView event, view.Single :=
    fun view hview => Event.single_of_mem_requestView hview
  exact {
    denotes := denotes_compact _
    printable := by
      rw [LogRecord.toList_line]
      exact le_of_mem_encode (plain_chars _)
    unspaced := by
      intro char hmem
      rw [LogRecord.toList_line] at hmem
      exact (bare_outside_chars _ char hmem).1
    typed := by
      rw [← hendpoint]
      exact LogRecord.prefix_line _
    ordered := by
      rw [← hendpoint]
      exact LogRecord.names_members _
    unrepeated := LogRecord.unrepeated hcarries htargeting hsingle
    sorted := by
      intro name hname value hmem
      exact LogRecord.sorted_of_mem hsingle htargeting hname hmem
    distinct := by
      intro name hname entries hmem
      exact LogRecord.distinct_of_mem hsingle hname hmem
    served := by
      intro reported hreported request hserved
      exact LogRecord.texts_mem (Event.requestView_of_servedOver hreported hserved)
    unserved := by
      intro hnone
      exact LogRecord.notMem_of_no_request (Event.requestView_eq_none hnone) }

theorem exists_line_wellFormed (harranged : ∀ reported ∈ event, reported.Arranged)
    (hattempt : (writingJson name).attempt event station = (.ok record, next)) :
    ∃ line, next.recorded = station.recorded ++ [line] ∧ WellFormed event line record.members := by
  have hends := (writingJson name).attempt_ends event station
  have hadded := (writingJson name).recorded_attempt event station
  rw [hattempt] at hends hadded
  cases hends with
  | taken hrecord hencoder htaken =>
      obtain rfl := Encoded.line.inj hencoder
      have hline : (writingJson name).line? event = some record.line := by
        simp only [line?, hrecord, Encoder.json]
      rw [added?, hline, Option.filter_some, htaken] at hadded
      exact ⟨record.line, hadded, wellFormed_line harranged hrecord⟩

/-- **Every line is well formed.** An attempt that succeeds adds one line, whose object is that of
the record. Events hold arranged values, as all do that are taken in from a text. -/
theorem attempt_wellFormed :
    (∀ {text : List UInt8} {value : Json}, parse text = .ok value →
      ∀ event ∈ (Intake.ofJson value).event, event.Arranged) ∧
      ∀ {name : String} {event : Option Event} {station next : Station} {record : LogRecord},
        (∀ reported ∈ event, reported.Arranged) →
          (writingJson name).attempt event station = (.ok record, next) →
            ∃ line, next.recorded = station.recorded ++ [line] ∧
              WellFormed event line record.members :=
  ⟨fun hparse => Intake.arranged_event (fits_of_parse hparse).1, exists_line_wellFormed⟩

/-- An auction from a page with a header given twice, in different case, and with targeting. -/
def ampServed : Event :=
  .amp
    { auction :=
        { request := some
            { ServedRequest.empty with headers := ⟨[("b", "1"), ("A", "2"), ("B", "3")]⟩ }
          input := none
          bidResponse := none }
      targeting := some [("k", .arr []), ("p", .bool true)]
      origin := some "" }

theorem attempt_wellFormed_ampServed :
    ampServed.Arranged ∧ ∃ record next line,
      (writingJson defaultName).attempt (some ampServed) (.start .journal) = (.ok record, next) ∧
        next.recorded = [line] ∧ WellFormed (some ampServed) line record.members := by
  have harranged : ampServed.Arranged := ⟨⟨nofun, nofun⟩, by rintro _ ⟨⟩; rfl⟩
  have hevent : ∀ reported ∈ some ampServed, reported.Arranged := by
    rintro _ ⟨⟩
    exact harranged
  obtain ⟨line, hadded, hline⟩ :=
    @attempt_wellFormed.2 defaultName _ (.start .journal) _ _ hevent rfl
  exact ⟨harranged, _, _, line, rfl, hadded, hline⟩

end Recorder

end AuctionLog
