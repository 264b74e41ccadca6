import AuctionLog.Proofs.Recorder.Lossless
import AuctionLog.Proofs.Summary.Projection

/-!
# Payloads that are no objects

Nothing asks a payload to be an object. A list with one item for each member that a summary keeps,
in the order in which the summary names them, is summarized as the object with these members. Every
other value but null is refused, and an event that carries one is dropped.
-/

namespace AuctionLog

open Json

variable {ρ : Type}

/-- Whether a value lists members by place, and a record is what they come to. -/
def ListsMembers (rules : List (String × Rule)) (Projects : Members → ρ → Prop) (value : Json)
    (record : ρ) : Prop :=
  ∃ items, value = .arr items ∧ items.length = rules.length ∧
    Projects ((rules.map (·.1)).zip items) record

/-- Whether the summary of a payload that is no object is that of the members that it lists, and is
refused under its name if it lists none. -/
structure RefusedUnlessListed (name : String) (Lists : ρ → Prop)
    (summary : Except PayloadFault (Option ρ)) : Prop where
  listed : ∀ told, summary = .ok told ↔ ∃ record, told = some record ∧ Lists record
  refused : ∀ fault, summary = .error fault → fault.payload.summaryName = name

section Summarized

variable {fields : List (Field ρ)} {rules : List (String × Rule)} {empty : ρ} {value : Json}

theorem names_of_ruled (hruled : List.Forall₂ Field.RuledBy fields rules) :
    fields.map (·.name) = rules.map (·.1) := by
  induction hruled with
  | nil => rfl
  | cons hhead _ ih => rw [List.map_cons, List.map_cons, hhead.1, ih]

theorem refused_unless_listed (payload : Payload) (type : String) (hfields : Independent fields)
    (hlast : ∀ field ∈ fields.getLast?, field.presence ≠ .defaulted)
    (hruled : List.Forall₂ Field.RuledBy fields rules) {Projects : Members → ρ → Prop}
    (hprojects : ∀ members record,
      Decoder.fill (Members.get? members) fields empty = .ok record ↔ Projects members record)
    (hnull : value ≠ .null) (hobject : ∀ members, value ≠ .obj members) :
    RefusedUnlessListed payload.summaryName (ListsMembers rules Projects value)
      (summarize payload (.record type fields empty) (some value)) := by
  have hread : ∀ record, (Decoder.record type fields empty).ofJson value = .ok record ↔
      ListsMembers rules Projects value record := by
    intro record
    cases value with
    | null => exact absurd rfl hnull
    | obj members => exact absurd rfl (hobject members)
    | bool | num | str => exact iff_of_false nofun fun ⟨_, heq, _⟩ => absurd heq nofun
    | arr items =>
        change Decoder.ofItems type fields.length empty 0 fields items = _ ↔ _
        rw [Decoder.ofItems_eq_ok_iff hfields hlast, names_of_ruled hruled, hruled.length_eq,
          hprojects]
        simp [ListsMembers]
  constructor
  · intro told
    rw [summarize_eq_ok_iff hnull]
    simp only [hread]
  · intro fault hfault
    exact congrArg Payload.summaryName (payload_of_summarize hfault)

end Summarized

namespace BidRequest

def Lists : Json → BidRequest → Prop :=
  ListsMembers rules Projects

end BidRequest

namespace BidResponse

def Lists : Json → BidResponse → Prop :=
  ListsMembers rules Projects

end BidResponse

/-- Whether an event carries a value as a payload, for which the value lists no members. -/
def Event.CarriesUnlisted (event : Event) (value : Json) : Prop :=
  event.bidRequest = some value ∧ (∀ request, ¬ BidRequest.Lists value request) ∨
    event.bidResponse = some value ∧ ∀ response, ¬ BidResponse.Lists value response

/-- What recording an event leaves at a station when the event is dropped for a payload. -/
structure Recorder.DropsPayload (recorder : Recorder) (event : Event) (station : Station) :
    Prop where
  sink : (recorder.record (some event) station).2.sink = station.sink
  recorded : (recorder.record (some event) station).2.recorded = station.recorded
  counts : (recorder.record (some event) station).2.counts =
    station.counts ++ [.dropped .payload]

/-- **A payload that is no object is refused unless it lists the members of the summary**, and then
an event that carries it is dropped and counted once. -/
theorem nonobjects_refused_unless_listed (value : Json) (hnull : value ≠ .null)
    (hobject : ∀ members, value ≠ .obj members) :
    RefusedUnlessListed "BidRequestSummary" (BidRequest.Lists value)
        (BidRequest.ofPayload (some value)) ∧
      RefusedUnlessListed "BidResponseSummary" (BidResponse.Lists value)
        (BidResponse.ofPayload (some value)) ∧
      ∀ event : Event, event.CarriesUnlisted value →
        ∀ (recorder : Recorder) (station : Station), recorder.DropsPayload event station := by
  have hrequest : RefusedUnlessListed "BidRequestSummary" (BidRequest.Lists value)
      (BidRequest.ofPayload (some value)) :=
    refused_unless_listed .bidRequest _ BidRequest.independent
      (by simp [BidRequest.fields, Field.optional]) BidRequest.fields_ruled
      BidRequest.fill_iff_projects hnull hobject
  have hresponse : RefusedUnlessListed "BidResponseSummary" (BidResponse.Lists value)
      (BidResponse.ofPayload (some value)) :=
    refused_unless_listed .bidResponse _ BidResponse.independent
      (by simp [BidResponse.fields, Field.optional]) BidResponse.fields_ruled
      BidResponse.fill_iff_projects hnull hobject
  refine ⟨hrequest, hresponse, ?_⟩
  intro event hcarries recorder station
  have hunsummarized : ¬ event.Summarizes := by
    rintro ⟨⟨told, htold⟩, ⟨other, hother⟩⟩
    rcases hcarries with ⟨hpayload, hunlisted⟩ | ⟨hpayload, hunlisted⟩
    · rw [hpayload] at htold
      obtain ⟨request, -, hlists⟩ := (hrequest.listed told).mp htold
      exact hunlisted request hlists
    · rw [hpayload] at hother
      obtain ⟨response, -, hlists⟩ := (hresponse.listed other).mp hother
      exact hunlisted response hlists
  cases hrecord : Event.record (some event) with
  | ok record => exact absurd (event.exists_record_iff.mp ⟨record, hrecord⟩) hunsummarized
  | error fault =>
      obtain ⟨hsink, hrecorded, hcounts⟩ := Recorder.record_of_error hrecord
      exact ⟨hsink, hrecorded, hcounts⟩

def nulls (length : Nat) : Json :=
  .arr (List.replicate length .null)

/-- A page auction whose request is a list of seven nulls. -/
def nullsRequested : Event :=
  .auction { request := none, input := some ⟨some (nulls 7)⟩, bidResponse := none }

/-- Seven nulls are a bid response without members, and no bid request. -/
theorem nonobjects_refused_unless_listed_nulls :
    nulls 7 ≠ .null ∧ (∀ members, nulls 7 ≠ .obj members) ∧
      RefusedUnlessListed "BidRequestSummary" (BidRequest.Lists (nulls 7))
        (.error ⟨.bidRequest, .wrongLength 9 (.recordOf "BidRequestSummary" 17)⟩) ∧
      RefusedUnlessListed "BidResponseSummary" (BidResponse.Lists (nulls 7)) (.ok (some {})) ∧
      nullsRequested.CarriesUnlisted (nulls 7) ∧
      (Recorder.writingJson Recorder.defaultName).DropsPayload nullsRequested
        (.start (.memory [])) := by
  have hnull : nulls 7 ≠ .null := nofun
  have hobject : ∀ members, nulls 7 ≠ .obj members := nofun
  have hunlisted : nullsRequested.CarriesUnlisted (nulls 7) := by
    left
    refine ⟨rfl, ?_⟩
    rintro request ⟨items, hitems, hlength, -⟩
    rw [← Json.arr.inj hitems] at hlength
    exact absurd hlength (by decide)
  obtain ⟨hrequest, hresponse, hdrops⟩ := nonobjects_refused_unless_listed (nulls 7) hnull hobject
  exact ⟨hnull, hobject, hrequest, hresponse, hunlisted, hdrops _ hunlisted _ _⟩

/-- Lists of nulls are summarized as objects without members, and an event that carries one is
recorded. -/
theorem nulls_summarized :
    BidRequest.ofPayload (some (nulls 17)) = .ok (some {}) ∧
      BidResponse.ofPayload (some (nulls 7)) = .ok (some {}) ∧
      ∃ record, Event.record (some (.auction
        { request := none, input := none, bidResponse := some (nulls 7) })) = .ok record :=
  ⟨rfl, rfl, _, rfl⟩

end AuctionLog
