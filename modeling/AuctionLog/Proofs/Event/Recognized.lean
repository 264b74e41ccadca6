import AuctionLog.Proofs.Record.Reported
import AuctionLog.Recorder.Basic

/-!
# Which values are recognized

A value is recognized if its tag is the path of an endpoint, letter by letter, and it has the shape
of the events from there. Null is no event, and what is not recognized is kept whole. A recognized
event has a record unless one of its payloads cannot be summarized.
-/

namespace AuctionLog

open Json

namespace Endpoint

theorem ofPath_path (endpoint : Endpoint) : ofPath endpoint.path = endpoint := by
  cases endpoint <;> decide

theorem ofPath_eq_iff {endpoint : Endpoint} (hknown : endpoint ≠ .unknown) {path : String} :
    ofPath path = endpoint ↔ path = endpoint.path := by
  constructor
  · intro hpath
    rw [ofPath] at hpath
    cases hfound : all.find? fun other => other.path == path with
    | none =>
        rw [hfound, Option.getD_none] at hpath
        exact absurd hpath.symm hknown
    | some found =>
        rw [hfound, Option.getD_some] at hpath
        have heq := List.find?_some hfound
        rw [beq_iff_eq, hpath] at heq
        exact heq.symm
  · rintro rfl
    exact ofPath_path endpoint

end Endpoint

namespace Intake

variable {value : Json} {endpoint : Endpoint} {event : Event}

/-- Whether a value names an endpoint as its event and has the shape of the events from there. -/
structure Recognizes (value : Json) (endpoint : Endpoint) (event : Event) : Prop where
  known : endpoint ≠ .unknown
  tagged : value.get? "event" = some (.str endpoint.path)
  shaped : (Event.decoder endpoint).ofJson value = .ok event

theorem tag_eq_iff (hknown : endpoint ≠ .unknown) :
    tag value = endpoint ↔ value.get? "event" = some (.str endpoint.path) := by
  unfold tag
  split
  · rename_i path hpath
    rw [hpath, Endpoint.ofPath_eq_iff hknown, Option.some.injEq, Json.str.injEq]
  · rename_i hother
    constructor
    · intro htag
      exact absurd htag.symm hknown
    · intro htagged
      exact absurd htagged (hother _)

theorem Recognizes.tag_eq (hrecognizes : Recognizes value endpoint event) : tag value = endpoint :=
  (tag_eq_iff hrecognizes.known).mpr hrecognizes.tagged

theorem Recognizes.endpoint_eq (hrecognizes : Recognizes value endpoint event) :
    event.endpoint = endpoint :=
  Event.endpoint_of_decoder hrecognizes.shaped

theorem isNull_iff : value.isNull ↔ value = .null := by
  cases value <;> simp [isNull]

/-- **A value is taken for an event exactly if it is recognized.** -/
theorem ofJson_eq_fitting_iff :
    ofJson value = .fitting event ↔ ∃ endpoint, Recognizes value endpoint event := by
  constructor
  · intro hfitting
    unfold ofJson at hfitting
    split_ifs at hfitting with hnull htag
    cases hread : (Event.decoder (tag value)).ofJson value with
    | error mismatch => simp [hread] at hfitting
    | ok read =>
        rw [hread] at hfitting
        obtain rfl := Intake.fitting.inj hfitting
        exact ⟨tag value, htag, (tag_eq_iff htag).mp rfl, hread⟩
  · rintro ⟨endpoint, hrecognizes⟩
    have hnull : ¬ value.isNull := by
      rw [isNull_iff]
      rintro rfl
      exact absurd hrecognizes.tagged nofun
    have htag := hrecognizes.tag_eq
    rw [ofJson, if_neg hnull, htag, if_neg hrecognizes.known, hrecognizes.shaped]

theorem Recognizes.event_eq (hrecognizes : Recognizes value endpoint event) :
    (ofJson value).event = some event := by
  rw [ofJson_eq_fitting_iff.mpr ⟨endpoint, hrecognizes⟩]
  rfl

theorem event_of_not_recognizes (hnull : value ≠ .null)
    (hnone : ∀ endpoint event, ¬ Recognizes value endpoint event) :
    (ofJson value).event = some (.unrecognized value) := by
  have hfitting : ∀ event, ofJson value ≠ .fitting event := by
    intro event heq
    obtain ⟨endpoint, hrecognizes⟩ := ofJson_eq_fitting_iff.mp heq
    exact hnone endpoint event hrecognizes
  have hnull : ¬ value.isNull := isNull_iff.not.mpr hnull
  unfold ofJson at hfitting ⊢
  rw [if_neg hnull] at hfitting ⊢
  by_cases htag : tag value = .unknown
  · rw [if_pos htag]
    rfl
  · rw [if_neg htag] at hfitting ⊢
    cases hread : (Event.decoder (tag value)).ofJson value with
    | error mismatch => rfl
    | ok event =>
        rw [hread] at hfitting
        exact absurd rfl (hfitting event)

end Intake

namespace Event

def bidRequest : Event → Option Json
  | .auction reported | .video reported => reported.bidRequest
  | .amp reported => reported.auction.bidRequest
  | .cookieSync _ | .setuid _ | .notification _ | .unrecognized _ => none

def bidResponse : Event → Option Json
  | .auction reported | .video reported => reported.bidResponse
  | .amp reported => reported.auction.bidResponse
  | .cookieSync _ | .setuid _ | .notification _ | .unrecognized _ => none

/-- Whether both payloads of an event can be summarized. Absent payloads can. -/
def Summarizes (event : Event) : Prop :=
  (∃ summary, BidRequest.ofPayload event.bidRequest = .ok summary) ∧
    ∃ summary, BidResponse.ofPayload event.bidResponse = .ok summary

theorem summarizes_of_absent {event : Event} (hrequest : event.bidRequest = none)
    (hresponse : event.bidResponse = none) : event.Summarizes := by
  rw [Summarizes, hrequest, hresponse]
  exact ⟨⟨none, rfl⟩, none, rfl⟩

theorem exists_made_iff {ε α β : Type} {make : α → β} {result : Except ε α} :
    (∃ made, (result >>= fun value => pure (make value)) = .ok made) ↔
      ∃ value, result = .ok value := by
  cases result <;> simp [bind, Except.bind, pure, Except.pure]

theorem exists_facts_iff_of_auction (auction : Auction) :
    (∃ facts, auction.facts = .ok facts) ↔
      (∃ summary, BidRequest.ofPayload auction.bidRequest = .ok summary) ∧
        ∃ summary, BidResponse.ofPayload auction.bidResponse = .ok summary := by
  rw [Auction.facts]
  cases BidRequest.ofPayload auction.bidRequest with
  | error fault => simp [bind, Except.bind]
  | ok request =>
      cases BidResponse.ofPayload auction.bidResponse with
      | error fault => simp [bind, Except.bind]
      | ok response => simp [bind, Except.bind, pure, Except.pure]

/-- **An event has a record exactly if its payloads can be summarized.** -/
theorem exists_record_iff (event : Event) :
    (∃ record, Event.record (some event) = .ok record) ↔ event.Summarizes := by
  rw [record, exists_made_iff]
  cases event with
  | auction reported => rw [facts, exists_made_iff, exists_facts_iff_of_auction]; rfl
  | video reported => rw [facts, exists_made_iff, exists_facts_iff_of_auction]; rfl
  | amp reported =>
      rw [facts, exists_made_iff, AmpAuction.facts, exists_made_iff, exists_facts_iff_of_auction]
      rfl
  | cookieSync statuses => exact iff_of_true ⟨_, rfl⟩ (summarizes_of_absent rfl rfl)
  | setuid reported => exact iff_of_true ⟨_, rfl⟩ (summarizes_of_absent rfl rfl)
  | notification reported => exact iff_of_true ⟨_, rfl⟩ (summarizes_of_absent rfl rfl)
  | unrecognized value => exact iff_of_true ⟨_, rfl⟩ (summarizes_of_absent rfl rfl)

theorem exists_of_record {event : Option Event} {record : LogRecord}
    (hrecord : Event.record event = .ok record) :
    ∃ facts, Event.facts event = .ok facts ∧ record = ⟨facts, requestView event⟩ := by
  obtain ⟨facts, hfacts, hrecord⟩ := bind_eq_ok.mp hrecord
  obtain rfl := Except.ok.inj hrecord
  exact ⟨facts, hfacts, rfl⟩

theorem endpoint_of_record {event : Option Event} {record : LogRecord}
    (hrecord : Event.record event = .ok record) : record.endpoint = Recorder.endpointOf event := by
  obtain ⟨facts, hfacts, rfl⟩ := exists_of_record hrecord
  cases event with
  | none =>
      obtain rfl := Except.ok.inj hfacts
      rfl
  | some event =>
      cases event with
      | auction | amp | video =>
          obtain ⟨reported, -, hfacts⟩ := bind_eq_ok.mp hfacts
          obtain rfl := Except.ok.inj hfacts
          rfl
      | cookieSync | setuid | notification | unrecognized =>
          obtain rfl := Except.ok.inj hfacts
          rfl

end Event

end AuctionLog
