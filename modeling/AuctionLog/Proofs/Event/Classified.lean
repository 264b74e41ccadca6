import AuctionLog.Proofs.Recorder.Lossless
import AuctionLog.Proofs.Recorder.Series
import AuctionLog.Proofs.Summary.Projection

/-!
# What is told of an event

The facts of an event are those of its own endpoint, and a value that is no event has facts of none.
They are missing only if an auction, be it for AMP or for a video, has a payload that cannot be
summarized. The three sorts of auctions share one account of their payloads, in which a fault of the
request comes before a fault of the response.
-/

namespace AuctionLog

open Json

namespace Event

/-- Whether an event is an auction, for a page, an AMP page or a video. -/
def IsAuction : Event → Prop
  | .auction _ | .amp _ | .video _ => True
  | .cookieSync _ | .setuid _ | .notification _ | .unrecognized _ => False

/-- What the payloads of an event come to. -/
def payloads (event : Event) : Except PayloadFault AuctionFacts := do
  let bidRequest ← BidRequest.ofPayload event.bidRequest
  let bidResponse ← BidResponse.ofPayload event.bidResponse
  return { bidRequest, bidResponse }

end Event

def Facts.auction? : Facts → Option AuctionFacts
  | .auction facts | .video facts => some facts
  | .amp facts => some facts.auction
  | .cookieSync _ | .setuid _ | .notification _ | .unknown _ => none

namespace Event

variable {event : Event} {fault : PayloadFault}

/-- **The three sorts of auctions differ in nothing that is told of their payloads.** -/
theorem auction?_facts (hauction : event.IsAuction) :
    (facts (some event)).map Facts.auction? = event.payloads.map some := by
  cases event with
  | auction reported =>
      change (reported.facts >>= fun told => pure (Facts.auction told)).map Facts.auction? =
        reported.facts.map some
      cases reported.facts <;> rfl
  | video reported =>
      change (reported.facts >>= fun told => pure (Facts.video told)).map Facts.auction? =
        reported.facts.map some
      cases reported.facts <;> rfl
  | amp reported =>
      change (reported.facts >>= fun told => pure (Facts.amp told)).map Facts.auction? =
        reported.auction.facts.map some
      rw [AmpAuction.facts]
      cases reported.auction.facts <;> rfl
  | cookieSync | setuid | notification | unrecognized => exact hauction.elim

theorem exists_facts_of_not_auction (hauction : ¬ event.IsAuction) :
    ∃ told, facts (some event) = .ok told := by
  cases event with
  | auction | amp | video => exact absurd trivial hauction
  | cookieSync | setuid | notification | unrecognized => exact ⟨_, rfl⟩

theorem payloads_eq_error_iff :
    event.payloads = .error fault ↔
      BidRequest.ofPayload event.bidRequest = .error fault ∨
        (∃ summary, BidRequest.ofPayload event.bidRequest = .ok summary) ∧
          BidResponse.ofPayload event.bidResponse = .error fault := by
  unfold payloads
  cases BidRequest.ofPayload event.bidRequest with
  | error reason => simp [bind, Except.bind]
  | ok request =>
      cases BidResponse.ofPayload event.bidResponse <;> simp [bind, Except.bind, pure, Except.pure]

theorem exists_payloads_error_iff :
    (∃ fault, event.payloads = .error fault) ↔
      (∃ fault, BidRequest.ofPayload event.bidRequest = .error fault) ∨
        ∃ fault, BidResponse.ofPayload event.bidResponse = .error fault := by
  simp only [payloads_eq_error_iff, exists_or, exists_and_left]
  cases BidRequest.ofPayload event.bidRequest <;> simp

theorem payloads_eq_ok_iff {told : AuctionFacts} :
    event.payloads = .ok told ↔
      BidRequest.ofPayload event.bidRequest = .ok told.bidRequest ∧
        BidResponse.ofPayload event.bidResponse = .ok told.bidResponse := by
  simp only [payloads, bind_eq_ok, pure, Except.pure, Except.ok.injEq]
  constructor
  · rintro ⟨_, hrequest, _, hresponse, rfl⟩
    exact ⟨hrequest, hresponse⟩
  · rintro ⟨hrequest, hresponse⟩
    exact ⟨_, hrequest, _, hresponse, rfl⟩

theorem facts_eq_error_iff :
    facts (some event) = .error fault ↔ event.IsAuction ∧ event.payloads = .error fault := by
  by_cases hauction : event.IsAuction
  · rw [and_iff_right hauction, ← map_eq_error (f := Facts.auction?), auction?_facts hauction,
      map_eq_error]
  · obtain ⟨told, htold⟩ := exists_facts_of_not_auction hauction
    simp [htold, hauction]

theorem exists_auction_of_facts {told : Facts} (hauction : event.IsAuction)
    (htold : facts (some event) = .ok told) :
    ∃ auction, told.auction? = some auction ∧ event.payloads = .ok auction := by
  have hfacts := auction?_facts hauction
  rw [htold] at hfacts
  cases hpayloads : event.payloads with
  | error fault => simp [hpayloads, Except.map] at hfacts
  | ok auction =>
      rw [hpayloads] at hfacts
      exact ⟨auction, Except.ok.inj hfacts, rfl⟩

end Event

namespace Event

/-- What is told of an event, and when nothing can be. -/
structure Classified (event : Option Event) : Prop where
  fails_iff : (∃ fault, facts event = .error fault) ↔ ∃ reported ∈ event, reported.IsAuction ∧
    ((∃ fault, BidRequest.ofPayload reported.bidRequest = .error fault) ∨
      ∃ fault, BidResponse.ofPayload reported.bidResponse = .error fault)
  blamed : ∀ reported ∈ event, ∀ fault, facts event = .error fault →
    BidRequest.ofPayload reported.bidRequest = .error fault ∧
        fault.payload.summaryName = "BidRequestSummary" ∨
      (∃ summary, BidRequest.ofPayload reported.bidRequest = .ok summary) ∧
        BidResponse.ofPayload reported.bidResponse = .error fault ∧
          fault.payload.summaryName = "BidResponseSummary"
  alike : ∀ reported ∈ event, ∀ other : Event, reported.IsAuction → other.IsAuction →
    other.bidRequest = reported.bidRequest → other.bidResponse = reported.bidResponse →
      (facts (some other)).map Facts.auction? = (facts event).map Facts.auction?
  summarized : ∀ reported ∈ event, reported.IsAuction → ∀ told, facts event = .ok told →
    ∃ auction, told.auction? = some auction ∧
      BidRequest.ofPayload reported.bidRequest = .ok auction.bidRequest ∧
        BidResponse.ofPayload reported.bidResponse = .ok auction.bidResponse
  typed : ∀ told, facts event = .ok told → ∀ request,
    (LogRecord.mk told request).endpoint = Recorder.endpointOf event ∧
      Recorder.IsTyped (LogRecord.mk told request).line (Recorder.endpointOf event).path
  counted : ∀ (recorder : Recorder) (station : Station) (record : LogRecord),
    (recorder.attempt event station).1 = .ok record →
      (recorder.record event station).2.counts =
        (recorder.attempt event station).2.counts ++ [.processed (Recorder.endpointOf event)]
  labelled : (Counter.processed (Recorder.endpointOf event)).text =
    Counter.labelled "analytics_events_processed_total"
      ["type=\"" ++ (Recorder.endpointOf event).path ++ "\""]
  nothing : event = none → facts event = .ok (.unknown none) ∧ (Facts.unknown none).members = []
  unrecognized : ∀ value, event = some (.unrecognized value) →
    facts event = .ok (.unknown (some value)) ∧
      (Facts.unknown (some value)).members = [("unknownEvent", value)]

theorem endpoint_of_facts {event : Option Event} {told : Facts} (htold : facts event = .ok told) :
    told.endpoint = Recorder.endpointOf event := by
  have hrecord : Event.record event = .ok ⟨told, requestView event⟩ := by
    rw [record, htold]
    rfl
  exact endpoint_of_record hrecord

theorem counted_of_attempt {event : Option Event} {recorder : Recorder} {station : Station}
    {record : LogRecord} (hattempt : (recorder.attempt event station).1 = .ok record) :
    (recorder.record event station).2.counts =
      (recorder.attempt event station).2.counts ++ [.processed (Recorder.endpointOf event)] := by
  have hends := recorder.attempt_ends event station
  rw [Recorder.record_counts, hattempt]
  generalize recorder.attempt event station = ended at *
  cases hends with
  | taken hrecord =>
      obtain rfl := Except.ok.inj hattempt
      rw [Recorder.outcomeOf, endpoint_of_record hrecord]
  | payload | encoding | panic | refused => simp at hattempt

/-- **An event is told of under its own type, unless a payload cannot be summarized.** -/
theorem event_classified (event : Option Event) : Classified event where
  fails_iff := by
    cases event with
    | none => exact iff_of_false (fun ⟨_, hfault⟩ => absurd hfault nofun) (by simp)
    | some reported =>
        simp only [facts_eq_error_iff, exists_and_left, exists_payloads_error_iff, Option.mem_def,
          Option.some.injEq, exists_eq_left']
  blamed := by
    rintro reported rfl fault hfault
    rcases payloads_eq_error_iff.mp (facts_eq_error_iff.mp hfault).2 with
      hrequest | ⟨hrequest, hresponse⟩
    · exact .inl ⟨hrequest, congrArg Payload.summaryName (payload_of_summarize hrequest)⟩
    · exact .inr ⟨hrequest, hresponse,
        congrArg Payload.summaryName (payload_of_summarize hresponse)⟩
  alike := by
    rintro reported rfl other hreported hother hrequest hresponse
    rw [auction?_facts hother, auction?_facts hreported, payloads, payloads, hrequest, hresponse]
  summarized := by
    rintro reported rfl hauction told htold
    obtain ⟨auction, htoldAuction, hpayloads⟩ := exists_auction_of_facts hauction htold
    exact ⟨auction, htoldAuction, payloads_eq_ok_iff.mp hpayloads⟩
  typed := by
    intro told htold request
    have hendpoint : (LogRecord.mk told request).endpoint = Recorder.endpointOf event :=
      endpoint_of_facts htold
    exact ⟨hendpoint, hendpoint ▸ Recorder.isTyped_line _⟩
  counted _ _ _ := counted_of_attempt
  labelled := Counter.text_processed _
  nothing := by
    rintro rfl
    exact ⟨rfl, rfl⟩
  unrecognized := by
    rintro value rfl
    exact ⟨rfl, rfl⟩

end Event

end AuctionLog
