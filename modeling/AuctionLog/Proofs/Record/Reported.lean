import AuctionLog.Event.Decoder
import AuctionLog.Proofs.Record.Carried

/-!
# What is recorded of a value

A value that has the shape of an event is recorded by the payloads in it, of which only the members
that a summary asks for remain. What is carried over from there has fitted at least two levels below
the value.
-/

namespace AuctionLog

open Json

variable {levels : Nat}

/-! ## What is taken from payloads -/

theorem BidRequest.yields_decoder :
    BidRequest.decoder.Yields (levels + 1) fun request => request.Carries (Fits levels) := by
  have hempty : BidRequest.Carries (Fits levels) {} := by
    constructor <;> simp
  refine Decoder.yields_record ?_ hempty
  simp only [fields, List.forall_mem_cons]
  exact ⟨.defaulted .any fun _ _ hcarries _ => { hcarries with },
    .optional .items fun _ _ hcarries himp => { hcarries with imp := himp },
    .optional .json fun _ _ hcarries hsite => { hcarries with site := hsite },
    .optional .json fun _ _ hcarries happ => { hcarries with app := happ },
    .optional .json fun _ _ hcarries hdevice => { hcarries with device := hdevice },
    .optional .json fun _ _ hcarries huser => { hcarries with user := huser },
    .defaulted .any fun _ _ hcarries _ => { hcarries with },
    .defaulted .any fun _ _ hcarries _ => { hcarries with },
    .defaulted .any fun _ _ hcarries _ => { hcarries with },
    .optional .any fun _ _ hcarries _ => { hcarries with },
    .optional .any fun _ _ hcarries _ => { hcarries with },
    .optional .any fun _ _ hcarries _ => { hcarries with },
    .optional .any fun _ _ hcarries _ => { hcarries with },
    .optional .json fun _ _ hcarries hsource => { hcarries with source := hsource },
    .optional .json fun _ _ hcarries hregs => { hcarries with regs := hregs },
    .optional .items fun _ _ hcarries hmetric => { hcarries with metric := hmetric },
    .optional .json fun _ _ hcarries hext => { hcarries with ext := hext },
    List.forall_mem_nil _⟩

theorem BidResponse.yields_decoder :
    BidResponse.decoder.Yields (levels + 1) fun response => response.Carries (Fits levels) := by
  have hempty : BidResponse.Carries (Fits levels) {} := by
    constructor <;> simp
  refine Decoder.yields_record ?_ hempty
  simp only [fields, List.forall_mem_cons]
  exact ⟨.defaulted .any fun _ _ hcarries _ => { hcarries with },
    .optional .items fun _ _ hcarries hseatbid => { hcarries with seatbid := hseatbid },
    .defaulted .any fun _ _ hcarries _ => { hcarries with },
    .defaulted .any fun _ _ hcarries _ => { hcarries with },
    .defaulted .any fun _ _ hcarries _ => { hcarries with },
    .defaulted .any fun _ _ hcarries _ => { hcarries with },
    .optional .json fun _ _ hcarries hext => { hcarries with ext := hext },
    List.forall_mem_nil _⟩

theorem holds_of_summarize {α : Type} {payload : Payload} {decoder : Decoder α} {P : α → Prop}
    (hdecoder : decoder.Yields levels P) {value : Option Json}
    (hvalue : ∀ held ∈ value, Fits levels held) {summary : Option α}
    (hsummary : summarize payload decoder value = .ok summary) :
    ∀ held ∈ summary, P held := by
  rw [summarize.eq_def] at hsummary
  split at hsummary
  · obtain rfl := Except.ok.inj hsummary
    simp
  · obtain rfl := Except.ok.inj hsummary
    simp
  · rename_i held _
    split at hsummary
    · rename_i result hresult
      obtain rfl := Except.ok.inj hsummary
      rintro _ ⟨⟩
      exact hdecoder held _ (hvalue held rfl) hresult
    · simp at hsummary

/-! ## What is taken from events -/

/-- Whether the payloads of an auction have a property. -/
structure Auction.Carries (P : Json → Prop) (auction : Auction) : Prop where
  bidRequest : ∀ value ∈ auction.bidRequest, P value
  bidResponse : ∀ value ∈ auction.bidResponse, P value

theorem Auction.carries_empty {P : Json → Prop} : Auction.empty.Carries P := by
  constructor <;> simp [empty, bidRequest]

theorem AuctionInput.yields_decoder :
    AuctionInput.decoder.Yields (levels + 1) fun input =>
      ∀ value ∈ input.bidRequest, Fits levels value := by
  refine Decoder.yields_record ?_ (by simp)
  simp only [List.forall_mem_cons]
  exact ⟨.optional .json fun _ _ _ hvalue => hvalue, List.forall_mem_nil _⟩

theorem Auction.Carries.withInput {auction : Auction} {input : Option AuctionInput}
    (hcarries : auction.Carries (Fits (levels + 1)))
    (hinput : ∀ given ∈ input, ∀ value ∈ given.bidRequest, Fits levels value) :
    Auction.Carries (Fits (levels + 1)) { auction with input } := by
  refine { hcarries with bidRequest := ?_ }
  cases input with
  | none => simp [Auction.bidRequest]
  | some given => exact fun value hvalue => (hinput given rfl value hvalue).mono (Nat.le_succ _)

theorem Auction.yields_decoder {name : String} :
    (Auction.decoder name).Yields (levels + 2) fun auction =>
      auction.Carries (Fits (levels + 1)) := by
  refine Decoder.yields_record ?_ carries_empty
  simp only [fields, List.forall_mem_cons]
  exact ⟨.optional .any fun _ _ hcarries _ => { hcarries with },
    .optional AuctionInput.yields_decoder fun _ _ hcarries hinput => hcarries.withInput hinput,
    .optional .json fun _ _ hcarries hresponse => { hcarries with bidResponse := hresponse },
    List.forall_mem_nil _⟩

theorem AmpAuction.yields_decoder :
    AmpAuction.decoder.Yields (levels + 2) fun amp => amp.auction.Carries (Fits (levels + 1)) := by
  refine Decoder.yields_record ?_ Auction.carries_empty
  simp only [fields, List.forall_mem_cons]
  exact ⟨.optional .any fun _ _ hcarries _ => { hcarries with },
    .optional AuctionInput.yields_decoder fun _ _ hcarries hinput => hcarries.withInput hinput,
    .optional .json fun _ _ hcarries hresponse => { hcarries with bidResponse := hresponse },
    .optional .any fun _ _ hcarries _ => hcarries,
    .optional .any fun _ _ hcarries _ => hcarries,
    List.forall_mem_nil _⟩

theorem Auction.Carries.facts {auction : Auction} {facts : AuctionFacts}
    (hcarries : auction.Carries (Fits (levels + 1))) (hfacts : auction.facts = .ok facts) :
    facts.Carries (Fits levels) := by
  obtain ⟨bidRequest, hrequest, hfacts⟩ := bind_eq_ok.mp hfacts
  obtain ⟨bidResponse, hresponse, hfacts⟩ := bind_eq_ok.mp hfacts
  obtain rfl := Except.ok.inj hfacts
  exact ⟨holds_of_summarize BidRequest.yields_decoder hcarries.bidRequest hrequest,
    holds_of_summarize BidResponse.yields_decoder hcarries.bidResponse hresponse⟩

theorem Event.endpoint_of_decoder {endpoint : Endpoint} {value : Json} {event : Event}
    (hread : (Event.decoder endpoint).ofJson value = .ok event) : event.endpoint = endpoint := by
  cases endpoint <;>
  · obtain ⟨reported, -, hevent⟩ := bind_eq_ok.mp hread
    obtain rfl := Except.ok.inj hevent
    rfl

/-- What is recorded of an event that was recognized is two levels below what was reported. -/
theorem Event.carries_facts {endpoint : Endpoint} (hknown : endpoint ≠ .unknown) {value : Json}
    (hfits : Fits (levels + 2) value) {event : Event}
    (hread : (Event.decoder endpoint).ofJson value = .ok event) {facts : Facts}
    (hfacts : Event.facts (some event) = .ok facts) : facts.Carries (Fits levels) := by
  cases endpoint with
  | auction =>
      obtain ⟨auction, hauction, hevent⟩ := bind_eq_ok.mp hread
      obtain rfl := Except.ok.inj hevent
      obtain ⟨reported, hreported, hfacts⟩ := bind_eq_ok.mp hfacts
      obtain rfl := Except.ok.inj hfacts
      exact (Auction.yields_decoder value auction hfits hauction).facts hreported
  | amp =>
      obtain ⟨amp, hamp, hevent⟩ := bind_eq_ok.mp hread
      obtain rfl := Except.ok.inj hevent
      obtain ⟨reported, hreported, hfacts⟩ := bind_eq_ok.mp hfacts
      obtain rfl := Except.ok.inj hfacts
      obtain ⟨auction, hauction, hreported⟩ := bind_eq_ok.mp hreported
      obtain rfl := Except.ok.inj hreported
      exact (AmpAuction.yields_decoder value amp hfits hamp).facts hauction
  | video =>
      obtain ⟨auction, hauction, hevent⟩ := bind_eq_ok.mp hread
      obtain rfl := Except.ok.inj hevent
      obtain ⟨reported, hreported, hfacts⟩ := bind_eq_ok.mp hfacts
      obtain rfl := Except.ok.inj hfacts
      exact (Auction.yields_decoder value auction hfits hauction).facts hreported
  | cookieSync | setuid | notification =>
      obtain ⟨reported, -, hevent⟩ := bind_eq_ok.mp hread
      obtain rfl := Except.ok.inj hevent
      obtain rfl := Except.ok.inj hfacts
      trivial
  | unknown => exact absurd rfl hknown

end AuctionLog
