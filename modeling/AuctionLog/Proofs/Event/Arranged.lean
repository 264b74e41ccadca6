import AuctionLog.Proofs.Event.Recognized
import AuctionLog.Proofs.Record.Unrepeated

/-!
# Events that hold arranged values

A host hands in values that are told apart from others: no object in them repeats a name, and their
members are in order. An event that is made of such a value holds such values only, and so does its
record.
-/

namespace AuctionLog

open Json

/-- Whether the values that an event holds are arranged. -/
def Event.Arranged : Event → Prop
  | .auction reported | .video reported => reported.Carries fun value => value.arranged = value
  | .amp reported =>
      (reported.auction.Carries fun value => value.arranged = value) ∧
        ∀ members ∈ reported.targeting, (Json.obj members).arranged = .obj members
  | .unrecognized value => value.arranged = value
  | .cookieSync _ | .setuid _ | .notification _ => True

/-! ## From values into events -/

section

variable {levels : Nat}

theorem Decoder.Yields.object :
    Decoder.object.Yields levels fun members => Fits levels (.obj members) := by
  intro value members hfits hread
  cases value with
  | obj members =>
      obtain rfl := Except.ok.inj hread
      exact hfits
  | _ => simp [Decoder.object, Decoder.wrongType] at hread

theorem AmpAuction.yields_targeting :
    AmpAuction.decoder.Yields (levels + 1) fun amp =>
      ∀ members ∈ amp.targeting, Fits levels (.obj members) := by
  refine Decoder.yields_record ?_ (by simp [empty])
  simp only [fields, List.forall_mem_cons]
  exact ⟨.optional .any fun _ _ htargeting _ => htargeting,
    .optional .any fun _ _ htargeting _ => htargeting,
    .optional .any fun _ _ htargeting _ => htargeting,
    .optional .object fun _ _ _ hmembers => hmembers,
    .optional .any fun _ _ htargeting _ => htargeting,
    List.forall_mem_nil _⟩

theorem Auction.Carries.arranged {auction : Auction} (hcarries : auction.Carries (Fits levels)) :
    auction.Carries fun value => value.arranged = value where
  bidRequest value hmem := (hcarries.bidRequest value hmem).1
  bidResponse value hmem := (hcarries.bidResponse value hmem).1

theorem Event.arranged_of_decoder {endpoint : Endpoint} {value : Json}
    (harranged : value.arranged = value) {event : Event}
    (hread : (Event.decoder endpoint).ofJson value = .ok event) : event.Arranged := by
  have hfits : Fits (value.depth + 2) value := ⟨harranged, Nat.le_add_right _ 2⟩
  cases endpoint with
  | auction | video =>
      obtain ⟨auction, hauction, hevent⟩ := bind_eq_ok.mp hread
      obtain rfl := Except.ok.inj hevent
      exact (Auction.yields_decoder value auction hfits hauction).arranged
  | amp =>
      obtain ⟨amp, hamp, hevent⟩ := bind_eq_ok.mp hread
      obtain rfl := Except.ok.inj hevent
      refine ⟨(AmpAuction.yields_decoder value amp hfits hamp).arranged, ?_⟩
      intro members hmem
      exact (AmpAuction.yields_targeting value amp hfits hamp members hmem).1
  | cookieSync | setuid | notification =>
      obtain ⟨reported, -, hevent⟩ := bind_eq_ok.mp hread
      obtain rfl := Except.ok.inj hevent
      trivial
  | unknown =>
      obtain ⟨kept, hkept, hevent⟩ := bind_eq_ok.mp hread
      obtain rfl := Except.ok.inj hkept
      obtain rfl := Except.ok.inj hevent
      exact harranged

end

/-- **What is taken in is arranged**, if the value was. -/
theorem Intake.arranged_event {value : Json} (harranged : value.arranged = value) :
    ∀ event ∈ (Intake.ofJson value).event, event.Arranged := by
  intro event hevent
  by_cases hnull : value = .null
  · rw [hnull] at hevent
    exact absurd hevent nofun
  · by_cases hrecognized : ∃ endpoint event, Intake.Recognizes value endpoint event
    · obtain ⟨endpoint, recognized, hrecognizes⟩ := hrecognized
      rw [hrecognizes.event_eq] at hevent
      obtain rfl := Option.mem_some.mp hevent
      exact Event.arranged_of_decoder harranged hrecognizes.shaped
    · push Not at hrecognized
      rw [Intake.event_of_not_recognizes hnull hrecognized] at hevent
      obtain rfl := Option.mem_some.mp hevent
      exact harranged

/-! ## From events into records -/

theorem Auction.Carries.fits {auction : Auction}
    (hcarries : auction.Carries fun value => value.arranged = value) :
    ∃ levels, auction.Carries (Fits (levels + 1)) := by
  have hdepth : ∀ value : Option Json, ∀ held ∈ value, held.depth ≤ (value.map depth).getD 0 := by
    rintro _ held ⟨⟩
    exact le_rfl
  refine ⟨max ((auction.bidRequest.map depth).getD 0) ((auction.bidResponse.map depth).getD 0),
    ?_, ?_⟩
  · intro value hmem
    have hle := hdepth _ value hmem
    exact ⟨hcarries.bidRequest value hmem, by omega⟩
  · intro value hmem
    have hle := hdepth _ value hmem
    exact ⟨hcarries.bidResponse value hmem, by omega⟩

theorem Auction.Carries.unrepeated {auction : Auction} {facts : AuctionFacts}
    (hcarries : auction.Carries fun value => value.arranged = value)
    (hfacts : auction.facts = .ok facts) : facts.Carries Unrepeated := by
  obtain ⟨levels, hfits⟩ := hcarries.fits
  exact (hfits.facts hfacts).mono fun value hvalue => unrepeated_of_arranged hvalue.1

/-- **What a record carries repeats no name**, and its targeting is in order. -/
theorem Event.Arranged.facts {event : Event} (harranged : event.Arranged) {facts : Facts}
    (hfacts : Event.facts (some event) = .ok facts) :
    facts.Carries Unrepeated ∧
      ∀ entries ∈ facts.targeting?, entries.Pairwise fun left right => left.1 < right.1 := by
  cases event with
  | auction | video =>
      obtain ⟨reported, hreported, hfacts⟩ := bind_eq_ok.mp hfacts
      obtain rfl := Except.ok.inj hfacts
      exact ⟨Auction.Carries.unrepeated harranged hreported, nofun⟩
  | amp amp =>
      obtain ⟨reported, hreported, hfacts⟩ := bind_eq_ok.mp hfacts
      obtain rfl := Except.ok.inj hfacts
      obtain ⟨auction, hauction, hreported⟩ := bind_eq_ok.mp hreported
      obtain rfl := Except.ok.inj hreported
      refine ⟨Auction.Carries.unrepeated harranged.1 hauction, ?_⟩
      intro entries hmem
      obtain ⟨members, hmembers, rfl⟩ := Option.map_eq_some_iff.mp hmem
      rw [List.pairwise_map]
      exact (arranged_obj_iff.mp (harranged.2 members hmembers)).1
  | cookieSync | setuid | notification =>
      obtain rfl := Except.ok.inj hfacts
      exact ⟨trivial, nofun⟩
  | unrecognized value =>
      obtain rfl := Except.ok.inj hfacts
      refine ⟨?_, nofun⟩
      rintro _ ⟨⟩
      exact unrepeated_of_arranged harranged

end AuctionLog
