import AuctionLog.Proofs.Decoder.Framed
import AuctionLog.Proofs.Event.Recognized

/-!
# Events that carry a request

Of the events that are served over a request each is read as a report with one field for it. What
the request is makes no difference to the rest of the event: one that is read is put into what the
rest comes to, and one that cannot be read leaves no event.
-/

namespace AuctionLog

open Json

theorem ServedRequest.independent : Independent fields := by
  simp [fields, Field.optional, Field.defaulted]

theorem Auction.independent : Independent fields := by
  simp [fields, Field.optional]

theorem AmpAuction.independent : Independent fields := by
  simp [fields, Field.optional]

theorem Notice.independent : Independent fields := by
  simp [fields, Field.optional]

/-! ## Events of the endpoints that are served over a request -/

/-- The endpoints whose events tell of the request they were served over. -/
def Endpoint.served : List Endpoint :=
  [.auction, .amp, .video, .notification]

namespace Event

variable {event : Event} {request other : Option ServedRequest}

theorem withRequest_withRequest :
    (event.withRequest request).withRequest other = event.withRequest other := by
  cases event <;> rfl

theorem request_withRequest (hserved : event.endpoint ∈ Endpoint.served) :
    (event.withRequest request).request = request := by
  cases event with
  | auction | amp | video | notification => rfl
  | cookieSync | setuid | unrecognized => exact absurd hserved (by simp [endpoint, Endpoint.served])

theorem summarizes_withRequest : (event.withRequest request).Summarizes ↔ event.Summarizes := by
  cases event <;> rfl

end Event

/-- How the events of an endpoint are read, as reports in which one field is for the request. -/
structure Carrier (endpoint : Endpoint) where
  Report : Type
  name : String
  fields : List (Field Report)
  empty : Report
  put : Report → Option ServedRequest → Report
  event : Report → Event
  decoder_eq : Event.decoder endpoint = (Decoder.record name fields empty).map event
  independent : Independent fields
  mem_fields : .optional "httpContext" ServedRequest.decoder put ∈ fields
  event_put : ∀ report request, event (put report request) = (event report).withRequest request

namespace Carrier

def auction : Carrier .auction where
  Report := Auction
  name := "AuctionEvent"
  fields := Auction.fields
  empty := .empty
  put auction request := { auction with request }
  event := .auction
  decoder_eq := rfl
  independent := Auction.independent
  mem_fields := List.mem_cons_self ..
  event_put _ _ := rfl

def video : Carrier .video where
  Report := Auction
  name := "VideoEvent"
  fields := Auction.fields
  empty := .empty
  put auction request := { auction with request }
  event := .video
  decoder_eq := rfl
  independent := Auction.independent
  mem_fields := List.mem_cons_self ..
  event_put _ _ := rfl

def amp : Carrier .amp where
  Report := AmpAuction
  name := "AmpEvent"
  fields := AmpAuction.fields
  empty := .empty
  put amp request := { amp with auction := { amp.auction with request } }
  event := .amp
  decoder_eq := rfl
  independent := AmpAuction.independent
  mem_fields := List.mem_cons_self ..
  event_put _ _ := rfl

def notification : Carrier .notification where
  Report := Notice
  name := "NotificationEvent"
  fields := Notice.fields
  empty := .empty
  put notice request := { notice with request }
  event := .notification
  decoder_eq := rfl
  independent := Notice.independent
  mem_fields := List.mem_of_getLast? rfl
  event_put _ _ := rfl

theorem nonempty_of_served {endpoint : Endpoint} (hserved : endpoint ∈ Endpoint.served) :
    Nonempty (Carrier endpoint) := by
  simp only [Endpoint.served, List.mem_cons, List.not_mem_nil, or_false] at hserved
  rcases hserved with rfl | rfl | rfl | rfl
  · exact ⟨auction⟩
  · exact ⟨amp⟩
  · exact ⟨video⟩
  · exact ⟨notification⟩

end Carrier

/-! ## Requests that are put into events -/

namespace Carrier

variable {endpoint : Endpoint} {before after request : Members} {served : ServedRequest}
  {mismatch : Mismatch} {event : Event}

theorem ofJson_obj (carrier : Carrier endpoint) (members : Members) :
    (Event.decoder endpoint).ofJson (.obj members) =
      (Decoder.ofMembers carrier.fields [] carrier.empty members).map carrier.event := by
  rw [carrier.decoder_eq, Decoder.ofJson_map]
  rfl

theorem ofJson_field (carrier : Carrier endpoint) (request : Members) :
    (Field.optional "httpContext" ServedRequest.decoder carrier.put).decoder.ofJson
      (.obj request) = (ServedRequest.decoder.ofJson (.obj request)).map fun served report =>
        carrier.put report (some served) := by
  have hnull : Json.obj request ≠ .null := nofun
  rw [Field.optional, Decoder.ofJson_map, Decoder.optional_of_ne_null hnull]
  cases ServedRequest.decoder.ofJson (.obj request) <;> rfl

/-- A request that is read is put into whatever the event is without it. -/
theorem ofJson_insert (carrier : Carrier endpoint)
    (hunseen : Decoder.Unseen [] (before ++ ("httpContext", .obj request) :: after))
    (hread : ServedRequest.decoder.ofJson (.obj request) = .ok served) :
    (Event.decoder endpoint).ofJson (.obj (before ++ ("httpContext", .obj request) :: after)) =
      ((Event.decoder endpoint).ofJson (.obj (before ++ after))).map
        (·.withRequest (some served)) := by
  have hupdate := carrier.ofJson_field request
  rw [hread] at hupdate
  have hinsert : Decoder.ofMembers carrier.fields [] carrier.empty
      (before ++ ("httpContext", .obj request) :: after) = _ :=
    Decoder.ofMembers_insert carrier.independent carrier.mem_fields hunseen hupdate
  rw [carrier.ofJson_obj, carrier.ofJson_obj, hinsert]
  cases Decoder.ofMembers carrier.fields [] carrier.empty (before ++ after) with
  | error mismatch => rfl
  | ok report => exact congrArg Except.ok (carrier.event_put report (some served))

/-- No event is read if its request cannot be. -/
theorem exists_request (carrier : Carrier endpoint)
    (hunseen : Decoder.Unseen [] (before ++ ("httpContext", .obj request) :: after))
    (hread : (Event.decoder endpoint).ofJson
      (.obj (before ++ ("httpContext", .obj request) :: after)) = .ok event) :
    ∃ served, ServedRequest.decoder.ofJson (.obj request) = .ok served := by
  cases hrequest : ServedRequest.decoder.ofJson (.obj request) with
  | ok served => exact ⟨served, rfl⟩
  | error mismatch =>
      have hupdate := carrier.ofJson_field request
      rw [hrequest] at hupdate
      rw [carrier.ofJson_obj] at hread
      obtain ⟨report, hreport, -⟩ := map_eq_ok.mp hread
      exact absurd hreport (Decoder.ofMembers_insert_ne_ok carrier.independent carrier.mem_fields
        hunseen hupdate)

/-- Where all else is read, what is wrong with the request is what is wrong with the event. -/
theorem ofJson_insert_error (carrier : Carrier endpoint)
    (hunseen : Decoder.Unseen [] (before ++ ("httpContext", .obj request) :: after))
    (hread : ServedRequest.decoder.ofJson (.obj request) = .error mismatch)
    (hrest : (Event.decoder endpoint).ofJson (.obj (before ++ after)) = .ok event) :
    (Event.decoder endpoint).ofJson (.obj (before ++ ("httpContext", .obj request) :: after)) =
      .error mismatch := by
  have hupdate := carrier.ofJson_field request
  rw [hread] at hupdate
  rw [carrier.ofJson_obj] at hrest ⊢
  obtain ⟨report, hreport, -⟩ := map_eq_ok.mp hrest
  have hinsert : Decoder.ofMembers carrier.fields [] carrier.empty
      (before ++ ("httpContext", .obj request) :: after) = _ :=
    Decoder.ofMembers_insert_error carrier.independent carrier.mem_fields hunseen hupdate hreport
  rw [hinsert]
  rfl

end Carrier

end AuctionLog
