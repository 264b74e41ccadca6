import AuctionLog.Proofs.Event.Served
import AuctionLog.Proofs.Event.Undeclared
import AuctionLog.Proofs.Record.Retold
import AuctionLog.Proofs.Recorder.Lossless

/-!
# Methods of requests

A method may come in any letter case and is kept in upper case, so that the case leaves no trace in
what is recorded. A text that is no token names no method: the value it came in is kept whole, with
the text as it was spelled.
-/

namespace AuctionLog

open Json

/-! ## Tokens -/

/-- Whether a text is a token, in any letter case: one or more of the characters of methods. -/
def IsToken (text : String) : Prop :=
  text.toList ≠ [] ∧ ∀ char ∈ text.toList, isTokenChar char

/-- Beyond ASCII no character is one of a token, letters included. -/
theorem isAscii_of_isTokenChar {char : Char} (hchar : isTokenChar char) : char.toNat < 128 := by
  rw [isTokenChar, Bool.or_eq_true, List.contains_iff_mem] at hchar
  rcases hchar with halphanum | hsymbol
  · exact Ascii.lt_of_isAlphanum halphanum
  · have hall : "!#$%&'*+-.^_`|~".toList.all fun symbol => symbol.toNat < 128 := by
      decide +kernel
    simpa using List.all_eq_true.mp hall char hsymbol

theorem isTokenChar_toUpper : ∀ char : Char, isTokenChar char.toUpper = isTokenChar char :=
  Ascii.forall_of_ascii (by decide +kernel) fun char hchar => by
    rw [Ascii.toUpper_of_not_ascii hchar]

theorem isToken_upper {text : String} : IsToken (Ascii.upper text) ↔ IsToken text := by
  rw [IsToken, IsToken, Ascii.upper, String.toList_map, List.forall_mem_map, ne_eq, ne_eq,
    List.map_eq_nil_iff]
  simp only [isTokenChar_toUpper]

namespace Method

variable {name : String}

theorem name_injective : Function.Injective Method.name := by
  rintro ⟨left, _⟩ ⟨right, _⟩ rfl
  rfl

theorem ofName?_of_isToken (htoken : IsToken name) :
    ∃ method, ofName? name = some method ∧ method.name = name := by
  have hname : name.toList ≠ [] ∧ name.toList.all isTokenChar :=
    ⟨htoken.1, List.all_eq_true.mpr htoken.2⟩
  exact ⟨⟨name, hname⟩, dif_pos hname, rfl⟩

theorem ofName?_of_not_isToken (htoken : ¬ IsToken name) : ofName? name = none := by
  refine dif_neg fun hname => htoken ⟨hname.1, ?_⟩
  exact List.all_eq_true.mp hname.2

end Method

namespace ServedRequest

variable {name : String}

theorem methodDecoder_str (name : String) :
    methodDecoder.ofJson (.str name) =
      match Method.ofName? (Ascii.upper name) with
      | some method => .ok (some method)
      | none => .error .badMethod :=
  rfl

/-- **A token names a method**, which has the token in upper case as its name. -/
theorem exists_method_of_isToken (htoken : IsToken name) :
    ∃ method, methodDecoder.ofJson (.str name) = .ok (some method) ∧
      method.name = Ascii.upper name := by
  obtain ⟨method, hmethod, hname⟩ := Method.ofName?_of_isToken (isToken_upper.mpr htoken)
  refine ⟨method, ?_, hname⟩
  rw [methodDecoder_str, hmethod]

theorem badMethod_of_not_isToken (htoken : ¬ IsToken name) :
    methodDecoder.ofJson (.str name) = .error .badMethod := by
  rw [methodDecoder_str, Method.ofName?_of_not_isToken (isToken_upper.not.mpr htoken)]

end ServedRequest

/-! ## Methods in events and records -/

namespace Event

/-- The event with a method for the request it was served over. -/
def withMethod (event : Event) (method : Method) : Event :=
  event.withRequest (event.request.map fun request => { request with method := some method })

variable {event : Event} {request : ServedRequest}

theorem withMethod_withRequest (hserved : event.endpoint ∈ Endpoint.served)
    (request : ServedRequest) (method : Method) :
    (event.withRequest (some request)).withMethod method =
      event.withRequest (some { request with method := some method }) := by
  rw [withMethod, request_withRequest hserved, withRequest_withRequest, Option.map_some]

theorem requestView_withMethod (hserved : event.endpoint ∈ Endpoint.served)
    (hrequest : event.request = some request) (method : Method) :
    ∃ view, requestView (some (event.withMethod method)) = some view ∧
      view.httpMethod = some method.name := by
  rw [withMethod, requestView, Option.bind_some, request_withRequest hserved, hrequest]
  exact ⟨_, rfl, rfl⟩

end Event

theorem LogRecord.get?_httpMethod {record : LogRecord} {view : RequestView} {name : String}
    (hview : record.request = some view) (hname : view.httpMethod = some name) :
    record.toJson.get? "httpMethod" = some (.str name) := by
  have hdistinct := List.pairwise_map.mp record.nodup_members
  refine Members.get?_eq_some_of_mem hdistinct (mem_members_iff.mpr (.inr (.inl ⟨view, hview, ?_⟩)))
  simp [RequestView.members, mem_member?_iff, hname]

/-! ## Envelopes with a method -/

/-- A value with a request in it that gives a method: what stands before and after the request, and
in the request before and after the method. No name comes twice. -/
structure Envelope where
  before : Members
  after : Members
  requestBefore : Members
  requestAfter : Members
  distinct : ((before ++ ("httpContext", .null) :: after).map (·.1)).Nodup
  requestDistinct : ((requestBefore ++ ("httpMethod", .null) :: requestAfter).map (·.1)).Nodup

namespace Envelope

variable (envelope : Envelope) (name : String)

def withRequest (request : Members) : Json :=
  .obj (envelope.before ++ ("httpContext", .obj request) :: envelope.after)

def requestWithMethod : Members :=
  envelope.requestBefore ++ ("httpMethod", .str name) :: envelope.requestAfter

/-- The value, with a text for the method. -/
def withMethod : Json :=
  envelope.withRequest (envelope.requestWithMethod name)

/-- The value that gives no method and is the same in all else. -/
def withoutMethod : Json :=
  envelope.withRequest (envelope.requestBefore ++ envelope.requestAfter)

/-- Every object with a request that gives a text for its method is an envelope with that text. -/
theorem exists_withMethod_eq {members request : Members} (hdistinct : (members.map (·.1)).Nodup)
    (hrequestDistinct : (request.map (·.1)).Nodup)
    (hcontext : members.get? "httpContext" = some (.obj request))
    (hmethod : request.get? "httpMethod" = some (.str name)) :
    ∃ envelope : Envelope, envelope.withMethod name = .obj members := by
  obtain ⟨before, after, rfl, -⟩ := List.lookup_eq_some_iff.mp hcontext
  obtain ⟨requestBefore, requestAfter, rfl, -⟩ := List.lookup_eq_some_iff.mp hmethod
  refine ⟨⟨before, after, requestBefore, requestAfter, ?_, ?_⟩, rfl⟩
  · simpa using hdistinct
  · simpa using hrequestDistinct

theorem unseen_withRequest (request : Members) : Decoder.Unseen []
    (envelope.before ++ ("httpContext", .obj request) :: envelope.after) := by
  have hdistinct := envelope.distinct
  refine .start ?_
  rw [List.map_append] at hdistinct ⊢
  exact hdistinct

theorem unseen_requestWithMethod : Decoder.Unseen [] (envelope.requestWithMethod name) := by
  have hdistinct := envelope.requestDistinct
  refine .start ?_
  rw [requestWithMethod, List.map_append]
  rw [List.map_append] at hdistinct
  exact hdistinct

theorem tagged_withMethod :
    (envelope.withMethod name).get? "event" = envelope.withoutMethod.get? "event" := by
  have htag : ∀ request, (envelope.withRequest request).get? "event" = _ :=
    fun request => Intake.get?_insert (by decide) envelope.before envelope.after (.obj request)
  rw [withMethod, withoutMethod, htag, htag]

variable {envelope name} {method : Option Method} {mismatch : Mismatch} {served : ServedRequest}

theorem ofJson_methodField (name : String) :
    (Field.defaulted "httpMethod" ServedRequest.methodDecoder
      fun (request : ServedRequest) value => { request with method := value }).decoder.ofJson
        (.str name) = (ServedRequest.methodDecoder.ofJson (.str name)).map
          fun method request => { request with method } :=
  Decoder.ofJson_map ..

theorem ofJson_requestWithMethod
    (hmethod : ServedRequest.methodDecoder.ofJson (.str name) = .ok method) :
    ServedRequest.decoder.ofJson (.obj (envelope.requestWithMethod name)) =
      (ServedRequest.decoder.ofJson
        (.obj (envelope.requestBefore ++ envelope.requestAfter))).map
          fun request => { request with method } := by
  have hupdate := ofJson_methodField name
  rw [hmethod] at hupdate
  exact Decoder.ofMembers_insert ServedRequest.independent (by simp [ServedRequest.fields])
    (envelope.unseen_requestWithMethod name) hupdate

theorem ofJson_requestWithMethod_error
    (hmethod : ServedRequest.methodDecoder.ofJson (.str name) = .error mismatch)
    (hrest : ServedRequest.decoder.ofJson
      (.obj (envelope.requestBefore ++ envelope.requestAfter)) = .ok served) :
    ServedRequest.decoder.ofJson (.obj (envelope.requestWithMethod name)) = .error mismatch := by
  have hupdate := ofJson_methodField name
  rw [hmethod] at hupdate
  exact Decoder.ofMembers_insert_error ServedRequest.independent (by simp [ServedRequest.fields])
    (envelope.unseen_requestWithMethod name) hupdate hrest

variable {endpoint : Endpoint} {event : Event}

/-- An envelope without its method is read as a request that is put into an event. -/
theorem exists_parts (carrier : Carrier endpoint)
    (hrest : Intake.Recognizes envelope.withoutMethod endpoint event) :
    ∃ plain served,
      (Event.decoder endpoint).ofJson (.obj (envelope.before ++ envelope.after)) = .ok plain ∧
      ServedRequest.decoder.ofJson
        (.obj (envelope.requestBefore ++ envelope.requestAfter)) = .ok served ∧
      plain.withRequest (some served) = event := by
  have hshaped := hrest.shaped
  have hunseen := envelope.unseen_withRequest (envelope.requestBefore ++ envelope.requestAfter)
  obtain ⟨served, hserved⟩ := carrier.exists_request hunseen hshaped
  rw [withoutMethod, withRequest, carrier.ofJson_insert hunseen hserved] at hshaped
  obtain ⟨plain, hplain, hevent⟩ := map_eq_ok.mp hshaped
  exact ⟨plain, served, hplain, hserved, hevent⟩

/-- **A token is taken for the method**, and leaves all else in the event as it is. -/
theorem recognizes_withMethod (hserved : endpoint ∈ Endpoint.served)
    (hrest : Intake.Recognizes envelope.withoutMethod endpoint event) (htoken : IsToken name) :
    ∃ method : Method, method.name = Ascii.upper name ∧
      Intake.Recognizes (envelope.withMethod name) endpoint (event.withMethod method) := by
  obtain ⟨carrier⟩ := Carrier.nonempty_of_served hserved
  obtain ⟨plain, served, hplain, hrequest, rfl⟩ := exists_parts carrier hrest
  obtain ⟨method, hmethod, hname⟩ := ServedRequest.exists_method_of_isToken htoken
  have hread := @ofJson_requestWithMethod envelope _ _ hmethod
  rw [hrequest] at hread
  have hshaped := carrier.ofJson_insert
    (envelope.unseen_withRequest (envelope.requestWithMethod name)) hread
  have hplainServed : plain.endpoint ∈ Endpoint.served :=
    Event.endpoint_of_decoder hplain ▸ hserved
  rw [hplain] at hshaped
  refine ⟨method, hname, hrest.known, ?_, ?_⟩
  · rw [tagged_withMethod]
    exact hrest.tagged
  · rw [Event.withMethod_withRequest hplainServed]
    exact hshaped

/-- **What is no token is no method**, and nothing else is wrong with the value. -/
theorem misfit_withMethod (hserved : endpoint ∈ Endpoint.served)
    (hrest : Intake.Recognizes envelope.withoutMethod endpoint event) (htoken : ¬ IsToken name) :
    Intake.ofJson (envelope.withMethod name) =
      .misfit endpoint .badMethod (envelope.withMethod name) := by
  obtain ⟨carrier⟩ := Carrier.nonempty_of_served hserved
  obtain ⟨plain, served, hplain, hrequest, -⟩ := exists_parts carrier hrest
  have hread := ofJson_requestWithMethod_error
    (ServedRequest.badMethod_of_not_isToken htoken) hrequest
  have hshaped : (Event.decoder endpoint).ofJson (envelope.withMethod name) = .error .badMethod :=
    carrier.ofJson_insert_error (envelope.unseen_withRequest _) hread hplain
  have htag : Intake.tag (envelope.withMethod name) = endpoint := by
    rw [Intake.tag_eq_iff hrest.known, tagged_withMethod]
    exact hrest.tagged
  have hnull : ¬ (envelope.withMethod name).isNull := by
    rw [Intake.isNull_iff]
    exact nofun
  rw [Intake.ofJson, if_neg hnull, htag, if_neg hrest.known, hshaped]

/-- Two spellings of a token that differ in letter case are taken for one and the same event. -/
theorem event_withMethod_of_sameFold {other : String} (hserved : endpoint ∈ Endpoint.served)
    (hrest : Intake.Recognizes envelope.withoutMethod endpoint event) (htoken : IsToken name)
    (hsame : Ascii.sameFold other name) :
    (Intake.ofJson (envelope.withMethod other)).event =
      (Intake.ofJson (envelope.withMethod name)).event := by
  have hupper := Ascii.upper_eq_of_sameFold hsame
  have hother : IsToken other := isToken_upper.mp (hupper ▸ isToken_upper.mpr htoken)
  obtain ⟨method, hmethod, hrecognizes⟩ := recognizes_withMethod hserved hrest htoken
  obtain ⟨again, hagain, hotherRecognizes⟩ := recognizes_withMethod hserved hrest hother
  obtain rfl : again = method := Method.name_injective (hagain.trans (hupper.trans hmethod.symm))
  rw [hrecognizes.event_eq, hotherRecognizes.event_eq]

theorem exists_record_withMethod (hserved : endpoint ∈ Endpoint.served)
    (hrest : Intake.Recognizes envelope.withoutMethod endpoint event) (htoken : IsToken name)
    (hsummarizes : event.Summarizes) :
    ∃ record, Event.record (Intake.ofJson (envelope.withMethod name)).event = .ok record ∧
      record.endpoint = endpoint ∧
      record.toJson.get? "httpMethod" = some (.str (Ascii.upper name)) := by
  obtain ⟨method, hmethod, hrecognizes⟩ := recognizes_withMethod hserved hrest htoken
  obtain ⟨carrier⟩ := Carrier.nonempty_of_served hserved
  obtain ⟨plain, served, hplain, -, hevent⟩ := exists_parts carrier hrest
  have hrequest : event.request = some served := by
    rw [← hevent, Event.request_withRequest (Event.endpoint_of_decoder hplain ▸ hserved)]
  obtain ⟨view, hview, hname⟩ :=
    Event.requestView_withMethod (hrest.endpoint_eq ▸ hserved) hrequest method
  obtain ⟨record, hrecord⟩ :=
    (Event.exists_record_iff _).mpr (Event.summarizes_withRequest.mpr hsummarizes)
  obtain ⟨facts, -, hmade⟩ := Event.exists_of_record hrecord
  rw [hrecognizes.event_eq]
  refine ⟨record, hrecord, ?_, ?_⟩
  · exact (Event.endpoint_of_record hrecord).trans hrecognizes.endpoint_eq
  · rw [← hmethod]
    exact LogRecord.get?_httpMethod (hmade ▸ hview) hname

/-- What becomes of an envelope with a text for the method of its request, where without the text it
is taken for an event. -/
structure TakesMethod (envelope : Envelope) (endpoint : Endpoint) (event : Event)
    (name : String) : Prop where
  ascii : IsToken name → ∀ char ∈ name.toList, char.toNat < 128
  named : IsToken name → ∃ method : Method, method.name = Ascii.upper name ∧
    (Intake.ofJson (envelope.withMethod name)).event = some (event.withMethod method) ∧
      (event.withMethod method).endpoint = endpoint
  told : IsToken name → event.Summarizes →
    ∃ record, Event.record (Intake.ofJson (envelope.withMethod name)).event = .ok record ∧
      record.endpoint = endpoint ∧
      record.toJson.get? "httpMethod" = some (.str (Ascii.upper name))
  alike : IsToken name → ∀ other, Ascii.sameFold other name → ∀ (recorder : Recorder) station,
    recorder.record (Intake.ofJson (envelope.withMethod other)).event station =
      recorder.record (Intake.ofJson (envelope.withMethod name)).event station
  kept : (name = "" ∨ ∃ char ∈ name.toList, ¬ isTokenChar char) →
    Intake.ofJson (envelope.withMethod name) =
        .misfit endpoint .badMethod (envelope.withMethod name) ∧
      (Intake.ofJson (envelope.withMethod name)).event =
        some (.unrecognized (envelope.withMethod name)) ∧
      ∃ record, Event.record (Intake.ofJson (envelope.withMethod name)).event = .ok record ∧
        Denotes record.line
          (.obj [("type", .str "unknown"), ("unknownEvent", envelope.withMethod name)])

theorem takesMethod (hserved : endpoint ∈ Endpoint.served)
    (hrest : Intake.Recognizes envelope.withoutMethod endpoint event) (name : String) :
    envelope.TakesMethod endpoint event name where
  ascii htoken char hmem := isAscii_of_isTokenChar (htoken.2 char hmem)
  named := by
    intro htoken
    obtain ⟨method, hmethod, hrecognizes⟩ := recognizes_withMethod hserved hrest htoken
    exact ⟨method, hmethod, hrecognizes.event_eq, hrecognizes.endpoint_eq⟩
  told := exists_record_withMethod hserved hrest
  alike := by
    intro htoken other hsame recorder station
    rw [event_withMethod_of_sameFold hserved hrest htoken hsame]
  kept := by
    intro hother
    have htoken : ¬ IsToken name := by
      rintro ⟨hnonempty, hall⟩
      rcases hother with rfl | ⟨char, hmem, hchar⟩
      · exact hnonempty rfl
      · exact hchar (hall char hmem)
    have hmisfit := misfit_withMethod hserved hrest htoken
    rw [hmisfit]
    exact ⟨rfl, rfl, _, rfl, denotes_compact _⟩

/-- **A method is kept in upper case, or the value it came in is kept whole.** Every object with a
request that gives a text for its method is an envelope with that text. -/
theorem method_taken :
    (∀ {members request : Members} {name : String}, (members.map (·.1)).Nodup →
      (request.map (·.1)).Nodup → members.get? "httpContext" = some (.obj request) →
      request.get? "httpMethod" = some (.str name) →
        ∃ envelope : Envelope, envelope.withMethod name = .obj members) ∧
      ∀ {envelope : Envelope} {endpoint : Endpoint} {event : Event}, endpoint ∈ Endpoint.served →
        Intake.Recognizes envelope.withoutMethod endpoint event →
          ∀ name, envelope.TakesMethod endpoint event name :=
  ⟨exists_withMethod_eq _, takesMethod⟩

/-- A report of an auction that was served over a post, in another spelling. -/
theorem method_taken_mixedCase :
    let envelope : Envelope :=
      { before := [("event", .str "/openrtb2/auction")], after := []
        requestBefore := [], requestAfter := [("remoteHost", .str "10.0.0.1")]
        distinct := by decide, requestDistinct := by decide }
    let event : Event :=
      .auction ⟨some { ServedRequest.empty with remoteHost := some "10.0.0.1" }, none, none⟩
    .auction ∈ Endpoint.served ∧ Intake.Recognizes envelope.withoutMethod .auction event ∧
      envelope.TakesMethod .auction event "pOsT" := by
  intro envelope event
  have hserved : .auction ∈ Endpoint.served := by decide
  have hrest : Intake.Recognizes envelope.withoutMethod .auction event := ⟨by decide, rfl, rfl⟩
  exact ⟨hserved, hrest, method_taken.2 hserved hrest "pOsT"⟩

end Envelope

end AuctionLog
