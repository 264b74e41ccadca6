import AuctionLog.Proofs.Decoder.Ignores
import AuctionLog.Proofs.Event.Recognized
import AuctionLog.Proofs.Recorder.Attempt

/-!
# Undeclared members have no influence

An event that is recognized is read from the members that its endpoint declares, and its payloads
are summarized by the members that a summary asks for. Whatever else is added to the value, taken
out of it or changed in it, the value stays one of the same endpoint and has the same record, or
none for the same reason.
-/

namespace AuctionLog

open Json

/-! ## What is declared -/

def ServedRequest.declared : Declared :=
  .plain ["headers", "queryParams", "remoteHost", "body", "scheme", "httpMethod", "absoluteUri"]

def BidRequest.declared : Declared :=
  .plain ["id", "imp", "site", "app", "device", "user", "test", "at", "tmax", "cur", "bcat", "badv",
    "bapp", "source", "regs", "metric", "ext"]

def BidResponse.declared : Declared :=
  .plain ["id", "seatbid", "bidid", "cur", "customdata", "nbr", "ext"]

def AuctionInput.declared : Declared :=
  [(["bidRequest"], declaredOf BidRequest.declared)]

def Auction.declared : Declared :=
  [ (["httpContext"], declaredOf ServedRequest.declared)
  , (["auctionContext"], declaredOf AuctionInput.declared)
  , (["bidResponse"], declaredOf BidResponse.declared) ]

def AmpAuction.declared : Declared :=
  Auction.declared ++ .plain ["targeting", "origin"]

def SyncOffer.declared : Declared :=
  .plain ["url", "type", "supportCORS", "status"]

def SyncStatus.declared : Declared :=
  [ (["bidder"], id)
  , (["noCookie"], id)
  , (["usersync"], declaredOf SyncOffer.declared)
  , (["error"], id)
  , (["responseTimeMs", "response_time_ms"], id) ]

def SyncStatus.declaredList : Declared :=
  [(["bidderStatus"], onItems (declaredOf declared))]

def UidChange.declared : Declared :=
  .plain ["bidder", "uid", "success"]

def Notice.declared : Declared :=
  .plain ["type", "bidId", "bidder", "timestamp", "integration"] ++
    [(["httpContext"], declaredOf ServedRequest.declared)]

/-- The members that the events of an endpoint declare, their tag apart. -/
def Event.declared : Endpoint → Declared
  | .auction | .video => Auction.declared
  | .amp => AmpAuction.declared
  | .cookieSync => SyncStatus.declaredList
  | .setuid => UidChange.declared
  | .notification => Notice.declared
  | .unknown => []

/-! ## What decoders ignore -/

section

variable {α ρ : Type}

theorem Field.Ignores.same (field : Field ρ) :
    field.Ignores id fun record trimmed => trimmed = record := by
  intro value
  change Agree _ (field.decoder.ofJson value) (field.decoder.ofJson value)
  cases field.decoder.ofJson value with
  | error reason => exact .error reason
  | ok update =>
      apply Agree.ok
      rintro record _ rfl
      rfl

theorem declares_plain {fields : List (Field ρ)} {names : List String}
    (hnames : fields.map (fun field => field.name :: field.aliases) = names.map ([·])) :
    Declares (fun record trimmed => trimmed = record) fields (.plain names) := by
  induction fields generalizing names with
  | nil =>
      obtain rfl := List.map_eq_nil_iff.mp hnames.symm
      exact .nil
  | cons field fields ih =>
      obtain ⟨name, names, rfl, hname, hrest⟩ := List.map_eq_cons_iff.mp hnames.symm
      exact .cons ⟨hname, .same field⟩ (ih hrest.symm)

theorem ServedRequest.ignores : decoder.IgnoresAll (declaredOf declared) :=
  Decoder.ignores_record (declares_plain rfl) rfl

theorem BidRequest.ignores : decoder.IgnoresAll (declaredOf declared) :=
  Decoder.ignores_record (declares_plain rfl) rfl

theorem BidResponse.ignores : decoder.IgnoresAll (declaredOf declared) :=
  Decoder.ignores_record (declares_plain rfl) rfl

theorem SyncOffer.ignores : decoder.IgnoresAll (declaredOf declared) :=
  Decoder.ignores_record (declares_plain rfl) rfl

theorem UidChange.ignores : decoder.IgnoresAll (declaredOf declared) :=
  Decoder.ignores_record (declares_plain rfl) rfl

theorem SyncStatus.ignores : decoder.IgnoresAll (declaredOf declared) := by
  have hoffer : (Field.optional "usersync" SyncOffer.decoder fun status value =>
      { status with usersync := value }).Ignores (declaredOf SyncOffer.declared)
        fun record trimmed : SyncStatus => trimmed = record := by
    apply Field.Ignores.optional_same SyncOffer.ignores (keepsNull_declaredOf _)
    rintro option record _ rfl
    rfl
  refine Decoder.ignores_record ?_ rfl
  exact .cons ⟨rfl, .same _⟩ (.cons ⟨rfl, .same _⟩ (.cons ⟨rfl, hoffer⟩
    (.cons ⟨rfl, .same _⟩ (.cons ⟨rfl, .same _⟩ .nil))))

theorem SyncStatus.ignores_list : listDecoder.IgnoresAll (declaredOf declaredList) := by
  refine Decoder.ignores_record (.cons ⟨rfl, ?_⟩ .nil) rfl
  apply Field.Ignores.defaulted (Decoder.Ignores.list SyncStatus.ignores)
  rintro statuses _ rfl _ _ _
  rfl

theorem Notice.ignores : decoder.IgnoresAll (declaredOf declared) := by
  have hrequest : (Field.optional "httpContext" ServedRequest.decoder fun notice value =>
      { notice with request := value }).Ignores (declaredOf ServedRequest.declared)
        fun record trimmed : Notice => trimmed = record := by
    apply Field.Ignores.optional_same ServedRequest.ignores (keepsNull_declaredOf _)
    rintro option record _ rfl
    rfl
  refine Decoder.ignores_record ?_ rfl
  exact .cons ⟨rfl, .same _⟩ (.cons ⟨rfl, .same _⟩ (.cons ⟨rfl, .same _⟩ (.cons ⟨rfl, .same _⟩
    (.cons ⟨rfl, .same _⟩ (.cons ⟨rfl, hrequest⟩ .nil)))))

/-! ## What is kept of payloads -/

/-- Whether two auctions differ in nothing but in what their payloads do not declare. -/
structure Auction.Trims (auction trimmed : Auction) : Prop where
  request : trimmed.request = auction.request
  bidRequest : trimmed.bidRequest = auction.bidRequest.map (declaredOf BidRequest.declared)
  bidResponse : trimmed.bidResponse = auction.bidResponse.map (declaredOf BidResponse.declared)

structure AmpAuction.Trims (amp trimmed : AmpAuction) : Prop where
  auction : amp.auction.Trims trimmed.auction
  targeting : trimmed.targeting = amp.targeting
  origin : trimmed.origin = amp.origin

theorem AuctionInput.ignores :
    decoder.Ignores (declaredOf declared) fun input trimmed =>
      trimmed.bidRequest = input.bidRequest.map (declaredOf BidRequest.declared) := by
  refine Decoder.ignores_record (.cons ⟨rfl, ?_⟩ .nil) rfl
  apply Field.Ignores.optional_json (keepsNull_declaredOf _)
  intro option record trimmed _
  rfl

theorem Auction.trims_empty : empty.Trims empty :=
  ⟨rfl, rfl, rfl⟩

theorem Auction.Trims.withInput {auction trimmed : Auction} (htrims : auction.Trims trimmed)
    {input other : Option AuctionInput}
    (hrel : Option.Rel (fun input trimmed =>
      trimmed.bidRequest = input.bidRequest.map (declaredOf BidRequest.declared)) input other) :
    Auction.Trims { auction with input } { trimmed with input := other } where
  request := htrims.request
  bidRequest := by
    cases hrel with
    | none => rfl
    | some hrelated => exact hrelated
  bidResponse := htrims.bidResponse

theorem Auction.ignores {name : String} :
    (decoder name).Ignores (declaredOf declared) Trims := by
  refine Decoder.ignores_record ?_ trims_empty
  refine .cons ⟨rfl, ?_⟩ (.cons ⟨rfl, ?_⟩ (.cons ⟨rfl, ?_⟩ .nil))
  · apply Field.Ignores.optional_same ServedRequest.ignores (keepsNull_declaredOf _)
    intro option auction trimmed htrims
    exact { htrims with request := rfl }
  · apply Field.Ignores.optional AuctionInput.ignores (keepsNull_declaredOf _)
    intro option other hrel auction trimmed htrims
    exact htrims.withInput hrel
  · apply Field.Ignores.optional_json (keepsNull_declaredOf _)
    intro option auction trimmed htrims
    exact { htrims with bidResponse := rfl }

theorem AmpAuction.ignores : decoder.Ignores (declaredOf declared) Trims := by
  refine Decoder.ignores_record ?_ ⟨Auction.trims_empty, rfl, rfl⟩
  refine .cons ⟨rfl, ?_⟩ (.cons ⟨rfl, ?_⟩ (.cons ⟨rfl, ?_⟩
    (.cons ⟨rfl, ?_⟩ (.cons ⟨rfl, ?_⟩ .nil))))
  · apply Field.Ignores.optional_same ServedRequest.ignores (keepsNull_declaredOf _)
    intro option amp trimmed htrims
    exact { htrims with auction := { htrims.auction with request := rfl } }
  · apply Field.Ignores.optional AuctionInput.ignores (keepsNull_declaredOf _)
    intro option other hrel amp trimmed htrims
    exact { htrims with auction := htrims.auction.withInput hrel }
  · apply Field.Ignores.optional_json (keepsNull_declaredOf _)
    intro option amp trimmed htrims
    exact { htrims with auction := { htrims.auction with bidResponse := rfl } }
  · apply Field.Ignores.optional_same Decoder.ignores_id keepsNull_id
    intro option amp trimmed htrims
    exact { htrims with targeting := rfl }
  · apply Field.Ignores.optional_same Decoder.ignores_id keepsNull_id
    intro option amp trimmed htrims
    exact { htrims with origin := rfl }

theorem summarize_declared {payload : Payload} {decoder : Decoder α} {declared : Declared}
    (hignores : decoder.IgnoresAll (declaredOf declared)) (value : Option Json) :
    summarize payload decoder (value.map (declaredOf declared)) =
      summarize payload decoder value := by
  cases value with
  | none => rfl
  | some value =>
      by_cases hnull : value = .null
      · rw [hnull]
        rfl
      · have hdeclared : declaredOf declared value ≠ .null :=
          (keepsNull_declaredOf declared value).not.mpr hnull
        rw [Option.map_some, summarize, summarize, (hignores value).eq]
        · exact hnull
        · exact hdeclared

theorem Auction.Trims.facts {auction trimmed : Auction} (htrims : auction.Trims trimmed) :
    trimmed.facts = auction.facts := by
  rw [Auction.facts, Auction.facts, htrims.bidRequest, htrims.bidResponse, BidRequest.ofPayload,
    BidResponse.ofPayload, summarize_declared BidRequest.ignores,
    summarize_declared BidResponse.ignores]

end

namespace Event

/-- Whether two events differ in nothing but in what their payloads do not declare. -/
inductive Trims : Event → Event → Prop where
  | auction {auction trimmed : Auction} (htrims : auction.Trims trimmed) :
      Trims (.auction auction) (.auction trimmed)
  | amp {amp trimmed : AmpAuction} (htrims : amp.Trims trimmed) : Trims (.amp amp) (.amp trimmed)
  | video {auction trimmed : Auction} (htrims : auction.Trims trimmed) :
      Trims (.video auction) (.video trimmed)
  | other (event : Event) : Trims event event

theorem ignores {endpoint : Endpoint} (hknown : endpoint ≠ .unknown) :
    (decoder endpoint).Ignores (declaredOf (declared endpoint)) Trims := by
  cases endpoint with
  | auction => exact Auction.ignores.map fun _ _ htrims => .auction htrims
  | amp => exact AmpAuction.ignores.map fun _ _ htrims => .amp htrims
  | video => exact Auction.ignores.map fun _ _ htrims => .video htrims
  | cookieSync => exact SyncStatus.ignores_list.map fun _ _ heq => heq ▸ .other _
  | setuid => exact UidChange.ignores.map fun _ _ heq => heq ▸ .other _
  | notification => exact Notice.ignores.map fun _ _ heq => heq ▸ .other _
  | unknown => exact absurd rfl hknown

/-- Whether two events are recorded alike: there is the same record of both, or none for the same
reason, and recording either leaves the same behind. -/
structure RecordedAlike (event other : Event) : Prop where
  endpoint : other.endpoint = event.endpoint
  record : Event.record (some other) = Event.record (some event)
  attempt : ∀ (recorder : Recorder) station,
    recorder.attempt (some other) station = recorder.attempt (some event) station
  process : ∀ (recorder : Recorder) station,
    recorder.record (some other) station = recorder.record (some event) station

variable {event other third : Event}

theorem RecordedAlike.symm (halike : event.RecordedAlike other) : other.RecordedAlike event where
  endpoint := halike.endpoint.symm
  record := halike.record.symm
  attempt recorder station := (halike.attempt recorder station).symm
  process recorder station := (halike.process recorder station).symm

theorem RecordedAlike.trans (hfirst : event.RecordedAlike other)
    (hsecond : other.RecordedAlike third) : event.RecordedAlike third where
  endpoint := hsecond.endpoint.trans hfirst.endpoint
  record := hsecond.record.trans hfirst.record
  attempt recorder station :=
    (hsecond.attempt recorder station).trans (hfirst.attempt recorder station)
  process recorder station :=
    (hsecond.process recorder station).trans (hfirst.process recorder station)

theorem RecordedAlike.of_record
    (hrecord : Event.record (some other) = Event.record (some event))
    (hendpoint : other.endpoint = event.endpoint)
    (hentries : Recorder.attemptEntries (some other) = Recorder.attemptEntries (some event)) :
    event.RecordedAlike other := by
  have hattempt : ∀ (recorder : Recorder) station,
      recorder.attempt (some other) station = recorder.attempt (some event) station := by
    intro recorder station
    rw [Recorder.attempt, Recorder.attempt, hentries, hrecord]
  refine ⟨hendpoint, hrecord, hattempt, ?_⟩
  intro recorder station
  rw [Recorder.record, Recorder.record, hattempt]

theorem Trims.recordedAlike (htrims : event.Trims other) : event.RecordedAlike other := by
  cases htrims with
  | auction htrims | video htrims =>
      refine .of_record ?_ rfl rfl
      rw [Event.record, Event.record, Event.facts, Event.facts, htrims.facts, requestView,
        requestView, Option.bind_some, Option.bind_some, request, request, htrims.request]
  | amp htrims =>
      refine .of_record ?_ rfl rfl
      rw [Event.record, Event.record, Event.facts, Event.facts, AmpAuction.facts, AmpAuction.facts,
        htrims.auction.facts, htrims.targeting, htrims.origin, requestView, requestView,
        Option.bind_some, Option.bind_some, request, request, htrims.auction.request]
  | other => exact ⟨rfl, rfl, fun _ _ => rfl, fun _ _ => rfl⟩

end Event

namespace Intake

variable {value changed : Json} {endpoint : Endpoint} {event : Event}

theorem Recognizes.of_declared (hrecognizes : Recognizes value endpoint event)
    (htag : changed.get? "event" = value.get? "event")
    (hdeclared : declaredOf (Event.declared endpoint) changed =
      declaredOf (Event.declared endpoint) value) :
    ∃ other, Recognizes changed endpoint other ∧ event.RecordedAlike other := by
  have hvalue := Event.ignores hrecognizes.known value
  have hchanged := Event.ignores hrecognizes.known changed
  rw [hrecognizes.shaped] at hvalue
  rw [hdeclared] at hchanged
  generalize (Event.decoder endpoint).ofJson (declaredOf (Event.declared endpoint) value) =
    trimmed at hvalue hchanged
  cases hvalue with
  | ok htrims =>
      generalize hshaped : (Event.decoder endpoint).ofJson changed = read at hchanged
      cases hchanged with
      | ok hother =>
          refine ⟨_, ⟨hrecognizes.known, htag.trans hrecognizes.tagged, hshaped⟩, ?_⟩
          exact htrims.recordedAlike.trans hother.recordedAlike.symm

theorem get?_insert {name other : String} (hname : name ≠ other) (before after : Members)
    (value : Json) :
    (Json.obj (before ++ (other, value) :: after)).get? name =
      (Json.obj (before ++ after)).get? name := by
  have hbeq : (name == other) = false := beq_eq_false_iff_ne.mpr hname
  simp only [Json.get?, Members.get?, List.lookup_append, List.lookup_cons, hbeq]

/-- **Undeclared members have no influence.** If a value is taken for an event and another one has
the same tag and differs from it in nothing that is declared, then that is taken for an event of the
same endpoint, and the two are recorded alike. Cookie syncs and uid changes declare no request, so
none that is put into them matters. -/
theorem undeclared_ignored (hfitting : ofJson value = .fitting event) :
    (∀ changed : Json, changed.get? "event" = value.get? "event" →
      declaredOf (Event.declared event.endpoint) changed =
        declaredOf (Event.declared event.endpoint) value →
      ∃ other, ofJson changed = .fitting other ∧ event.RecordedAlike other) ∧
    (event.endpoint = .cookieSync ∨ event.endpoint = .setuid →
      ∀ before after context, value = .obj (before ++ after) →
      ∃ other, ofJson (.obj (before ++ ("httpContext", context) :: after)) = .fitting other ∧
        event.RecordedAlike other) := by
  obtain ⟨endpoint, hrecognizes⟩ := ofJson_eq_fitting_iff.mp hfitting
  rw [hrecognizes.endpoint_eq]
  have hall : ∀ changed : Json, changed.get? "event" = value.get? "event" →
      declaredOf (Event.declared endpoint) changed = declaredOf (Event.declared endpoint) value →
      ∃ other, ofJson changed = .fitting other ∧ event.RecordedAlike other := by
    intro changed htag hdeclared
    obtain ⟨other, hother, halike⟩ := hrecognizes.of_declared htag hdeclared
    exact ⟨other, ofJson_eq_fitting_iff.mpr ⟨endpoint, hother⟩, halike⟩
  refine ⟨hall, ?_⟩
  rintro hendpoint before after context rfl
  have hnone : (Event.declared endpoint).find? "httpContext" = none := by
    rcases hendpoint with rfl | rfl
    · rfl
    · rfl
  apply hall _ (get?_insert (by decide) before after context)
  rw [declaredOf, declaredOf, Declared.dropMembers_insert hnone]

/-- A cookie sync that is given a request, and another member in one of its syncs. -/
theorem undeclared_ignored_cookieSync :
    let sync (offer : Members) : Json := .obj [("bidder", .str "a"), ("usersync", .obj offer)]
    let plain : Json :=
      .obj [("bidderStatus", .arr [sync [("url", .str "u")]]), ("event", .str "/cookie_sync")]
    let changed : Json :=
      .obj [("bidderStatus", .arr [sync [("size", .arr []), ("url", .str "u")]]),
        ("event", .str "/cookie_sync"), ("httpContext", .bool true)]
    ∃ event other, ofJson plain = .fitting event ∧ ofJson changed = .fitting other ∧
      event.RecordedAlike other := by
  intro sync plain changed
  have hfitting : ofJson plain =
      .fitting (.cookieSync [⟨some "a", none, some ⟨some "u", none, none, none⟩, none, none⟩]) := by
    rfl
  obtain ⟨other, hother, halike⟩ := (undeclared_ignored hfitting).1 changed rfl rfl
  exact ⟨_, other, hfitting, hother, halike⟩

end Intake

end AuctionLog
