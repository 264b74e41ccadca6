import AuctionLog.Proofs.Decoder.Aliases
import AuctionLog.Proofs.Decoder.Reads
import AuctionLog.Proofs.Event.Recognized
import AuctionLog.Proofs.Json.Unrepeated

/-!
# Statuses of a cookie sync

The statuses that a cookie sync reports are recorded all or none. If each element of the list can be
read there is one item for it, which tells what that element gives and depends on no other one;
otherwise the report is kept whole and no status is told. A bidder's response time has two names,
which are as good as each other, and may not come under both.
-/

namespace AuctionLog

open Json

/-! ## What an element tells -/

/-- Whether a value names a way to sync, as a text or as an object with that one name and null. -/
def SyncMethod.NamedBy (value : Json) (name : String) : Prop :=
  name ∈ ["iframe", "redirect"] ∧ (value = .str name ∨ value = .obj [(name, .null)])

/-- Whether what is told of a sync is what members give. Whether it allows other origins is not
told, but has to be readable. -/
structure OfferFacts.ToldOf (members : Members) (facts : OfferFacts) : Prop where
  url : GivenAs (WrittenBy .str) (Members.get? members "url") facts.url
  type : GivenAs SyncMethod.NamedBy (Members.get? members "type") facts.type
  supportCors : ∃ flag, GivenAs (WrittenBy .bool) (Members.get? members "supportCORS") flag
  status : GivenAs (WrittenBy .str) (Members.get? members "status") facts.status

/-- Whether what is told of a sync is what a value gives, by name or by place. -/
def OfferFacts.Tells (value : Json) (facts : OfferFacts) : Prop :=
  ∃ members, GivenIn ["url", "type", "supportCORS", "status"] value members ∧ facts.ToldOf members

/-- Whether the response time comes under one of its names at most. -/
def SyncStatus.TimedOnce (members : Members) : Prop :=
  Members.get? members "responseTimeMs" = none ∨ Members.get? members "response_time_ms" = none

/-- Whether what is told of a bidder is what members give, the response time under either of its
names. -/
structure SyncFacts.ToldOf (members : Members) (facts : SyncFacts) : Prop where
  bidder : GivenAs (WrittenBy .str) (Members.get? members "bidder") facts.bidder
  noCookie : GivenAs (WrittenBy .bool) (Members.get? members "noCookie") facts.noCookie
  usersync : GivenAs OfferFacts.Tells (Members.get? members "usersync") facts.usersync
  error : GivenAs (WrittenBy .str) (Members.get? members "error") facts.error
  responseTimeMs : GivenAs (WrittenBy (.num <| .ofUInt64 ·))
    ((Members.get? members "responseTimeMs").or (Members.get? members "response_time_ms"))
    facts.responseTimeMs
  once : SyncStatus.TimedOnce members

/-- Whether what is told of a bidder is what an element gives, by name or by place. -/
def SyncFacts.Tells (element : Json) (facts : SyncFacts) : Prop :=
  ∃ members, GivenIn ["bidder", "noCookie", "usersync", "error", "responseTimeMs"] element members ∧
    facts.ToldOf members

/-! ## Offers -/

theorem SyncMethod.exists_ofJson_iff {value : Json} {name : String} :
    (∃ method, decoder.ofJson value = .ok method ∧ method.name = name) ↔ NamedBy value name := by
  simp only [decoder, Decoder.choice_eq_ok_iff]
  constructor
  · rintro ⟨method, ⟨name, hname, hvalue⟩, rfl⟩
    obtain ⟨before, after, hsplit, -⟩ := List.lookup_eq_some_iff.mp hname
    have hlisted : (name, method) ∈ [("iframe", SyncMethod.iframe), ("redirect", .redirect)] := by
      simp [hsplit]
    simp only [List.mem_cons, List.not_mem_nil, or_false, Prod.mk.injEq] at hlisted
    rcases hlisted with ⟨rfl, rfl⟩ | ⟨rfl, rfl⟩
    · exact ⟨by decide, hvalue⟩
    · exact ⟨by decide, hvalue⟩
  · rintro ⟨hname, hvalue⟩
    simp only [List.mem_cons, List.not_mem_nil, or_false] at hname
    rcases hname with rfl | rfl
    · exact ⟨.iframe, ⟨"iframe", rfl, hvalue⟩, rfl⟩
    · exact ⟨.redirect, ⟨"redirect", rfl, hvalue⟩, rfl⟩

namespace SyncOffer

theorem independent : Independent fields := by
  simp [fields, Field.optional]

theorem exists_fill_iff {members : Members} {facts : OfferFacts} :
    (∃ offer, Decoder.fill (Members.get? members) fields empty = .ok offer ∧
      offer.facts = facts) ↔ facts.ToldOf members := by
  have hmethod := @Decoder.reads_self _ SyncMethod.decoder
  have hnamed := fun told => @GivenAs.congr _ _ (Members.get? members "type") told
    SyncMethod.NamedBy fun _ _ _ => SyncMethod.exists_ofJson_iff
  simp only [fields, empty, Decoder.reads_text.fill_optional, Decoder.reads_flag.fill_optional,
    hmethod.fill_optional, Decoder.fill_nil, Except.ok.injEq]
  constructor
  · rintro ⟨_, ⟨url, hurl, method, hmethod, flag, hflag, status, hstatus, rfl⟩, rfl⟩
    have htype := (hnamed _).mp (GivenAs.map_iff.mp ⟨method, hmethod, rfl⟩)
    exact ⟨hurl, htype, ⟨flag, hflag⟩, hstatus⟩
  · rintro ⟨hurl, htype, ⟨flag, hflag⟩, hstatus⟩
    obtain ⟨method, hmethod, htype⟩ := GivenAs.map_iff.mpr ((hnamed _).mpr htype)
    refine ⟨_, ⟨_, hurl, method, hmethod, flag, hflag, _, hstatus, rfl⟩, ?_⟩
    simp only [SyncOffer.facts, htype]

/-- **A sync is told of as what it gives.** -/
theorem exists_ofJson_iff {value : Json} (hunrepeated : Unrepeated value) {facts : OfferFacts} :
    (∃ offer, decoder.ofJson value = .ok offer ∧ offer.facts = facts) ↔ facts.Tells value := by
  have hlast : ∀ field ∈ fields.getLast?, field.presence ≠ .defaulted := by
    simp [fields, Field.optional]
  have hdistinct : ∀ members, value = .obj members → (members.map (·.1)).Nodup := by
    rintro members rfl
    exact hunrepeated members .self
  simp only [decoder, Decoder.record_eq_ok_iff independent hlast hdistinct]
  rw [OfferFacts.Tells]
  constructor
  · rintro ⟨offer, ⟨members, hgiven, hfill⟩, hfacts⟩
    exact ⟨members, hgiven, exists_fill_iff.mp ⟨offer, hfill, hfacts⟩⟩
  · rintro ⟨members, hgiven, htold⟩
    obtain ⟨offer, hfill, hfacts⟩ := exists_fill_iff.mpr htold
    exact ⟨offer, ⟨members, hgiven, hfill⟩, hfacts⟩

end SyncOffer

/-! ## Statuses -/

namespace SyncStatus

variable {members : Members} {facts : SyncFacts}

theorem independent : Independent (fields.map Field.unaliased) := by
  simp [fields, Field.unaliased, Field.optional, Field.withAlias]

theorem resolve_eq (name : String) : Decoder.resolve fields name =
    if name = "response_time_ms" then "responseTimeMs" else name := by
  cases hfind : fields.find? (·.isNamed name) with
  | none =>
      have hname : name ≠ "response_time_ms" := by
        rintro rfl
        exact absurd hfind (by decide)
      rw [Decoder.resolve, hfind, if_neg hname]
      rfl
  | some field =>
      have hmem := List.mem_of_find?_eq_some hfind
      have hnamed := List.find?_some hfind
      rw [Decoder.resolve, hfind, Option.map_some, Option.getD_some]
      simp only [fields, List.mem_cons, List.not_mem_nil, or_false] at hmem
      rcases hmem with rfl | rfl | rfl | rfl | rfl <;>
        simp only [Field.isNamed, Field.optional, Field.withAlias, List.contains_cons,
          List.contains_nil, Bool.or_false, Bool.or_eq_true, beq_iff_eq] at hnamed ⊢
      · simp [← hnamed]
      · simp [← hnamed]
      · simp [← hnamed]
      · simp [← hnamed]
      · rcases hnamed with rfl | rfl <;> rfl

theorem resolve_eq_iff {name other : String}
    (hname : name ∉ ["responseTimeMs", "response_time_ms"]) :
    Decoder.resolve fields other = name ↔ other = name := by
  simp only [List.mem_cons, List.not_mem_nil, or_false, not_or] at hname
  rw [resolve_eq]
  split_ifs with hother
  · rw [hother]
    exact iff_of_false (Ne.symm hname.1) (Ne.symm hname.2)
  · exact Iff.rfl

theorem notMem_of_get?_eq_none {name : String} (hnone : Members.get? members name = none) :
    name ∉ members.map (·.1) := by
  rw [List.mem_map]
  rintro ⟨member, hmem, rfl⟩
  exact bne_iff_ne.mp (List.lookup_eq_none_iff.mp hnone member hmem) rfl

theorem get?_resolved_second :
    Members.get? (Decoder.resolved fields members) "response_time_ms" = none := by
  refine Decoder.get?_eq_none (List.forall_mem_map.mpr fun member _ => ?_)
  simp only [resolve_eq]
  split_ifs with hname
  · decide
  · exact hname

theorem get?_resolved_first (honce : TimedOnce members) :
    Members.get? (Decoder.resolved fields members) "responseTimeMs" =
      (Members.get? members "responseTimeMs").or (Members.get? members "response_time_ms") := by
  rcases honce with hnone | hnone
  · rw [hnone, Option.none_or]
    refine Decoder.get?_resolved_of_iff fun member hmem => ?_
    rw [resolve_eq]
    split_ifs with hother
    · exact iff_of_true rfl hother
    · refine iff_of_false (fun heq => ?_) hother
      exact notMem_of_get?_eq_none hnone (heq ▸ List.mem_map_of_mem hmem)
  · rw [hnone, Option.or_none]
    refine Decoder.get?_resolved_of_iff fun member hmem => ?_
    have hother : member.1 ≠ "response_time_ms" :=
      fun heq => notMem_of_get?_eq_none hnone (heq ▸ List.mem_map_of_mem hmem)
    rw [resolve_eq, if_neg hother]

theorem nodup_resolved (hdistinct : (members.map (·.1)).Nodup) (honce : TimedOnce members) :
    ((Decoder.resolved fields members).map (·.1)).Nodup := by
  have hmap : (Decoder.resolved fields members).map (·.1) =
      (members.map (·.1)).map (Decoder.resolve fields) := by
    simp [Decoder.resolved]
  have hboth : "responseTimeMs" ∈ members.map (·.1) →
      "response_time_ms" ∉ members.map (·.1) := by
    intro hfirst hsecond
    rcases honce with hnone | hnone
    · exact notMem_of_get?_eq_none hnone hfirst
    · exact notMem_of_get?_eq_none hnone hsecond
  rw [hmap]
  refine hdistinct.map_on fun left hleft right hright heq => ?_
  simp only [resolve_eq] at heq
  split_ifs at heq with hleftName hrightName hrightName
  · exact hleftName.trans hrightName.symm
  · exact absurd (hleftName ▸ hleft) (hboth (heq ▸ hright))
  · exact absurd (hrightName ▸ hright) (hboth (heq ▸ hleft))
  · exact heq

theorem toldOf_resolved_iff (honce : TimedOnce members) :
    facts.ToldOf (Decoder.resolved fields members) ↔ facts.ToldOf members := by
  have hsame : ∀ name ∉ ["responseTimeMs", "response_time_ms"],
      Members.get? (Decoder.resolved fields members) name = Members.get? members name :=
    fun name hname => Decoder.get?_resolved_of_iff fun _ _ => resolve_eq_iff hname
  have htime := get?_resolved_first honce
  have hsecond := @get?_resolved_second members
  constructor
  · rintro ⟨hbidder, hnoCookie, husersync, herror, hresponse, -⟩
    rw [hsame _ (by decide)] at hbidder hnoCookie husersync herror
    rw [hsecond, htime, Option.or_none] at hresponse
    exact ⟨hbidder, hnoCookie, husersync, herror, hresponse, honce⟩
  · rintro ⟨hbidder, hnoCookie, husersync, herror, hresponse, -⟩
    rw [← hsame _ (by decide)] at hbidder hnoCookie husersync herror
    rw [← htime] at hresponse
    refine ⟨hbidder, hnoCookie, husersync, herror, ?_, .inr hsecond⟩
    rwa [hsecond, Option.or_none]

theorem exists_fill_iff (hfirst : Members.get? members "response_time_ms" = none)
    (hunrepeated : ∀ value ∈ Members.get? members "usersync", Unrepeated value) :
    (∃ status, Decoder.fill (Members.get? members) (fields.map Field.unaliased) empty = .ok status ∧
      status.facts = facts) ↔ facts.ToldOf members := by
  have hoffer := @Decoder.reads_self _ SyncOffer.decoder
  have htold := fun told => @GivenAs.congr _ _ (Members.get? members "usersync") told
    OfferFacts.Tells fun value hmem _ => SyncOffer.exists_ofJson_iff (hunrepeated value hmem)
  simp only [fields, List.map_cons, List.map_nil, Field.unaliased_withAlias,
    Field.unaliased_optional, empty, Decoder.reads_text.fill_optional,
    Decoder.reads_flag.fill_optional, Decoder.reads_nat64.fill_optional, hoffer.fill_optional,
    Decoder.fill_nil, Except.ok.injEq]
  constructor
  · rintro ⟨_, ⟨bidder, hbidder, noCookie, hnoCookie, usersync, husersync, error, herror,
      responseTimeMs, htime, rfl⟩, rfl⟩
    have htells := (htold _).mp (GivenAs.map_iff.mp ⟨usersync, husersync, rfl⟩)
    refine ⟨hbidder, hnoCookie, htells, herror, ?_, .inr hfirst⟩
    rwa [hfirst, Option.or_none]
  · rintro ⟨hbidder, hnoCookie, htells, herror, htime, -⟩
    obtain ⟨usersync, husersync, heq⟩ := GivenAs.map_iff.mpr ((htold _).mpr htells)
    rw [hfirst, Option.or_none] at htime
    refine ⟨_, ⟨_, hbidder, _, hnoCookie, usersync, husersync, _, herror, _, htime, rfl⟩, ?_⟩
    simp only [SyncStatus.facts, heq]

theorem ne_ok_of_not_timedOnce (htimed : ¬ TimedOnce members) (status : SyncStatus) :
    decoder.ofJson (.obj members) ≠ .ok status := by
  obtain ⟨hfirst, hsecond⟩ := not_or.mp htimed
  obtain ⟨first, hfirst⟩ := Option.ne_none_iff_exists'.mp hfirst
  obtain ⟨second, hsecond⟩ := Option.ne_none_iff_exists'.mp hsecond
  exact Decoder.ne_ok_of_given_twice (Members.mem_of_get? hfirst) (Members.mem_of_get? hsecond)
    (by simp) rfl rfl

/-- An object is read by the members that are its own but for the name of its response time. -/
theorem exists_ofJson_obj_iff (hunrepeated : Unrepeated (.obj members)) :
    (∃ status, decoder.ofJson (.obj members) = .ok status ∧ status.facts = facts) ↔
      facts.ToldOf members := by
  by_cases honce : TimedOnce members
  · have hparts : ∀ value ∈ Members.get? (Decoder.resolved fields members) "usersync",
        Unrepeated value := by
      rw [Decoder.get?_resolved_of_iff fun _ _ => resolve_eq_iff (by decide)]
      intro value hvalue
      exact hunrepeated.part (.member (Members.mem_of_get? hvalue) .self)
    have hunseen := Decoder.Unseen.start
      (nodup_resolved (hunrepeated members .self) honce)
    have hread : ∀ status, decoder.ofJson (.obj members) = .ok status ↔
        Decoder.fill (Members.get? (Decoder.resolved fields members))
          (fields.map Field.unaliased) empty = .ok status := by
      intro status
      rw [← Decoder.ofMembers_eq_ok_iff independent hunseen,
        ← Decoder.ofMembers_resolved independent]
      rfl
    simp only [hread]
    rw [exists_fill_iff get?_resolved_second hparts, toldOf_resolved_iff honce]
  · refine iff_of_false ?_ fun htold => honce htold.once
    rintro ⟨status, hread, -⟩
    exact ne_ok_of_not_timedOnce honce status hread

theorem exists_ofJson_arr_iff {items : List Json} (hunrepeated : Unrepeated (.arr items)) :
    (∃ status, decoder.ofJson (.arr items) = .ok status ∧ status.facts = facts) ↔
      items.length = fields.length ∧ facts.ToldOf ((fields.map (·.name)).zip items) := by
  have hlast : ∀ field ∈ (fields.map Field.unaliased).getLast?, field.presence ≠ .defaulted := by
    simp [fields, Field.unaliased, Field.optional, Field.withAlias]
  have hfirst : Members.get? ((fields.map (·.name)).zip items) "response_time_ms" = none := by
    refine Decoder.get?_eq_none fun member hmem => ?_
    have hname := (List.of_mem_zip hmem).1
    rintro heq
    rw [heq] at hname
    exact absurd hname (by decide)
  have hparts : ∀ value ∈ Members.get? ((fields.map (·.name)).zip items) "usersync",
      Unrepeated value := by
    intro value hvalue
    exact hunrepeated.part (.item (List.of_mem_zip (Members.mem_of_get? hvalue)).2 .self)
  have hread : ∀ status, decoder.ofJson (.arr items) = .ok status ↔
      items.length = fields.length ∧
        Decoder.fill (Members.get? ((fields.map (·.name)).zip items))
          (fields.map Field.unaliased) empty = .ok status := by
    intro status
    have hitems : decoder.ofJson (.arr items) = Decoder.ofItems "BidderUsersyncStatus"
        fields.length empty 0 (fields.map Field.unaliased) items := Decoder.ofItems_unaliased.symm
    rw [hitems]
    exact Decoder.ofItems_eq_ok_iff independent hlast
  simp only [hread, and_assoc, exists_and_left]
  rw [exists_fill_iff hfirst hparts]

/-- **A status is told of as what its element gives.** -/
theorem exists_ofJson_iff {element : Json} (hunrepeated : Unrepeated element) :
    (∃ status, decoder.ofJson element = .ok status ∧ status.facts = facts) ↔
      facts.Tells element := by
  cases element with
  | obj members =>
      rw [exists_ofJson_obj_iff hunrepeated]
      constructor
      · exact fun htold => ⟨members, .object members, htold⟩
      · rintro ⟨_, ⟨⟩, htold⟩
        exact htold
  | arr items =>
      rw [exists_ofJson_arr_iff hunrepeated]
      constructor
      · rintro ⟨hlength, htold⟩
        exact ⟨_, .list hlength, htold⟩
      · rintro ⟨_, hgiven, htold⟩
        cases hgiven with
        | list hlength => exact ⟨hlength, htold⟩
  | null | bool | num | str =>
      refine iff_of_false ?_ ?_
      · rintro ⟨status, hread, -⟩
        exact absurd hread nofun
      · rintro ⟨_, ⟨⟩, -⟩

end SyncStatus

/-! ## Reports of a cookie sync -/

/-- Whether a value reports a cookie sync with a list of statuses. -/
structure ReportsSync (value : Json) (elements : List Json) : Prop where
  unrepeated : Unrepeated value
  tagged : value.get? "event" = some (.str "/cookie_sync")
  listed : value.get? "bidderStatus" = some (.arr elements)

/-- Whether the statuses of a value are recorded as some items. -/
def RecordsSync (value : Json) (items : List SyncFacts) : Prop :=
  ∃ record, Event.record (Intake.ofJson value).event = .ok record ∧
    record = ⟨.cookieSync items, none⟩ ∧
    record.members =
      [("type", .str "/cookie_sync"), ("bidderStatus", .arr (items.map (.obj ·.members)))]

/-- Whether a value is kept whole, and nothing else is told of it. -/
def KeptWhole (value : Json) : Prop :=
  (Intake.ofJson value).event = some (.unrecognized value) ∧
    ∃ record, Event.record (Intake.ofJson value).event = .ok record ∧
      record.members = [("type", .str "unknown"), ("unknownEvent", value)]

/-- How the statuses of a cookie sync are recorded: all of them or none, in their order, and each as
what its own element tells. -/
structure RecordedApart (value : Json) (elements : List Json) : Prop where
  readable : ∀ element ∈ elements, (∃ status, SyncStatus.decoder.ofJson element = .ok status) ↔
    ∃ item, SyncFacts.Tells element item
  unique : ∀ element ∈ elements, ∀ left right, SyncFacts.Tells element left →
    SyncFacts.Tells element right → left = right
  all : (∀ element ∈ elements, ∃ status, SyncStatus.decoder.ofJson element = .ok status) →
    ∃ items, RecordsSync value items ∧ List.Forall₂ SyncFacts.Tells elements items
  none : ∀ element ∈ elements,
    (∀ status, SyncStatus.decoder.ofJson element ≠ .ok status) → KeptWhole value
  /-- To replace an element is to replace its item. -/
  replaced : ∀ index other changed, ReportsSync changed (elements.set index other) →
    ∀ items item, RecordsSync value items → SyncFacts.Tells other item →
      RecordsSync changed (items.set index item)

theorem SyncFacts.Tells.unique {element : Json} (hunrepeated : Unrepeated element)
    {left right : SyncFacts} (hleft : left.Tells element) (hright : right.Tells element) :
    left = right := by
  obtain ⟨status, hread, rfl⟩ := (SyncStatus.exists_ofJson_iff hunrepeated).mpr hleft
  obtain ⟨other, hother, rfl⟩ := (SyncStatus.exists_ofJson_iff hunrepeated).mpr hright
  rw [Except.ok.inj (hread.symm.trans hother)]

namespace SyncStatus

theorem independent_list :
    Independent
      [.defaulted "bidderStatus" decoder.list fun (_ : List SyncStatus) value => value] := by
  simp [Field.defaulted]

end SyncStatus

namespace ReportsSync

variable {value : Json} {elements : List Json} {statuses : List SyncStatus}
  {items : List SyncFacts}

theorem exists_members (hreports : ReportsSync value elements) :
    ∃ members, value = .obj members ∧
      Members.get? members "bidderStatus" = some (.arr elements) := by
  cases value with
  | obj members => exact ⟨members, rfl, hreports.listed⟩
  | _ => exact absurd hreports.listed nofun

theorem unrepeated_element (hreports : ReportsSync value elements) :
    ∀ element ∈ elements, Unrepeated element := by
  intro element hmem
  obtain ⟨members, rfl, hlisted⟩ := hreports.exists_members
  exact hreports.unrepeated.part (.member (Members.mem_of_get? hlisted) (.item hmem .self))

theorem shaped_iff (hreports : ReportsSync value elements) :
    SyncStatus.listDecoder.ofJson value = .ok statuses ↔
      elements.mapM SyncStatus.decoder.ofJson = .ok statuses := by
  obtain ⟨members, rfl, hlisted⟩ := hreports.exists_members
  have hunseen := Decoder.Unseen.start (hreports.unrepeated members .self)
  refine (Decoder.ofMembers_eq_ok_iff SyncStatus.independent_list hunseen).trans ?_
  rw [Decoder.fill_cons_some hlisted, bind_eq_ok]
  simp only [Field.defaulted, Decoder.map_eq_ok_iff, Decoder.fill_nil, Except.ok.injEq]
  constructor
  · rintro ⟨_, ⟨read, hread, rfl⟩, rfl⟩
    exact hread
  · intro hread
    exact ⟨_, ⟨statuses, hread, rfl⟩, rfl⟩

theorem event_of_read (hreports : ReportsSync value elements)
    (hread : elements.mapM SyncStatus.decoder.ofJson = .ok statuses) :
    (Intake.ofJson value).event = some (.cookieSync statuses) := by
  have hshaped : (Event.decoder .cookieSync).ofJson value = .ok (.cookieSync statuses) :=
    Decoder.map_eq_ok_iff.mpr ⟨statuses, hreports.shaped_iff.mpr hread, rfl⟩
  have hrecognizes : Intake.Recognizes value .cookieSync (.cookieSync statuses) :=
    ⟨by decide, hreports.tagged, hshaped⟩
  exact hrecognizes.event_eq

theorem keptWhole (hreports : ReportsSync value elements)
    (hnone : ∀ statuses, elements.mapM SyncStatus.decoder.ofJson ≠ .ok statuses) :
    KeptWhole value := by
  have hnull : value ≠ .null := by
    rintro rfl
    exact absurd hreports.tagged nofun
  have hevent : (Intake.ofJson value).event = some (.unrecognized value) := by
    refine Intake.event_of_not_recognizes hnull fun endpoint event hrecognizes => ?_
    have hendpoint : Intake.tag value = .cookieSync :=
      (Intake.tag_eq_iff (by decide)).mpr hreports.tagged
    obtain rfl := hrecognizes.tag_eq.symm.trans hendpoint
    obtain ⟨statuses, hread, -⟩ := Decoder.map_eq_ok_iff.mp hrecognizes.shaped
    exact hnone statuses (hreports.shaped_iff.mp hread)
  refine ⟨hevent, ?_⟩
  rw [hevent]
  exact ⟨_, rfl, rfl⟩

theorem forall₂_tells_iff (hreports : ReportsSync value elements) :
    List.Forall₂ SyncFacts.Tells elements items ↔
      ∃ statuses, elements.mapM SyncStatus.decoder.ofJson = .ok statuses ∧
        statuses.map (·.facts) = items := by
  simp only [mapM_eq_ok_iff, forall₂_map_iff]
  refine forall₂_congr_of_mem fun element hmem facts => ?_
  exact (SyncStatus.exists_ofJson_iff (hreports.unrepeated_element element hmem)).symm

/-- **The items of a record are what the elements tell**, one by one. -/
theorem recordsSync_iff (hreports : ReportsSync value elements) :
    RecordsSync value items ↔ List.Forall₂ SyncFacts.Tells elements items := by
  rw [hreports.forall₂_tells_iff]
  constructor
  · rintro ⟨_, hrecord, rfl, -⟩
    cases hread : elements.mapM SyncStatus.decoder.ofJson with
    | error mismatch =>
        have hnone : ∀ statuses, elements.mapM SyncStatus.decoder.ofJson ≠ .ok statuses := by
          simp [hread]
        rw [(hreports.keptWhole hnone).1] at hrecord
        exact absurd hrecord nofun
    | ok statuses =>
        rw [hreports.event_of_read hread] at hrecord
        have hfacts := congrArg LogRecord.facts (Except.ok.inj hrecord)
        exact ⟨statuses, rfl, Facts.cookieSync.inj hfacts⟩
  · rintro ⟨statuses, hread, rfl⟩
    rw [RecordsSync, hreports.event_of_read hread]
    exact ⟨_, rfl, rfl, rfl⟩

end ReportsSync

/-- Whether the two names of a response time are as good as each other, and cannot both be given. -/
structure SyncStatus.NamesTime : Prop where
  same : ∀ before after value,
    decoder.ofJson (.obj (before ++ ("responseTimeMs", value) :: after)) =
      decoder.ofJson (.obj (before ++ ("response_time_ms", value) :: after))
  both : ∀ members value other, ("responseTimeMs", value) ∈ members →
    ("response_time_ms", other) ∈ members →
    ∀ status, decoder.ofJson (.obj members) ≠ .ok status

theorem SyncStatus.namesTime : NamesTime where
  same := by
    intro before after value
    change Decoder.ofMembers fields [] empty _ = Decoder.ofMembers fields [] empty _
    rw [Decoder.ofMembers_resolved independent, Decoder.ofMembers_resolved independent]
    simp only [Decoder.resolved, List.map_append, List.map_cons, resolve_eq, if_pos]
    rfl
  both := by
    intro members value other hfirst hsecond status
    exact Decoder.ne_ok_of_given_twice hfirst hsecond (by simp) rfl rfl

theorem ReportsSync.recordedApart {value : Json} {elements : List Json}
    (hreports : ReportsSync value elements) : RecordedApart value elements where
  readable := by
    intro element hmem
    simp only [← SyncStatus.exists_ofJson_iff (hreports.unrepeated_element element hmem)]
    exact ⟨fun ⟨status, hread⟩ => ⟨_, status, hread, rfl⟩,
      fun ⟨_, status, hread, _⟩ => ⟨status, hread⟩⟩
  unique element hmem _ _ := SyncFacts.Tells.unique (hreports.unrepeated_element element hmem)
  all := by
    intro hall
    obtain ⟨statuses, hread⟩ := exists_mapM_iff.mpr hall
    have htells := hreports.forall₂_tells_iff.mpr ⟨statuses, hread, rfl⟩
    exact ⟨_, hreports.recordsSync_iff.mpr htells, htells⟩
  none := by
    intro element hmem hnone
    refine hreports.keptWhole fun statuses hread => ?_
    obtain ⟨status, hstatus⟩ := exists_mapM_iff.mp ⟨statuses, hread⟩ element hmem
    exact hnone status hstatus
  replaced := by
    intro index other changed hchanged items item hitems hitem
    have htells := hreports.recordsSync_iff.mp hitems
    exact hchanged.recordsSync_iff.mpr (forall₂_set htells hitem index)

/-- **Statuses are recorded all or none, in order and apart from each other.** -/
theorem cookieSync_recordedApart :
    (∀ value elements, ReportsSync value elements → RecordedApart value elements) ∧
      SyncStatus.NamesTime :=
  ⟨fun _ _ hreports => hreports.recordedApart, SyncStatus.namesTime⟩

/-- A report of two bidders, one by name and one by place. -/
def twoBidders : Json :=
  .obj
    [ ("bidderStatus", .arr
        [ .obj
            [ ("bidder", .str "a"), ("response_time_ms", .num (.ofUInt64 250))
            , ("usersync", .obj [("type", .obj [("redirect", .null)]), ("url", .null)]) ]
        , .arr [.str "b", .bool true, .null, .null, .null] ])
    , ("event", .str "/cookie_sync") ]

theorem cookieSync_recordedApart_twoBidders :
    ∃ elements, ReportsSync twoBidders elements ∧ RecordedApart twoBidders elements := by
  have hreports : ReportsSync twoBidders _ :=
    ⟨unrepeated_of_arranged (by decide), rfl, rfl⟩
  exact ⟨_, hreports, cookieSync_recordedApart.1 _ _ hreports⟩

end AuctionLog
