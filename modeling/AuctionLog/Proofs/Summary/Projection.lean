import AuctionLog.Proofs.Decoder.Given
import AuctionLog.Proofs.Summary.Rule

/-!
# Summaries as projections

A summary keeps some members of a payload and asks of each what its rule says. An object is
summarized exactly if all these members are as asked for, whatever else it holds, and its summary
records each of them as its rule does. Otherwise the fault names the summary, and it is about the
first member that is not as asked for.
-/

namespace AuctionLog

open Json

variable {ρ : Type}

/-! ## Fields that follow rules -/

/-- Whether a field puts what a rule records of its member into a record. -/
def Field.Puts (field : Field ρ) (rule : Rule) (put : ρ → Option rule.Told → ρ) : Prop :=
  ∃ decoder, Decoder.Follows rule decoder ∧
    field.decoder = decoder.map fun told record => put record told

/-- Whether a field is the one that a rule by name is for. -/
def Field.RuledBy (field : Field ρ) (entry : String × Rule) : Prop :=
  field.name = entry.1 ∧ ∃ put, field.Puts entry.2 put

namespace Field

variable {rule : Rule} {put : ρ → Option rule.Told → ρ} {name : String}

theorem puts_optional {decoder : Decoder rule.Told} (hfollows : decoder.optional.Follows rule) :
    (Field.optional name decoder put).Puts rule put :=
  ⟨_, hfollows, rfl⟩

theorem puts_defaulted {decoder : Decoder (Option rule.Told)} (hfollows : decoder.Follows rule) :
    (Field.defaulted name decoder put).Puts rule put :=
  ⟨_, hfollows, rfl⟩

variable {field : Field ρ} {value : Json} {mismatch : Mismatch}

theorem Puts.ofJson_eq_ok_iff (hputs : field.Puts rule put) {update : ρ → ρ} :
    field.decoder.ofJson value = .ok update ↔
      ∃ told, rule.Records (some value) told ∧ (fun record => put record told) = update := by
  obtain ⟨decoder, hfollows, hdecoder⟩ := hputs
  rw [hdecoder, Decoder.map_eq_ok_iff]
  simp only [hfollows.records]

theorem Puts.accepts_iff (hputs : field.Puts rule put) :
    (∃ update, field.decoder.ofJson value = .ok update) ↔ rule.Accepts value := by
  simp only [hputs.ofJson_eq_ok_iff, Rule.accepts_iff_records]
  constructor
  · rintro ⟨_, told, htold, rfl⟩
    exact ⟨told, htold⟩
  · rintro ⟨told, htold⟩
    exact ⟨_, told, htold, rfl⟩

theorem Puts.refuses (hputs : field.Puts rule put)
    (hread : field.decoder.ofJson value = .error mismatch) : rule.Refuses value mismatch := by
  obtain ⟨decoder, hfollows, hdecoder⟩ := hputs
  rw [hdecoder, Decoder.map_eq_error_iff] at hread
  exact hfollows.refuses value mismatch hread

theorem Puts.fill_cons (hputs : field.Puts rule put) {given : String → Option Json}
    {fields : List (Field ρ)} {record result : ρ} (hunset : put record none = record) :
    Decoder.fill given (field :: fields) record = .ok result ↔
      ∃ told, rule.Records (given field.name) told ∧
        Decoder.fill given fields (put record told) = .ok result := by
  obtain ⟨decoder, hfollows, hdecoder⟩ := hputs
  refine Decoder.fill_cons_iff hdecoder hunset (fun told => ?_)
    fun value _ => hfollows.records value
  exact ⟨fun habsent => by cases habsent; rfl, fun hnone => hnone ▸ .absent⟩

theorem fill_optional {decoder : Decoder rule.Told} (hfollows : decoder.optional.Follows rule)
    {given : String → Option Json} {fields : List (Field ρ)} {record result : ρ}
    (hunset : put record none = record) :
    Decoder.fill given (.optional name decoder put :: fields) record = .ok result ↔
      ∃ told, rule.Records (given name) told ∧
        Decoder.fill given fields (put record told) = .ok result :=
  (puts_optional hfollows).fill_cons hunset

theorem fill_defaulted {decoder : Decoder (Option rule.Told)} (hfollows : decoder.Follows rule)
    {given : String → Option Json} {fields : List (Field ρ)} {record result : ρ}
    (hunset : put record none = record) :
    Decoder.fill given (.defaulted name decoder put :: fields) record = .ok result ↔
      ∃ told, rule.Records (given name) told ∧
        Decoder.fill given fields (put record told) = .ok result :=
  (puts_defaulted hfollows).fill_cons hunset

end Field

/-! ## Payloads that are summarized -/

/-- Whether the summary of an object is what rules for its members make of it. -/
structure Projected (name : String) (rules : List (String × Rule)) (Projects : Members → ρ → Prop)
    (members : Members) (summary : Except PayloadFault (Option ρ)) : Prop where
  accepted : (∃ told, summary = .ok told) ↔
    ∀ entry ∈ rules, ∀ value ∈ Members.get? members entry.1, entry.2.Accepts value
  projected : ∀ told, summary = .ok told ↔ ∃ record, told = some record ∧ Projects members record
  refused : ∀ fault, summary = .error fault → fault.payload.summaryName = name ∧
    ∃ before value after entry, members = before ++ (entry.1, value) :: after ∧ entry ∈ rules ∧
      entry.2.Refuses value fault.mismatch ∧
      ∀ earlier ∈ before, ∀ entry ∈ rules, entry.1 = earlier.1 → entry.2.Accepts earlier.2

section Summarized

variable {payload : Payload} {type : String} {fields : List (Field ρ)}
  {rules : List (String × Rule)} {empty : ρ} {members : Members}

theorem summarize_of_ne_null {decoder : Decoder ρ} {value : Json} (hnull : value ≠ .null) :
    summarize payload decoder (some value) =
      match decoder.ofJson value with
      | .ok summary => .ok (some summary)
      | .error mismatch => .error ⟨payload, mismatch⟩ := by
  cases value with
  | null => exact absurd rfl hnull
  | _ => rfl

theorem summarize_eq_ok_iff {decoder : Decoder ρ} {value : Json} (hnull : value ≠ .null)
    {told : Option ρ} :
    summarize payload decoder (some value) = .ok told ↔
      ∃ record, told = some record ∧ decoder.ofJson value = .ok record := by
  rw [summarize_of_ne_null hnull]
  cases decoder.ofJson value <;> simp [eq_comm]

theorem mismatch_of_summarize {decoder : Decoder ρ} {value : Json} {fault : PayloadFault}
    (hfault : summarize payload decoder (some value) = .error fault) :
    fault.payload = payload ∧ decoder.ofJson value = .error fault.mismatch := by
  have hnull : value ≠ .null := by
    rintro rfl
    exact absurd hfault nofun
  rw [summarize_of_ne_null hnull] at hfault
  cases hread : decoder.ofJson value with
  | ok record => simp [hread] at hfault
  | error mismatch =>
      rw [hread] at hfault
      obtain rfl := Except.error.inj hfault
      exact ⟨rfl, rfl⟩

theorem payload_of_summarize {decoder : Decoder ρ} {value : Option Json} {fault : PayloadFault}
    (hfault : summarize payload decoder value = .error fault) : fault.payload = payload := by
  cases value with
  | none => exact absurd hfault nofun
  | some value => exact (mismatch_of_summarize hfault).1

theorem exists_mem_of_forall₂ {α β : Type} {R : α → β → Prop} {items : List α} {others : List β}
    (hrelated : List.Forall₂ R items others) {item : α} (hmem : item ∈ items) :
    ∃ other ∈ others, R item other := by
  induction hrelated with
  | nil => exact absurd hmem List.not_mem_nil
  | cons hhead _ ih =>
      rcases List.mem_cons.mp hmem with rfl | hmem
      · exact ⟨_, List.mem_cons_self .., hhead⟩
      · obtain ⟨other, hother, hrelated⟩ := ih hmem
        exact ⟨other, List.mem_cons_of_mem _ hother, hrelated⟩

theorem exists_field (hruled : List.Forall₂ Field.RuledBy fields rules) {entry : String × Rule}
    (hentry : entry ∈ rules) : ∃ field ∈ fields, field.RuledBy entry :=
  exists_mem_of_forall₂ hruled.flip hentry

/-- A value is given for all fields as their rules ask exactly if the record can be filled. -/
theorem exists_fill_iff_accepts (hruled : List.Forall₂ Field.RuledBy fields rules)
    (given : String → Option Json) (empty : ρ) :
    (∃ record, Decoder.fill given fields empty = .ok record) ↔
      ∀ entry ∈ rules, ∀ value ∈ given entry.1, entry.2.Accepts value := by
  rw [Decoder.exists_fill_iff]
  constructor
  · intro hread entry hentry value hvalue
    obtain ⟨field, hfield, hname, put, hputs⟩ := exists_field hruled hentry
    exact hputs.accepts_iff.mp (hread field hfield value (hname ▸ hvalue))
  · intro haccepts field hfield value hvalue
    obtain ⟨entry, hentry, hname, put, hputs⟩ := exists_mem_of_forall₂ hruled hfield
    exact hputs.accepts_iff.mpr (haccepts entry hentry value (hname ▸ hvalue))

theorem projected_summary (payload : Payload) (type : String) (hfields : Independent fields)
    (hruled : List.Forall₂ Field.RuledBy fields rules) {Projects : Members → ρ → Prop}
    (hprojects : ∀ record,
      Decoder.fill (Members.get? members) fields empty = .ok record ↔ Projects members record)
    (hdistinct : (members.map (·.1)).Nodup) :
    Projected payload.summaryName rules Projects members
      (summarize payload (.record type fields empty) (some (.obj members))) := by
  have hnull : Json.obj members ≠ .null := nofun
  have hprojected : ∀ told,
      summarize payload (.record type fields empty) (some (.obj members)) = .ok told ↔
        ∃ record, told = some record ∧ Projects members record := by
    intro told
    rw [summarize_eq_ok_iff hnull]
    refine exists_congr fun record => and_congr_right' ?_
    rw [← hprojects, ← Decoder.ofMembers_eq_ok_iff hfields (.start hdistinct)]
    rfl
  refine ⟨?_, hprojected, ?_⟩
  · rw [← exists_fill_iff_accepts hruled (Members.get? members) empty]
    simp only [hprojected, hprojects]
    constructor
    · rintro ⟨_, record, -, hrecord⟩
      exact ⟨record, hrecord⟩
    · rintro ⟨record, hrecord⟩
      exact ⟨some record, record, rfl, hrecord⟩
  · intro fault hfault
    obtain ⟨hpayload, hmismatch⟩ := mismatch_of_summarize hfault
    obtain ⟨before, value, after, field, hsplit, hfield, hvalue, hbefore⟩ :=
      Decoder.exists_first_of_ofMembers hfields (.start hdistinct) hmismatch
    obtain ⟨entry, hentry, hname, put, hputs⟩ := exists_mem_of_forall₂ hruled hfield
    refine ⟨congrArg Payload.summaryName hpayload, before, value, after, entry, hname ▸ hsplit,
      hentry, hputs.refuses hvalue, ?_⟩
    intro earlier hearlier other hother hsame
    obtain ⟨twin, htwin, htwinName, _, htwinPuts⟩ := exists_field hruled hother
    exact htwinPuts.accepts_iff.mp (hbefore earlier hearlier twin htwin (htwinName.trans hsame))

end Summarized

/-! ## Bid requests -/

namespace BidRequest

/-- The members of a bid request that are kept, with what is asked of each. -/
def rules : List (String × Rule) :=
  [ ("id", .text), ("imp", .list), ("site", .any), ("app", .any), ("device", .any), ("user", .any)
  , ("test", .integer), ("at", .integer), ("tmax", .integer), ("cur", .texts), ("bcat", .texts)
  , ("badv", .texts), ("bapp", .texts), ("source", .any), ("regs", .any), ("metric", .list)
  , ("ext", .any) ]

/-- Whether a bid request records what its members come to. -/
structure Projects (members : Members) (request : BidRequest) : Prop where
  id : Rule.text.Records (Members.get? members "id") request.id
  imp : Rule.list.Records (Members.get? members "imp") request.imp
  site : Rule.any.Records (Members.get? members "site") request.site
  app : Rule.any.Records (Members.get? members "app") request.app
  device : Rule.any.Records (Members.get? members "device") request.device
  user : Rule.any.Records (Members.get? members "user") request.user
  test : Rule.integer.Records (Members.get? members "test") request.test
  auctionType : Rule.integer.Records (Members.get? members "at") request.auctionType
  tmax : Rule.integer.Records (Members.get? members "tmax") request.tmax
  cur : Rule.texts.Records (Members.get? members "cur") request.cur
  bcat : Rule.texts.Records (Members.get? members "bcat") request.bcat
  badv : Rule.texts.Records (Members.get? members "badv") request.badv
  bapp : Rule.texts.Records (Members.get? members "bapp") request.bapp
  source : Rule.any.Records (Members.get? members "source") request.source
  regs : Rule.any.Records (Members.get? members "regs") request.regs
  metric : Rule.list.Records (Members.get? members "metric") request.metric
  ext : Rule.any.Records (Members.get? members "ext") request.ext

theorem independent : Independent fields := by
  simp [fields, Field.optional, Field.defaulted]

theorem fields_ruled : List.Forall₂ Field.RuledBy fields rules := by
  simp only [fields, rules, List.forall₂_cons, Field.RuledBy]
  and_intros
  all_goals first
    | rfl
    | exact ⟨_, Field.puts_defaulted .text⟩
    | exact ⟨_, Field.puts_defaulted .integer⟩
    | exact ⟨_, Field.puts_optional .list⟩
    | exact ⟨_, Field.puts_optional .texts⟩
    | exact ⟨_, Field.puts_optional .any⟩
    | exact .nil

theorem fill_iff_projects (members : Members) (request : BidRequest) :
    Decoder.fill (Members.get? members) fields {} = .ok request ↔ Projects members request := by
  simp only [fields, Field.fill_defaulted .text, Field.fill_defaulted .integer,
    Field.fill_optional .list, Field.fill_optional .texts, Field.fill_optional .any,
    Decoder.fill_nil, Except.ok.injEq]
  constructor
  · rintro ⟨_, hid, _, himp, _, hsite, _, happ, _, hdevice, _, huser, _, htest, _, hauctionType,
      _, htmax, _, hcur, _, hbcat, _, hbadv, _, hbapp, _, hsource, _, hregs, _, hmetric, _, hext,
      rfl⟩
    exact ⟨hid, himp, hsite, happ, hdevice, huser, htest, hauctionType, htmax, hcur, hbcat, hbadv,
      hbapp, hsource, hregs, hmetric, hext⟩
  · rintro ⟨hid, himp, hsite, happ, hdevice, huser, htest, hauctionType, htmax, hcur, hbcat, hbadv,
      hbapp, hsource, hregs, hmetric, hext⟩
    exact ⟨_, hid, _, himp, _, hsite, _, happ, _, hdevice, _, huser, _, htest, _, hauctionType,
      _, htmax, _, hcur, _, hbcat, _, hbadv, _, hbapp, _, hsource, _, hregs, _, hmetric, _, hext,
      rfl⟩

end BidRequest

/-! ## Bid responses -/

namespace BidResponse

/-- The members of a bid response that are kept, with what is asked of each. -/
def rules : List (String × Rule) :=
  [ ("id", .text), ("seatbid", .list), ("bidid", .text), ("cur", .text), ("customdata", .text)
  , ("nbr", .integer), ("ext", .any) ]

/-- Whether a bid response records what its members come to. -/
structure Projects (members : Members) (response : BidResponse) : Prop where
  id : Rule.text.Records (Members.get? members "id") response.id
  seatbid : Rule.list.Records (Members.get? members "seatbid") response.seatbid
  bidid : Rule.text.Records (Members.get? members "bidid") response.bidid
  cur : Rule.text.Records (Members.get? members "cur") response.cur
  customdata : Rule.text.Records (Members.get? members "customdata") response.customdata
  nbr : Rule.integer.Records (Members.get? members "nbr") response.nbr
  ext : Rule.any.Records (Members.get? members "ext") response.ext

theorem independent : Independent fields := by
  simp [fields, Field.optional, Field.defaulted]

theorem fields_ruled : List.Forall₂ Field.RuledBy fields rules := by
  simp only [fields, rules, List.forall₂_cons, Field.RuledBy]
  and_intros
  all_goals first
    | rfl
    | exact ⟨_, Field.puts_defaulted .text⟩
    | exact ⟨_, Field.puts_defaulted .integer⟩
    | exact ⟨_, Field.puts_optional .list⟩
    | exact ⟨_, Field.puts_optional .any⟩
    | exact .nil

theorem fill_iff_projects (members : Members) (response : BidResponse) :
    Decoder.fill (Members.get? members) fields {} = .ok response ↔ Projects members response := by
  simp only [fields, Field.fill_defaulted .text, Field.fill_defaulted .integer,
    Field.fill_optional .list, Field.fill_optional .any, Decoder.fill_nil, Except.ok.injEq]
  constructor
  · rintro ⟨_, hid, _, hseatbid, _, hbidid, _, hcur, _, hcustomdata, _, hnbr, _, hext, rfl⟩
    exact ⟨hid, hseatbid, hbidid, hcur, hcustomdata, hnbr, hext⟩
  · rintro ⟨hid, hseatbid, hbidid, hcur, hcustomdata, hnbr, hext⟩
    exact ⟨_, hid, _, hseatbid, _, hbidid, _, hcur, _, hcustomdata, _, hnbr, _, hext, rfl⟩

end BidResponse

/-- **Objects are summarized by what their members come to**, those of bid requests and those of bid
responses alike. -/
theorem objects_projected (members : Members) (hdistinct : (members.map (·.1)).Nodup) :
    Projected "BidRequestSummary" BidRequest.rules BidRequest.Projects members
        (BidRequest.ofPayload (some (.obj members))) ∧
      Projected "BidResponseSummary" BidResponse.rules BidResponse.Projects members
        (BidResponse.ofPayload (some (.obj members))) := by
  constructor
  · exact projected_summary .bidRequest _ BidRequest.independent BidRequest.fields_ruled
      (BidRequest.fill_iff_projects members) hdistinct
  · exact projected_summary .bidResponse _ BidResponse.independent BidResponse.fields_ruled
      (BidResponse.fill_iff_projects members) hdistinct

/-- Members in other spellings than their summaries have, next to one that no summary has. -/
def respelled : Members :=
  [ ("at", .str " +2 "), ("extra", .bool true), ("id", .num (.int 7 (by decide) (by decide)))
  , ("nbr", .null) ]

theorem objects_projected_respelled :
    (respelled.map (·.1)).Nodup ∧
      Projected "BidRequestSummary" BidRequest.rules BidRequest.Projects respelled
        (.ok (some { id := some "7", auctionType := some 2 })) ∧
      Projected "BidResponseSummary" BidResponse.rules BidResponse.Projects respelled
        (.ok (some { id := some "7" })) := by
  have hdistinct : (respelled.map (·.1)).Nodup := by decide
  have hrequest : BidRequest.ofPayload (some (.obj respelled)) =
      .ok (some { id := some "7", auctionType := some 2 }) := by
    rfl
  have hresponse : BidResponse.ofPayload (some (.obj respelled)) =
      .ok (some { id := some "7" }) := by
    rfl
  obtain ⟨hprojectedRequest, hprojectedResponse⟩ := objects_projected respelled hdistinct
  exact ⟨hdistinct, hrequest ▸ hprojectedRequest, hresponse ▸ hprojectedResponse⟩

end AuctionLog
