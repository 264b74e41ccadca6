import AuctionLog.Proofs.Record.Reference
import AuctionLog.Proofs.Summary.Listed

/-!
# Summaries that are summarized again

The object that a summary is written as is a payload like any other. It holds nothing but members
that a summary keeps, each in the one spelling that summaries have for it, so that summarizing it
comes to the same summary.
-/

namespace AuctionLog

open Json

variable {ρ : Type}

/-! ## What is written of a member -/

namespace Rule

/-- How what is recorded of a member is written, if anything is. -/
def written : (rule : Rule) → Option rule.Told → Option Json
  | .text, told => told.map .str
  | .integer, told => told.map (.num <| .ofInt32 ·)
  | .list, told => told.map .arr
  | .texts, told => told.map (.arr <| ·.map .str)
  | .any, told => told

/-- Whether a value is in the one spelling that summaries have for it. -/
def Shows : Rule → Json → Prop
  | .text, value => ∃ text, value = .str text
  | .integer, value => ∃ whole : Int32, value = .num (.ofInt32 whole)
  | .list, value => ∃ items, value = .arr items
  | .texts, value => ∃ texts : List String, value = .arr (texts.map .str)
  | .any, value => value ≠ .null

variable {rule : Rule} {given : Option Json} {told : Option rule.Told}

/-- What is recorded of a member is recorded again of what is written of it. -/
theorem Records.again (hrecords : rule.Records given told) :
    rule.Records (rule.written told) told := by
  cases hrecords with
  | absent | null => cases rule <;> exact .absent
  | @value value told hnull htells =>
      cases rule with
      | text => exact .value nofun (.text told)
      | integer => exact .value nofun (.int told.toInt _ _)
      | list | texts => exact .value nofun rfl
      | any =>
          obtain rfl : value = told := htells
          exact .value hnull rfl

theorem Records.shows (hrecords : rule.Records given told) :
    ∀ value ∈ rule.written told, value ≠ .null ∧ rule.Shows value := by
  intro value hvalue
  cases hrecords with
  | absent | null => cases rule <;> exact absurd hvalue nofun
  | @value held told hnull htells =>
      cases rule with
      | text | integer | list | texts =>
          obtain rfl := Option.mem_some.mp hvalue
          exact ⟨nofun, told, rfl⟩
      | any =>
          obtain rfl := Option.mem_some.mp hvalue
          obtain rfl : held = told := htells
          exact ⟨hnull, hnull⟩

theorem Records.arranged (hrecords : rule.Records given told)
    (hgiven : ∀ value ∈ given, value.arranged = value) :
    ∀ value ∈ rule.written told, value.arranged = value := by
  intro value hvalue
  cases hrecords with
  | absent | null => cases rule <;> exact absurd hvalue nofun
  | @value held told hnull htells =>
      cases rule with
      | text | integer =>
          obtain rfl := Option.mem_some.mp hvalue
          rfl
      | list | any =>
          obtain rfl := Option.mem_some.mp hvalue
          exact htells ▸ hgiven held rfl
      | texts =>
          obtain rfl := Option.mem_some.mp hvalue
          obtain rfl : held = .arr (told.map .str) := htells
          exact hgiven _ rfl

end Rule

/-- Whether the entry of a table is what is written of a member that there is a rule for. -/
def WrittenByRule (rules : List (String × Rule)) (members : Members)
    (entry : String × Option Json) : Prop :=
  ∃ rule told, (entry.1, rule) ∈ rules ∧ Rule.Records rule (Members.get? members entry.1) told ∧
    entry.2 = rule.written told

namespace Rule.Records

variable {rule : Rule} {given : Option Json} {told : Option rule.Told} {name : String}

theorem writtenByRule {rules : List (String × Rule)} {members : Members}
    (hrecords : rule.Records (Members.get? members name) told) (hrule : (name, rule) ∈ rules) :
    WrittenByRule rules members (name, rule.written told) :=
  ⟨rule, told, hrule, hrecords, rfl⟩

theorem again_of_lookup {table : Table} (hrecords : rule.Records given told)
    (hsorted : table.Sorted) (hlookup : table.lookup name = some (rule.written told)) :
    rule.Records (Members.get? table.members name) told := by
  rw [hsorted.get?_members hlookup]
  exact hrecords.again

end Rule.Records

/-! ## Summaries as payloads -/

/-- Whether a value is an object of members that there are rules for, none of them null and each in
the spelling that summaries have for it. -/
def Sanitized (rules : List (String × Rule)) (value : Json) : Prop :=
  ∃ members, value = .obj members ∧ (members.map (·.1)).Nodup ∧
    (∀ member ∈ members, member.1 ∈ rules.map (·.1)) ∧
    ∀ entry ∈ rules, ∀ held ∈ Members.get? members entry.1, held ≠ .null ∧ entry.2.Shows held

/-- Whether every summary of a payload is written as a sanitized object, of which it is the summary
again. -/
def Resummarized (rules : List (String × Rule)) (toJson : ρ → Json)
    (summaryOf : Option Json → Except PayloadFault (Option ρ)) (payload : Json) : Prop :=
  ∀ summary, summaryOf (some payload) = .ok (some summary) →
    summaryOf (some (toJson summary).arranged) = .ok (some summary) ∧
      Sanitized rules (toJson summary).arranged

theorem Json.Table.Sorted.nodup_members {table : Table} (hsorted : table.Sorted) :
    (table.members.map (·.1)).Nodup :=
  List.pairwise_map.mpr (hsorted.members.imp ne_of_lt)

section Written

variable {rules : List (String × Rule)} {members : Members} {table : Table}

theorem sanitized_table (hrules : (rules.map (·.1)).Nodup) (hsorted : table.Sorted)
    (hwritten : ∀ entry ∈ table, WrittenByRule rules members entry) :
    Sanitized rules (.obj table.members) := by
  have hruled : ∀ {name value}, (name, value) ∈ table.members →
      ∃ rule, (name, rule) ∈ rules ∧ value ≠ .null ∧ rule.Shows value := by
    intro name value hmem
    obtain ⟨rule, told, hrule, hrecords, hvalue⟩ := hwritten _ (Table.mem_members.mp hmem)
    exact ⟨rule, hrule, hrecords.shows value hvalue.symm⟩
  refine ⟨table.members, rfl, hsorted.nodup_members, ?_, ?_⟩
  · intro member hmem
    obtain ⟨rule, hrule, -⟩ := hruled hmem
    exact List.mem_map_of_mem hrule
  · rintro ⟨name, rule⟩ hentry value hvalue
    obtain ⟨other, hother, hshows⟩ := hruled (Members.mem_of_get? hvalue)
    obtain ⟨-, rfl⟩ := Prod.mk.inj (List.inj_on_of_nodup_map hrules hentry hother rfl)
    exact hshows

theorem arranged_table (hsorted : table.Sorted)
    (hmembers : ∀ member ∈ members, member.2.arranged = member.2)
    (hwritten : ∀ entry ∈ table, WrittenByRule rules members entry) :
    (Json.obj table.members).arranged = .obj table.members := by
  refine arranged_obj_iff.mpr ⟨hsorted.members, fun member hmem => ?_⟩
  obtain ⟨rule, told, -, hrecords, hvalue⟩ := hwritten _ (Table.mem_members.mp hmem)
  exact hrecords.arranged (fun value hgiven => hmembers _ (Members.mem_of_get? hgiven)) member.2
    hvalue.symm

end Written

/-- What is so of the summaries of either kind: their fields are read by rules, and each is written
as a table of what the rules write of the members that it was made from. -/
structure WritesByRules (rules : List (String × Rule)) (fields : List (Field ρ)) (empty : ρ)
    (Projects : Members → ρ → Prop) (tableOf : ρ → Table) (toJson : ρ → Json) : Prop where
  independent : Independent fields
  listed : ∀ field ∈ fields.getLast?, field.presence ≠ .defaulted
  ruled : List.Forall₂ Field.RuledBy fields rules
  distinct : (rules.map (·.1)).Nodup
  projects_iff : ∀ members record,
    Decoder.fill (Members.get? members) fields empty = .ok record ↔ Projects members record
  sorted : ∀ record, (tableOf record).Sorted
  written : ∀ {members record}, Projects members record →
    ∀ entry ∈ tableOf record, WrittenByRule rules members entry
  again : ∀ {members record}, Projects members record → Projects (tableOf record).members record
  same : ∀ record, Same (toJson record) (.obj (tableOf record).members)

namespace WritesByRules

variable {rules : List (String × Rule)} {fields : List (Field ρ)} {empty summary : ρ}
  {Projects : Members → ρ → Prop} {tableOf : ρ → Table} {toJson : ρ → Json} {payload : Json}
  {kind : Payload} {type : String}
  (hwrites : WritesByRules rules fields empty Projects tableOf toJson)
include hwrites

/-- A payload that has a summary gives the members of it, by name or by place. -/
theorem exists_projects (harranged : payload.arranged = payload)
    (hsummary : summarize kind (.record type fields empty) (some payload) = .ok (some summary)) :
    ∃ members, (∀ member ∈ members, member.2.arranged = member.2) ∧ Projects members summary := by
  by_cases hobject : ∃ members, payload = .obj members
  · obtain ⟨members, rfl⟩ := hobject
    obtain ⟨hsorted, hmembers⟩ := arranged_obj_iff.mp harranged
    have hdistinct : (members.map (·.1)).Nodup := List.pairwise_map.mpr (hsorted.imp ne_of_lt)
    have hprojected := projected_summary kind type hwrites.independent hwrites.ruled
      (hwrites.projects_iff members) hdistinct
    obtain ⟨record, hrecord, hprojects⟩ := (hprojected.projected _).mp hsummary
    obtain rfl := Option.some.inj hrecord
    exact ⟨members, hmembers, hprojects⟩
  · have hnull : payload ≠ .null := by
      rintro rfl
      exact absurd hsummary nofun
    have hlisted := refused_unless_listed kind type hwrites.independent hwrites.listed hwrites.ruled
      hwrites.projects_iff hnull (not_exists.mp hobject)
    obtain ⟨record, hrecord, items, rfl, -, hprojects⟩ := (hlisted.listed _).mp hsummary
    obtain rfl := Option.some.inj hrecord
    refine ⟨_, fun member hmem => ?_, hprojects⟩
    exact arranged_arr_iff.mp harranged member.2 (List.of_mem_zip hmem).2

theorem summarize_table (hagain : Projects (tableOf summary).members summary) :
    summarize kind (.record type fields empty) (some (.obj (tableOf summary).members)) =
      .ok (some summary) := by
  have hprojected := projected_summary kind type hwrites.independent hwrites.ruled
    (hwrites.projects_iff (tableOf summary).members) (hwrites.sorted summary).nodup_members
  exact (hprojected.projected _).mpr ⟨summary, rfl, hagain⟩

/-- **A summary is one of itself**, as each entry of its table is what is written of a member, and
is there under the name of that member. -/
theorem resummarized (harranged : payload.arranged = payload) :
    Resummarized rules toJson (summarize kind (.record type fields empty)) payload := by
  intro summary hsummary
  obtain ⟨members, hmembers, hprojects⟩ := hwrites.exists_projects harranged hsummary
  have hwritten := hwrites.written hprojects
  have htable := arranged_table (hwrites.sorted summary) hmembers hwritten
  rw [(hwrites.same summary).1, htable]
  exact ⟨hwrites.summarize_table (hwrites.again hprojects),
    sanitized_table hwrites.distinct (hwrites.sorted summary) hwritten⟩

end WritesByRules

/-! ## Bid requests -/

namespace BidRequest

variable {members : Members} {request : BidRequest}

/-- Of the object that it is written as, a bid request records itself. -/
theorem Projects.again (hprojects : Projects members request) :
    Projects request.table.members request := by
  have hsorted := request.sorted_table
  exact ⟨hprojects.id.again_of_lookup hsorted rfl, hprojects.imp.again_of_lookup hsorted rfl,
    hprojects.site.again_of_lookup hsorted rfl, hprojects.app.again_of_lookup hsorted rfl,
    hprojects.device.again_of_lookup hsorted rfl, hprojects.user.again_of_lookup hsorted rfl,
    hprojects.test.again_of_lookup hsorted rfl, hprojects.auctionType.again_of_lookup hsorted rfl,
    hprojects.tmax.again_of_lookup hsorted rfl, hprojects.cur.again_of_lookup hsorted rfl,
    hprojects.bcat.again_of_lookup hsorted rfl, hprojects.badv.again_of_lookup hsorted rfl,
    hprojects.bapp.again_of_lookup hsorted rfl, hprojects.source.again_of_lookup hsorted rfl,
    hprojects.regs.again_of_lookup hsorted rfl, hprojects.metric.again_of_lookup hsorted rfl,
    hprojects.ext.again_of_lookup hsorted rfl⟩

theorem Projects.writtenByRule_table (hprojects : Projects members request) :
    ∀ entry ∈ request.table, WrittenByRule rules members entry := by
  simp only [table, List.forall_mem_cons]
  exact ⟨hprojects.app.writtenByRule (by decide), hprojects.auctionType.writtenByRule (by decide),
    hprojects.badv.writtenByRule (by decide), hprojects.bapp.writtenByRule (by decide),
    hprojects.bcat.writtenByRule (by decide), hprojects.cur.writtenByRule (by decide),
    hprojects.device.writtenByRule (by decide), hprojects.ext.writtenByRule (by decide),
    hprojects.id.writtenByRule (by decide), hprojects.imp.writtenByRule (by decide),
    hprojects.metric.writtenByRule (by decide), hprojects.regs.writtenByRule (by decide),
    hprojects.site.writtenByRule (by decide), hprojects.source.writtenByRule (by decide),
    hprojects.test.writtenByRule (by decide), hprojects.tmax.writtenByRule (by decide),
    hprojects.user.writtenByRule (by decide), List.forall_mem_nil _⟩

theorem writesByRules : WritesByRules rules fields {} Projects table toJson where
  independent := independent
  listed := by simp [fields, Field.optional]
  ruled := fields_ruled
  distinct := by decide
  projects_iff := fill_iff_projects
  sorted := sorted_table
  written := Projects.writtenByRule_table
  again := Projects.again
  same := same_reference

end BidRequest

/-! ## Bid responses -/

namespace BidResponse

variable {members : Members} {response : BidResponse}

/-- Of the object that it is written as, a bid response records itself. -/
theorem Projects.again (hprojects : Projects members response) :
    Projects response.table.members response := by
  have hsorted := response.sorted_table
  exact ⟨hprojects.id.again_of_lookup hsorted rfl, hprojects.seatbid.again_of_lookup hsorted rfl,
    hprojects.bidid.again_of_lookup hsorted rfl, hprojects.cur.again_of_lookup hsorted rfl,
    hprojects.customdata.again_of_lookup hsorted rfl, hprojects.nbr.again_of_lookup hsorted rfl,
    hprojects.ext.again_of_lookup hsorted rfl⟩

theorem Projects.writtenByRule_table (hprojects : Projects members response) :
    ∀ entry ∈ response.table, WrittenByRule rules members entry := by
  simp only [table, List.forall_mem_cons]
  exact ⟨hprojects.bidid.writtenByRule (by decide), hprojects.cur.writtenByRule (by decide),
    hprojects.customdata.writtenByRule (by decide), hprojects.ext.writtenByRule (by decide),
    hprojects.id.writtenByRule (by decide), hprojects.nbr.writtenByRule (by decide),
    hprojects.seatbid.writtenByRule (by decide), List.forall_mem_nil _⟩

theorem writesByRules : WritesByRules rules fields {} Projects table toJson where
  independent := independent
  listed := by simp [fields, Field.optional]
  ruled := fields_ruled
  distinct := by decide
  projects_iff := fill_iff_projects
  sorted := sorted_table
  written := Projects.writtenByRule_table
  again := Projects.again
  same := same_reference

end BidResponse

/-- **Summarizing is idempotent**: whatever a payload is, its summary is written as an object of
allow-listed members in their own spellings, and the summary of that object is the same again. -/
theorem summaries_idempotent (payload : Json) (harranged : payload.arranged = payload) :
    Resummarized BidRequest.rules BidRequest.toJson BidRequest.ofPayload payload ∧
      Resummarized BidResponse.rules BidResponse.toJson BidResponse.ofPayload payload :=
  ⟨BidRequest.writesByRules.resummarized harranged,
    BidResponse.writesByRules.resummarized harranged⟩

/-- Of the members in other spellings, the summaries are written in their own ones. -/
theorem summaries_idempotent_respelled :
    (Json.obj respelled).arranged = .obj respelled ∧
      BidRequest.ofPayload (some (.obj respelled)) =
        .ok (some { id := some "7", auctionType := some 2 }) ∧
      BidRequest.ofPayload (some (.obj [("at", .num (.ofInt32 2)), ("id", .str "7")])) =
        .ok (some { id := some "7", auctionType := some 2 }) := by
  have harranged : (Json.obj respelled).arranged = .obj respelled := by decide
  have hsummary : BidRequest.ofPayload (some (.obj respelled)) =
      .ok (some { id := some "7", auctionType := some 2 }) := by
    rfl
  obtain ⟨hagain, -⟩ := (summaries_idempotent _ harranged).1 _ hsummary
  exact ⟨harranged, hsummary, hagain⟩

end AuctionLog
