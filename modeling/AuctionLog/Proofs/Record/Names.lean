import AuctionLog.Proofs.Json.Table
import AuctionLog.LogRecord

/-!
# The names in a record

A record lists its members in the order in which they are declared: its type, what is told of the
request, and the facts of its group. Absent members leave no gap and nothing else is ever listed, so
the names that a record has are a selection from the declared ones.
-/

namespace AuctionLog

open Json

/-- What a record can tell of a request, in order. -/
def RequestView.names : List String :=
  ["headers", "queryParams", "remoteHost", "httpMethod", "absoluteUri", "scheme", "body",
    "refererHeader", "userAgent"]

/-- The facts that a record from an endpoint can tell, in order. -/
def Facts.names : Endpoint → List String
  | .auction | .video => ["bidRequest", "bidResponse"]
  | .amp => ["bidRequest", "bidResponse", "targeting", "origin"]
  | .cookieSync => ["bidderStatus"]
  | .setuid => ["bidder", "uid", "success"]
  | .notification => ["bidId", "timestamp", "notificationType", "bidder", "integration"]
  | .unknown => ["unknownEvent"]

/-- All that a record from an endpoint can list, in order. -/
def LogRecord.names (endpoint : Endpoint) : List String :=
  "type" :: (RequestView.names ++ Facts.names endpoint)

theorem LogRecord.nodup_names (endpoint : Endpoint) : (names endpoint).Nodup := by
  cases endpoint <;> decide

theorem RequestView.names_members (view : RequestView) :
    (view.members.map (·.1)).Sublist names := by
  have hrest := Table.names_members
    [ ("remoteHost", view.remoteHost.map .str)
    , ("httpMethod", view.httpMethod.map .str)
    , ("absoluteUri", view.absoluteUri.map .str)
    , ("scheme", view.scheme.map .str)
    , ("body", view.body.map .str)
    , ("refererHeader", view.refererHeader.map .str)
    , ("userAgent", view.userAgent.map .str) ]
  simp only [members, Table.member?_eq_members, ← Table.members_append, List.cons_append,
    List.nil_append, List.map_cons]
  exact (hrest.cons_cons "queryParams").cons_cons "headers"

theorem Facts.names_members (facts : Facts) :
    (facts.members.map (·.1)).Sublist (names facts.endpoint) := by
  cases facts with
  | auction facts | video facts =>
      simp only [members, AuctionFacts.members, Table.member?_eq_members, ← Table.members_append]
      exact Table.names_members _
  | amp facts =>
      simp only [members, AmpFacts.members, AuctionFacts.members, Table.member?_eq_members,
        ← Table.members_append]
      exact Table.names_members _
  | cookieSync statuses => exact List.Sublist.refl _
  | setuid facts =>
      simp only [members, UidFacts.members, Table.member?_eq_members, ← Table.members_append]
      exact Table.names_members _
  | notification facts =>
      simp only [members, NoticeFacts.members, Table.member?_eq_members, ← Table.members_append]
      exact Table.names_members _
  | unknown kept =>
      simp only [members, Table.member?_eq_members]
      exact Table.names_members _

/-- **A record lists declared names in their order.** -/
theorem LogRecord.names_members (record : LogRecord) :
    (record.members.map (·.1)).Sublist (names record.endpoint) := by
  have hrequest : (((record.request.map (·.members)).getD []).map (·.1)).Sublist
      RequestView.names := by
    cases record.request with
    | none => exact List.nil_sublist _
    | some view => exact view.names_members
  rw [members, List.map_cons, List.map_append]
  exact (hrequest.append record.facts.names_members).cons_cons "type"

theorem LogRecord.nodup_members (record : LogRecord) : (record.members.map (·.1)).Nodup :=
  record.names_members.nodup (nodup_names _)

theorem LogRecord.members_eq (record : LogRecord) :
    ∃ rest, record.members = ("type", .str record.endpoint.path) :: rest ∧
      ∀ member ∈ rest, member.1 ≠ "type" := by
  refine ⟨_, rfl, ?_⟩
  intro member hmem htype
  have hnodup := record.nodup_members
  rw [members, List.map_cons, List.nodup_cons] at hnodup
  exact hnodup.1 (List.mem_map.mpr ⟨member, hmem, htype⟩)

/-! ## Members by name -/

section

variable {name : String} {value : Json}

theorem Json.mem_member?_iff {held : Option Json} {member : String × Json} :
    member ∈ member? name held ↔ member.1 = name ∧ held = some member.2 := by
  obtain ⟨other, value⟩ := member
  cases held with
  | none => simp [member?]
  | some kept => simp [member?, eq_comm]

theorem Facts.mem_names_of_mem {facts : Facts} (hmem : (name, value) ∈ facts.members) :
    name ∈ names facts.endpoint :=
  (names_members facts).subset (List.mem_map_of_mem hmem)

/-- No fact has the name of anything that is told of a request. -/
theorem LogRecord.disjoint_names (endpoint : Endpoint) :
    ∀ name ∈ RequestView.names, name ∉ "type" :: Facts.names endpoint := by
  cases endpoint <;> decide

theorem LogRecord.mem_members_iff {record : LogRecord} :
    (name, value) ∈ record.members ↔
      (name = "type" ∧ value = .str record.endpoint.path) ∨
        (∃ view ∈ record.request, (name, value) ∈ view.members) ∨
          (name, value) ∈ record.facts.members := by
  rw [members, List.mem_cons, List.mem_append, Prod.mk.injEq]
  cases record.request <;> simp

theorem LogRecord.texts_of_mem {record : LogRecord} (hname : name ∈ ["headers", "queryParams"])
    (hmem : (name, value) ∈ record.members) :
    ∃ view ∈ record.request,
      (name = "headers" ∧ value = NamedValues.textMembers view.headers) ∨
        (name = "queryParams" ∧ value = NamedValues.textMembers view.queryParams) := by
  have htold : name ∈ RequestView.names := by
    have hsublist : ["headers", "queryParams"].Sublist RequestView.names := by decide
    exact hsublist.subset hname
  have hother := disjoint_names record.facts.endpoint name htold
  rcases mem_members_iff.mp hmem with ⟨rfl, -⟩ | ⟨view, hview, hmem⟩ | hmem
  · exact absurd (List.mem_cons_self ..) hother
  · refine ⟨view, hview, ?_⟩
    have hcases : name = "headers" ∨ name = "queryParams" := by simpa using hname
    rcases hcases with rfl | rfl
    · left
      simpa [RequestView.members, mem_member?_iff] using hmem
    · right
      simpa [RequestView.members, mem_member?_iff] using hmem
  · exact absurd (List.mem_cons_of_mem _ (Facts.mem_names_of_mem hmem)) hother

/-- The targeting of a record, if its facts have one. -/
def Facts.targeting? : Facts → Option (List (String × String))
  | .amp facts => facts.targeting
  | _ => none

theorem Facts.targeting_of_mem {facts : Facts} (hmem : ("targeting", value) ∈ facts.members) :
    ∃ entries ∈ facts.targeting?, value = NamedValues.textMembers entries := by
  cases facts with
  | amp facts =>
      have htargeting : ∃ entries, facts.targeting = some entries ∧
          NamedValues.textMembers entries = value := by
        simpa [members, AmpFacts.members, AuctionFacts.members, mem_member?_iff] using hmem
      obtain ⟨entries, hentries, rfl⟩ := htargeting
      exact ⟨entries, hentries, rfl⟩
  | _ => exact absurd (mem_names_of_mem hmem) (by simp [names, endpoint])

theorem LogRecord.targeting_of_mem {record : LogRecord}
    (hmem : ("targeting", value) ∈ record.members) :
    ∃ entries ∈ record.facts.targeting?, value = NamedValues.textMembers entries := by
  rcases mem_members_iff.mp hmem with ⟨htype, -⟩ | ⟨view, -, hmem⟩ | hmem
  · exact absurd htype (by decide)
  · have hname : "targeting" ∈ RequestView.names :=
      (RequestView.names_members view).subset (List.mem_map_of_mem hmem)
    exact absurd hname (by decide)
  · exact Facts.targeting_of_mem hmem

end

end AuctionLog
