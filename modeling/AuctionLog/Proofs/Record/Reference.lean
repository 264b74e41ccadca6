import AuctionLog.LogRecord
import AuctionLog.Proofs.Json.Table

/-!
# The reference object of a record

What a record should say, without regard to how its line is put together: each part is given by the
table of its names in order, and a record by the tables of its endpoint, its request and its event,
merged. The object that a line is written from lists its members in another order, but is otherwise
the same.
-/

namespace AuctionLog

open Json

def BidRequest.table (request : BidRequest) : Table :=
  [ ("app", request.app)
  , ("at", request.auctionType.map (.num <| .ofInt32 ·))
  , ("badv", request.badv.map (.arr <| ·.map .str))
  , ("bapp", request.bapp.map (.arr <| ·.map .str))
  , ("bcat", request.bcat.map (.arr <| ·.map .str))
  , ("cur", request.cur.map (.arr <| ·.map .str))
  , ("device", request.device)
  , ("ext", request.ext)
  , ("id", request.id.map .str)
  , ("imp", request.imp.map .arr)
  , ("metric", request.metric.map .arr)
  , ("regs", request.regs)
  , ("site", request.site)
  , ("source", request.source)
  , ("test", request.test.map (.num <| .ofInt32 ·))
  , ("tmax", request.tmax.map (.num <| .ofInt32 ·))
  , ("user", request.user) ]

def BidRequest.reference (request : BidRequest) : Json :=
  .obj request.table.members

def BidResponse.table (response : BidResponse) : Table :=
  [ ("bidid", response.bidid.map .str)
  , ("cur", response.cur.map .str)
  , ("customdata", response.customdata.map .str)
  , ("ext", response.ext)
  , ("id", response.id.map .str)
  , ("nbr", response.nbr.map (.num <| .ofInt32 ·))
  , ("seatbid", response.seatbid.map .arr) ]

def BidResponse.reference (response : BidResponse) : Json :=
  .obj response.table.members

def OfferFacts.table (facts : OfferFacts) : Table :=
  [ ("status", facts.status.map .str)
  , ("type", facts.type.map .str)
  , ("url", facts.url.map .str) ]

def SyncFacts.table (facts : SyncFacts) : Table :=
  [ ("bidder", facts.bidder.map .str)
  , ("error", facts.error.map .str)
  , ("noCookie", facts.noCookie.map .bool)
  , ("response_time_ms", facts.responseTimeMs.map (.num <| .ofUInt64 ·))
  , ("usersync", facts.usersync.map (.obj ·.table.members)) ]

/-- The table of the facts of an event, by the group that they belong to. -/
def Facts.table : Facts → Table
  | .auction facts | .video facts =>
      [ ("bidRequest", facts.bidRequest.map (·.reference))
      , ("bidResponse", facts.bidResponse.map (·.reference)) ]
  | .amp facts =>
      [ ("bidRequest", facts.auction.bidRequest.map (·.reference))
      , ("bidResponse", facts.auction.bidResponse.map (·.reference))
      , ("origin", facts.origin.map .str)
      , ("targeting", facts.targeting.map textsObject) ]
  | .cookieSync statuses => [("bidderStatus", some (.arr (statuses.map (.obj ·.table.members))))]
  | .setuid facts =>
      [ ("bidder", facts.bidder.map .str)
      , ("success", facts.success.map .bool)
      , ("uid", facts.uid.map .str) ]
  | .notification facts =>
      [ ("bidId", facts.bidId.map .str)
      , ("bidder", facts.bidder.map .str)
      , ("integration", facts.integration.map .str)
      , ("notificationType", facts.type.map .str)
      , ("timestamp", facts.timestamp.map (.num <| .ofInt64 ·)) ]
  | .unknown kept => [("unknownEvent", kept)]

def RequestView.table (view : RequestView) : Table :=
  [ ("absoluteUri", view.absoluteUri.map .str)
  , ("body", view.body.map .str)
  , ("headers", some (textsObject view.headers))
  , ("httpMethod", view.httpMethod.map .str)
  , ("queryParams", some (textsObject view.queryParams))
  , ("refererHeader", view.refererHeader.map .str)
  , ("remoteHost", view.remoteHost.map .str)
  , ("scheme", view.scheme.map .str)
  , ("userAgent", view.userAgent.map .str) ]

/-- The table of a record: its type, the request that the event was served over if there was one,
and the facts of the event. -/
def LogRecord.table (record : LogRecord) : Table :=
  Table.merge [("type", some (.str record.endpoint.path))]
    (Table.merge ((record.request.map (·.table)).getD []) record.facts.table)

/-- The object that a record should be written as. -/
def LogRecord.reference (record : LogRecord) : Json :=
  .obj record.table.members

/-! ## Order -/

theorem BidRequest.sorted_table (request : BidRequest) : request.table.Sorted := by
  simp only [Table.sorted_iff, table, List.map_cons, List.map_nil]
  decide

theorem BidResponse.sorted_table (response : BidResponse) : response.table.Sorted := by
  simp only [Table.sorted_iff, table, List.map_cons, List.map_nil]
  decide

theorem OfferFacts.sorted_table (facts : OfferFacts) : facts.table.Sorted := by
  simp only [Table.sorted_iff, table, List.map_cons, List.map_nil]
  decide

theorem SyncFacts.sorted_table (facts : SyncFacts) : facts.table.Sorted := by
  simp only [Table.sorted_iff, table, List.map_cons, List.map_nil]
  decide

theorem Facts.sorted_table (facts : Facts) : facts.table.Sorted := by
  cases facts <;> simp only [Table.sorted_iff, table, List.map_cons, List.map_nil] <;> decide

theorem RequestView.sorted_table (view : RequestView) : view.table.Sorted := by
  simp only [Table.sorted_iff, table, List.map_cons, List.map_nil]
  decide

/-- What is told of a request shares no name with what is told of any event. -/
theorem RequestView.disjoint_table (view : RequestView) (facts : Facts) :
    ∀ entry ∈ view.table, ∀ other ∈ facts.table, entry.1 ≠ other.1 := by
  suffices hnames : ∀ name ∈ view.table.map (·.1), name ∉ facts.table.map (·.1) by
    intro entry hentry other hother heq
    exact hnames _ (List.mem_map_of_mem hentry) (heq ▸ List.mem_map_of_mem hother)
  cases facts <;> simp only [table, Facts.table, List.map_cons, List.map_nil] <;> decide

/-- A record's own name is neither one of its request nor one of any event. -/
theorem Facts.type_notMem_table (facts : Facts) (request : Option RequestView) :
    ∀ entry ∈ ((request.map (·.table)).getD []) ++ facts.table, "type" ≠ entry.1 := by
  rw [List.forall_mem_append]
  constructor
  · cases request with
    | none => simp
    | some view => simp [RequestView.table]
  · cases facts <;> simp [table]

theorem LogRecord.sorted_table (record : LogRecord) : record.table.Sorted := by
  have hrequest : Table.Sorted ((record.request.map (·.table)).getD []) := by
    cases record.request with
    | none => exact List.Pairwise.nil
    | some view => exact view.sorted_table
  have hdisjoint : ∀ entry ∈ (record.request.map (·.table)).getD [],
      ∀ other ∈ record.facts.table, entry.1 ≠ other.1 := by
    cases record.request with
    | none => simp
    | some view => exact view.disjoint_table record.facts
  refine Table.Sorted.merge (List.pairwise_singleton ..)
    (hrequest.merge record.facts.sorted_table hdisjoint) fun entry hentry other hother => ?_
  obtain rfl := List.mem_singleton.mp hentry
  have hmem := (Table.merge_perm _ _).mem_iff.mp hother
  exact record.facts.type_notMem_table record.request other hmem

/-! ## The object of a line -/

theorem BidRequest.same_reference (request : BidRequest) :
    Same request.toJson request.reference := by
  refine Table.WrittenAs.same ?_ request.sorted_table
  simp only [members, Table.member?_eq_members, ← Table.members_append]
  refine .of_sort ?_
  simp [table, List.insertionSort, List.orderedInsert]

theorem BidResponse.same_reference (response : BidResponse) :
    Same response.toJson response.reference := by
  refine Table.WrittenAs.same ?_ response.sorted_table
  simp only [members, Table.member?_eq_members, ← Table.members_append]
  refine .of_sort ?_
  simp [table, List.insertionSort, List.orderedInsert]

theorem OfferFacts.same_table (facts : OfferFacts) :
    Same (.obj facts.members) (.obj facts.table.members) := by
  refine Table.WrittenAs.same ?_ facts.sorted_table
  simp only [members, Table.member?_eq_members, ← Table.members_append]
  refine .of_sort ?_
  simp [table, List.insertionSort, List.orderedInsert]

theorem SyncFacts.same_table (facts : SyncFacts) :
    Same (.obj facts.members) (.obj facts.table.members) := by
  refine Table.WrittenAs.same ?_ facts.sorted_table
  simp only [members, Table.member?_eq_members, ← Table.members_append, List.cons_append,
    List.nil_append]
  refine .of_alike (.keep <| .keep <| .change OfferFacts.same_table _ <| .refl _) ?_
  simp [table, List.insertionSort, List.orderedInsert]

theorem Facts.writtenAs (facts : Facts) : facts.table.WrittenAs facts.members := by
  cases facts with
  | auction facts | video facts =>
      simp only [members, AuctionFacts.members, Table.member?_eq_members, ← Table.members_append,
        List.cons_append, List.nil_append]
      refine .of_alike (.change BidRequest.same_reference _ <|
        .change BidResponse.same_reference _ <| .refl _) ?_
      simp [table, List.insertionSort]
  | amp facts =>
      simp only [members, AmpFacts.members, AuctionFacts.members, Table.member?_eq_members,
        ← Table.members_append, List.cons_append, List.nil_append]
      refine .of_alike (.change BidRequest.same_reference _ <|
        .change BidResponse.same_reference _ <| .change same_textsObject _ <| .refl _) ?_
      simp [table, List.insertionSort, List.orderedInsert]
  | cookieSync statuses =>
      have halike : Table.Alike
          [("bidderStatus", some (.arr (statuses.map fun facts => .obj facts.members)))]
          (Facts.cookieSync statuses).table :=
        .change (Same.arr SyncFacts.same_table) (some statuses) (.refl [])
      exact .of_alike halike rfl
  | setuid facts =>
      simp only [members, UidFacts.members, Table.member?_eq_members, ← Table.members_append]
      refine .of_sort ?_
      simp [table, List.insertionSort, List.orderedInsert]
  | notification facts =>
      simp only [members, NoticeFacts.members, Table.member?_eq_members, ← Table.members_append]
      refine .of_sort ?_
      simp [table, List.insertionSort, List.orderedInsert]
  | unknown kept =>
      simp only [members, Table.member?_eq_members]
      exact .of_sort rfl

theorem RequestView.writtenAs (view : RequestView) : view.table.WrittenAs view.members := by
  have hmembers : view.members = Table.members
      [ ("headers", some (NamedValues.textMembers view.headers))
      , ("queryParams", some (NamedValues.textMembers view.queryParams))
      , ("remoteHost", view.remoteHost.map .str)
      , ("httpMethod", view.httpMethod.map .str)
      , ("absoluteUri", view.absoluteUri.map .str)
      , ("scheme", view.scheme.map .str)
      , ("body", view.body.map .str)
      , ("refererHeader", view.refererHeader.map .str)
      , ("userAgent", view.userAgent.map .str) ] := by
    simp only [members, Table.member?_eq_members, ← Table.members_append, List.cons_append,
      List.nil_append, Table.members_cons_some]
  rw [hmembers]
  refine .of_alike (.change same_textsObject (some view.headers) <|
    .change same_textsObject (some view.queryParams) <| .refl _) ?_
  simp [table, List.insertionSort, List.orderedInsert]

/-- **A record is written as it should be**: its object cannot be told apart from the reference. -/
theorem LogRecord.same_reference (record : LogRecord) : Same record.toJson record.reference := by
  have htype : Table.WrittenAs [("type", some (.str record.endpoint.path))]
      [("type", .str record.endpoint.path)] :=
    @Table.WrittenAs.of_sort _ [("type", some (.str record.endpoint.path))] rfl
  have hrequest : Table.WrittenAs ((record.request.map (·.table)).getD [])
      ((record.request.map (·.members)).getD []) := by
    cases record.request with
    | none => exact @Table.WrittenAs.of_sort _ [] rfl
    | some view => exact view.writtenAs
  exact (htype.append (hrequest.append record.facts.writtenAs)).same record.sorted_table

end AuctionLog
