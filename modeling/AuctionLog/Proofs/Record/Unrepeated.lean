import AuctionLog.Proofs.Json.Unrepeated
import AuctionLog.Proofs.Record.Carried
import AuctionLog.Proofs.Record.Names
import AuctionLog.Proofs.Record.OnePerName

/-!
# Records repeat no name

A record puts what is told of the request and the facts of its group into one object, and carries
whole values in them. It repeats no name in any of its objects, as long as the values that it
carries do not.
-/

namespace AuctionLog

open Json

theorem Json.forall_mem_member? {P : Json → Prop} {name : String} {value : Option Json} :
    (∀ member ∈ member? name value, P member.2) ↔ ∀ held ∈ value, P held := by
  cases value with
  | none => simp [member?]
  | some value => simp [member?]

theorem NamedValues.unrepeated_textMembers {entries : List (String × String)}
    (hsorted : entries.Pairwise fun left right => left.1 < right.1) :
    Unrepeated (textMembers entries) := by
  apply unrepeated_obj
  · rw [List.map_map]
    exact nodup_of_sorted hsorted
  · exact List.forall_mem_map.mpr fun entry _ => unrepeated_str _

theorem unrepeated_texts (texts : List String) : Unrepeated (.arr (texts.map .str)) :=
  unrepeated_arr (List.forall_mem_map.mpr fun text _ => unrepeated_str text)

theorem BidRequest.Carries.unrepeated {request : BidRequest}
    (hcarries : request.Carries Unrepeated) : Unrepeated request.toJson := by
  simp only [BidRequest.toJson, members, Table.member?_eq_members, ← Table.members_append,
    List.cons_append, List.nil_append]
  apply unrepeated_table (by simp)
  simp only [Table.all_cons, Table.all_nil, Option.forall_mem_map, and_true]
  exact ⟨fun _ _ => unrepeated_str _, hcarries.imp, hcarries.site, hcarries.app, hcarries.device,
    hcarries.user, fun _ _ => unrepeated_num _, fun _ _ => unrepeated_num _,
    fun _ _ => unrepeated_num _, fun texts _ => unrepeated_texts texts,
    fun texts _ => unrepeated_texts texts, fun texts _ => unrepeated_texts texts,
    fun texts _ => unrepeated_texts texts, hcarries.source, hcarries.regs, hcarries.metric,
    hcarries.ext⟩

theorem BidResponse.Carries.unrepeated {response : BidResponse}
    (hcarries : response.Carries Unrepeated) : Unrepeated response.toJson := by
  simp only [BidResponse.toJson, members, Table.member?_eq_members, ← Table.members_append,
    List.cons_append, List.nil_append]
  apply unrepeated_table (by simp)
  simp only [Table.all_cons, Table.all_nil, Option.forall_mem_map, and_true]
  exact ⟨fun _ _ => unrepeated_str _, hcarries.seatbid, fun _ _ => unrepeated_str _,
    fun _ _ => unrepeated_str _, fun _ _ => unrepeated_str _, fun _ _ => unrepeated_num _,
    hcarries.ext⟩

theorem OfferFacts.unrepeated (facts : OfferFacts) : Unrepeated (.obj facts.members) := by
  simp only [members, Table.member?_eq_members, ← Table.members_append, List.cons_append,
    List.nil_append]
  apply unrepeated_table (by simp)
  simp only [Table.all_cons, Table.all_nil, Option.forall_mem_map, and_true]
  exact ⟨fun _ _ => unrepeated_str _, fun _ _ => unrepeated_str _, fun _ _ => unrepeated_str _⟩

theorem SyncFacts.unrepeated (facts : SyncFacts) : Unrepeated (.obj facts.members) := by
  simp only [members, Table.member?_eq_members, ← Table.members_append, List.cons_append,
    List.nil_append]
  apply unrepeated_table (by simp)
  simp only [Table.all_cons, Table.all_nil, Option.forall_mem_map, and_true]
  exact ⟨fun _ _ => unrepeated_str _, fun _ _ => unrepeated_bool _,
    fun offer _ => offer.unrepeated, fun _ _ => unrepeated_str _, fun _ _ => unrepeated_num _⟩

theorem RequestView.Single.unrepeated {view : RequestView} (hsingle : view.Single) :
    ∀ member ∈ view.members, Unrepeated member.2 := by
  simp only [members, List.forall_mem_append, List.forall_mem_cons, forall_mem_member?,
    Option.forall_mem_map]
  exact ⟨⟨⟨⟨⟨⟨⟨⟨NamedValues.unrepeated_textMembers hsingle.sortedHeaders,
    NamedValues.unrepeated_textMembers hsingle.sortedParams, List.forall_mem_nil _⟩,
    fun _ _ => unrepeated_str _⟩, fun _ _ => unrepeated_str _⟩, fun _ _ => unrepeated_str _⟩,
    fun _ _ => unrepeated_str _⟩, fun _ _ => unrepeated_str _⟩, fun _ _ => unrepeated_str _⟩,
    fun _ _ => unrepeated_str _⟩

theorem AuctionFacts.Carries.unrepeated {facts : AuctionFacts}
    (hcarries : facts.Carries Unrepeated) : ∀ member ∈ facts.members, Unrepeated member.2 := by
  simp only [members, List.forall_mem_append, forall_mem_member?, Option.forall_mem_map]
  exact ⟨fun request hmem => (hcarries.bidRequest request hmem).unrepeated,
    fun response hmem => (hcarries.bidResponse response hmem).unrepeated⟩

theorem Facts.Carries.unrepeated {facts : Facts} (hcarries : facts.Carries Unrepeated)
    (htargeting : ∀ entries ∈ facts.targeting?,
      entries.Pairwise fun left right => left.1 < right.1) :
    ∀ member ∈ facts.members, Unrepeated member.2 := by
  cases facts with
  | auction facts | video facts => exact AuctionFacts.Carries.unrepeated hcarries
  | amp facts =>
      simp only [members, AmpFacts.members, List.forall_mem_append, forall_mem_member?,
        Option.forall_mem_map]
      exact ⟨⟨AuctionFacts.Carries.unrepeated hcarries,
        fun entries hmem => NamedValues.unrepeated_textMembers (htargeting entries hmem)⟩,
        fun _ _ => unrepeated_str _⟩
  | cookieSync statuses =>
      simp only [members, List.forall_mem_cons]
      refine ⟨unrepeated_arr (List.forall_mem_map.mpr ?_), List.forall_mem_nil _⟩
      intro facts _
      exact facts.unrepeated
  | setuid facts =>
      simp only [members, UidFacts.members, List.forall_mem_append, forall_mem_member?,
        Option.forall_mem_map]
      exact ⟨⟨fun _ _ => unrepeated_str _, fun _ _ => unrepeated_str _⟩,
        fun _ _ => unrepeated_bool _⟩
  | notification facts =>
      simp only [members, NoticeFacts.members, List.forall_mem_append, forall_mem_member?,
        Option.forall_mem_map]
      exact ⟨⟨⟨⟨fun _ _ => unrepeated_str _, fun _ _ => unrepeated_num _⟩,
        fun _ _ => unrepeated_str _⟩, fun _ _ => unrepeated_str _⟩, fun _ _ => unrepeated_str _⟩
  | unknown kept =>
      simp only [members, forall_mem_member?]
      exact hcarries

/-- **A record repeats no name**, at any depth. -/
theorem LogRecord.unrepeated {record : LogRecord} (hcarries : record.facts.Carries Unrepeated)
    (htargeting : ∀ entries ∈ record.facts.targeting?,
      entries.Pairwise fun left right => left.1 < right.1)
    (hrequest : ∀ view ∈ record.request, view.Single) : Unrepeated record.toJson := by
  apply unrepeated_obj record.nodup_members
  rw [members, List.forall_mem_cons, List.forall_mem_append]
  refine ⟨unrepeated_str _, ?_, hcarries.unrepeated htargeting⟩
  cases hview : record.request with
  | none => exact List.forall_mem_nil _
  | some view => exact (hrequest view hview).unrepeated

end AuctionLog
