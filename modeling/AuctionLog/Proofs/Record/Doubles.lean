import AuctionLog.Proofs.Record.Carried

/-!
# The doubles of a record

A record has no doubles of its own: what it says itself is said in texts, flags and whole numbers.
So all doubles in its line come with the values that it carries.
-/

namespace AuctionLog

open Json

variable {P : Double → Prop}

namespace Json

theorem allDoubles_texts (texts : List String) : (arr (texts.map .str)).AllDoubles P :=
  allDoubles_arr.mpr (List.forall_mem_map.mpr fun text _ => allDoubles_str text)

theorem allDoubles_textMembers (entries : List (String × String)) :
    (NamedValues.textMembers entries).AllDoubles P :=
  allDoubles_obj.mpr (List.forall_mem_map.mpr fun entry _ => allDoubles_str entry.2)

theorem allDoubles_cons {name : String} {value : Json} {rest : Members} :
    (obj ((name, value) :: rest)).AllDoubles P ↔ value.AllDoubles P ∧ (obj rest).AllDoubles P := by
  simp only [allDoubles_obj, List.forall_mem_cons]

theorem allDoubles_append {left right : Members} :
    (obj (left ++ right)).AllDoubles P ↔ (obj left).AllDoubles P ∧ (obj right).AllDoubles P := by
  simp only [allDoubles_obj, List.forall_mem_append]

theorem allDoubles_member? {name : String} {value : Option Json} :
    (obj (member? name value)).AllDoubles P ↔ ∀ held ∈ value, held.AllDoubles P := by
  cases value <;> simp [allDoubles_obj, member?]

end Json

theorem BidRequest.Carries.allDoubles {request : BidRequest}
    (hcarries : request.Carries (AllDoubles P)) : request.toJson.AllDoubles P := by
  simp only [toJson, members, allDoubles_append, allDoubles_member?, Option.forall_mem_map,
    and_assoc]
  exact ⟨fun _ _ => allDoubles_str _, hcarries.imp, hcarries.site, hcarries.app, hcarries.device,
    hcarries.user, fun _ _ => allDoubles_int _ _ _, fun _ _ => allDoubles_int _ _ _,
    fun _ _ => allDoubles_int _ _ _, fun _ _ => allDoubles_texts _, fun _ _ => allDoubles_texts _,
    fun _ _ => allDoubles_texts _, fun _ _ => allDoubles_texts _, hcarries.source, hcarries.regs,
    hcarries.metric, hcarries.ext⟩

theorem BidResponse.Carries.allDoubles {response : BidResponse}
    (hcarries : response.Carries (AllDoubles P)) : response.toJson.AllDoubles P := by
  simp only [toJson, members, allDoubles_append, allDoubles_member?, Option.forall_mem_map,
    and_assoc]
  exact ⟨fun _ _ => allDoubles_str _, hcarries.seatbid, fun _ _ => allDoubles_str _,
    fun _ _ => allDoubles_str _, fun _ _ => allDoubles_str _, fun _ _ => allDoubles_int _ _ _,
    hcarries.ext⟩

theorem AuctionFacts.Carries.allDoubles {facts : AuctionFacts}
    (hcarries : facts.Carries (AllDoubles P)) : (obj facts.members).AllDoubles P := by
  simp only [members, allDoubles_append, allDoubles_member?, Option.forall_mem_map]
  exact ⟨fun request hmem => (hcarries.bidRequest request hmem).allDoubles,
    fun response hmem => (hcarries.bidResponse response hmem).allDoubles⟩

theorem SyncFacts.allDoubles (facts : SyncFacts) : (obj facts.members).AllDoubles P := by
  have hoffer : ∀ offer : OfferFacts, (obj offer.members).AllDoubles P := by
    intro offer
    simp only [OfferFacts.members, allDoubles_append, allDoubles_member?, Option.forall_mem_map]
    exact ⟨⟨fun _ _ => allDoubles_str _, fun _ _ => allDoubles_str _⟩, fun _ _ => allDoubles_str _⟩
  simp only [members, allDoubles_append, allDoubles_member?, Option.forall_mem_map, and_assoc]
  exact ⟨fun _ _ => allDoubles_str _, fun _ _ => allDoubles_bool _, fun offer _ => hoffer offer,
    fun _ _ => allDoubles_str _, fun _ _ => allDoubles_int _ _ _⟩

theorem Facts.Carries.allDoubles {facts : Facts} (hcarries : facts.Carries (AllDoubles P)) :
    (obj facts.members).AllDoubles P := by
  cases facts with
  | auction facts | video facts => exact AuctionFacts.Carries.allDoubles hcarries
  | amp facts =>
      simp only [members, AmpFacts.members, allDoubles_append, allDoubles_member?,
        Option.forall_mem_map]
      exact ⟨⟨AuctionFacts.Carries.allDoubles hcarries, fun _ _ => allDoubles_textMembers _⟩,
        fun _ _ => allDoubles_str _⟩
  | cookieSync statuses =>
      refine allDoubles_cons.mpr ⟨allDoubles_arr.mpr ?_, allDoubles_obj.mpr (List.forall_mem_nil _)⟩
      exact List.forall_mem_map.mpr fun facts _ => facts.allDoubles
  | setuid facts =>
      simp only [members, UidFacts.members, allDoubles_append, allDoubles_member?,
        Option.forall_mem_map, and_assoc]
      exact ⟨fun _ _ => allDoubles_str _, fun _ _ => allDoubles_str _, fun _ _ => allDoubles_bool _⟩
  | notification facts =>
      simp only [members, NoticeFacts.members, allDoubles_append, allDoubles_member?,
        Option.forall_mem_map, and_assoc]
      exact ⟨fun _ _ => allDoubles_str _, fun _ _ => allDoubles_int _ _ _,
        fun _ _ => allDoubles_str _, fun _ _ => allDoubles_str _, fun _ _ => allDoubles_str _⟩
  | unknown kept => exact allDoubles_member?.mpr hcarries

theorem RequestView.allDoubles (view : RequestView) : view.toJson.AllDoubles P := by
  simp only [toJson, members, List.cons_append, List.nil_append, allDoubles_cons, allDoubles_append,
    allDoubles_member?, Option.forall_mem_map, and_assoc]
  exact ⟨allDoubles_textMembers _, allDoubles_textMembers _, fun _ _ => allDoubles_str _,
    fun _ _ => allDoubles_str _, fun _ _ => allDoubles_str _, fun _ _ => allDoubles_str _,
    fun _ _ => allDoubles_str _, fun _ _ => allDoubles_str _, fun _ _ => allDoubles_str _⟩

/-- **What is written of a record holds the doubles that the record carries**, and no others. -/
theorem Facts.Carries.allDoubles_toJson {record : LogRecord}
    (hcarries : record.facts.Carries (AllDoubles P)) : record.toJson.AllDoubles P := by
  refine allDoubles_cons.mpr ⟨allDoubles_str _, allDoubles_append.mpr ⟨?_, hcarries.allDoubles⟩⟩
  cases record.request with
  | none => exact allDoubles_obj.mpr (List.forall_mem_nil _)
  | some view => exact view.allDoubles

end AuctionLog
