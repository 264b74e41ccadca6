import AuctionLog.Event.Facts
import AuctionLog.Proofs.Decoder.Yields
import AuctionLog.Proofs.Record.Reference

/-!
# The values that a record carries

A record repeats some values as they came: those nested in a payload, and a value that was kept
whole. What holds of them decides what holds of its reference object. They all come from the value
that was reported, a few levels down.
-/

namespace AuctionLog

open Json

/-- Whether all that a bid request repeats has a property. -/
structure BidRequest.Carries (P : Json → Prop) (request : BidRequest) : Prop where
  imp : ∀ items ∈ request.imp, P (.arr items)
  site : ∀ value ∈ request.site, P value
  app : ∀ value ∈ request.app, P value
  device : ∀ value ∈ request.device, P value
  user : ∀ value ∈ request.user, P value
  source : ∀ value ∈ request.source, P value
  regs : ∀ value ∈ request.regs, P value
  metric : ∀ items ∈ request.metric, P (.arr items)
  ext : ∀ value ∈ request.ext, P value

/-- Whether all that a bid response repeats has a property. -/
structure BidResponse.Carries (P : Json → Prop) (response : BidResponse) : Prop where
  seatbid : ∀ items ∈ response.seatbid, P (.arr items)
  ext : ∀ value ∈ response.ext, P value

structure AuctionFacts.Carries (P : Json → Prop) (facts : AuctionFacts) : Prop where
  bidRequest : ∀ request ∈ facts.bidRequest, request.Carries P
  bidResponse : ∀ response ∈ facts.bidResponse, response.Carries P

/-- Whether all that is repeated among the facts of an event has a property. -/
def Facts.Carries (P : Json → Prop) : Facts → Prop
  | .auction facts | .video facts => facts.Carries P
  | .amp facts => facts.auction.Carries P
  | .unknown kept => ∀ value ∈ kept, P value
  | .cookieSync _ | .setuid _ | .notification _ => True

section

variable {P Q : Json → Prop} (himp : ∀ value, P value → Q value)

include himp

theorem BidRequest.Carries.mono {request : BidRequest} (hcarries : request.Carries P) :
    request.Carries Q where
  imp items hmem := himp _ (hcarries.imp items hmem)
  site value hmem := himp _ (hcarries.site value hmem)
  app value hmem := himp _ (hcarries.app value hmem)
  device value hmem := himp _ (hcarries.device value hmem)
  user value hmem := himp _ (hcarries.user value hmem)
  source value hmem := himp _ (hcarries.source value hmem)
  regs value hmem := himp _ (hcarries.regs value hmem)
  metric items hmem := himp _ (hcarries.metric items hmem)
  ext value hmem := himp _ (hcarries.ext value hmem)

theorem BidResponse.Carries.mono {response : BidResponse} (hcarries : response.Carries P) :
    response.Carries Q where
  seatbid items hmem := himp _ (hcarries.seatbid items hmem)
  ext value hmem := himp _ (hcarries.ext value hmem)

theorem AuctionFacts.Carries.mono {facts : AuctionFacts} (hcarries : facts.Carries P) :
    facts.Carries Q where
  bidRequest request hmem := (hcarries.bidRequest request hmem).mono himp
  bidResponse response hmem := (hcarries.bidResponse response hmem).mono himp

end

/-! ## Into the reference object -/

/-- Whether objects of values with one property have another one. Values that nest little have
both. -/
structure Builds (inner outer : Json → Prop) : Prop where
  small : ∀ value, Fits 3 value → inner value
  weaken : ∀ value, inner value → outer value
  table : ∀ table : Table, table.Sorted → table.All inner → outer (.obj table.members)

theorem builds_fits (levels : Nat) : Builds (Fits (levels + 3)) (Fits (levels + 4)) where
  small _ hfits := hfits.mono (Nat.le_add_left 3 levels)
  weaken _ hfits := hfits.mono (Nat.le_succ _)
  table _ hsorted := (fits_table_iff hsorted).mpr

theorem builds_arranged :
    Builds (fun value => value.arranged = value) (fun value => value.arranged = value) where
  small _ hfits := hfits.1
  weaken _ harranged := harranged
  table table hsorted hvalues := by
    refine arranged_obj_iff.mpr ⟨hsorted.members, fun member hmem => ?_⟩
    exact hvalues _ (Table.mem_members.mp hmem) member.2 rfl

section

variable {inner outer whole : Json → Prop}

theorem Builds.texts (hbuilds : Builds inner outer) (texts : List String) :
    inner (.arr (texts.map .str)) := by
  refine hbuilds.small _ (fits_arr_iff.mpr ?_)
  exact List.forall_mem_map.mpr fun text _ => fits_str text

theorem Builds.str (hbuilds : Builds inner outer) (text : String) : inner (.str text) :=
  hbuilds.small _ (fits_str text)

theorem Builds.num (hbuilds : Builds inner outer) (number : Number) : inner (.num number) :=
  hbuilds.small _ (fits_num number)

theorem BidRequest.Carries.reference {request : BidRequest} (hbuilds : Builds inner outer)
    (hcarries : request.Carries inner) : outer request.reference := by
  refine hbuilds.table _ request.sorted_table ?_
  simp only [table, Table.all_cons, Table.all_nil, Option.forall_mem_map, and_true]
  exact ⟨hcarries.app, fun _ _ => hbuilds.num _, fun texts _ => hbuilds.texts texts,
    fun texts _ => hbuilds.texts texts, fun texts _ => hbuilds.texts texts,
    fun texts _ => hbuilds.texts texts, hcarries.device, hcarries.ext, fun _ _ => hbuilds.str _,
    hcarries.imp, hcarries.metric, hcarries.regs, hcarries.site, hcarries.source,
    fun _ _ => hbuilds.num _, fun _ _ => hbuilds.num _, hcarries.user⟩

theorem BidResponse.Carries.reference {response : BidResponse} (hbuilds : Builds inner outer)
    (hcarries : response.Carries inner) : outer response.reference := by
  refine hbuilds.table _ response.sorted_table ?_
  simp only [table, Table.all_cons, Table.all_nil, Option.forall_mem_map, and_true]
  exact ⟨fun _ _ => hbuilds.str _, fun _ _ => hbuilds.str _, fun _ _ => hbuilds.str _,
    hcarries.ext, fun _ _ => hbuilds.str _, fun _ _ => hbuilds.num _, hcarries.seatbid⟩

/-- A cookie sync nests three deep, in the syncs that its bidders ask for. -/
theorem SyncFacts.fits_statuses (statuses : List SyncFacts) :
    Fits 3 (.arr (statuses.map fun facts => .obj facts.table.members)) := by
  have hoffer : ∀ offer : OfferFacts, Fits 1 (.obj offer.table.members) := by
    intro offer
    refine (fits_table_iff offer.sorted_table).mpr ?_
    simp only [OfferFacts.table, Table.all_cons, Table.all_nil, Option.forall_mem_map, and_true]
    exact ⟨fun _ _ => fits_str _, fun _ _ => fits_str _, fun _ _ => fits_str _⟩
  refine fits_arr_iff.mpr (List.forall_mem_map.mpr fun facts _ => ?_)
  refine (fits_table_iff facts.sorted_table).mpr ?_
  simp only [table, Table.all_cons, Table.all_nil, Option.forall_mem_map, and_true]
  exact ⟨fun _ _ => fits_str _, fun _ _ => fits_str _, fun _ _ => fits_bool _,
    fun _ _ => fits_num _, fun offer _ => hoffer offer⟩

theorem Facts.Carries.table {facts : Facts} (hbuilds : Builds inner outer)
    (hcarries : facts.Carries inner) : facts.table.All outer := by
  have hsmall : ∀ value, Fits 3 value → outer value :=
    fun value hfits => hbuilds.weaken value (hbuilds.small value hfits)
  cases facts with
  | auction facts | video facts =>
      simp only [Facts.table, Table.all_cons, Table.all_nil, Option.forall_mem_map, and_true]
      exact ⟨fun request hmem => (hcarries.bidRequest request hmem).reference hbuilds,
        fun response hmem => (hcarries.bidResponse response hmem).reference hbuilds⟩
  | amp facts =>
      simp only [Facts.table, Table.all_cons, Table.all_nil, Option.forall_mem_map, and_true]
      exact ⟨fun request hmem => (hcarries.bidRequest request hmem).reference hbuilds,
        fun response hmem => (hcarries.bidResponse response hmem).reference hbuilds,
        fun _ _ => hsmall _ (fits_str _), fun entries _ => hsmall _ (fits_textsObject entries)⟩
  | cookieSync statuses =>
      simp only [Facts.table, Table.all_cons, Table.all_nil, and_true]
      rintro _ ⟨⟩
      exact hsmall _ (SyncFacts.fits_statuses statuses)
  | setuid facts =>
      simp only [Facts.table, Table.all_cons, Table.all_nil, Option.forall_mem_map, and_true]
      exact ⟨fun _ _ => hsmall _ (fits_str _), fun _ _ => hsmall _ (fits_bool _),
        fun _ _ => hsmall _ (fits_str _)⟩
  | notification facts =>
      simp only [Facts.table, Table.all_cons, Table.all_nil, Option.forall_mem_map, and_true]
      exact ⟨fun _ _ => hsmall _ (fits_str _), fun _ _ => hsmall _ (fits_str _),
        fun _ _ => hsmall _ (fits_str _), fun _ _ => hsmall _ (fits_str _),
        fun _ _ => hsmall _ (fits_num _)⟩
  | unknown kept =>
      simp only [Facts.table, Table.all_cons, Table.all_nil, and_true]
      exact fun value hmem => hbuilds.weaken value (hcarries value hmem)

theorem RequestView.small_table (view : RequestView) : view.table.All (Fits 1) := by
  simp only [table, Table.all_cons, Table.all_nil, Option.forall_mem_map, and_true]
  refine ⟨fun _ _ => fits_str _, fun _ _ => fits_str _, ?_, fun _ _ => fits_str _, ?_,
    fun _ _ => fits_str _, fun _ _ => fits_str _, fun _ _ => fits_str _, fun _ _ => fits_str _⟩
  · rintro _ ⟨⟩
    exact fits_textsObject view.headers
  · rintro _ ⟨⟩
    exact fits_textsObject view.queryParams

/-- **What a record carries decides what it is**: of its own it adds one level to the facts and a
second one to their payloads. -/
theorem Facts.Carries.reference {record : LogRecord} (hinner : Builds inner outer)
    (houter : Builds outer whole) (hcarries : record.facts.Carries inner) :
    whole record.reference := by
  refine houter.table _ record.sorted_table fun entry hmem => ?_
  rcases List.mem_append.mp ((Table.merge_perm _ _).mem_iff.mp hmem) with htype | hmem
  · obtain rfl := List.mem_singleton.mp htype
    rintro _ ⟨⟩
    exact houter.str _
  rcases List.mem_append.mp ((Table.merge_perm _ _).mem_iff.mp hmem) with hrequest | hfacts
  · cases hview : record.request with
    | none => simp [hview] at hrequest
    | some view =>
        rw [hview] at hrequest
        intro value hvalue
        have hfits := view.small_table entry hrequest value hvalue
        exact houter.small value (hfits.mono (by omega))
  · exact hcarries.table hinner entry hfacts

theorem Facts.Carries.arranged_reference {record : LogRecord}
    (hcarries : record.facts.Carries fun value => value.arranged = value) :
    record.reference.arranged = record.reference :=
  @Facts.Carries.reference _ _ (fun value => value.arranged = value) record builds_arranged
    builds_arranged hcarries

end

end AuctionLog
