import AuctionLog.Proofs.Decoder.Makes
import AuctionLog.Proofs.Decoder.Tables
import AuctionLog.Proofs.Json.RoundTrip
import AuctionLog.Proofs.Record.Doubles
import AuctionLog.Proofs.Record.Lookup
import AuctionLog.Proofs.Text.LetterCase

/-!
# Requests that are told of again

What is told of a request is itself the report of one, which gives every header and parameter once.
The same is told of that one: its names are distinct and in order already, and the headers that are
named apart are looked up among it as among all those that came. Only a method that is not in upper
case would be told in another spelling, and none that is read from JSON is.
-/

namespace AuctionLog

open Json

/-! ## Values by name -/

namespace NamedValues

variable (values : NamedValues)

/-- The values that are told by name, as values by name themselves. -/
def told : NamedValues :=
  ⟨values.single⟩

theorem isLast_told {entry : String × String} :
    IsLast values.told.entries entry ↔ IsLast values.entries entry :=
  (isLast_iff_mem values.distinct_single).trans values.mem_single_iff

theorem single_told : values.told.single = values.single :=
  single_congr fun _ => values.isLast_told

/-- A lookup finds the same among what is told as among all that came. -/
theorem get?_told (name : String) : values.told.get? name = values.get? name :=
  get?_congr (fun _ => values.isLast_told) name

theorem ofMembers_texts (entries : List (String × String)) :
    ofMembers (entries.map fun entry => (entry.1, .str entry.2)) = .ok ⟨entries⟩ := by
  have hmap : (entries.map fun entry => (entry.1, Json.str entry.2)).mapM
      (fun member => entriesOf member.1 member.2) = .ok (entries.map fun entry => [entry]) := by
    rw [List.mapM_map]
    exact List.mapM_pure
  rw [ofMembers, hmap]
  simp only [bind, Except.bind, pure, Except.pure, ← List.flatMap_def, List.flatMap_singleton']

theorem textsObject_ne {entries : List (String × String)} : textsObject entries ≠ .null :=
  nofun

theorem ofJson_textsObject : decoder.ofJson (textsObject values.single) = .ok values.told := by
  have hsorted : Members.Sorted (values.single.map fun entry => (entry.1, .str entry.2)) :=
    List.pairwise_map.mpr values.sorted_single
  rw [textsObject, hsorted.ofList_eq]
  exact ofMembers_texts values.single

end NamedValues

/-! ## Methods in upper case -/

/-- Whether the method of a request, if it has one, has no letter in lower case. -/
def ServedRequest.MethodUpper (request : ServedRequest) : Prop :=
  ∀ method ∈ request.method, ∀ char ∈ method.name.toList, ¬ char.isLower

namespace ServedRequest

theorem ofJson_method {method : Method} (hupper : ∀ char ∈ method.name.toList, ¬ char.isLower) :
    methodDecoder.ofJson (.str method.name) = .ok (some method) := by
  have hname : Method.ofName? (Ascii.upper method.name) = some method := by
    rw [Ascii.upper_of_not_isLower hupper, Method.ofName?, dif_pos method.token]
  simp [methodDecoder, Decoder.refine, Decoder.optional, Decoder.text, hname, bind, Except.bind,
    pure, Except.pure]

theorem makes_method : methodDecoder.Makes fun made =>
    ∀ method ∈ made, ∀ char ∈ method.name.toList, ¬ char.isLower := by
  refine Decoder.Makes.any.refine fun option result _ hresult => ?_
  cases option with
  | none =>
      obtain rfl := Except.ok.inj hresult
      simp
  | some name =>
      simp only [Method.ofName?] at hresult
      split_ifs at hresult with htoken
      obtain rfl := Except.ok.inj hresult
      rintro _ ⟨⟩
      exact Ascii.not_isLower_of_mem_upper

/-- **A request that is read has its method in upper case**, however it was spelled. -/
theorem makes_methodUpper : decoder.Makes MethodUpper := by
  refine Decoder.makes_record ?_ (by simp [MethodUpper, empty])
  simp only [fields, List.forall_mem_cons]
  exact ⟨.defaulted .any fun _ _ hrequest _ => hrequest, .optional fun _ _ hrequest => hrequest,
    .optional fun _ _ hrequest => hrequest, .optional fun _ _ hrequest => hrequest,
    .optional fun _ _ hrequest => hrequest, .defaulted makes_method fun _ _ _ hmade => hmade,
    .optional fun _ _ hrequest => hrequest, List.forall_mem_nil _⟩

/-- The request that is told of, with nothing but what is told of it. -/
def told (request : ServedRequest) : ServedRequest :=
  { request with
    headers := request.headers.told
    queryParams := some (request.queryParams.getD .empty).told }

variable (request : ServedRequest)

theorem ofRequest_told : RequestView.ofRequest request.told = RequestView.ofRequest request := by
  simp only [RequestView.ofRequest, told, Option.getD_some, NamedValues.single_told,
    NamedValues.get?_told]

theorem ofJson_table (hmethod : request.MethodUpper) :
    decoder.ofJson (.obj (RequestView.ofRequest request).table.members) = .ok request.told := by
  have hheaders : (NamedValues.decoder.map fun value (changed : ServedRequest) =>
      { changed with headers := value }).ofJson (textsObject request.headers.single) =
        .ok fun changed => { changed with headers := request.headers.told } := by
    simp only [Decoder.map, Decoder.refine, NamedValues.ofJson_textsObject, bind, Except.bind]
  have hparams : (NamedValues.decoder.optional.map fun value (changed : ServedRequest) =>
      { changed with queryParams := value }).ofJson
        (textsObject (request.queryParams.getD .empty).single) = .ok fun changed =>
          { changed with queryParams := some (request.queryParams.getD .empty).told } := by
    simp only [Decoder.map, Decoder.refine, Decoder.optional_of_ne_null NamedValues.textsObject_ne,
      NamedValues.ofJson_textsObject, bind, Except.bind]
  refine Decoder.ofMembers_of_readAs (by decide) ?_
  refine .optional rfl rfl (by decide) rfl (fun _ _ => text_of_str _) ?_
  refine .optional rfl rfl (by decide) rfl (fun _ _ => text_of_str _) ?_
  refine .declared rfl (by decide) hheaders ?_
  rw [RequestView.ofRequest, Option.map_map]
  refine .chosen rfl rfl (by decide) rfl (fun _ hmem => ofJson_method (hmethod _ hmem)) ?_
  refine .declared rfl (by decide) hparams ?_
  refine .ignored rfl ?_
  refine .optional rfl rfl (by decide) rfl (fun _ _ => text_of_str _) ?_
  refine .optional rfl rfl (by decide) rfl (fun _ _ => text_of_str _) ?_
  exact .ignored rfl (.nil _)

end ServedRequest

namespace RequestView

variable (view : RequestView)

theorem same_table : Same view.toJson (.obj view.table.members) :=
  view.writtenAs.same view.sorted_table

theorem fits_table : Fits 2 (.obj view.table.members) :=
  (fits_table_iff view.sorted_table).mpr view.small_table

theorem arranged_toJson : view.toJson.arranged = .obj view.table.members :=
  view.same_table.1.trans view.fits_table.1

theorem parse_toJson :
    parse (Utf8.encode view.toJson.compact.toList) = .ok view.toJson.arranged := by
  refine parse_compact view.allDoubles ?_
  rw [view.same_table.2]
  exact view.fits_table.2.trans (by decide)

end RequestView

/-- Whether what is told of a request is itself read as a request, of which the same is told. -/
structure RequestView.Retold (view : RequestView) : Prop where
  text : parse (Utf8.encode view.toJson.compact.toList) = .ok view.toJson.arranged
  read : ∃ request, ServedRequest.decoder.ofJson view.toJson.arranged = .ok request ∧
    ofRequest request = view

/-- **Telling of a request is idempotent**: what is told of it is read as a request of which the
same is told, whichever duplicates and spellings its names came with, unless its method has letters
in lower case. No request that is read, from a value or from a text, has such a method. -/
theorem RequestView.retold :
    (∀ request : ServedRequest, request.MethodUpper → (ofRequest request).Retold) ∧
      ServedRequest.decoder.Makes ServedRequest.MethodUpper := by
  refine ⟨fun request hmethod => ⟨parse_toJson _, request.told, ?_, request.ofRequest_told⟩,
    ServedRequest.makes_methodUpper⟩
  rw [arranged_toJson]
  exact request.ofJson_table hmethod

/-- A header that came in three spellings, and a query parameter that came twice. -/
theorem RequestView.retold_respelled :
    let request : ServedRequest :=
      { ServedRequest.empty with
        headers := ⟨[("referer", "a"), ("Accept", "b"), ("REFERER", "c"), ("Referer", "d")]⟩
        queryParams := some ⟨[("q", "1"), ("q", "2")]⟩
        method := some ⟨"GET", by decide⟩ }
    request.MethodUpper ∧ (ofRequest request).Retold := by
  intro request
  have hmethod : request.MethodUpper := by
    rintro _ ⟨⟩
    simp
  exact ⟨hmethod, retold.1 request hmethod⟩

end AuctionLog
