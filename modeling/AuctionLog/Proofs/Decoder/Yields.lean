import AuctionLog.Decoder.Fields
import AuctionLog.Proofs.Json.Fits

/-!
# What decoders carry over

A decoder carries parts of a value over into what it makes of it. What holds of the parts of every
value that fits is followed from there into a record, whichever of its fields are given and whether
they are given by name or by place.
-/

namespace AuctionLog

open Json

/-- Whether all that a decoder makes of values that fit has a property. -/
def Decoder.Yields {α : Type} (decoder : Decoder α) (levels : Nat) (P : α → Prop) : Prop :=
  ∀ value result, Fits levels value → decoder.ofJson value = .ok result → P result

/-- Whether a field keeps a property of the records that it changes. -/
def Field.Keeps {ρ : Type} (field : Field ρ) (levels : Nat) (P : ρ → Prop) : Prop :=
  field.decoder.Yields levels fun update => ∀ record, P record → P (update record)

namespace Decoder

variable {α β ρ : Type} {decoder : Decoder α} {levels : Nat} {P : α → Prop} {Q : β → Prop}

theorem Yields.any : decoder.Yields levels fun _ => True :=
  fun _ _ _ _ => trivial

theorem Yields.json : Decoder.json.Yields levels (Fits levels) := by
  intro value result hfits hread
  obtain rfl := Except.ok.inj hread
  exact hfits

theorem mapM_json (items : List Json) : items.mapM Decoder.json.ofJson = .ok items := by
  have hitems : items.mapM Decoder.json.ofJson = .ok (items.map id) := List.mapM_pure
  rwa [List.map_id] at hitems

theorem Yields.items : Decoder.json.list.Yields levels fun items => Fits levels (.arr items) := by
  intro value result hfits hread
  cases value with
  | arr items =>
      obtain rfl := Except.ok.inj ((mapM_json items).symm.trans hread)
      exact hfits
  | _ => simp [list, wrongType] at hread

theorem Yields.map {f : α → β} (hdecoder : decoder.Yields levels P)
    (hmap : ∀ value, P value → Q (f value)) : (decoder.map f).Yields levels Q := by
  intro value result hfits hread
  obtain ⟨read, hvalue, hresult⟩ := bind_eq_ok.mp hread
  obtain rfl := Except.ok.inj hresult
  exact hmap read (hdecoder value read hfits hvalue)

theorem optional_of_ne_null {value : Json} (hnull : value ≠ .null) :
    decoder.optional.ofJson value = decoder.ofJson value >>= fun read => .ok (some read) := by
  cases value with
  | null => exact absurd rfl hnull
  | _ => rfl

theorem Yields.optional (hdecoder : decoder.Yields levels P) :
    decoder.optional.Yields levels fun option => ∀ value ∈ option, P value := by
  intro value result hfits hread
  by_cases hnull : value = .null
  · rw [hnull] at hread
    obtain rfl := Except.ok.inj hread
    simp
  · rw [optional_of_ne_null hnull] at hread
    obtain ⟨read, hvalue, hresult⟩ := bind_eq_ok.mp hread
    obtain rfl := Except.ok.inj hresult
    rintro _ ⟨⟩
    exact hdecoder value _ hfits hvalue

end Decoder

namespace Field

variable {α ρ : Type} {name : String} {decoder : Decoder α} {levels : Nat} {P : ρ → Prop}
  {Q : α → Prop}

theorem Keeps.optional {set : ρ → Option α → ρ} (hdecoder : decoder.Yields levels Q)
    (hset : ∀ record option, P record → (∀ value ∈ option, Q value) → P (set record option)) :
    (Field.optional name decoder set).Keeps levels P :=
  hdecoder.optional.map fun option hoption record hrecord => hset record option hrecord hoption

theorem Keeps.defaulted {set : ρ → α → ρ} (hdecoder : decoder.Yields levels Q)
    (hset : ∀ record value, P record → Q value → P (set record value)) :
    (Field.defaulted name decoder set).Keeps levels P :=
  hdecoder.map fun value hvalue record hrecord => hset record value hrecord hvalue

end Field

namespace Decoder

variable {ρ : Type} {fields : List (Field ρ)} {levels : Nat} {P : ρ → Prop}

theorem eq_of_complete {seen : List String} {record result : ρ}
    (hcomplete : complete fields seen record = .ok result) : record = result := by
  rw [complete] at hcomplete
  split at hcomplete
  · exact Except.ok.inj hcomplete
  · simp at hcomplete

theorem mem_of_fieldFor {seen : List String} {name : String} {field : Field ρ}
    (hfield : fieldFor fields seen name = .ok (some field)) : field ∈ fields := by
  rw [fieldFor] at hfield
  split at hfield
  · simp at hfield
  · rename_i found hfound
    split_ifs at hfield
    rw [Except.ok.injEq, Option.some.injEq] at hfield
    exact hfield ▸ List.mem_of_find?_eq_some hfound

theorem ofMembers_keeps (hfields : ∀ field ∈ fields, field.Keeps levels P) {members : Members}
    (hmembers : ∀ member ∈ members, Fits levels member.2) {seen : List String} {record result : ρ}
    (hrecord : P record) (hread : ofMembers fields seen record members = .ok result) :
    P result := by
  induction members generalizing seen record with
  | nil => exact eq_of_complete hread ▸ hrecord
  | cons member rest ih =>
      obtain ⟨name, value⟩ := member
      obtain ⟨hvalue, hrest⟩ := List.forall_mem_cons.mp hmembers
      rw [ofMembers] at hread
      obtain ⟨found, hfound, hread⟩ := bind_eq_ok.mp hread
      cases found with
      | none => exact ih hrest hrecord hread
      | some field =>
          obtain ⟨update, hupdate, hread⟩ := bind_eq_ok.mp hread
          have hkeeps := hfields field (mem_of_fieldFor hfound) value update hvalue hupdate
          exact ih hrest (hkeeps record hrecord) hread

theorem ofItems_keeps (hfields : ∀ field ∈ fields, field.Keeps levels P) {name : String}
    {size position : Nat} {items : List Json} (hitems : ∀ item ∈ items, Fits levels item)
    {record result : ρ} (hrecord : P record)
    (hread : ofItems name size record position fields items = .ok result) : P result := by
  induction fields generalizing position record items with
  | nil =>
      rw [ofItems] at hread
      split_ifs at hread
      exact Except.ok.inj hread ▸ hrecord
  | cons field fields ih =>
      obtain ⟨hfield, hfields⟩ := List.forall_mem_cons.mp hfields
      cases items with
      | nil =>
          rw [ofItems] at hread
          split_ifs at hread
          exact ih hfields hitems hrecord hread
      | cons item items =>
          obtain ⟨hitem, hitems⟩ := List.forall_mem_cons.mp hitems
          rw [ofItems] at hread
          obtain ⟨update, hupdate, hread⟩ := bind_eq_ok.mp hread
          exact ih hfields hitems (hfield item update hitem hupdate record hrecord) hread

/-- **A record has what its fields keep**, if it has it with no field given. -/
theorem yields_record {name : String} {empty : ρ}
    (hfields : ∀ field ∈ fields, field.Keeps levels P) (hempty : P empty) :
    (Decoder.record name fields empty).Yields (levels + 1) P := by
  intro value result hfits hread
  cases value with
  | obj members => exact ofMembers_keeps hfields (fits_obj_iff.mp hfits).2 hempty hread
  | arr items => exact ofItems_keeps hfields (fits_arr_iff.mp hfits) hempty hread
  | _ => simp [Decoder.record, wrongType] at hread

end Decoder

end AuctionLog
