import AuctionLog.Proofs.Decoder.Yields

/-!
# What decoders make

Some of what holds of a value that was read does not depend on the input at all: the decoder cannot
make another one, from a JSON value or from a text. A record has what none of its fields can undo,
whichever of them are given and whether they are given by name or by place.
-/

namespace AuctionLog

open Json

/-- Whether all that a decoder makes has a property, whatever it is made from. -/
structure Decoder.Makes {α : Type} (decoder : Decoder α) (P : α → Prop) : Prop where
  ofJson : ∀ value result, decoder.ofJson value = .ok result → P result
  read : ∀ levels input result rest, decoder.read levels input = .ok (result, rest) → P result

/-- Whether a field cannot undo a property of the records that it changes. -/
def Field.Preserves {ρ : Type} (field : Field ρ) (P : ρ → Prop) : Prop :=
  field.decoder.Makes fun update => ∀ record, P record → P (update record)

namespace Decoder

variable {α β : Type} {decoder : Decoder α} {P : α → Prop} {Q : β → Prop}

theorem Makes.any : decoder.Makes fun _ => True :=
  ⟨fun _ _ _ => trivial, fun _ _ _ _ _ => trivial⟩

theorem Makes.refine {check : α → Except Mismatch β} (hdecoder : decoder.Makes P)
    (hcheck : ∀ value result, P value → check value = .ok result → Q result) :
    (decoder.refine check).Makes Q where
  ofJson := by
    intro value result hread
    obtain ⟨held, hheld, hresult⟩ := bind_eq_ok.mp hread
    exact hcheck held result (hdecoder.ofJson value held hheld) hresult
  read := by
    intro levels input result rest hread
    obtain ⟨⟨held, after⟩, hheld, hread⟩ := bind_eq_ok.mp hread
    have hprop := hdecoder.read levels input held after hheld
    cases hresult : check held with
    | error mismatch => simp [hresult, stop] at hread
    | ok made =>
        simp only [hresult, Except.ok.injEq, Prod.mk.injEq] at hread
        exact hread.1 ▸ hcheck held made hprop hresult

theorem Makes.map {f : α → β} (hdecoder : decoder.Makes P)
    (hmap : ∀ value, P value → Q (f value)) : (decoder.map f).Makes Q := by
  refine hdecoder.refine fun value result hvalue hresult => ?_
  obtain rfl := Except.ok.inj hresult
  exact hmap value hvalue

end Decoder

namespace Field

variable {α ρ : Type} {name : String} {decoder : Decoder α} {R : ρ → Prop}

/-- A field that has nothing to do with a property. -/
theorem Preserves.optional {set : ρ → Option α → ρ}
    (hset : ∀ record option, R record → R (set record option)) :
    (Field.optional name decoder set).Preserves R :=
  Decoder.Makes.any.map fun option _ record hrecord => hset record option hrecord

theorem Preserves.defaulted {Q : α → Prop} {set : ρ → α → ρ} (hdecoder : decoder.Makes Q)
    (hset : ∀ record value, R record → Q value → R (set record value)) :
    (Field.defaulted name decoder set).Preserves R :=
  hdecoder.map fun value hvalue record hrecord => hset record value hrecord hvalue

end Field

namespace Decoder

theorem refuse_ne_ok {α : Type} (expected : Expected) (input : List UInt8) {read : α × List UInt8} :
    refuse expected input ≠ .ok read := by
  cases input with
  | nil => simp [refuse, stop]
  | cons byte rest =>
      rw [refuse]
      split_ifs <;> simp [bind_eq_ok, stop]

variable {ρ : Type} {fields : List (Field ρ)} {R : ρ → Prop} {record result : ρ}

theorem ofMembers_preserves (hfields : ∀ field ∈ fields, field.Preserves R) {members : Members}
    {seen : List String} (hrecord : R record)
    (hread : ofMembers fields seen record members = .ok result) : R result := by
  induction members generalizing seen record with
  | nil => exact eq_of_complete hread ▸ hrecord
  | cons member rest ih =>
      obtain ⟨found, hfound, hread⟩ := bind_eq_ok.mp hread
      cases found with
      | none => exact ih hrecord hread
      | some field =>
          obtain ⟨update, hupdate, hread⟩ := bind_eq_ok.mp hread
          have hfield := hfields field (mem_of_fieldFor hfound)
          exact ih (hfield.ofJson _ update hupdate record hrecord) hread

theorem ofItems_preserves (hfields : ∀ field ∈ fields, field.Preserves R) {name : String}
    {size position : Nat} {items : List Json} (hrecord : R record)
    (hread : ofItems name size record position fields items = .ok result) : R result := by
  induction fields generalizing position record items with
  | nil =>
      rw [ofItems] at hread
      split_ifs at hread
      exact Except.ok.inj hread ▸ hrecord
  | cons field fields ih =>
      obtain ⟨hfield, hfields⟩ := List.forall_mem_cons.mp hfields
      cases items with
      | nil =>
          rw [ofItems] at hread
          split_ifs at hread
          exact ih hfields hrecord hread
      | cons item items =>
          obtain ⟨update, hupdate, hread⟩ := bind_eq_ok.mp hread
          exact ih hfields (hfield.ofJson item update hupdate record hrecord) hread

theorem readFields_preserves (hfields : ∀ field ∈ fields, field.Preserves R) {levels most : Nat}
    {first : Bool} {seen : List String} {input rest : List UInt8} (hrecord : R record)
    (hread : readFields fields levels most first seen record input = .ok (result, rest)) :
    R result := by
  induction most generalizing first seen record input with
  | zero => simp [readFields, stop] at hread
  | succ most ih =>
      obtain ⟨⟨more, input⟩, -, hread⟩ := bind_eq_ok.mp hread
      cases more with
      | false =>
          cases hcomplete : complete fields seen record with
          | error mismatch => simp [hcomplete, stop] at hread
          | ok whole =>
              simp only [hcomplete, Except.ok.injEq, Prod.mk.injEq] at hread
              rw [← hread.1, ← eq_of_complete hcomplete]
              exact hrecord
      | true =>
          obtain ⟨⟨name, after⟩, -, hread⟩ := bind_eq_ok.mp hread
          cases hfound : fieldFor fields seen name with
          | error mismatch => simp [hfound, stop] at hread
          | ok found =>
              simp only [hfound] at hread
              cases found with
              | none =>
                  obtain ⟨colon, -, hread⟩ := bind_eq_ok.mp hread
                  obtain ⟨skipped, -, hread⟩ := bind_eq_ok.mp hread
                  exact ih hrecord hread
              | some field =>
                  obtain ⟨colon, -, hread⟩ := bind_eq_ok.mp hread
                  obtain ⟨⟨update, after⟩, hupdate, hread⟩ := bind_eq_ok.mp hread
                  have hfield := hfields field (mem_of_fieldFor hfound)
                  exact ih (hfield.read _ _ update after hupdate record hrecord) hread

theorem readPositions_preserves (hfields : ∀ field ∈ fields, field.Preserves R) {name : String}
    {size levels position : Nat} {input rest : List UInt8} (hrecord : R record)
    (hread : readPositions name size levels position fields record input = .ok (result, rest)) :
    R result := by
  induction fields generalizing position record input with
  | nil =>
      obtain ⟨after, -, hread⟩ := bind_eq_ok.mp hread
      exact (Prod.mk.inj (Except.ok.inj hread)).1 ▸ hrecord
  | cons field fields ih =>
      obtain ⟨hfield, hfields⟩ := List.forall_mem_cons.mp hfields
      obtain ⟨⟨more, input⟩, -, hread⟩ := bind_eq_ok.mp hread
      cases more with
      | false =>
          simp only at hread
          split_ifs at hread
          · exact ih hfields hrecord hread
          · simp [stop] at hread
      | true =>
          obtain ⟨⟨update, after⟩, hupdate, hread⟩ := bind_eq_ok.mp hread
          exact ih hfields (hfield.read _ _ update after hupdate record hrecord) hread

/-- **A record has what its fields preserve**, if it has it with no field given. -/
theorem makes_record {name : String} {empty : ρ} (hfields : ∀ field ∈ fields, field.Preserves R)
    (hempty : R empty) : (Decoder.record name fields empty).Makes R where
  ofJson := by
    intro value result hread
    cases value with
    | obj members => exact ofMembers_preserves hfields hempty hread
    | arr items => exact ofItems_preserves hfields hempty hread
    | _ => simp [Decoder.record, wrongType] at hread
  read := by
    intro levels input result rest hread
    simp only [Decoder.record] at hread
    split at hread
    · simp [stop] at hread
    · rename_i byte after _
      split_ifs at hread
      · cases levels with
        | zero => simp [stop] at hread
        | succ levels => exact readFields_preserves hfields hempty hread
      · cases levels with
        | zero => simp [stop] at hread
        | succ levels => exact readPositions_preserves hfields hempty hread
      · exact absurd hread (refuse_ne_ok _ _)

end Decoder

end AuctionLog
