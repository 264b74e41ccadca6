import AuctionLog.Json.Writer
import AuctionLog.Proofs.Json.Tree
import AuctionLog.Proofs.Text.Digits

/-!
# What texts are put together from

The compact text of a value is made of string literals and of bare pieces, which hold its numbers,
words and marks. What holds of both, and of all that is put together from them, holds of every text.
-/

namespace AuctionLog.Json

/-- Whether a character may stand outside of string literals: it is visible, in ASCII, and opens no
literal. -/
def IsBare (char : Char) : Prop :=
  (0x20 < char.toNat ∧ char.toNat < 0x7F) ∧ char ≠ '"'

instance (char : Char) : Decidable (IsBare char) :=
  inferInstanceAs (Decidable (_ ∧ _))

def Bare (text : List Char) : Prop :=
  ∀ char ∈ text, IsBare char

instance (text : List Char) : Decidable (Bare text) :=
  List.decidableBAll IsBare text

theorem bare_cons {char : Char} {text : List Char} :
    Bare (char :: text) ↔ IsBare char ∧ Bare text :=
  List.forall_mem_cons

theorem bare_append {left right : List Char} :
    Bare (left ++ right) ↔ Bare left ∧ Bare right :=
  List.forall_mem_append

theorem Bare.of_subset {text part : List Char} (htext : Bare text) (hsubset : part ⊆ text) :
    Bare part :=
  fun char hmem => htext char (hsubset hmem)

/-! ## Numbers -/

theorem bare_toDigits (value : Nat) : Bare (Nat.toDigits 10 value) := by
  intro char hmem
  have hcode := Digits.toNat_of_isDigit (Digits.isDigit_of_mem hmem)
  refine ⟨⟨by omega, by omega⟩, ?_⟩
  rintro rfl
  exact absurd hcode.1 (by decide)

theorem bare_zeros (count : Nat) : Bare (List.replicate count '0') := by
  intro char hmem
  rw [(List.mem_replicate.mp hmem).2]
  decide

theorem bare_scientificText {digits : List Char} (hdigits : Bare digits) (lead : Int) :
    Bare (Number.scientificText digits lead) := by
  have htake : Bare (digits.take 1) := hdigits.of_subset (List.take_subset 1 digits)
  have hdrop : Bare (digits.drop 1) := hdigits.of_subset (List.drop_subset 1 digits)
  have hsign : IsBare (if lead < 0 then '-' else '+') := by
    split_ifs <;> decide
  simp only [Number.scientificText, bare_append, bare_cons]
  refine ⟨⟨htake, ?_⟩, by decide, hsign, bare_toDigits _⟩
  split
  · exact List.forall_mem_nil _
  · rename_i hrest
    exact bare_cons.mpr ⟨by decide, hdrop⟩

theorem bare_positionalText {digits : List Char} (hdigits : Bare digits) (power lead : Int) :
    Bare (Number.positionalText digits power lead) := by
  have htake : ∀ count, Bare (digits.take count) :=
    fun count => hdigits.of_subset (List.take_subset count digits)
  have hdrop : ∀ count, Bare (digits.drop count) :=
    fun count => hdigits.of_subset (List.drop_subset count digits)
  have hpoint : IsBare '.' ∧ IsBare '0' := by decide
  unfold Number.positionalText
  split_ifs
  · exact bare_append.mpr ⟨bare_append.mpr ⟨hdigits, bare_zeros _⟩, by decide⟩
  · exact bare_append.mpr ⟨htake _, bare_cons.mpr ⟨hpoint.1, hdrop _⟩⟩
  · exact bare_cons.mpr ⟨hpoint.2, bare_cons.mpr
      ⟨hpoint.1, bare_append.mpr ⟨bare_zeros _, hdigits⟩⟩⟩

theorem bare_decimalText (decimal : Double.Decimal) : Bare (Number.decimalText decimal) := by
  unfold Number.decimalText
  simp only
  split_ifs
  · exact bare_scientificText (bare_toDigits _) _
  · exact bare_positionalText (bare_toDigits _) _ _

theorem bare_numberText (value : Number) : Bare value.text := by
  have hminus : IsBare '-' := by decide
  cases value with
  | int value lower upper =>
      rw [Number.text, Number.intText]
      split_ifs
      · exact bare_cons.mpr ⟨hminus, bare_toDigits _⟩
      · exact bare_toDigits _
  | double value =>
      rw [Number.text]
      split_ifs
      · exact bare_cons.mpr ⟨hminus, bare_decimalText _⟩
      · exact bare_decimalText _

/-! ## Values -/

theorem forall_mem_itemChars {P : List Char → Prop} {items : List Json}
    (hitems : ∀ item ∈ items, P item.chars) : ∀ piece ∈ itemChars items, P piece := by
  induction items with
  | nil => simp [itemChars]
  | cons item items ih =>
      obtain ⟨hitem, hitems⟩ := List.forall_mem_cons.mp hitems
      exact List.forall_mem_cons.mpr ⟨hitem, ih hitems⟩

/-- Whether texts that are put together from bare pieces and string literals have a property. -/
structure Composed (P : List Char → Prop) : Prop where
  bare : ∀ text, Bare text → P text
  quoted : ∀ text, P (quoted text)
  append : ∀ left right, P left → P right → P (left ++ right)

namespace Composed

variable {P : List Char → Prop} (hcomposed : Composed P)

include hcomposed

theorem cons {char : Char} {text : List Char} (hchar : IsBare char) (htext : P text) :
    P (char :: text) := by
  have hpiece : Bare [char] := bare_cons.mpr ⟨hchar, List.forall_mem_nil _⟩
  exact hcomposed.append [char] text (hcomposed.bare _ hpiece) htext

theorem separated {pieces : List (List Char)} (hpieces : ∀ piece ∈ pieces, P piece) :
    P (separated pieces) := by
  have hcomma : IsBare ',' := by decide
  induction pieces with
  | nil => exact hcomposed.bare [] (List.forall_mem_nil _)
  | cons piece pieces ih =>
      obtain ⟨hpiece, hpieces⟩ := List.forall_mem_cons.mp hpieces
      cases pieces with
      | nil => exact hpiece
      | cons next rest =>
          rw [Json.separated]
          exact hcomposed.append _ _ hpiece (hcomposed.cons hcomma (ih hpieces))

theorem memberChars {members : Members} (hmembers : ∀ member ∈ members, P member.2.chars) :
    ∀ piece ∈ memberChars members, P piece := by
  have hcolon : IsBare ':' := by decide
  induction members with
  | nil => simp [Json.memberChars]
  | cons member members ih =>
      obtain ⟨name, value⟩ := member
      obtain ⟨hmember, hmembers⟩ := List.forall_mem_cons.mp hmembers
      refine List.forall_mem_cons.mpr ⟨?_, ih hmembers⟩
      exact hcomposed.append _ _ (hcomposed.quoted name) (hcomposed.cons hcolon hmember)

theorem enclosed {first last : Char} {text : List Char} (hfirst : IsBare first)
    (hlast : IsBare last) (htext : P text) : P (first :: text ++ [last]) := by
  have hpiece : Bare [last] := bare_cons.mpr ⟨hlast, List.forall_mem_nil _⟩
  exact hcomposed.append _ _ (hcomposed.cons hfirst htext) (hcomposed.bare _ hpiece)

/-- **What texts are composed of decides what they are.** -/
theorem chars (value : Json) : P value.chars := by
  induction value using tree_induction with
  | null => exact hcomposed.bare _ (by decide)
  | bool value =>
      cases value with
      | false => exact hcomposed.bare _ (by decide)
      | true => exact hcomposed.bare _ (by decide)
  | num value => exact hcomposed.bare _ (bare_numberText value)
  | str value => exact hcomposed.quoted value
  | arr items ih =>
      exact hcomposed.enclosed (by decide) (by decide)
        (hcomposed.separated (forall_mem_itemChars ih))
  | obj members ih =>
      exact hcomposed.enclosed (by decide) (by decide)
        (hcomposed.separated (hcomposed.memberChars ih))

end Composed

end AuctionLog.Json
