import AuctionLog.Text.Ascii
import Mathlib.Tactic.Common

/-!
# Letter case

Texts that agree but for letter case agree in upper case. Upper case leaves no letter that is in
lower case, and changes nothing where there is none.
-/

namespace AuctionLog.Ascii

/-! ## Characters -/

/-- What stands no later than a character of ASCII is one of ASCII. -/
theorem lt_of_le_val {char last : Char} (hlast : last.toNat < 128) (hle : char.val ≤ last.val) :
    char.toNat < 128 :=
  Nat.lt_of_le_of_lt (UInt32.le_iff_toNat_le.mp hle) hlast

theorem lt_of_isUpper {char : Char} (hupper : char.isUpper) : char.toNat < 128 :=
  @lt_of_le_val char 'Z' (by decide) (of_decide_eq_true hupper).2

theorem lt_of_isLower {char : Char} (hlower : char.isLower) : char.toNat < 128 :=
  @lt_of_le_val char 'z' (by decide) (of_decide_eq_true (Bool.and_eq_true_iff.mp hlower).2)

theorem lt_of_isAlphanum {char : Char} (halphanum : char.isAlphanum) : char.toNat < 128 := by
  rcases Bool.or_eq_true_iff.mp halphanum with halpha | hdigit
  · rcases Bool.or_eq_true_iff.mp halpha with hupper | hlower
    · exact lt_of_isUpper hupper
    · exact lt_of_isLower hlower
  · exact @lt_of_le_val char '9' (by decide) (of_decide_eq_true (Bool.and_eq_true_iff.mp hdigit).2)

theorem toLower_of_not_ascii {char : Char} (hchar : 128 ≤ char.toNat) : char.toLower = char := by
  refine dif_neg fun hupper => absurd hchar (Nat.not_le.mpr ?_)
  exact @lt_of_le_val char 'Z' (by decide) hupper.2

theorem toUpper_of_not_ascii {char : Char} (hchar : 128 ≤ char.toNat) : char.toUpper = char := by
  refine dif_neg fun hlower => absurd hchar (Nat.not_le.mpr ?_)
  exact @lt_of_le_val char 'z' (by decide) hlower.2

theorem not_isLower_of_not_ascii {char : Char} (hchar : 128 ≤ char.toNat) : ¬ char.isLower :=
  fun hlower => absurd hchar (Nat.not_le.mpr (lt_of_isLower hlower))

/-- What holds of the characters of ASCII and of all beyond holds of every one. -/
theorem forall_of_ascii {P : Char → Prop} (hascii : ∀ code : Fin 128, P (Char.ofNat code))
    (hother : ∀ char : Char, 128 ≤ char.toNat → P char) (char : Char) : P char := by
  by_cases hchar : char.toNat < 128
  · have hcode := hascii ⟨char.toNat, hchar⟩
    rwa [Char.ofNat_toNat] at hcode
  · exact hother char (Nat.not_lt.mp hchar)

theorem toLower_of_isDigit : ∀ char : Char, char.isDigit → char.toLower = char :=
  forall_of_ascii (by decide) fun _ hchar _ => toLower_of_not_ascii hchar

theorem toUpper_of_not_isLower : ∀ char : Char, ¬ char.isLower → char.toUpper = char :=
  forall_of_ascii (by decide) fun _ hchar _ => toUpper_of_not_ascii hchar

theorem not_isLower_toUpper : ∀ char : Char, ¬ char.toUpper.isLower := by
  refine forall_of_ascii (by decide) fun char hchar => ?_
  rw [toUpper_of_not_ascii hchar]
  exact not_isLower_of_not_ascii hchar

theorem toUpper_toLower : ∀ char : Char, char.toLower.toUpper = char.toUpper :=
  forall_of_ascii (by decide) fun char hchar => by rw [toLower_of_not_ascii hchar]

/-! ## Texts -/

theorem map_toLower_of_isDigit {digits : List Char} (hdigits : ∀ char ∈ digits, char.isDigit) :
    digits.map Char.toLower = digits := by
  have hsame : digits.map Char.toLower = digits.map id :=
    List.map_congr_left fun char hmem => toLower_of_isDigit char (hdigits char hmem)
  rw [hsame, List.map_id]

theorem upper_of_not_isLower {text : String} (htext : ∀ char ∈ text.toList, ¬ char.isLower) :
    upper text = text := by
  have hmap : text.toList.map Char.toUpper = text.toList.map id :=
    List.map_congr_left fun char hmem => toUpper_of_not_isLower char (htext char hmem)
  rw [← String.toList_inj, upper, String.toList_map, hmap, List.map_id]

theorem not_isLower_of_mem_upper {text : String} :
    ∀ char ∈ (upper text).toList, ¬ char.isLower := by
  rw [upper, String.toList_map]
  exact List.forall_mem_map.mpr fun char _ => not_isLower_toUpper char

theorem upper_fold (text : String) : upper (fold text) = upper text := by
  rw [← String.toList_inj, upper, fold, upper, String.toList_map, String.toList_map,
    String.toList_map, List.map_map]
  exact List.map_congr_left fun char _ => toUpper_toLower char

theorem upper_eq_of_sameFold {left right : String} (hsame : sameFold left right) :
    upper left = upper right := by
  rw [← upper_fold left, ← upper_fold right, beq_iff_eq.mp hsame]

end AuctionLog.Ascii
