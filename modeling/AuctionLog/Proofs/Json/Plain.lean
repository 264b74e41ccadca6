import AuctionLog.Proofs.Json.Composed
import AuctionLog.Proofs.Text.Utf8

/-!
# Texts without control characters

The compact text of a value has no control character in it, whatever texts the value holds: those
that a literal would need are escaped. So it has no line feed either, and fits on a line.
-/

namespace AuctionLog.Json

/-- Whether no character is a control character of ASCII. -/
def Plain (text : List Char) : Prop :=
  ∀ char ∈ text, 0x20 ≤ char.toNat

instance (text : List Char) : Decidable (Plain text) :=
  List.decidableBAll (fun char : Char => 0x20 ≤ char.toNat) text

theorem plain_cons {char : Char} {text : List Char} :
    Plain (char :: text) ↔ 0x20 ≤ char.toNat ∧ Plain text :=
  List.forall_mem_cons

theorem plain_append {left right : List Char} :
    Plain (left ++ right) ↔ Plain left ∧ Plain right :=
  List.forall_mem_append

theorem plain_escaped (char : Char) : Plain (escaped char) := by
  unfold escaped
  split_ifs with _ _ _ _ _ _ _ hcontrol
  any_goals decide
  · have hdigit : ∀ digit < 16, 0x20 ≤ (Nat.digitChar digit).toNat := by decide
    have hslash : Plain ['\\', 'u', '0', '0'] := by decide
    refine plain_append.mpr ⟨hslash, ?_⟩
    exact plain_cons.mpr
      ⟨hdigit _ (by omega), plain_cons.mpr ⟨hdigit _ (by omega), by simp [Plain]⟩⟩
  · exact plain_cons.mpr ⟨Nat.le_of_not_lt hcontrol, by simp [Plain]⟩

theorem composed_plain : Composed Plain where
  bare text htext := by
    intro char hmem
    exact (htext char hmem).1.1.le
  quoted text := by
    have hquote : 0x20 ≤ '"'.toNat := by decide
    refine plain_cons.mpr ⟨hquote, plain_append.mpr ⟨?_, by decide⟩⟩
    intro char hmem
    obtain ⟨origin, -, hescaped⟩ := List.mem_flatMap.mp hmem
    exact plain_escaped origin char hescaped
  append left right hleft hright := plain_append.mpr ⟨hleft, hright⟩

/-- **No text of a value has a control character.** -/
theorem plain_chars (value : Json) : Plain value.chars :=
  composed_plain.chars value

theorem le_of_mem_encode {text : List Char} (htext : Plain text) :
    ∀ byte ∈ Utf8.encode text, 0x20 ≤ byte := by
  induction text with
  | nil => simp
  | cons char text ih =>
      obtain ⟨hchar, htext⟩ := plain_cons.mp htext
      rw [Utf8.encode_cons, List.forall_mem_append]
      refine ⟨fun byte hmem => ?_, ih htext⟩
      by_cases hascii : char.toNat < 0x80
      · rw [Utf8.utf8EncodeChar_of_lt hascii, List.mem_singleton] at hmem
        rw [hmem, UInt8.le_iff_toNat_le, UInt8.toNat_ofNat', Nat.mod_eq_of_lt (by omega)]
        exact hchar
      · have hbyte := Utf8.le_of_mem_utf8EncodeChar (by omega) byte hmem
        exact UInt8.le_trans (by decide) hbyte

theorem lineFeed_notMem_compact (value : Json) : 0x0A ∉ Utf8.encode value.compact.toList := by
  intro hmem
  rw [compact, String.toList_ofList] at hmem
  exact absurd (le_of_mem_encode (plain_chars value) _ hmem) (by decide)

end AuctionLog.Json
