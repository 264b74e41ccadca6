import AuctionLog.Proofs.Text.Utf8
import Mathlib.Data.List.Lex
import Mathlib.Data.String.Basic

/-!
# The order of texts and of their bytes

UTF-8 keeps the order of texts: a text that comes before another one by its characters does so by
its bytes.
-/

namespace AuctionLog.Utf8

theorem ofNat_cons_lt {first second : Nat} (hfirst : first < 256) (hsecond : second < 256)
    (left right : List UInt8) :
    UInt8.ofNat first :: left < UInt8.ofNat second :: right ↔
      first < second ∨ first = second ∧ left < right := by
  have heq : UInt8.ofNat first = UInt8.ofNat second ↔ first = second := by
    rw [← UInt8.toNat_inj, UInt8.toNat_ofNat', UInt8.toNat_ofNat', Nat.mod_eq_of_lt hfirst,
      Nat.mod_eq_of_lt hsecond]
  rw [List.cons_lt_cons_iff, UInt8.ofNat_lt_iff_lt hfirst hsecond, heq]

theorem utf8EncodeChar_append_lt {first second : Char} (hlt : first < second)
    (left right : List UInt8) :
    String.utf8EncodeChar first ++ left < String.utf8EncodeChar second ++ right := by
  have hcode : first.val.toNat < second.val.toNat := hlt
  have hmax : second.val.toNat < 0x110000 := by
    rcases second.valid with hlow | hhigh
    · exact hlow.trans (by decide)
    · exact hhigh.2
  have hdigits : ∀ code : Nat, code < 0x110000 →
      code / 64 / 64 = code / 4096 ∧ code / 4096 / 64 = code / 262144 ∧ code / 262144 / 8 = 0 := by
    intro code hcode
    omega
  have hfirst := hdigits first.val.toNat (hcode.trans hmax)
  have hsecond := hdigits second.val.toNat hmax
  unfold String.utf8EncodeChar
  -- A longer code starts with a greater byte; codes of one length differ in some digit.
  simp only
  split_ifs <;>
    simp (disch := omega) only [List.cons_append, ofNat_cons_lt] <;>
    omega

/-- **Bytes are ordered as the texts that they encode.** -/
theorem encode_lt_encode {left right : List Char} (hlt : left < right) :
    encode left < encode right := by
  induction left generalizing right with
  | nil =>
      cases right with
      | nil => exact absurd hlt (lt_irrefl _)
      | cons char right =>
          obtain ⟨byte, tail, hencode⟩ :=
            List.exists_cons_of_ne_nil (@String.utf8EncodeChar_ne_nil char)
          rw [encode_nil, encode_cons, hencode, List.cons_append]
          exact List.nil_lt_cons _ _
  | cons char left ih =>
      cases right with
      | nil => exact absurd hlt (List.not_lt_nil _)
      | cons other right =>
          rw [encode_cons, encode_cons]
          rcases List.cons_lt_cons_iff.mp hlt with hchar | ⟨rfl, hrest⟩
          · exact utf8EncodeChar_append_lt hchar _ _
          · exact List.append_left_lt (ih hrest)

end AuctionLog.Utf8
