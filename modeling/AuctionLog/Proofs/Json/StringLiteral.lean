import AuctionLog.Json.StringLiteral
import AuctionLog.Json.Writer
import AuctionLog.Proofs.Text.Utf8

/-!
# String literals read back

Whatever a text holds, its literal is read back as that text. The reader is a machine that takes a
byte at a time, so the proof follows it over the bytes of one character at a time: one that is
escaped, and one that stands for itself.
-/

namespace AuctionLog.Json.StringLiteral

variable {start bytes rest : List UInt8} {char : Char}

theorem readFrom_plain_append (taken : List UInt8)
    (htaken : ∀ byte ∈ taken, byte ≠ 0x22 ∧ byte ≠ 0x5C ∧ 0x20 ≤ byte) :
    readFrom start .plain bytes (taken ++ rest) =
      readFrom start .plain (taken.reverse ++ bytes) rest := by
  induction taken generalizing bytes with
  | nil => rfl
  | cons byte taken ih =>
      obtain ⟨⟨hquote, hslash, hcontrol⟩, htaken⟩ := List.forall_mem_cons.mp htaken
      rw [List.cons_append, readFrom]
      simp only [hquote, hslash, UInt8.not_lt.mpr hcontrol, if_false]
      rw [ih htaken, List.reverse_cons, List.append_assoc, List.singleton_append]

theorem readFrom_unescaped (hquote : char ≠ '"') (hslash : char ≠ '\\')
    (hplain : 0x20 ≤ char.toNat) :
    readFrom start .plain bytes (String.utf8EncodeChar char ++ rest) =
      readFrom start .plain (pushChar char bytes) rest := by
  refine readFrom_plain_append _ fun byte hmem => ?_
  by_cases hchar : char.toNat < 0x80
  · rw [Utf8.utf8EncodeChar_of_lt hchar, List.mem_singleton] at hmem
    subst hmem
    have hnotQuote : char.toNat ≠ 0x22 := fun heq => hquote (Char.toNat_inj.mp heq)
    have hnotSlash : char.toNat ≠ 0x5C := fun heq => hslash (Char.toNat_inj.mp heq)
    have hbyte : (UInt8.ofNat char.toNat).toNat = char.toNat := by
      rw [UInt8.toNat_ofNat', Nat.mod_eq_of_lt (by omega)]
    simp only [ne_eq, ← UInt8.toNat_inj, UInt8.le_iff_toNat_le, hbyte]
    exact ⟨hnotQuote, hnotSlash, hplain⟩
  · have hbyte := Utf8.le_of_mem_utf8EncodeChar (by omega) byte hmem
    rw [UInt8.le_iff_toNat_le] at hbyte
    simp only [ne_eq, ← UInt8.toNat_inj, UInt8.le_iff_toNat_le]
    simp only [UInt8.reduceToNat] at hbyte ⊢
    omega

theorem readFrom_short {letter : UInt8} (hletter : letter ≠ 0x75)
    (hshort : shortEscape? letter = some char) :
    readFrom start .plain bytes (0x5C :: letter :: rest) =
      readFrom start .plain (pushChar char bytes) rest := by
  simp [readFrom, hletter, hshort]

theorem readFrom_group {first second third fourth : UInt8} {value : Nat}
    (hvalue : hexValue? [first, second, third, fourth] = some value) (hlow : value < 0xD800) :
    readFrom start .plain bytes (0x5C :: 0x75 :: first :: second :: third :: fourth :: rest) =
      readFrom start .plain (pushChar (Char.ofNat value) bytes) rest := by
  have hleading : ¬ (0xD800 ≤ value ∧ value < 0xDC00) := by omega
  have htrailing : ¬ (0xDC00 ≤ value ∧ value < 0xE000) := by omega
  simp [readFrom, groupOf, hvalue, hleading, htrailing]

theorem hexValue?_control :
    ∀ code < 0x20, hexValue? (Utf8.encode
      ['0', '0', Nat.digitChar (code / 16), Nat.digitChar (code % 16)]) = some code := by
  decide

/-- A character as it stands in a literal, escaped or not. -/
theorem readFrom_escaped (char : Char) :
    readFrom start .plain bytes (Utf8.encode (escaped char) ++ rest) =
      readFrom start .plain (pushChar char bytes) rest := by
  unfold escaped
  split_ifs with hquote hslash hbackspace hfeed hline hreturn htab hcontrol
  · subst hquote
    exact readFrom_short (by decide) rfl
  · subst hslash
    exact readFrom_short (by decide) rfl
  · exact hbackspace ▸ readFrom_short (by decide) rfl
  · exact hfeed ▸ readFrom_short (by decide) rfl
  · exact hline ▸ readFrom_short (by decide) rfl
  · exact hreturn ▸ readFrom_short (by decide) rfl
  · exact htab ▸ readFrom_short (by decide) rfl
  · have hvalue := hexValue?_control char.toNat hcontrol
    have hdigit : ∀ digit < 16, String.utf8EncodeChar (Nat.digitChar digit) =
        [UInt8.ofNat (Nat.digitChar digit).toNat] := by
      decide
    have hhigh := hdigit (char.toNat / 16) (by omega)
    have hlow := hdigit (char.toNat % 16) (by omega)
    simp only [Utf8.encode_cons, Utf8.encode_nil, hhigh, hlow] at hvalue ⊢
    have hgroup := @readFrom_group start bytes rest _ _ _ _ _ hvalue (by omega)
    rwa [Char.ofNat_toNat] at hgroup
  · rw [Utf8.encode_cons, Utf8.encode_nil, List.append_nil]
    exact readFrom_unescaped hquote hslash (by omega)

theorem readFrom_text (text : List Char) :
    readFrom start .plain bytes (Utf8.encode (text.flatMap escaped) ++ rest) =
      readFrom start .plain ((Utf8.encode text).reverse ++ bytes) rest := by
  induction text generalizing bytes with
  | nil => rfl
  | cons char text ih =>
      rw [List.flatMap_cons, Utf8.encode_append, List.append_assoc, readFrom_escaped, ih]
      simp [pushChar]

/-- **A literal reads back as its text**, whatever comes after it. -/
theorem read_text (text : String) (rest : List UInt8) :
    read (Utf8.encode (text.toList.flatMap escaped) ++ 0x22 :: rest) = .ok (text, rest) := by
  rw [read, readFrom_text, List.append_nil, readFrom]
  simp [close, Utf8.decode_encode]

end AuctionLog.Json.StringLiteral
