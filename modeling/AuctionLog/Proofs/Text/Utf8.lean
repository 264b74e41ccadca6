import AuctionLog.Text.Utf8
import Mathlib.Tactic.Common

/-!
# Texts and their bytes

Decoding undoes encoding, and a byte below `0x80` stands for itself and for no part of another
character. So whoever looks for the marks of JSON or for line feeds may look at bytes.
-/

namespace AuctionLog.Utf8

@[simp]
theorem encode_nil : encode [] = [] := rfl

@[simp]
theorem encode_cons (char : Char) (text : List Char) :
    encode (char :: text) = String.utf8EncodeChar char ++ encode text := by
  rw [encode, encode, List.flatMap_cons]

@[simp]
theorem encode_append (left right : List Char) :
    encode (left ++ right) = encode left ++ encode right := by
  rw [encode, encode, encode, List.flatMap_append]

theorem utf8EncodeChar_of_lt {char : Char} (hchar : char.toNat < 0x80) :
    String.utf8EncodeChar char = [UInt8.ofNat char.toNat] := by
  have hle : char.val.toNat ≤ 0x7F := by
    change char.toNat ≤ 0x7F
    omega
  unfold String.utf8EncodeChar
  exact if_pos hle

theorem le_ofNat_add {part base : Nat} (hbase : 0x80 ≤ base) (hsum : part + base < 0x100) :
    0x80 ≤ UInt8.ofNat (part + base) := by
  rw [UInt8.le_iff_toNat_le, UInt8.toNat_ofNat', Nat.mod_eq_of_lt hsum]
  exact Nat.le_trans hbase (Nat.le_add_left base part)

/-- No byte of a character beyond ASCII is that of an ASCII one. -/
theorem le_of_mem_utf8EncodeChar {char : Char} (hchar : 0x80 ≤ char.toNat) :
    ∀ byte ∈ String.utf8EncodeChar char, 0x80 ≤ byte := by
  have hle : ¬ char.val.toNat ≤ 0x7F := by
    change ¬ char.toNat ≤ 0x7F
    omega
  unfold String.utf8EncodeChar
  simp only [hle, if_false]
  split_ifs <;> simp only [List.forall_mem_cons, List.not_mem_nil, false_implies, implies_true,
    and_true]
  all_goals repeat' apply And.intro
  all_goals exact le_ofNat_add (by decide) (by omega)

theorem front?_utf8EncodeChar_append (char : Char) (rest : List UInt8) :
    front? (String.utf8EncodeChar char ++ rest) = some char := by
  by_cases hchar : char.toNat < 0x80
  · have hbyte : UInt8.ofNat char.toNat < 0x80 := by
      rw [UInt8.lt_iff_toNat_lt, UInt8.toNat_ofNat']
      simp
      omega
    rw [utf8EncodeChar_of_lt hchar]
    simp only [List.cons_append, List.nil_append, front?, hbyte, if_true]
    rw [UInt8.toNat_ofNat', Nat.mod_eq_of_lt (by omega), Char.ofNat_toNat]
  · obtain ⟨byte, tail, hencode⟩ := List.exists_cons_of_ne_nil (@String.utf8EncodeChar_ne_nil char)
    have hbyte : ¬ byte < 0x80 := by
      rw [UInt8.not_lt]
      exact le_of_mem_utf8EncodeChar (by omega) byte (hencode ▸ List.mem_cons_self ..)
    have hsize : (String.utf8EncodeChar char).length ≤ 4 := by
      rw [String.length_utf8EncodeChar]
      exact char.utf8Size_le_four
    have hfront : front? (byte :: (tail ++ rest)) =
        ((byte :: (tail ++ rest)).take 4).toByteArray.utf8DecodeChar? 0 := by
      simp only [front?, hbyte, if_false]
    rw [hencode, List.cons_append, hfront, ← List.cons_append, ← hencode,
      List.take_append, List.take_of_length_le hsize, List.toByteArray_append]
    exact ByteArray.utf8DecodeChar?_utf8EncodeChar_append

theorem decodeFrom_inside (past : Nat) (text : List Char) (bytes rest : List UInt8) :
    decodeFrom past bytes.length text (bytes ++ rest) =
      decodeFrom (past + bytes.length) 0 text rest := by
  induction bytes generalizing past with
  | nil => rfl
  | cons byte bytes ih =>
      rw [List.length_cons, List.cons_append, decodeFrom, ih, Nat.add_right_comm, Nat.add_assoc]

theorem decodeFrom_encode (past : Nat) (before text : List Char) :
    decodeFrom past 0 before (encode text) = .ok (before.reverse ++ text) := by
  induction text generalizing past before with
  | nil => simp [decodeFrom]
  | cons char text ih =>
      obtain ⟨byte, tail, hencode⟩ :=
        List.exists_cons_of_ne_nil (@String.utf8EncodeChar_ne_nil char)
      have hfront := front?_utf8EncodeChar_append char (encode text)
      have htail : char.utf8Size - 1 = tail.length := by
        rw [← String.length_utf8EncodeChar, hencode, List.length_cons, Nat.add_sub_cancel]
      rw [hencode, List.cons_append] at hfront
      rw [encode_cons, hencode, List.cons_append, decodeFrom]
      simp only [hfront, htail, decodeFrom_inside, ih]
      simp

theorem decode_encode (text : List Char) : decode (encode text) = .ok text :=
  decodeFrom_encode 0 [] text

/-! ## Cutting -/

@[simp]
theorem width_nil : width [] = 0 := rfl

theorem width_cons (char : Char) (text : List Char) :
    width (char :: text) = char.utf8Size + width text := by
  rw [width, encode_cons, List.length_append, String.length_utf8EncodeChar, width]

theorem width_append (left right : List Char) :
    width (left ++ right) = width left + width right := by
  rw [width, encode_append, List.length_append, width, width]

theorem width_eq_zero_iff {text : List Char} : width text = 0 ↔ text = [] := by
  cases text with
  | nil => simp [width]
  | cons char rest =>
      have hsize := char.utf8Size_pos
      simp [width_cons, Nat.ne_of_gt hsize]

theorem width_toList (text : String) : width text.toList = text.utf8ByteSize := by
  rw [width, encode, ← List.size_toByteArray, ← String.size_toByteArray]
  conv_rhs => rw [← String.ofList_toList (s := text), String.toByteArray_ofList]
  rfl

theorem splitAt?_append (before after : List Char) :
    splitAt? (width before) (before ++ after) = some (before, after) := by
  induction before with
  | nil => cases after <;> rfl
  | cons char before ih =>
      have hsize := char.utf8Size_pos
      rw [List.cons_append, width_cons, splitAt?, if_neg (by omega), if_pos (Nat.le_add_right _ _),
        Nat.add_sub_cancel_left, ih]
      rfl

theorem splitAt?_eq_some_iff {index : Nat} {text before after : List Char} :
    splitAt? index text = some (before, after) ↔ text = before ++ after ∧ width before = index := by
  constructor
  · intro hsplit
    induction text generalizing index before with
    | nil =>
        simp only [splitAt?, Option.ite_none_right_eq_some, Option.some.injEq, Prod.mk.injEq]
          at hsplit
        obtain ⟨rfl, rfl, rfl⟩ := hsplit
        exact ⟨rfl, rfl⟩
    | cons char rest ih =>
        rw [splitAt?] at hsplit
        split_ifs at hsplit with hstart hsize
        · obtain ⟨rfl, rfl⟩ := Prod.mk.inj (Option.some.inj hsplit)
          exact ⟨rfl, hstart.symm⟩
        · obtain ⟨⟨before, after⟩, hrest, hpair⟩ := Option.map_eq_some_iff.mp hsplit
          obtain ⟨rfl, rfl⟩ := Prod.mk.inj hpair
          obtain ⟨rfl, hwidth⟩ := ih hrest
          refine ⟨rfl, ?_⟩
          rw [width_cons, hwidth, Nat.add_sub_cancel' hsize]
  · rintro ⟨rfl, rfl⟩
    exact splitAt?_append before after

/-- Whether a byte of a text is the first one of a character, or the end of the text. -/
def IsBoundary (text : List Char) (index : Nat) : Prop :=
  ∃ before after, text = before ++ after ∧ width before = index

theorem splitAt?_eq_none_iff {index : Nat} {text : List Char} :
    splitAt? index text = none ↔ ¬ IsBoundary text index := by
  rw [Option.eq_none_iff_forall_ne_some]
  constructor
  · rintro hnone ⟨before, after, htext⟩
    exact hnone (before, after) (splitAt?_eq_some_iff.mpr htext)
  · rintro hinside ⟨before, after⟩ hsplit
    exact hinside ⟨before, after, splitAt?_eq_some_iff.mp hsplit⟩

theorem isBoundary_width (text : List Char) : IsBoundary text (width text) :=
  ⟨text, [], (List.append_nil text).symm, rfl⟩

theorem IsBoundary.le_utf8ByteSize {text : String} {index : Nat}
    (hboundary : IsBoundary text.toList index) : index ≤ text.utf8ByteSize := by
  obtain ⟨before, after, htext, rfl⟩ := hboundary
  rw [← width_toList, htext, width_append]
  exact Nat.le_add_right _ _

theorem isBoundary_append_iff {before rest : List Char} {index : Nat} (hle : width before ≤ index) :
    IsBoundary (before ++ rest) index ↔ IsBoundary rest (index - width before) := by
  constructor
  · rintro ⟨left, right, htext, rfl⟩
    rcases List.append_eq_append_iff.mp htext with ⟨part, rfl, rfl⟩ | ⟨part, rfl, rfl⟩
    · exact ⟨part, right, rfl, by rw [width_append, Nat.add_sub_cancel_left]⟩
    · rw [width_append] at hle
      obtain rfl : part = [] := width_eq_zero_iff.mp (by omega)
      exact ⟨[], rest, rfl, by simp [width]⟩
  · rintro ⟨part, right, rfl, hpart⟩
    refine ⟨before ++ part, right, (List.append_assoc ..).symm, ?_⟩
    rw [width_append, hpart, Nat.add_sub_cancel' hle]

/-- Whether characters stand in a text from a byte on. -/
def StandsAt (text : String) (start : Nat) (chars : List Char) : Prop :=
  ∃ before after, text.toList = before ++ chars ++ after ∧ width before = start

section StandsAt

variable {text : String} {start : Nat} {part rest : List Char}

theorem StandsAt.isBoundary (hstands : StandsAt text start rest) :
    IsBoundary text.toList start := by
  obtain ⟨before, after, htext, hstart⟩ := hstands
  exact ⟨before, rest ++ after, htext.trans (List.append_assoc ..), hstart⟩

theorem StandsAt.skip (hstands : StandsAt text start (part ++ rest)) :
    StandsAt text (start + width part) rest := by
  obtain ⟨before, after, htext, rfl⟩ := hstands
  exact ⟨before ++ part, after, by rw [htext, ← List.append_assoc before], width_append ..⟩

/-- What stands somewhere in a text is cut out of it there. -/
theorem StandsAt.slice_eq_ok (hstands : StandsAt text start (part ++ rest)) :
    slice text start (start + width part) = .ok (String.ofList part) := by
  obtain ⟨before, after, htext, rfl⟩ := hstands
  rw [slice, htext, List.append_assoc, List.append_assoc, splitAt?_append]
  simp only [Nat.add_sub_cancel_left, splitAt?_append]

end StandsAt

/-- **Cutting goes wrong inside a character** and nowhere else. -/
theorem exists_slice_eq_error_iff {text : String} {start stop : Nat} (hle : start ≤ stop) :
    (∃ miscut, slice text start stop = .error miscut) ↔
      ¬ IsBoundary text.toList start ∨ ¬ IsBoundary text.toList stop := by
  cases hstart : splitAt? start text.toList with
  | none => simp [slice, hstart, splitAt?_eq_none_iff.mp hstart]
  | some found =>
      obtain ⟨before, rest⟩ := found
      obtain ⟨htext, rfl⟩ := splitAt?_eq_some_iff.mp hstart
      have hboundary : IsBoundary text.toList (width before) := ⟨before, rest, htext, rfl⟩
      rw [or_iff_right (not_not.mpr hboundary), htext, isBoundary_append_iff hle,
        ← splitAt?_eq_none_iff, slice, hstart]
      cases hstop : splitAt? (stop - width before) rest <;> simp [hstop]

end AuctionLog.Utf8
