import AuctionLog.Proofs.Json.Fits
import AuctionLog.Proofs.Json.Literals
import Mathlib.Data.List.TakeWhile

/-!
# What is read as a literal

The readers of strings and numbers take nothing but literals as the grammar has them: whatever they
read off the front of a text is made of the pieces of a string with its closing quote, or of the
digits of a number with its point and exponent.
-/

namespace AuctionLog.Json

theorem stop_ne_ok {α : Type} {reason : Reason} {rest : List UInt8} {result : α} :
    stop reason rest ≠ .ok result := by
  intro hread
  cases hread

namespace StringLiteral

/-- The part of a piece that has been read at a place. -/
def begun : Place → List UInt8
  | .plain => []
  | .escape => [0x5C]
  | .hex _ digits => 0x5C :: 0x75 :: digits
  | .pairSlash _ => []
  | .pairLetter _ => [0x5C]

theorem isSome_hexDigit?_of_hexValue? {digits : List UInt8} {value : Nat}
    (hvalue : hexValue? digits = some value) : ∀ digit ∈ digits, (hexDigit? digit).isSome := by
  rw [hexValue?] at hvalue
  generalize 0 = start at hvalue
  induction digits generalizing start with
  | nil => exact List.forall_mem_nil _
  | cons digit digits ih =>
      rw [List.foldlM_cons, Option.bind_eq_bind, Option.bind_eq_some_iff] at hvalue
      obtain ⟨next, hdigit, hvalue⟩ := hvalue
      refine List.forall_mem_cons.mpr ⟨?_, ih next hvalue⟩
      rw [Option.map_eq_some_iff] at hdigit
      obtain ⟨_, hdigit, -⟩ := hdigit
      rw [hdigit, Option.isSome_some]

/-- A group of four hexadecimal digits before other pieces. -/
theorem exists_pieces_of_group {digits input rest : List UInt8} {value : Nat} {pieces : List Piece}
    (hlength : digits.length = 4) (hvalue : hexValue? digits = some value)
    (hpieces : input = written pieces ++ rest) :
    ∃ pieces, 0x5C :: 0x75 :: (digits ++ input) = written pieces ++ rest := by
  have hdigits := isSome_hexDigit?_of_hexValue? hvalue
  rcases digits with _ | ⟨first, _ | ⟨second, _ | ⟨third, _ | ⟨fourth, _ | _⟩⟩⟩⟩ <;>
    simp only [List.length_cons, List.length_nil, Nat.reduceAdd, Nat.reduceEqDiff] at hlength
  refine ⟨.group first second third fourth hdigits :: pieces, ?_⟩
  rw [written_cons, List.append_assoc, ← hpieces]
  rfl

/-- Whether an input is made of pieces up to its closing quote, wherever it is read on as a string
literal. The first of them may have been begun before. -/
def MadeOfPieces (start input rest : List UInt8) (value : String) : Prop :=
  ∀ (place : Place) (bytes : List UInt8), (begun place).length ≤ 5 →
    readFrom start place bytes input = .ok (value, rest) →
    ∃ pieces, begun place ++ input = written pieces ++ 0x22 :: rest

section Step

variable {start input rest bytes : List UInt8} {byte : UInt8} {value : String}
  (hmade : MadeOfPieces start input rest value)

include hmade

theorem MadeOfPieces.plain
    (hread : readFrom start .plain bytes (byte :: input) = .ok (value, rest)) :
    ∃ pieces, byte :: input = written pieces ++ 0x22 :: rest := by
  rw [readFrom] at hread
  split_ifs at hread with hquote hslash hcontrol
  · rw [close] at hread
    cases hdecode : Utf8.decode bytes.reverse with
    | error valid => simp [hdecode, stop] at hread
    | ok text =>
        simp only [hdecode, Except.ok.injEq, Prod.mk.injEq] at hread
        exact ⟨[], by rw [hquote, hread.2]; rfl⟩
  · rw [hslash]
    exact hmade .escape bytes (by decide) hread
  · exact absurd hread stop_ne_ok
  · obtain ⟨pieces, hpieces⟩ := hmade .plain _ (by decide) hread
    refine ⟨.plain byte ⟨hquote, hslash, UInt8.not_lt.mp hcontrol⟩ :: pieces, ?_⟩
    rw [written_cons, List.append_assoc, ← hpieces]
    rfl

theorem MadeOfPieces.escape
    (hread : readFrom start .escape bytes (byte :: input) = .ok (value, rest)) :
    ∃ pieces, 0x5C :: byte :: input = written pieces ++ 0x22 :: rest := by
  rw [readFrom] at hread
  split_ifs at hread with hletter
  · rw [hletter]
    exact hmade (.hex none []) bytes (by decide) hread
  · cases hshort : shortEscape? byte with
    | none => simp [hshort, stop] at hread
    | some char =>
        rw [hshort] at hread
        obtain ⟨pieces, hpieces⟩ := hmade .plain _ (by decide) hread
        refine ⟨.short byte (by rw [hshort, Option.isSome_some]) :: pieces, ?_⟩
        rw [written_cons, List.append_assoc, ← hpieces]
        rfl

theorem MadeOfPieces.hex {leading : Option Nat} {digits : List UInt8} (hdigits : digits.length ≤ 3)
    (hread : readFrom start (.hex leading digits) bytes (byte :: input) = .ok (value, rest)) :
    ∃ pieces, 0x5C :: 0x75 :: (digits ++ byte :: input) = written pieces ++ 0x22 :: rest := by
  rw [List.append_cons]
  rw [readFrom] at hread
  split_ifs at hread with hmore
  · exact hmade (.hex leading (digits ++ [byte])) bytes
      (by simp only [begun, List.length_cons, List.length_append, List.length_nil]; omega) hread
  · have hlength : (digits ++ [byte]).length = 4 := by
      rw [List.length_append, List.length_singleton]
      omega
    cases hvalue : hexValue? (digits ++ [byte]) with
    | none => simp [groupOf, hvalue, stop] at hread
    | some value =>
        cases hgroup : groupOf leading (digits ++ [byte]) with
        | bad reason => simp [hgroup, stop] at hread
        | char char =>
            rw [hgroup] at hread
            obtain ⟨pieces, hpieces⟩ := hmade .plain _ (by decide) hread
            exact exists_pieces_of_group hlength hvalue hpieces
        | leading value =>
            rw [hgroup] at hread
            obtain ⟨pieces, hpieces⟩ := hmade (.pairSlash value) _ (by simp [begun]) hread
            exact exists_pieces_of_group hlength hvalue hpieces

end Step

/-- **A string literal is made of pieces**, from wherever it is read on. -/
theorem madeOfPieces (start input rest : List UInt8) (value : String) :
    MadeOfPieces start input rest value := by
  induction input with
  | nil => exact fun _ _ _ hread => absurd hread stop_ne_ok
  | cons byte input ih =>
      intro place bytes hplace hread
      cases place with
      | plain => exact ih.plain hread
      | escape => exact ih.escape hread
      | hex leading digits =>
          exact ih.hex (Nat.le_of_succ_le_succ (Nat.le_of_succ_le_succ hplace)) hread
      | pairSlash leading =>
          rw [readFrom] at hread
          split_ifs at hread with hslash
          · rw [hslash]
            exact ih (.pairLetter leading) bytes (by simp [begun]) hread
          · exact absurd hread stop_ne_ok
      | pairLetter leading =>
          rw [readFrom] at hread
          split_ifs at hread with hletter
          · rw [hletter]
            exact ih (.hex (some leading) []) bytes (by simp [begun]) hread
          · exact absurd hread stop_ne_ok

/-- A string that is read is a literal up to its closing quote. -/
theorem exists_pieces_of_read {input rest : List UInt8} {value : String}
    (hread : read input = .ok (value, rest)) : ∃ pieces, input = written pieces ++ 0x22 :: rest :=
  madeOfPieces input input rest value .plain [] (by decide) hread

end StringLiteral

namespace NumberLiteral

/-- Whether bytes are decimal digits, one or more. -/
def Digital (bytes : List UInt8) : Prop :=
  (∀ byte ∈ bytes, isDigit byte) ∧ bytes ≠ []

theorem exists_chars {bytes : List UInt8} (hbytes : ∀ byte ∈ bytes, isDigit byte) :
    ∃ digits : List Char, (∀ char ∈ digits, char.isDigit) ∧ Utf8.encode digits = bytes := by
  induction bytes with
  | nil => exact ⟨[], List.forall_mem_nil _, rfl⟩
  | cons byte bytes ih =>
      obtain ⟨hbyte, hbytes⟩ := List.forall_mem_cons.mp hbytes
      obtain ⟨digits, hdigits, hencode⟩ := ih hbytes
      have hrange : 48 ≤ byte.toNat ∧ byte.toNat ≤ 57 := by
        simp only [isDigit, Bool.and_eq_true, decide_eq_true_eq, UInt8.le_iff_toNat_le] at hbyte
        exact hbyte
      have hall : ∀ digit < 10, (Nat.digitChar digit).isDigit ∧
          (Nat.digitChar digit).toNat = 48 + digit := by
        decide
      obtain ⟨hchar, hcode⟩ := hall (byte.toNat - 48) (by omega)
      have hsame : 48 + (byte.toNat - 48) = byte.toNat := by omega
      refine ⟨_ :: digits, List.forall_mem_cons.mpr ⟨hchar, hdigits⟩, ?_⟩
      rw [encode_digit_cons hchar, hencode, hcode, hsame, UInt8.ofNat_toNat]

section Groups

variable {input digits rest : List UInt8}

theorem digital_takeWhile {byte : UInt8} (hbyte : isDigit byte) (after : List UInt8) :
    byte :: after = (byte :: after).takeWhile isDigit ++ (byte :: after).dropWhile isDigit ∧
      Digital ((byte :: after).takeWhile isDigit) := by
  refine ⟨List.takeWhile_append_dropWhile.symm, ?_, ?_⟩
  · exact fun _ hmem => List.mem_takeWhile_imp hmem
  · simp [hbyte]

theorem readDigits_eq_ok (hread : readDigits input = .ok (digits, rest)) :
    input = digits ++ rest ∧ Digital digits := by
  cases input with
  | nil => exact absurd hread stop_ne_ok
  | cons byte after =>
      rw [readDigits] at hread
      split_ifs at hread with hbyte
      · obtain ⟨rfl, rfl⟩ := Prod.mk.inj (Except.ok.inj hread)
        exact digital_takeWhile hbyte after
      · exact absurd hread stop_ne_ok

theorem readWhole_eq_ok (hread : readWhole input = .ok (digits, rest)) :
    input = digits ++ rest ∧ Digital digits ∧ ∀ more, digits = 0x30 :: more → more = [] := by
  cases input with
  | nil => exact absurd hread stop_ne_ok
  | cons byte after =>
      unfold readWhole at hread
      simp only at hread
      split_ifs at hread with hzero hbyte
      · have halone : digits = [byte] ∧ rest = after := by
          cases after with
          | nil =>
              obtain ⟨rfl, rfl⟩ := Prod.mk.inj (Except.ok.inj hread)
              exact ⟨rfl, rfl⟩
          | cons next after =>
              simp only at hread
              split_ifs at hread with hnext
              · exact absurd hread stop_ne_ok
              · obtain ⟨rfl, rfl⟩ := Prod.mk.inj (Except.ok.inj hread)
                exact ⟨rfl, rfl⟩
        obtain ⟨rfl, rfl⟩ := halone
        refine ⟨rfl, ⟨?_, List.cons_ne_nil byte []⟩, ?_⟩
        · rw [hzero]
          exact List.forall_mem_singleton.mpr rfl
        · intro more heq
          exact (List.cons.inj heq).2.symm
      · obtain ⟨rfl, rfl⟩ := Prod.mk.inj (Except.ok.inj hread)
        obtain ⟨hsplit, hdigital⟩ := digital_takeWhile hbyte after
        refine ⟨hsplit, hdigital, ?_⟩
        intro more heq
        rw [List.takeWhile_cons_of_pos hbyte] at heq
        exact absurd (List.cons.inj heq).1 hzero
      · exact absurd hread stop_ne_ok

theorem readFraction_eq_ok (hread : readFraction input = .ok (digits, rest)) :
    ∃ fraction : List Char, (∀ char ∈ fraction, char.isDigit) ∧
      input = Utf8.encode (pointed fraction) ++ rest := by
  cases input with
  | nil =>
      obtain ⟨rfl, rfl⟩ := Prod.mk.inj (Except.ok.inj hread)
      exact ⟨[], List.forall_mem_nil _, rfl⟩
  | cons byte after =>
      rw [readFraction] at hread
      split_ifs at hread with hpoint
      · obtain ⟨hsplit, hdigits, hsome⟩ := readDigits_eq_ok hread
        obtain ⟨fraction, hfraction, rfl⟩ := exists_chars hdigits
        refine ⟨fraction, hfraction, ?_⟩
        cases fraction with
        | nil => exact absurd rfl hsome
        | cons char more => rw [hsplit, hpoint]; rfl
      · obtain ⟨rfl, rfl⟩ := Prod.mk.inj (Except.ok.inj hread)
        exact ⟨[], List.forall_mem_nil _, rfl⟩

theorem readExponentDigits_eq_ok {bounded : Bool} {value power : Nat}
    (hread : readExponentDigits bounded value input = .ok (power, rest)) :
    ∃ digits : List UInt8, input = digits ++ rest ∧ (∀ byte ∈ digits, isDigit byte) ∧
      ∀ byte ∈ input.head?, isDigit byte → digits ≠ [] := by
  induction input generalizing value with
  | nil =>
      obtain ⟨-, rfl⟩ := Prod.mk.inj (Except.ok.inj hread)
      exact ⟨[], rfl, List.forall_mem_nil _, by simp⟩
  | cons byte after ih =>
      rw [readExponentDigits] at hread
      simp only at hread
      split_ifs at hread with hbyte hgreat
      · exact absurd hread stop_ne_ok
      · obtain ⟨digits, rfl, hdigits, -⟩ := ih hread
        exact ⟨byte :: digits, rfl, List.forall_mem_cons.mpr ⟨hbyte, hdigits⟩, by simp⟩
      · obtain ⟨-, rfl⟩ := Prod.mk.inj (Except.ok.inj hread)
        exact ⟨[], rfl, List.forall_mem_nil _, by simpa using hbyte⟩

/-- What is left of an exponent after its sign, if it has one. -/
theorem exists_sign (input : List UInt8) :
    ∃ minus? : Option Bool, input =
      (minus?.map fun minus => if minus then 0x2D else 0x2B).toList ++
        if input.head? == some 0x2D || input.head? == some 0x2B then input.drop 1 else input := by
  cases input with
  | nil => exact ⟨none, rfl⟩
  | cons byte after =>
      by_cases hminus : byte = 0x2D
      · exact ⟨some true, by simp [hminus]⟩
      · by_cases hplus : byte = 0x2B
        · exact ⟨some false, by simp [hplus]⟩
        · exact ⟨none, by simp [beq_false_of_ne hminus, beq_false_of_ne hplus]⟩

theorem readExponent_eq_ok {isZero : Bool} {power : Int}
    (hread : readExponent isZero input = .ok (power, rest)) (upper : Bool) :
    ∃ exponent : ExponentText, exponent.upper = upper ∧ input = exponent.signed ++ rest := by
  obtain ⟨minus?, hinput⟩ := exists_sign input
  rw [readExponent] at hread
  generalize (if input.head? == some 0x2D || input.head? == some 0x2B then input.drop 1
    else input) = unsigned at hinput hread
  cases unsigned with
  | nil => exact absurd hread stop_ne_ok
  | cons byte after =>
      by_cases hbyte : isDigit byte
      · simp only [hbyte, if_true] at hread
        cases hpower : readExponentDigits (!(input.head? == some 0x2D) && !isZero) 0
            (byte :: after) with
        | error fault => simp [hpower] at hread
        | ok result =>
            obtain ⟨value, last⟩ := result
            simp only [hpower, Except.ok.injEq, Prod.mk.injEq] at hread
            obtain ⟨-, rfl⟩ := hread
            obtain ⟨bytes, hsplit, hbytes, hsome⟩ := readExponentDigits_eq_ok hpower
            obtain ⟨digits, hdigits, rfl⟩ := exists_chars hbytes
            have hsome : digits ≠ [] := by
              rintro rfl
              exact hsome byte rfl hbyte rfl
            refine ⟨⟨upper, minus?, digits, hdigits, hsome⟩, rfl, ?_⟩
            rw [hinput, hsplit, ExponentText.signed]
            cases minus? <;> rfl
      · simp [hbyte, stop] at hread

theorem readExponent?_eq_ok {isZero : Bool} {power : Option Int}
    (hread : readExponent? isZero input = .ok (power, rest)) :
    ∃ exponent : Option ExponentText,
      input = (exponent.map (·.bytes)).getD [] ++ rest := by
  cases input with
  | nil =>
      obtain ⟨-, rfl⟩ := Prod.mk.inj (Except.ok.inj hread)
      exact ⟨none, rfl⟩
  | cons byte after =>
      rw [readExponent?] at hread
      split_ifs at hread with hletter
      · cases hpower : readExponent isZero after with
        | error fault => simp [hpower] at hread
        | ok result =>
            obtain ⟨power, last⟩ := result
            simp only [hpower, Except.ok.injEq, Prod.mk.injEq] at hread
            obtain ⟨-, rfl⟩ := hread
            obtain ⟨exponent, hupper, rfl⟩ := readExponent_eq_ok hpower (byte == 0x45)
            refine ⟨some exponent, ?_⟩
            have hbyte : (if exponent.upper then 0x45 else 0x65) = byte := by
              rw [hupper]
              rcases hletter with rfl | rfl <;> rfl
            rw [Option.map_some, Option.getD_some, ExponentText.bytes, hbyte]
            rfl
      · obtain ⟨-, rfl⟩ := Prod.mk.inj (Except.ok.inj hread)
        exact ⟨none, rfl⟩

variable {negative : Bool} {value : Number}

/-- A number that is read is a literal. -/
theorem exists_text_of_read (hread : read negative input = .ok (value, rest)) :
    ∃ text : Text, text.negative = negative ∧ input = text.unsigned ++ rest := by
  obtain ⟨⟨parts, last⟩, hparts, hvalue⟩ := bind_eq_ok.mp hread
  have hlast : rest = last := by
    simp only at hvalue
    split at hvalue
    · exact (Prod.mk.inj (Except.ok.inj hvalue)).2.symm
    · exact absurd hvalue stop_ne_ok
  obtain ⟨⟨wholeBytes, afterWhole⟩, hwhole, hparts⟩ := bind_eq_ok.mp hparts
  obtain ⟨⟨fractionBytes, afterFraction⟩, hfraction, hparts⟩ := bind_eq_ok.mp hparts
  obtain ⟨⟨power, after⟩, hpower, hparts⟩ := bind_eq_ok.mp hparts
  obtain ⟨-, rfl⟩ := Prod.mk.inj (Except.ok.inj hparts)
  obtain ⟨rfl, ⟨hbytes, hsome⟩, hlead⟩ := readWhole_eq_ok hwhole
  obtain ⟨whole, hdigits, rfl⟩ := exists_chars hbytes
  obtain ⟨fraction, hfractionDigits, rfl⟩ := readFraction_eq_ok hfraction
  obtain ⟨exponent, rfl⟩ := readExponent?_eq_ok hpower
  have hsome : whole ≠ [] := by
    rintro rfl
    exact hsome rfl
  have hlead : ∀ more, whole = '0' :: more → more = [] := by
    rintro more rfl
    rw [encode_digit_cons rfl] at hlead
    have hlength := length_encode (List.forall_mem_cons.mp hdigits).2
    rw [hlead _ rfl] at hlength
    exact List.eq_nil_of_length_eq_zero hlength.symm
  refine ⟨⟨negative, whole, fraction, exponent, hdigits, hsome, hlead, hfractionDigits⟩, rfl, ?_⟩
  rw [hlast, Text.unsigned, List.append_assoc, List.append_assoc]

end Groups

end NumberLiteral

end AuctionLog.Json
