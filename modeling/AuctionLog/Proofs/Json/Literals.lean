import AuctionLog.Proofs.Json.NumberLiteral
import AuctionLog.Proofs.Json.StringLiteral

/-!
# Literals as they are written

A number or a string can be written in many ways, and some that the grammar allows are refused: a
number beyond all doubles, or half of a surrogate pair. Whatever becomes of a literal, it does not
depend on the text behind it. So a literal has its value, or none, by itself.
-/

namespace AuctionLog.Json

/-- Whether a literal is read before some rest as it is alone: with the same value, or not at
all. -/
inductive ReadAlike {α : Type} (rest : List UInt8) :
    Except Fault (α × List UInt8) → Except Fault (α × List UInt8) → Prop where
  | read (value : α) : ReadAlike rest (.ok (value, rest)) (.ok (value, []))
  | refused (fault other : Fault) : ReadAlike rest (.error fault) (.error other)

/-- The value that was read, if one was. -/
def valueRead? {α : Type} (result : Except Fault (α × List UInt8)) : Option α :=
  result.toOption.map (·.1)

theorem ReadAlike.eq_ok {α : Type} {found : α} {rest : List UInt8}
    {result alone : Except Fault (α × List UInt8)} (halike : ReadAlike rest result alone)
    (hfound : valueRead? alone = some found) : result = .ok (found, rest) := by
  cases halike with
  | read value =>
      obtain rfl : value = found := Option.some.inj hfound
      rfl
  | refused fault other => exact absurd hfound nofun

/-! ## Strings -/

namespace StringLiteral

/-- What a string is written with: bytes that stand for themselves, short escapes, and groups of
four hexadecimal digits. -/
inductive Piece where
  | plain (byte : UInt8) (hplain : byte ≠ 0x22 ∧ byte ≠ 0x5C ∧ 0x20 ≤ byte)
  | short (letter : UInt8) (hletter : (shortEscape? letter).isSome)
  | group (first second third fourth : UInt8)
      (hdigits : ∀ digit ∈ [first, second, third, fourth], (hexDigit? digit).isSome)

def Piece.bytes : Piece → List UInt8
  | .plain byte _ => [byte]
  | .short letter _ => [0x5C, letter]
  | .group first second third fourth _ => [0x5C, 0x75, first, second, third, fourth]

def written (pieces : List Piece) : List UInt8 :=
  pieces.flatMap (·.bytes)

theorem written_cons (piece : Piece) (pieces : List Piece) :
    written (piece :: pieces) = piece.bytes ++ written pieces :=
  List.flatMap_cons

/-- The text that a string literal stands for, if it stands for one. -/
def text? (pieces : List Piece) : Option String :=
  valueRead? (read (written pieces ++ [0x22]))

/-- The bytes of a text that stand for themselves. -/
def spelled (text : String) : List Piece :=
  (Utf8.encode text.toList).filterMap fun byte =>
    if hplain : byte ≠ 0x22 ∧ byte ≠ 0x5C ∧ 0x20 ≤ byte then some (.plain byte hplain) else none

/-- Where the reader stands between two pieces, by the leading surrogate that it has read. -/
def placeAfter : Option Nat → Place
  | none => .plain
  | some leading => .pairSlash leading

theorem close_alike (start other bytes rest : List UInt8) :
    ReadAlike rest (close start bytes rest) (close other bytes []) := by
  unfold close
  cases Utf8.decode bytes with
  | ok text => exact .read _
  | error valid => exact .refused _ _

theorem readFrom_alike (pieces : List Piece) (start other rest : List UInt8)
    (leading : Option Nat) (bytes : List UInt8) :
    ReadAlike rest (readFrom start (placeAfter leading) bytes (written pieces ++ 0x22 :: rest))
      (readFrom other (placeAfter leading) bytes (written pieces ++ [0x22])) := by
  induction pieces generalizing leading bytes with
  | nil =>
      cases leading with
      | none => exact close_alike start other bytes.reverse rest
      | some leading => exact .refused _ _
  | cons piece pieces ih =>
      rw [written_cons, List.append_assoc, List.append_assoc]
      -- A leading surrogate is followed by another group, or the literal is refused.
      cases piece with
      | plain byte hplain =>
          obtain ⟨hquote, hslash, hcontrol⟩ := hplain
          cases leading with
          | none =>
              simpa [Piece.bytes, placeAfter, readFrom, hquote, hslash, UInt8.not_lt.mpr hcontrol]
                using ih none (byte :: bytes)
          | some leading =>
              simpa [Piece.bytes, placeAfter, readFrom, hslash] using .refused _ _
      | short letter hletter =>
          have hgroup : letter ≠ 0x75 := by
            rintro rfl
            exact absurd hletter (by decide)
          cases leading with
          | none =>
              obtain ⟨char, hchar⟩ := Option.isSome_iff_exists.mp hletter
              simpa [Piece.bytes, placeAfter, readFrom, hgroup, hchar]
                using ih none (pushChar char bytes)
          | some leading =>
              simpa [Piece.bytes, placeAfter, readFrom, hgroup] using .refused _ _
      | group first second third fourth hdigits =>
          cases hgroup : groupOf leading [first, second, third, fourth] with
          | char char =>
              cases leading <;>
                simpa [Piece.bytes, placeAfter, readFrom, hgroup]
                  using ih none (pushChar char bytes)
          | leading value =>
              cases leading <;>
                simpa [Piece.bytes, placeAfter, readFrom, hgroup] using ih (some value) bytes
          | bad reason =>
              cases leading <;>
                simpa [Piece.bytes, placeAfter, readFrom, hgroup] using .refused _ _

theorem read_alike (pieces : List Piece) (rest : List UInt8) :
    ReadAlike rest (read (written pieces ++ 0x22 :: rest)) (read (written pieces ++ [0x22])) :=
  readFrom_alike pieces _ _ rest none []

end StringLiteral

/-! ## Numbers -/

namespace NumberLiteral

/-- An exponent as it is written: a letter in either case, a sign or none, and digits. -/
structure ExponentText where
  upper : Bool
  minus? : Option Bool
  digits : List Char
  digits_isDigit : ∀ char ∈ digits, char.isDigit
  digits_ne_nil : digits ≠ []

/-- A number as it is written: digits before the point, where a zero stands alone, and perhaps
digits after it and an exponent. -/
structure Text where
  negative : Bool
  whole : List Char
  fraction : List Char
  exponent : Option ExponentText
  whole_isDigit : ∀ char ∈ whole, char.isDigit
  whole_ne_nil : whole ≠ []
  whole_lead : ∀ more, whole = '0' :: more → more = []
  fraction_isDigit : ∀ char ∈ fraction, char.isDigit

def ExponentText.signed (exponent : ExponentText) : List UInt8 :=
  match exponent.minus? with
  | none => Utf8.encode exponent.digits
  | some minus => (if minus then 0x2D else 0x2B) :: Utf8.encode exponent.digits

def ExponentText.bytes (exponent : ExponentText) : List UInt8 :=
  (if exponent.upper then 0x45 else 0x65) :: exponent.signed

/-- What comes after the sign. -/
def Text.unsigned (text : Text) : List UInt8 :=
  Utf8.encode text.whole ++
    (Utf8.encode (pointed text.fraction) ++ ((text.exponent.map (·.bytes)).getD []))

theorem Text.unsigned_digit (text : Text) :
    ∃ byte after, text.unsigned = byte :: after ∧ isDigit byte := by
  obtain ⟨char, digits, hdigits⟩ := List.exists_cons_of_ne_nil text.whole_ne_nil
  have hchar : char.isDigit := text.whole_isDigit char (by simp [hdigits])
  rw [unsigned, hdigits, encode_digit_cons hchar]
  exact ⟨_, _, rfl, isDigit_digit hchar⟩

/-- The number that a literal stands for, if it stands for one. -/
def Text.number? (text : Text) : Option Number :=
  valueRead? (NumberLiteral.read text.negative text.unsigned)

variable {rest : List UInt8}

theorem readExponentDigits_alike {digits : List Char} (hdigits : ∀ char ∈ digits, char.isDigit)
    (hrest : ∀ byte ∈ rest.head?, ¬ isDigit byte) (bounded : Bool) (value : Nat) :
    ReadAlike rest (readExponentDigits bounded value (Utf8.encode digits ++ rest))
      (readExponentDigits bounded value (Utf8.encode digits)) := by
  induction digits generalizing value with
  | nil =>
      cases rest with
      | nil => exact .read value
      | cons byte rest => simpa [readExponentDigits, hrest byte rfl] using .read value
  | cons char digits ih =>
      obtain ⟨hchar, hdigits⟩ := List.forall_mem_cons.mp hdigits
      rw [encode_digit_cons hchar, List.cons_append, readExponentDigits, readExponentDigits]
      simp only [isDigit_digit hchar, if_true]
      split_ifs
      · exact .refused _ _
      · exact ih hdigits _

/-- An exponent is read as its digits are, after the sign. -/
theorem readExponent_signed (exponent : ExponentText) (isZero : Bool) (rest : List UInt8) :
    readExponent isZero (exponent.signed ++ rest) =
      (readExponentDigits (!(exponent.minus? == some true) && !isZero) 0
          (Utf8.encode exponent.digits ++ rest)).map fun read =>
        (if exponent.minus? == some true then -(read.1 : Int) else read.1, read.2) := by
  obtain ⟨char, digits, hdigits⟩ := List.exists_cons_of_ne_nil exponent.digits_ne_nil
  have hchar : char.isDigit := exponent.digits_isDigit char (by simp [hdigits])
  have hbyte := isDigit_digit hchar
  have hminus : UInt8.ofNat char.toNat ≠ 0x2D := ne_of_isDigit hbyte (by decide)
  have hplus : UInt8.ofNat char.toNat ≠ 0x2B := ne_of_isDigit hbyte (by decide)
  rw [ExponentText.signed, hdigits, encode_digit_cons hchar, List.cons_append]
  obtain ⟨after, hafter⟩ : ∃ after, Utf8.encode digits ++ rest = after := ⟨_, rfl⟩
  rcases exponent.minus? with _ | _ | _
  · cases hread : readExponentDigits (!isZero) 0 (UInt8.ofNat char.toNat :: after) <;>
      simp [readExponent, hafter, hbyte, hplus, beq_false_of_ne hminus, hread, Except.map]
  · cases hread : readExponentDigits (!isZero) 0 (UInt8.ofNat char.toNat :: after) <;>
      simp [readExponent, hafter, hbyte, hread, Except.map]
  · cases hread : readExponentDigits false 0 (UInt8.ofNat char.toNat :: after) <;>
      simp [readExponent, hafter, hbyte, hread, Except.map]

theorem readExponent_alike (exponent : ExponentText)
    (hrest : ∀ byte ∈ rest.head?, ¬ isDigit byte) (isZero : Bool) :
    ReadAlike rest (readExponent isZero (exponent.signed ++ rest))
      (readExponent isZero exponent.signed) := by
  have halike := readExponentDigits_alike exponent.digits_isDigit hrest
    (!(exponent.minus? == some true) && !isZero) 0
  have halone := readExponent_signed exponent isZero []
  rw [List.append_nil, List.append_nil] at halone
  rw [readExponent_signed, halone]
  generalize readExponentDigits _ 0 (Utf8.encode exponent.digits ++ rest) = first at halike
  generalize readExponentDigits _ 0 (Utf8.encode exponent.digits) = alone at halike
  cases halike with
  | read value => exact .read _
  | refused fault other => exact .refused fault other

/-- What is read of a number without an exponent. -/
theorem Text.readParts_plain (text : Text) (hends : Ends rest) :
    readParts (Utf8.encode text.whole ++ (Utf8.encode (pointed text.fraction) ++ rest)) =
      .ok (⟨Utf8.encode text.whole, Utf8.encode text.fraction, none⟩, rest) := by
  cases hcase : text.fraction with
  | nil => exact readParts_whole text.whole_isDigit text.whole_ne_nil text.whole_lead hends
  | cons char digits =>
      have hmore : text.fraction ≠ [] := hcase ▸ List.cons_ne_nil char digits
      have hread := readParts_point text.whole_isDigit text.whole_ne_nil text.whole_lead
        text.fraction_isDigit hmore hends
      rwa [hcase] at hread

theorem ends_nil : Ends [] := nofun

theorem Text.readParts_alike (text : Text) (hends : Ends rest) :
    ReadAlike rest (readParts (text.unsigned ++ rest)) (readParts text.unsigned) := by
  have hexponent := @readParts_exponent _ _ text.whole_isDigit text.whole_ne_nil text.whole_lead
    text.fraction_isDigit
  rw [← List.append_nil text.unsigned]
  simp only [unsigned, List.append_assoc, List.nil_append]
  cases text.exponent with
  | none =>
      simp only [Option.map_none, Option.getD_none, List.nil_append]
      rw [text.readParts_plain hends, text.readParts_plain ends_nil]
      exact .read _
  | some exponent =>
      have hletter : (if exponent.upper then 0x45 else 0x65 : UInt8) = 0x65 ∨
          (if exponent.upper then 0x45 else 0x65 : UInt8) = 0x45 := by
        cases exponent.upper <;> simp
      simp only [Option.map_some, Option.getD_some, ExponentText.bytes, List.cons_append,
        hexponent hletter]
      have halike := readExponent_alike exponent hends.no_digit
        (Nat.ofDigitChars 10 (text.whole ++ text.fraction) 0 == 0)
      rw [List.append_nil]
      generalize readExponent _ (exponent.signed ++ rest) = first at halike ⊢
      generalize readExponent _ exponent.signed = alone at halike ⊢
      cases halike with
      | read power => exact .read _
      | refused fault other => exact .refused fault other

/-- **A number is read alike** before all that may follow it. -/
theorem Text.read_alike (text : Text) (hends : Ends rest) :
    ReadAlike rest (read text.negative (text.unsigned ++ rest))
      (read text.negative text.unsigned) := by
  have halike := text.readParts_alike hends
  unfold read readBy
  generalize readParts (text.unsigned ++ rest) = first at halike ⊢
  generalize readParts text.unsigned = alone at halike ⊢
  cases halike with
  | read parts =>
      simp only [bind, Except.bind]
      cases parts.integer? text.negative <|> (parts.double? text.negative).map .double with
      | none => exact .refused _ _
      | some value => exact .read value
  | refused fault other => exact .refused fault other

end NumberLiteral

end AuctionLog.Json
