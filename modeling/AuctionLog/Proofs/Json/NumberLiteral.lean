import AuctionLog.Json.NumberLiteral
import AuctionLog.Proofs.Double.Scientific
import AuctionLog.Proofs.Text.Utf8

/-!
# Number literals read back

The digits of a number are read in up to three groups: before the point, after it, and in the
exponent. Each group is followed by something that is no digit, so each is read whole. What the
groups stand for together is the double nearest to it; the one that they are read as is found from
as many of the digits as 64 bits hold.
-/

namespace AuctionLog.Json.NumberLiteral

/-- Whether a text of JSON may go on like this after a number. -/
def Ends (rest : List UInt8) : Prop :=
  ∀ byte ∈ rest.head?, ¬ isDigit byte ∧ byte ≠ 0x2E ∧ byte ≠ 0x65 ∧ byte ≠ 0x45

theorem Ends.no_digit {rest : List UInt8} (hends : Ends rest) :
    ∀ byte ∈ rest.head?, ¬ isDigit byte :=
  fun byte hmem => (hends byte hmem).1

theorem ne_of_isDigit {byte other : UInt8} (hbyte : isDigit byte) (hother : isDigit other = false) :
    byte ≠ other := by
  rintro rfl
  simp [hbyte] at hother

section Digit

variable {char : Char} (hchar : char.isDigit)

include hchar

theorem toNat_digit : (UInt8.ofNat char.toNat).toNat = char.toNat := by
  have hcode := Digits.toNat_of_isDigit hchar
  rw [UInt8.toNat_ofNat', Nat.mod_eq_of_lt (by omega)]

theorem isDigit_digit : isDigit (UInt8.ofNat char.toNat) := by
  have hcode := Digits.toNat_of_isDigit hchar
  simp only [isDigit, Bool.and_eq_true, decide_eq_true_eq, UInt8.le_iff_toNat_le, toNat_digit hchar]
  exact hcode

theorem encode_digit_cons (text : List Char) :
    Utf8.encode (char :: text) = UInt8.ofNat char.toNat :: Utf8.encode text := by
  have hcode := Digits.toNat_of_isDigit hchar
  rw [Utf8.encode_cons, Utf8.utf8EncodeChar_of_lt (by omega), List.singleton_append]

end Digit

section Groups

variable {digits : List Char} {rest : List UInt8} (hdigits : ∀ char ∈ digits, char.isDigit)

include hdigits

theorem isDigit_of_mem_encode : ∀ byte ∈ Utf8.encode digits, isDigit byte := by
  induction digits with
  | nil => simp
  | cons char digits ih =>
      obtain ⟨hchar, hdigits⟩ := List.forall_mem_cons.mp hdigits
      rw [encode_digit_cons hchar, List.forall_mem_cons]
      exact ⟨isDigit_digit hchar, ih hdigits⟩

theorem length_encode : (Utf8.encode digits).length = digits.length := by
  induction digits with
  | nil => rfl
  | cons char digits ih =>
      obtain ⟨hchar, hdigits⟩ := List.forall_mem_cons.mp hdigits
      rw [encode_digit_cons hchar, List.length_cons, ih hdigits, List.length_cons]

theorem valueFrom_encode (value : Nat) :
    valueFrom value (Utf8.encode digits) = Nat.ofDigitChars 10 digits value := by
  induction digits generalizing value with
  | nil => simp [valueFrom]
  | cons char digits ih =>
      obtain ⟨hchar, hdigits⟩ := List.forall_mem_cons.mp hdigits
      rw [encode_digit_cons hchar, Nat.ofDigitChars_cons, ← ih hdigits, Nat.mul_comm]
      simp only [valueFrom, List.foldl_cons, toNat_digit hchar]
      rfl

variable (hrest : ∀ byte ∈ rest.head?, ¬ isDigit byte)

include hrest

theorem takeWhile_digits : (Utf8.encode digits ++ rest).takeWhile isDigit = Utf8.encode digits := by
  rw [List.takeWhile_append_of_pos (isDigit_of_mem_encode hdigits)]
  cases rest with
  | nil => simp
  | cons byte rest => simp [hrest byte rfl]

theorem dropWhile_digits : (Utf8.encode digits ++ rest).dropWhile isDigit = rest := by
  rw [List.dropWhile_append_of_pos (isDigit_of_mem_encode hdigits)]
  cases rest with
  | nil => rfl
  | cons byte rest => simp [hrest byte rfl]

/-- An exponent that 31 bits hold is read whole, bounded or not. -/
theorem readExponentDigits_digits (bounded : Bool) (value : Nat)
    (hsmall : Nat.ofDigitChars 10 digits value < 0x80000000) :
    readExponentDigits bounded value (Utf8.encode digits ++ rest) =
      .ok (Nat.ofDigitChars 10 digits value, rest) := by
  induction digits generalizing value with
  | nil =>
      cases rest with
      | nil => simp [readExponentDigits]
      | cons byte rest => simp [readExponentDigits, hrest byte rfl]
  | cons char digits ih =>
      obtain ⟨hchar, hdigits⟩ := List.forall_mem_cons.mp hdigits
      have hnext : 10 * value + (char.toNat - '0'.toNat) ≤
          Nat.ofDigitChars 10 (char :: digits) value := by
        rw [Nat.ofDigitChars_cons, Nat.ofDigitChars_eq_ofDigitChars_zero]
        exact Nat.le_add_right_of_le (Nat.le_mul_of_pos_left _ (Nat.pow_pos (by decide)))
      have hcode : '0'.toNat = (0x30 : Nat) := rfl
      have hbound : ¬ 0x80000000 ≤ value * 10 + (char.toNat - 0x30) := by
        omega
      have hread := ih hdigits (10 * value + (char.toNat - '0'.toNat))
        (by rwa [← Nat.ofDigitChars_cons])
      rw [encode_digit_cons hchar, List.cons_append, readExponentDigits, Nat.ofDigitChars_cons]
      simp only [isDigit_digit hchar, if_true, toNat_digit hchar, hbound, decide_false,
        Bool.and_false, Bool.false_eq_true, if_false]
      rwa [hcode, Nat.mul_comm 10] at *

variable (hsome : digits ≠ [])

include hsome

theorem readDigits_digits :
    readDigits (Utf8.encode digits ++ rest) = .ok (Utf8.encode digits, rest) := by
  have htake := takeWhile_digits hdigits hrest
  have hdrop := dropWhile_digits hdigits hrest
  obtain ⟨char, more, rfl⟩ := List.exists_cons_of_ne_nil hsome
  have hchar := hdigits char (List.mem_cons_self ..)
  rw [encode_digit_cons hchar, List.cons_append] at htake hdrop ⊢
  simp only [readDigits, isDigit_digit hchar, if_true, htake, hdrop]

/-- The digits before the point, if no zero stands before others. -/
theorem readWhole_digits (hlead : ∀ more, digits = '0' :: more → more = []) :
    readWhole (Utf8.encode digits ++ rest) = .ok (Utf8.encode digits, rest) := by
  have hread := readDigits_digits hdigits hrest hsome
  obtain ⟨char, more, rfl⟩ := List.exists_cons_of_ne_nil hsome
  have hchar := hdigits char (List.mem_cons_self ..)
  by_cases hzero : char = '0'
  · subst hzero
    obtain rfl := hlead more rfl
    cases rest with
    | nil => rfl
    | cons byte rest => simp [encode_digit_cons hchar, readWhole, hrest byte rfl]
  · have hbyte : UInt8.ofNat char.toNat ≠ 0x30 := by
      intro heq
      have hcode := congrArg UInt8.toNat heq
      rw [toNat_digit hchar] at hcode
      exact hzero (Char.toNat_inj.mp hcode)
    rw [encode_digit_cons hchar, List.cons_append] at hread ⊢
    simpa only [readWhole, readDigits, hbyte, if_false] using hread

theorem readFraction_digits :
    readFraction (0x2E :: (Utf8.encode digits ++ rest)) = .ok (Utf8.encode digits, rest) := by
  rw [readFraction, if_pos rfl]
  exact readDigits_digits hdigits hrest hsome

/-- An exponent that 31 bits hold is read whole, with the sign before it. -/
theorem readExponent_digits (isZero negative : Bool)
    (hsmall : Nat.ofDigitChars 10 digits 0 < 0x80000000) :
    readExponent isZero ((if negative then 0x2D else 0x2B) :: (Utf8.encode digits ++ rest)) =
      .ok (if negative then -(Nat.ofDigitChars 10 digits 0 : Int) else Nat.ofDigitChars 10 digits 0,
        rest) := by
  have hread := fun bounded => readExponentDigits_digits hdigits hrest bounded 0 hsmall
  obtain ⟨char, more, rfl⟩ := List.exists_cons_of_ne_nil hsome
  have hchar := hdigits char (List.mem_cons_self ..)
  rw [encode_digit_cons hchar, List.cons_append] at hread ⊢
  cases negative <;> simp [readExponent, isDigit_digit hchar, hread]

end Groups

section Absent

variable {rest : List UInt8} (hends : Ends rest)

include hends

theorem readFraction_absent : readFraction rest = .ok ([], rest) := by
  cases rest with
  | nil => rfl
  | cons byte rest => simp [readFraction, (hends byte rfl).2.1]

theorem readExponent?_absent (isZero : Bool) : readExponent? isZero rest = .ok (none, rest) := by
  cases rest with
  | nil => rfl
  | cons byte rest => simp [readExponent?, (hends byte rfl).2.2]

end Absent

/-- The digits after the point with the point, if there are any. -/
def pointed : List Char → List Char
  | [] => []
  | digits => '.' :: digits

section Pointed

variable {fraction : List Char} {rest : List UInt8}
  (hfraction : ∀ char ∈ fraction, char.isDigit)
  (hrest : ∀ byte ∈ rest.head?, ¬ isDigit byte ∧ byte ≠ 0x2E)

include hrest

theorem head?_pointed :
    ∀ byte ∈ (Utf8.encode (pointed fraction) ++ rest).head?, ¬ isDigit byte := by
  cases fraction with
  | nil => exact fun byte hmem => (hrest byte hmem).1
  | cons char digits =>
      rintro _ ⟨⟩
      decide

include hfraction

theorem readFraction_pointed :
    readFraction (Utf8.encode (pointed fraction) ++ rest) = .ok (Utf8.encode fraction, rest) := by
  cases hcase : fraction with
  | nil =>
      cases rest with
      | nil => rfl
      | cons byte rest => simp [pointed, readFraction, (hrest byte rfl).2]
  | cons char digits =>
      have hread := readFraction_digits hfraction (fun byte hmem => (hrest byte hmem).1)
        (hcase ▸ List.cons_ne_nil char digits)
      rwa [hcase] at hread

end Pointed

section Literals

variable {whole fraction exponent : List Char} {rest : List UInt8}
  (hwhole : ∀ char ∈ whole, char.isDigit) (hsome : whole ≠ [])
  (hlead : ∀ more, whole = '0' :: more → more = [])

include hwhole hsome hlead

theorem readParts_whole (hends : Ends rest) :
    readParts (Utf8.encode whole ++ rest) = .ok (⟨Utf8.encode whole, [], none⟩, rest) := by
  have hdigits := readWhole_digits hwhole hends.no_digit hsome hlead
  simp only [readParts, hdigits, readFraction_absent hends, readExponent?_absent hends, bind,
    Except.bind]
  rfl

variable (hfraction : ∀ char ∈ fraction, char.isDigit)

include hfraction

theorem readParts_point (hmore : fraction ≠ []) (hends : Ends rest) :
    readParts (Utf8.encode whole ++ 0x2E :: (Utf8.encode fraction ++ rest)) =
      .ok (⟨Utf8.encode whole, Utf8.encode fraction, none⟩, rest) := by
  have hpoint : ∀ byte ∈ (0x2E :: (Utf8.encode fraction ++ rest)).head?, ¬ isDigit byte := by
    simp [isDigit]
  have hdigits := readWhole_digits hwhole hpoint hsome hlead
  simp only [readParts, hdigits, readFraction_digits hfraction hends.no_digit hmore,
    readExponent?_absent hends, bind, Except.bind]
  rfl

/-- What is read of a number whose exponent is still to come. -/
theorem readParts_exponent {letter : UInt8} (hletter : letter = 0x65 ∨ letter = 0x45)
    (tail : List UInt8) :
    readParts (Utf8.encode whole ++ (Utf8.encode (pointed fraction) ++ letter :: tail)) =
      (do
        let exponent ← readExponent (Nat.ofDigitChars 10 (whole ++ fraction) 0 == 0) tail
        .ok (⟨Utf8.encode whole, Utf8.encode fraction, some exponent.1⟩, exponent.2)) := by
  have hend : ∀ byte ∈ (letter :: tail).head?, ¬ isDigit byte ∧ byte ≠ 0x2E := by
    rintro _ ⟨⟩
    rcases hletter with rfl | rfl <;> decide
  have hexponent : ∀ isZero, readExponent? isZero (letter :: tail) =
      (readExponent isZero tail).map fun read => (some read.1, read.2) := by
    intro isZero
    rw [readExponent?, if_pos hletter]
    cases readExponent isZero tail <;> rfl
  simp only [readParts, readWhole_digits hwhole (head?_pointed hend) hsome hlead,
    readFraction_pointed hfraction hend, bind, Except.bind, valueFrom_encode hwhole,
    valueFrom_encode hfraction, hexponent, Nat.ofDigitChars_append]
  cases readExponent _ tail with
  | error fault => rfl
  | ok read => rfl

theorem readParts_scientific (minus : Bool) (hexponent : ∀ char ∈ exponent, char.isDigit)
    (hpower : exponent ≠ []) (hsmall : Nat.ofDigitChars 10 exponent 0 < 0x80000000)
    (hends : Ends rest) :
    readParts (Utf8.encode whole ++ (Utf8.encode (pointed fraction) ++
        0x65 :: (if minus then 0x2D else 0x2B) :: (Utf8.encode exponent ++ rest))) =
      .ok (⟨Utf8.encode whole, Utf8.encode fraction,
        some (if minus then -(Nat.ofDigitChars 10 exponent 0 : Int)
          else Nat.ofDigitChars 10 exponent 0)⟩, rest) := by
  have hread := readExponent_digits hexponent hends.no_digit hpower
    (Nat.ofDigitChars 10 (whole ++ fraction) 0 == 0) minus hsmall
  rw [readParts_exponent hwhole hsome hlead hfraction (.inl rfl), hread]
  rfl

end Literals

/-! ## What the parts of a number say -/

namespace Parts

/-- Whether a number is written without a point and an exponent. -/
def IsWhole (parts : Parts) : Prop :=
  parts.fraction = [] ∧ parts.exponent = none

/-- The number that all digits make up, the point left out. -/
def value (parts : Parts) : Nat :=
  valueFrom (valueFrom 0 parts.whole) parts.fraction

/-- The power of ten that the value is multiplied by. -/
def power (parts : Parts) : Int :=
  parts.exponent.getD 0 - parts.fraction.length

/-- The double that a number stands for, which need not be the one that it is read as. -/
def nearest? (negative : Bool) (parts : Parts) : Option Double :=
  Double.ofDecimal? negative parts.value parts.power

variable {parts : Parts} {negative : Bool}

theorem integer?_of_not_isWhole (hwhole : ¬ parts.IsWhole) : parts.integer? negative = none := by
  have hparts : (!parts.fraction.isEmpty || parts.exponent.isSome) = true := by
    simpa [IsWhole, Classical.or_iff_not_imp_left, Option.isSome_iff_ne_none] using hwhole
  simp only [integer?, hparts, if_true]

end Parts

theorem le_valueFrom (value : Nat) (digits : List UInt8) : value ≤ valueFrom value digits := by
  induction digits generalizing value with
  | nil => exact le_rfl
  | cons byte digits ih => exact le_trans (by omega) (ih (value * 10 + (byte.toNat - 0x30)))

/-- Digits that 64 bits hold are all taken. -/
theorem takeDigits_eq {value : Nat} {digits : List UInt8}
    (hfits : valueFrom value digits < 0x10000000000000000) :
    takeDigits value digits = (valueFrom value digits, []) := by
  induction digits generalizing value with
  | nil => rfl
  | cons byte digits ih =>
      have hnext := (le_valueFrom (value * 10 + (byte.toNat - 0x30)) digits).trans_lt hfits
      rw [takeDigits]
      simp only [hnext, if_true]
      exact ih hfits

/-- A number of as many digits as 64 bits hold is read by its value and its power of ten. -/
theorem Parts.double?_eq {parts : Parts} {negative : Bool}
    (hfits : parts.value < 0x10000000000000000) :
    parts.double? negative = Double.ofScientific? negative parts.value parts.power := by
  have hwhole := (le_valueFrom (valueFrom 0 parts.whole) parts.fraction).trans_lt hfits
  rw [double?, takeDigits_eq hwhole]
  simp only [takeDigits_eq hfits, List.length_nil, Nat.sub_zero, Int.natCast_zero, Int.add_zero]
  rfl

section Reading

variable {double? : Bool → Parts → Option Double} {negative : Bool} {input rest : List UInt8}
  {parts : Parts}

theorem readBy_of_not_isWhole (hread : readParts input = .ok (parts, rest))
    (hwhole : ¬ parts.IsWhole) :
    readBy double? negative input =
      match double? negative parts with
      | some value => .ok (.double value, rest)
      | none => stop .numberOutOfRange rest := by
  simp only [readBy, hread, bind, Except.bind, Parts.integer?_of_not_isWhole hwhole]
  cases double? negative parts <;> rfl

theorem readBy_of_integer {value : Number} (hread : readParts input = .ok (parts, rest))
    (hvalue : parts.integer? negative = some value) :
    readBy double? negative input = .ok (value, rest) := by
  simp only [readBy, hread, bind, Except.bind, hvalue]
  rfl

theorem exists_digit_of_readParts (hread : readParts input = .ok (parts, rest)) :
    ∃ byte after, input = byte :: after ∧ isDigit byte := by
  cases input with
  | nil => simp [readParts, readWhole, stop, bind, Except.bind] at hread
  | cons byte after =>
      refine ⟨byte, after, rfl, ?_⟩
      by_contra hdigit
      have hzero : byte ≠ 0x30 := by
        rintro rfl
        exact hdigit (by decide)
      simp [readParts, readWhole, hzero, hdigit, stop, bind, Except.bind] at hread

theorem exists_digit_of_readBy {value : Number} (hread : readBy double? negative input =
    .ok (value, rest)) : ∃ byte after, input = byte :: after ∧ isDigit byte := by
  cases hparts : readParts input with
  | error fault => simp [readBy, hparts, bind, Except.bind] at hread
  | ok read => exact exists_digit_of_readParts hparts

end Reading

end AuctionLog.Json.NumberLiteral
