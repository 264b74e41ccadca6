import AuctionLog.Json.Number
import AuctionLog.Proofs.Json.NumberLiteral

/-!
# Numbers read back

Every number is written so that it is read back as itself: a whole number by its digits, and a
double by a decimal in the interval of the double, whichever notation is chosen for it.
-/

namespace AuctionLog.Json.NumberLiteral

theorem isDigit_of_mem_replicate (count : Nat) :
    ∀ char ∈ List.replicate count '0', char.isDigit := by
  intro char hmem
  rw [List.eq_of_mem_replicate hmem]
  rfl

/-- Whether a text is read as these parts of a number, whatever may follow a number. -/
def HasParts (text : List Char) (parts : Parts) : Prop :=
  ∀ rest, Ends rest → readParts (Utf8.encode text ++ rest) = .ok (parts, rest)

/-- Whether a text is that of `value * 10 ^ power`, with a point or an exponent. -/
def Notates (text : List Char) (value : Nat) (power : Int) : Prop :=
  ∃ parts, HasParts text parts ∧ ¬ parts.IsWhole ∧ parts.value = value ∧ parts.power = power

theorem value_encode {whole fraction : List Char} {exponent : Option Int}
    (hwhole : ∀ char ∈ whole, char.isDigit) (hfraction : ∀ char ∈ fraction, char.isDigit) :
    Parts.value ⟨Utf8.encode whole, Utf8.encode fraction, exponent⟩ =
      Nat.ofDigitChars 10 (whole ++ fraction) 0 := by
  rw [Parts.value, valueFrom_encode hwhole, valueFrom_encode hfraction, Nat.ofDigitChars_append]

/-- Digits with a point among them. -/
theorem notates_point {whole fraction : List Char} (hwhole : ∀ char ∈ whole, char.isDigit)
    (hsome : whole ≠ []) (hlead : ∀ more, whole = '0' :: more → more = [])
    (hfraction : ∀ char ∈ fraction, char.isDigit) (hmore : fraction ≠ []) :
    Notates (whole ++ '.' :: fraction) (Nat.ofDigitChars 10 (whole ++ fraction) 0)
      (-fraction.length) := by
  have hpoint : String.utf8EncodeChar '.' = [0x2E] := rfl
  have hlength := length_encode hfraction
  refine ⟨⟨Utf8.encode whole, Utf8.encode fraction, none⟩, fun rest hends => ?_, ?_,
    value_encode hwhole hfraction, ?_⟩
  · have hread := readParts_point hwhole hsome hlead hfraction hmore hends
    simpa [hpoint] using hread
  · rintro ⟨hnone, -⟩
    rw [← List.length_eq_zero_iff, hlength, List.length_eq_zero_iff] at hnone
    exact hmore hnone
  · simp [Parts.power, hlength]

section Notations

variable {digits : List Char} (hdigits : ∀ char ∈ digits, char.isDigit) (hsome : digits ≠ [])

include hdigits hsome

theorem notates_scientificText {lead : Int} (hsmall : lead.natAbs < 0x80000000) :
    Notates (Number.scientificText digits lead) (Nat.ofDigitChars 10 digits 0)
      (lead - (digits.length - 1)) := by
  obtain ⟨first, more, rfl⟩ := List.exists_cons_of_ne_nil hsome
  obtain ⟨hfirst, hmore⟩ := List.forall_mem_cons.mp hdigits
  have hwhole : ∀ char ∈ [first], char.isDigit := by
    simpa using hfirst
  have hexponent : ∀ char ∈ Nat.toDigits 10 lead.natAbs, char.isDigit :=
    fun _ => Digits.isDigit_of_mem
  have hlead : (if decide (lead < 0) then -(lead.natAbs : Int) else lead.natAbs) = lead := by
    split_ifs with hneg <;> simp only [decide_eq_true_eq] at hneg <;> omega
  refine ⟨⟨Utf8.encode [first], Utf8.encode more, some lead⟩, fun rest hends => ?_, ?_,
    value_encode hwhole hmore, ?_⟩
  · have hread := readParts_scientific hwhole (by simp) (by simp) hmore (decide (lead < 0))
      hexponent Nat.toDigits_ne_nil (by rwa [Nat.ofDigitChars_ten_toDigits]) hends
    have htext : Utf8.encode (Number.scientificText (first :: more) lead) ++ rest =
        Utf8.encode [first] ++ (Utf8.encode (pointed more) ++
          0x65 :: (if decide (lead < 0) then 0x2D else 0x2B) ::
            (Utf8.encode (Nat.toDigits 10 lead.natAbs) ++ rest)) := by
      have he : String.utf8EncodeChar 'e' = [0x65] := rfl
      have hsign : String.utf8EncodeChar (if lead < 0 then '-' else '+') =
          [if decide (lead < 0) then 0x2D else 0x2B] := by
        by_cases hneg : lead < 0 <;> simp only [hneg, decide_true, decide_false, if_true, if_false,
          Bool.false_eq_true] <;> rfl
      cases more <;> simp [Number.scientificText, pointed, he, hsign]
    rw [htext, hread, Nat.ofDigitChars_ten_toDigits, hlead]
  · rintro ⟨-, hnone⟩
    exact absurd hnone (Option.some_ne_none lead)
  · simp [Parts.power, length_encode hmore]

/-- Digits that no fraction follows are written with a zero for one. -/
theorem notates_whole {power : Nat}
    (hlead : ∀ more, digits = '0' :: more → more = [] ∧ power = 0) :
    Notates (digits ++ List.replicate power '0' ++ ['.', '0'])
      (Nat.ofDigitChars 10 digits 0 * 10 ^ power * 10) (-1) := by
  have hall : ∀ char ∈ digits ++ List.replicate power '0', char.isDigit := by
    simpa only [List.forall_mem_append] using ⟨hdigits, isDigit_of_mem_replicate power⟩
  have hhead : ∀ more, digits ++ List.replicate power '0' = '0' :: more → more = [] := by
    intro more hzero
    obtain ⟨first, others, rfl⟩ := List.exists_cons_of_ne_nil hsome
    rw [List.cons_append, List.cons.injEq] at hzero
    obtain ⟨rfl, rfl⟩ := hlead others (hzero.1 ▸ rfl)
    simpa using hzero.2.symm
  have hvalue : Nat.ofDigitChars 10 (digits ++ List.replicate power '0' ++ List.replicate 1 '0') 0 =
      Nat.ofDigitChars 10 digits 0 * 10 ^ power * 10 := by
    simp only [Nat.ofDigitChars_append, Nat.ofDigitChars_replicate_zero]
    ring
  rw [← hvalue]
  exact notates_point hall (by simp [hsome]) hhead (isDigit_of_mem_replicate 1) (by simp)

/-- A point among the digits, unless the first of them is a zero. -/
theorem notates_point_within {count : Nat} (hpositive : 0 < count) (hwithin : count < digits.length)
    (hlead : ∀ more, digits = '0' :: more → more = []) :
    Notates (digits.take count ++ '.' :: digits.drop count) (Nat.ofDigitChars 10 digits 0)
      (-(digits.length - count : Nat)) := by
  have hsplit := List.take_append_drop count digits
  have hall := hsplit ▸ hdigits
  rw [List.forall_mem_append] at hall
  have hhead : ∀ more, digits.take count = '0' :: more → more = [] := by
    intro more hzero
    have hdigits : digits = '0' :: (more ++ digits.drop count) := by
      rw [← List.cons_append, ← hzero, hsplit]
    exact List.append_eq_nil_iff.mp (hlead _ hdigits) |>.1
  have htake : digits.take count ≠ [] := by
    rw [ne_eq, List.take_eq_nil_iff]
    rintro (hnone | hnil)
    · omega
    · exact hsome hnil
  have hdrop : digits.drop count ≠ [] := by
    rw [ne_eq, List.drop_eq_nil_iff]
    omega
  have hpoint := notates_point hall.1 htake hhead hall.2 hdrop
  rwa [hsplit, List.length_drop] at hpoint

/-- Digits that come after the point, and after zeros that do. -/
theorem notates_below_one (count : Nat) :
    Notates ('0' :: '.' :: (List.replicate count '0' ++ digits)) (Nat.ofDigitChars 10 digits 0)
      (-(count + digits.length : Nat)) := by
  have hall : ∀ char ∈ List.replicate count '0' ++ digits, char.isDigit := by
    simpa only [List.forall_mem_append] using ⟨isDigit_of_mem_replicate count, hdigits⟩
  have hpoint := notates_point (isDigit_of_mem_replicate 1) (by simp) (by simp) hall
    (by simp [hsome])
  have hvalue : Nat.ofDigitChars 10
      (List.replicate 1 '0' ++ (List.replicate count '0' ++ digits)) 0 =
        Nat.ofDigitChars 10 digits 0 := by
    simp only [Nat.ofDigitChars_append, Nat.ofDigitChars_replicate_zero, Nat.mul_zero]
  rw [hvalue, List.length_append, List.length_replicate] at hpoint
  exact hpoint

/-- Positional notation of digits that do not start with a zero, unless that is all there is. -/
theorem notates_positionalText {power : Int}
    (hlead : ∀ more, digits = '0' :: more → more = [] ∧ power = 0) :
    ∃ value exponent,
      Notates (Number.positionalText digits power (digits.length - 1 + power)) value exponent ∧
      ((value = Nat.ofDigitChars 10 digits 0 ∧ exponent = power) ∨
        (0 ≤ power ∧ value = Nat.ofDigitChars 10 digits 0 * 10 ^ power.toNat * 10 ∧
          exponent = -1)) := by
  have hlength := List.length_pos_iff.mpr hsome
  unfold Number.positionalText
  split_ifs with hwhole hbefore
  · refine ⟨_, _, notates_whole hdigits hsome ?_, .inr ⟨hwhole, rfl, rfl⟩⟩
    intro more hzero
    obtain ⟨hmore, hpower⟩ := hlead more hzero
    exact ⟨hmore, by rw [hpower, Int.toNat_zero]⟩
  · refine ⟨_, _, notates_point_within hdigits hsome ?_ ?_ fun more hzero =>
      (hlead more hzero).1, .inl ⟨rfl, ?_⟩⟩
    all_goals omega
  · refine ⟨_, _, notates_below_one hdigits hsome _, .inl ⟨rfl, ?_⟩⟩
    omega

end Notations

theorem toDigits_lead (value : Nat) :
    ∀ more, Nat.toDigits 10 value = '0' :: more → more = [] ∧ value = 0 := by
  intro more hzero
  have hvalue : value = 0 := by
    by_contra hvalue
    exact Digits.head_ne_zero hvalue hzero
  rw [hvalue, Nat.toDigits_zero, List.cons.injEq] at hzero
  exact ⟨hzero.2.symm, hvalue⟩

end AuctionLog.Json.NumberLiteral

namespace AuctionLog.Double

variable {d : Double}

/-- A decimal that starts with other digits but zeros after the point may as well take one more. -/
theorem scaledOf_whole {digits : Nat} {power : Int} (hpower : 0 ≤ power) :
    scaledOf (digits * 10 ^ power.toNat * 10) (-1) = scaledOf digits power := by
  have hsum : (power + 341).toNat = power.toNat + 1 + 340 := by
    omega
  have hone : ((-1 : Int) + 341).toNat = 340 := rfl
  rw [scaledOf, scaledOf, hsum, hone, Nat.pow_add, Nat.pow_succ]
  ring

theorem ofDecimal?_zero (negative : Bool) (power : Int) :
    ofDecimal? negative 0 power = some (zero negative) := rfl

/-- What is known of the shortest decimal of any double: it is not too long to be written with an
exponent, and no zero has a power of ten. -/
theorem shortest_bounds (d : Double) :
    ((Nat.toDigits 10 d.shortest.digits).length - 1 + d.shortest.power).natAbs < 0x80000000 ∧
      (d.shortest.digits = 0 → d.shortest.power = 0) := by
  by_cases hd : d.significand = 0
  · have hzero : d.isZero = true := by
      simpa [isZero] using hd
    simp [shortest, hzero]
  · obtain ⟨hpower, hcontains⟩ := shortest_contains hd
    have hdigits := digits_ne_zero_of_contains hd hcontains
    have hlong := length_add_power_le hpower hdigits hcontains
    exact ⟨by omega, fun hzero => absurd hzero hdigits⟩

/-- Whether a decimal is the shortest one of a double, or the same with a zero behind the point. -/
def WrittenAs (d : Double) (digits : Nat) (power : Int) : Prop :=
  (digits = d.shortest.digits ∧ power = d.shortest.power) ∨
    (0 ≤ d.shortest.power ∧
      digits = d.shortest.digits * 10 ^ d.shortest.power.toNat * 10 ∧ power = -1)

/-- **The decimal that a double is written as stands for the double.** -/
theorem ofDecimal?_shortest {digits : Nat} {power : Int} (hdecimal : d.WrittenAs digits power) :
    ofDecimal? d.negative digits power = some d := by
  by_cases hd : d.significand = 0
  · have hzero : d.isZero = true := by
      simpa [isZero] using hd
    have hdigits : digits = 0 := by
      rcases hdecimal with ⟨rfl, -⟩ | ⟨-, rfl, -⟩ <;> simp [shortest, hzero]
    rw [hdigits, ofDecimal?_zero, ← eq_zero_of_significand_eq_zero hd]
  · obtain ⟨hpower, hcontains⟩ := shortest_contains hd
    rcases hdecimal with ⟨rfl, rfl⟩ | ⟨hwhole, rfl, rfl⟩
    · exact ofDecimal?_of_contains hpower hd hcontains
    · rw [← scaledOf_whole hwhole] at hcontains
      exact ofDecimal?_of_contains (by decide) hd hcontains

theorem exists_notates (d : Double) :
    ∃ digits power, Json.NumberLiteral.Notates (Json.Number.decimalText d.shortest) digits power ∧
      d.WrittenAs digits power := by
  obtain ⟨hsmall, hzero⟩ := d.shortest_bounds
  have hdigits : ∀ char ∈ Nat.toDigits 10 d.shortest.digits, char.isDigit :=
    fun _ => Digits.isDigit_of_mem
  have hlead : ∀ more, Nat.toDigits 10 d.shortest.digits = '0' :: more →
      more = [] ∧ d.shortest.power = 0 := by
    intro more hcons
    obtain ⟨hmore, hvalue⟩ := Json.NumberLiteral.toDigits_lead _ more hcons
    exact ⟨hmore, hzero hvalue⟩
  unfold Json.Number.decimalText
  simp only
  split_ifs
  · have hpower : ((Nat.toDigits 10 d.shortest.digits).length - 1 + d.shortest.power) -
        ((Nat.toDigits 10 d.shortest.digits).length - 1) = d.shortest.power := by
      omega
    refine ⟨_, _, Json.NumberLiteral.notates_scientificText hdigits Nat.toDigits_ne_nil hsmall,
      .inl ⟨?_, hpower⟩⟩
    exact Nat.ofDigitChars_ten_toDigits
  · obtain ⟨value, exponent, hnotates, hdecimal⟩ :=
      Json.NumberLiteral.notates_positionalText hdigits Nat.toDigits_ne_nil hlead
    rw [Nat.ofDigitChars_ten_toDigits] at hdecimal
    exact ⟨value, exponent, hnotates, hdecimal⟩

end AuctionLog.Double

namespace AuctionLog.Json

open NumberLiteral

/-- Whether a number is read from its text, with the minus sign taken off first if there is one. -/
def Number.ReadBy (double? : Bool → Parts → Option Double) (value : Number) : Prop :=
  ∀ rest, Ends rest →
    (∃ input, Utf8.encode value.text ++ rest = 0x2D :: input ∧
        readBy double? true input = .ok (value, rest)) ∨
      readBy double? false (Utf8.encode value.text ++ rest) = .ok (value, rest)

namespace Number

variable {double? : Bool → Parts → Option Double}

theorem readBy_int {value : Int} (hlower : -0x8000000000000000 ≤ value)
    (hupper : value < 0x10000000000000000) : (int value hlower hupper).ReadBy double? := by
  intro rest hends
  have hsign : String.utf8EncodeChar '-' = [0x2D] := rfl
  have hdigits : ∀ char ∈ Nat.toDigits 10 value.natAbs, char.isDigit :=
    fun _ => Digits.isDigit_of_mem
  have hparts := readParts_whole hdigits Nat.toDigits_ne_nil
    (fun more hzero => (toDigits_lead _ more hzero).1) hends
  have hvalue : valueFrom 0 (Utf8.encode (Nat.toDigits 10 value.natAbs)) = value.natAbs := by
    rw [valueFrom_encode hdigits, Nat.ofDigitChars_ten_toDigits]
  rw [text, intText]
  by_cases hneg : value < 0
  · have hsize : 0 < value.natAbs ∧ value.natAbs ≤ 0x8000000000000000 := by
      omega
    rw [if_pos hneg, Utf8.encode_cons, hsign]
    refine .inl ⟨_, rfl, readBy_of_integer hparts ?_⟩
    simp [Parts.integer?, hvalue, hsize, abs_of_neg hneg]
  · have hsize : value.natAbs < 0x10000000000000000 := by
      omega
    rw [if_neg hneg]
    refine .inr (readBy_of_integer hparts ?_)
    simp [Parts.integer?, hvalue, hsize, abs_of_nonneg (Int.not_lt.mp hneg)]

/-- A double is read from its text if the parts of the text are taken for it. -/
theorem readBy_double {value : Double} {parts : Parts}
    (hparts : HasParts (decimalText value.shortest) parts) (hwhole : ¬ parts.IsWhole)
    (hdouble : double? value.negative parts = some value) :
    (double value).ReadBy double? := by
  intro rest hends
  have hsign : String.utf8EncodeChar '-' = [0x2D] := rfl
  have hread := @readBy_of_not_isWhole double? value.negative _ _ _ (hparts rest hends) hwhole
  rw [hdouble] at hread
  rw [text]
  by_cases hneg : value.negative
  · rw [if_pos hneg, Utf8.encode_cons, hsign]
    exact .inl ⟨_, rfl, by rwa [hneg] at hread⟩
  · rw [if_neg hneg]
    exact .inr (by rwa [Bool.eq_false_iff.mpr hneg] at hread)

/-- **The text of a number stands for the number.** -/
theorem readBy_nearest (value : Number) : value.ReadBy Parts.nearest? := by
  cases value with
  | int value hlower hupper => exact readBy_int hlower hupper
  | double value =>
      obtain ⟨digits, power, ⟨parts, hparts, hwhole, rfl, rfl⟩, hwritten⟩ := value.exists_notates
      exact readBy_double hparts hwhole (Double.ofDecimal?_shortest hwritten)

/-- **A double that takes few digits to write is read as itself**: its text has no more than 53 bits
of digits, and its last digit is no more than 22 places behind the point. -/
theorem readBy_of_short {value : Double} (hpower : -22 ≤ value.shortest.power)
    (hdigits : value.shortest.digits * 10 ^ (value.shortest.power.toNat + 1) < 2 ^ 53) :
    (double value).ReadBy Parts.double? := by
  obtain ⟨digits, power, ⟨parts, hparts, hwhole, rfl, rfl⟩, hwritten⟩ := value.exists_notates
  have hten : 0 < 10 ^ (value.shortest.power.toNat + 1) := Nat.pow_pos (by decide)
  have hvalue : value.shortest.digits < 2 ^ 53 :=
    (Nat.le_mul_of_pos_right _ hten).trans_lt hdigits
  have hplaces : value.shortest.power ≤ 22 := by
    rcases Nat.eq_zero_or_pos value.shortest.digits with hzero | hpos
    · rw [value.shortest_bounds.2 hzero]
      decide
    · have hpow : 10 ^ (value.shortest.power.toNat + 1) < 10 ^ 16 :=
        (Nat.le_mul_of_pos_left _ hpos).trans_lt (hdigits.trans (by decide))
      have := (Nat.pow_lt_pow_iff_right (by decide)).mp hpow
      omega
  have hshort : parts.value < 2 ^ 53 ∧ parts.power.natAbs ≤ 22 := by
    rcases hwritten with ⟨hsame, hexponent⟩ | ⟨-, hlonger, hexponent⟩
    · exact ⟨hsame ▸ hvalue, by omega⟩
    · exact ⟨by rwa [hlonger, Nat.mul_assoc, ← Nat.pow_succ], by omega⟩
  refine readBy_double hparts hwhole ?_
  rw [Parts.double?_eq (hshort.1.trans (by decide)),
    Double.ofScientific?_eq_ofDecimal? hshort.1 hshort.2]
  exact Double.ofDecimal?_shortest hwritten

end Number

end AuctionLog.Json
