import AuctionLog.Proofs.Text.Digits
import AuctionLog.Text.Ascii
import AuctionLog.Text.Unicode
import Mathlib.Data.List.TakeWhile

/-!
# Integers spelled in texts

A text spells an integer if what it holds between blanks is a sign, which can be left out, and one
or more decimal digits. However many digits there are, the integer read is the one they denote.
-/

namespace AuctionLog

namespace Numeral

variable {text : List Char}

/-- Whether a text is a sign, if any, and decimal digits, with the integer that they denote. -/
inductive Literal : List Char → Int → Prop where
  | plain {digits : List Char} (hsome : digits ≠ []) (hdigits : ∀ char ∈ digits, char.isDigit) :
      Literal digits (Nat.ofDigitChars 10 digits 0)
  | plus {digits : List Char} (hsome : digits ≠ []) (hdigits : ∀ char ∈ digits, char.isDigit) :
      Literal ('+' :: digits) (Nat.ofDigitChars 10 digits 0)
  | minus {digits : List Char} (hsome : digits ≠ []) (hdigits : ∀ char ∈ digits, char.isDigit) :
      Literal ('-' :: digits) (-(Nat.ofDigitChars 10 digits 0 : Int))

theorem digit?_of_isDigit {char : Char} (hdigit : char.isDigit) :
    digit? 10 char = some (char.toNat - '0'.toNat) := by
  have hcode := Digits.toNat_of_isDigit hdigit
  have hbounds : '0' ≤ char ∧ char ≤ '9' := by
    rw [Char.le_def, Char.le_def, UInt32.le_iff_toNat_le, UInt32.le_iff_toNat_le]
    exact hcode
  have hsmall : char.toNat - '0'.toNat < 10 := by
    simp only [Char.reduceToNat]
    omega
  rw [digit?, if_pos hbounds, Option.filter_some, if_pos (decide_eq_true hsmall)]

theorem digit?_of_not_isDigit {char : Char} (hdigit : ¬ char.isDigit) : digit? 10 char = none := by
  have hbounds : ¬ ('0' ≤ char ∧ char ≤ '9') := by
    rw [Char.le_def, Char.le_def, UInt32.le_iff_toNat_le, UInt32.le_iff_toNat_le]
    exact mt Char.isDigit_iff_toNat.mpr hdigit
  -- A letter stands for ten at least, which is no digit to the base of ten.
  rw [digit?, if_neg hbounds, Option.filter_eq_none_iff]
  intro value hvalue
  simp only [decide_eq_true_eq, Nat.not_lt]
  split_ifs at hvalue <;> obtain rfl := Option.some.inj hvalue <;> omega

theorem digitsFrom?_eq_some_iff {value result : Nat} :
    digitsFrom? 10 value text = some result ↔
      (∀ char ∈ text, char.isDigit) ∧ Nat.ofDigitChars 10 text value = result := by
  induction text generalizing value with
  | nil => simp [digitsFrom?]
  | cons char rest ih =>
      by_cases hdigit : char.isDigit
      · rw [digitsFrom?, digit?_of_isDigit hdigit, Nat.ofDigitChars_cons, List.forall_mem_cons,
          Nat.mul_comm 10]
        simp only [ih, hdigit, true_and]
      · rw [digitsFrom?, digit?_of_not_isDigit hdigit]
        simp [hdigit]

theorem digits?_eq_some_iff {result : Nat} :
    digits? 10 text = some result ↔
      text ≠ [] ∧ (∀ char ∈ text, char.isDigit) ∧ Nat.ofDigitChars 10 text 0 = result := by
  unfold digits?
  split_ifs with hempty
  · simp [List.isEmpty_iff.mp hempty]
  · rw [digitsFrom?_eq_some_iff]
    simp [List.isEmpty_iff.not.mp hempty]

theorem integer?_minus (rest : List Char) :
    integer? ('-' :: rest) = (digits? 10 rest).map fun value => -(Int.ofNat value) := by
  rw [integer?]
  cases digits? 10 rest <;> rfl

/-- **A literal is read as the integer that it denotes**, and nothing else is read as one. -/
theorem integer?_eq_some_iff {result : Int} :
    integer? text = some result ↔ Literal text result := by
  constructor
  · intro hread
    rcases text with _ | ⟨char, rest⟩
    · simp [integer?, digits?] at hread
    · by_cases hminus : char = '-'
      · rw [hminus, integer?_minus] at hread
        obtain ⟨value, hvalue, rfl⟩ := Option.map_eq_some_iff.mp hread
        obtain ⟨hsome, hdigits, rfl⟩ := digits?_eq_some_iff.mp hvalue
        exact hminus ▸ .minus hsome hdigits
      · unfold integer? at hread
        split at hread
        · rename_i heq
          exact absurd (List.cons.inj heq).1 hminus
        all_goals
          obtain ⟨value, hvalue, rfl⟩ := Option.map_eq_some_iff.mp hread
          obtain ⟨hsome, hdigits, rfl⟩ := digits?_eq_some_iff.mp hvalue
        · rename_i heq
          exact heq ▸ .plus hsome hdigits
        · exact .plain hsome hdigits
  · rintro (⟨hsome, hdigits⟩ | ⟨hsome, hdigits⟩ | ⟨hsome, hdigits⟩)
    · unfold integer?
      split
      · exact absurd (hdigits '-' (List.mem_cons_self ..)) (by decide)
      · exact absurd (hdigits '+' (List.mem_cons_self ..)) (by decide)
      · rw [digits?_eq_some_iff.mpr ⟨hsome, hdigits, rfl⟩, Option.map_some]
        rfl
    · rw [integer?, digits?_eq_some_iff.mpr ⟨hsome, hdigits, rfl⟩, Option.map_some]
      rfl
    · rw [integer?_minus, digits?_eq_some_iff.mpr ⟨hsome, hdigits, rfl⟩, Option.map_some]
      rfl

/-- Whether a text is decimal digits, behind a plus sign or not, and which number they denote. -/
inductive Unsigned : List Char → Nat → Prop where
  | plain {digits : List Char} (hsome : digits ≠ []) (hdigits : ∀ char ∈ digits, char.isDigit) :
      Unsigned digits (Nat.ofDigitChars 10 digits 0)
  | plus {digits : List Char} (hsome : digits ≠ []) (hdigits : ∀ char ∈ digits, char.isDigit) :
      Unsigned ('+' :: digits) (Nat.ofDigitChars 10 digits 0)

theorem natural?_eq_some_iff {result : Nat} :
    natural? text = some result ↔ Unsigned text result := by
  constructor
  · intro hread
    unfold natural? at hread
    split at hread
    all_goals obtain ⟨hsome, hdigits, rfl⟩ := digits?_eq_some_iff.mp hread
    · exact .plus hsome hdigits
    · exact .plain hsome hdigits
  · rintro (⟨hsome, hdigits⟩ | ⟨hsome, hdigits⟩)
    · unfold natural?
      split
      · exact absurd (hdigits '+' (List.mem_cons_self ..)) (by decide)
      · exact digits?_eq_some_iff.mpr ⟨hsome, hdigits, rfl⟩
    · exact digits?_eq_some_iff.mpr ⟨hsome, hdigits, rfl⟩

end Numeral

namespace Blank

theorem exists_trim (text : List Char) :
    ∃ before after, text = before ++ trim text ++ after ∧ (∀ char ∈ before, isBlank char) ∧
      ∀ char ∈ after, isBlank char := by
  set rest := text.dropWhile isBlank with hrest
  refine ⟨text.takeWhile isBlank, (rest.reverse.takeWhile isBlank).reverse, ?_, ?_, ?_⟩
  · rw [trim, ← hrest, List.append_assoc, ← List.reverse_append, List.takeWhile_append_dropWhile,
      List.reverse_reverse, hrest, List.takeWhile_append_dropWhile]
  · intro char hmem
    exact List.mem_takeWhile_imp hmem
  · intro char hmem
    exact List.mem_takeWhile_imp (List.mem_reverse.mp hmem)

theorem dropWhile_eq_self {text : List Char} (htext : ∀ char ∈ text, ¬ isBlank char) :
    text.dropWhile isBlank = text := by
  cases text with
  | nil => rfl
  | cons char rest => exact List.dropWhile_cons_of_neg (htext char (List.mem_cons_self ..))

/-- Blanks around a text that has none are trimmed, and nothing else. -/
theorem trim_eq {before text after : List Char} (hbefore : ∀ char ∈ before, isBlank char)
    (htext : ∀ char ∈ text, ¬ isBlank char) (hafter : ∀ char ∈ after, isBlank char) :
    trim (before ++ text ++ after) = text := by
  have hreversed : ∀ char ∈ after.reverse, isBlank char := by
    intro char hmem
    exact hafter char (List.mem_reverse.mp hmem)
  have hturned : ∀ char ∈ text.reverse, ¬ isBlank char := by
    intro char hmem
    exact htext char (List.mem_reverse.mp hmem)
  rw [trim, List.append_assoc, List.dropWhile_append_of_pos hbefore]
  cases text with
  | nil =>
      have hnone : after.dropWhile isBlank = [] := List.dropWhile_eq_nil_iff.mpr hafter
      rw [List.nil_append, hnone]
      rfl
  | cons char rest =>
      have hchar := htext char (List.mem_cons_self ..)
      rw [List.cons_append, List.dropWhile_cons_of_neg hchar, ← List.cons_append,
        List.reverse_append, List.dropWhile_append_of_pos hreversed, dropWhile_eq_self hturned,
        List.reverse_reverse]

end Blank

namespace Numeral

theorem Literal.not_isBlank {text : List Char} {value : Int} (hliteral : Literal text value) :
    ∀ char ∈ text, ¬ Blank.isBlank char := by
  have hdigit : ∀ char : Char, char.isDigit → ¬ Blank.isBlank char := by
    intro char hdigit
    have hcode := Digits.toNat_of_isDigit hdigit
    simp only [Blank.isBlank, Bool.or_eq_true, Bool.and_eq_true, decide_eq_true_eq, beq_iff_eq]
    omega
  cases hliteral with
  | plain _ hdigits => exact fun char hmem => hdigit char (hdigits char hmem)
  | plus _ hdigits =>
      refine List.forall_mem_cons.mpr ⟨by decide, ?_⟩
      exact fun char hmem => hdigit char (hdigits char hmem)
  | minus _ hdigits =>
      refine List.forall_mem_cons.mpr ⟨by decide, ?_⟩
      exact fun char hmem => hdigit char (hdigits char hmem)

/-- What is read between blanks is the integer of the literal there. -/
theorem integer?_trim_eq_some_iff {text : List Char} {value : Int} :
    integer? (Blank.trim text) = some value ↔
      ∃ before literal after, text = before ++ literal ++ after ∧
        (∀ char ∈ before, Blank.isBlank char) ∧ (∀ char ∈ after, Blank.isBlank char) ∧
        Literal literal value := by
  rw [integer?_eq_some_iff]
  constructor
  · intro hliteral
    obtain ⟨before, after, htext, hbefore, hafter⟩ := Blank.exists_trim text
    exact ⟨before, _, after, htext, hbefore, hafter, hliteral⟩
  · rintro ⟨before, literal, after, rfl, hbefore, hafter, hliteral⟩
    rwa [Blank.trim_eq hbefore hliteral.not_isBlank hafter]

end Numeral

end AuctionLog
