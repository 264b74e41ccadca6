import AuctionLog.Summary.Basic
import AuctionLog.Proofs.Decoder.Yields
import AuctionLog.Proofs.Double.Shortest
import AuctionLog.Proofs.Text.Numeral

/-!
# What a summary asks of a value

A member of a payload is asked to be a text, an integer, a list, a list of texts, or nothing in
particular. Texts and integers can be given in several spellings, and null is always as good as no
value. The rules are stated by what a value denotes; each decoder of a member obeys its rule, both
in what it accepts and in what it says of a value that it refuses.
-/

namespace AuctionLog

open Json

namespace Double

theorem signed_eq_iff {negative : Bool} {size : Nat} {whole : Int} :
    (if negative then -(size : Int) else size) = whole ↔
      size = whole.natAbs ∧ if negative then whole ≤ 0 else 0 ≤ whole := by
  cases negative
  · simp only [Bool.false_eq_true, if_false]
    omega
  · simp only [if_true]
    omega

theorem whole?_eq_some_iff {value : Double} {whole : Int} :
    value.whole? = some whole ↔
      value.steps = whole.natAbs * unit ∧ if value.negative then whole ≤ 0 else 0 ≤ whole := by
  have hcancel : ∀ size, size * unit / unit = size := fun size => Nat.mul_div_cancel size unit_pos
  unfold whole?
  constructor
  · intro hread
    by_cases hdivides : unit ∣ value.steps
    · obtain ⟨size, hsize⟩ := exists_eq_mul_left_of_dvd hdivides
      rw [if_pos hdivides, hsize, hcancel] at hread
      obtain ⟨hwhole, hsign⟩ := signed_eq_iff.mp (Option.some.inj hread)
      exact ⟨hwhole ▸ hsize, hsign⟩
    · rw [if_neg hdivides] at hread
      exact absurd hread nofun
  · rintro ⟨hsteps, hsign⟩
    rw [hsteps, if_pos (Nat.dvd_mul_left _ _), hcancel]
    exact congrArg some (signed_eq_iff.mpr ⟨rfl, hsign⟩)

end Double

namespace Lenient

/-- Whether a value is told as a text: a text as it is, a number or a truth value by its JSON. -/
inductive IsText : Json → String → Prop where
  | text (value : String) : IsText (.str value) value
  | number (value : Number) : IsText (.num value) (Json.num value).compact
  | flag (value : Bool) : IsText (.bool value) (Json.bool value).compact

/-- Whether a value denotes an integer: a whole number does, a double that is equal to one, and a
text that spells one between blanks. -/
inductive IsInteger : Json → Int → Prop where
  | int (value : Int) (lower : -0x8000000000000000 ≤ value) (upper : value < 0x10000000000000000) :
      IsInteger (.num (.int value lower upper)) value
  | double {value : Double} {whole : Int} (hsteps : value.steps = whole.natAbs * Double.unit)
      (hsign : if value.negative then whole ≤ 0 else 0 ≤ whole) :
      IsInteger (.num (.double value)) whole
  | text {before literal after : List Char} {whole : Int}
      (hbefore : ∀ char ∈ before, Blank.isBlank char) (hliteral : Numeral.Literal literal whole)
      (hafter : ∀ char ∈ after, Blank.isBlank char) :
      IsInteger (.str (String.ofList (before ++ literal ++ after))) whole

variable {value : Json}

theorem text?_eq_some_iff {told : String} : text? value = some told ↔ IsText value told := by
  constructor
  · intro hread
    cases value with
    | str value =>
        obtain rfl := Option.some.inj hread
        exact .text value
    | num value =>
        obtain rfl := Option.some.inj hread
        exact .number value
    | bool value =>
        obtain rfl := Option.some.inj hread
        cases value
        · exact .flag false
        · exact .flag true
    | null | arr | obj => exact absurd hread nofun
  · rintro (value | value | value)
    · rfl
    · rfl
    · cases value <;> rfl

theorem integer?_eq_some_iff {whole : Int} :
    integer? value = some whole ↔ IsInteger value whole := by
  constructor
  · intro hread
    cases value with
    | num value =>
        cases value with
        | int value lower upper =>
            obtain rfl := Option.some.inj hread
            exact .int value lower upper
        | double value =>
            obtain ⟨hsteps, hsign⟩ := Double.whole?_eq_some_iff.mp hread
            exact .double hsteps hsign
    | str value =>
        obtain ⟨before, literal, after, hvalue, hbefore, hafter, hliteral⟩ :=
          Numeral.integer?_trim_eq_some_iff.mp hread
        have htext : value = String.ofList (before ++ literal ++ after) := by
          rw [← hvalue, String.ofList_toList]
        exact htext ▸ .text hbefore hliteral hafter
    | null | bool | arr | obj => exact absurd hread nofun
  · rintro (_ | ⟨hsteps, hsign⟩ | ⟨hbefore, hliteral, hafter⟩)
    · rfl
    · exact Double.whole?_eq_some_iff.mpr ⟨hsteps, hsign⟩
    · rw [integer?, String.toList_ofList]
      exact Numeral.integer?_trim_eq_some_iff.mpr ⟨_, _, _, rfl, hbefore, hafter, hliteral⟩

theorem int32?_eq_some_iff {whole : Int} {told : Int32} :
    int32? whole = some told ↔ told.toInt = whole := by
  unfold int32?
  constructor
  · intro hread
    split_ifs at hread with hrange
    obtain rfl := Option.some.inj hread
    exact Int32.toInt_ofInt_of_le hrange.1 hrange.2
  · rintro rfl
    rw [if_pos ⟨told.le_toInt, told.toInt_lt⟩, Int32.ofInt_toInt]

theorem int32_eq_some_iff {told : Int32} :
    (integer? value).bind int32? = some told ↔ IsInteger value told.toInt := by
  rw [Option.bind_eq_some_iff]
  constructor
  · rintro ⟨whole, hwhole, htold⟩
    obtain rfl := int32?_eq_some_iff.mp htold
    exact integer?_eq_some_iff.mp hwhole
  · intro hinteger
    exact ⟨_, integer?_eq_some_iff.mpr hinteger, int32?_eq_some_iff.mpr rfl⟩

end Lenient

/-- What is asked of a member of a payload. -/
inductive Rule where
  | text
  | integer
  | list
  | texts
  | any
deriving DecidableEq

namespace Rule

/-- What is recorded of a member. -/
abbrev Told : Rule → Type
  | .text => String
  | .integer => Int32
  | .list => List Json
  | .texts => List String
  | .any => Json

/-- Whether a value tells what is recorded of it. -/
def Tells : (rule : Rule) → Json → rule.Told → Prop
  | .text, value, told => Lenient.IsText value told
  | .integer, value, told => Lenient.IsInteger value told.toInt
  | .list, value, told => value = .arr told
  | .texts, value, told => value = .arr (told.map .str)
  | .any, value, told => value = told

def Accepts (rule : Rule) (value : Json) : Prop :=
  value = .null ∨ ∃ told, rule.Tells value told

/-- What is recorded of a member: nothing if it is absent or null, and else what its value tells. -/
inductive Records (rule : Rule) : Option Json → Option rule.Told → Prop where
  | absent : Records rule none none
  | null : Records rule (some .null) none
  | value {value : Json} {told : rule.Told} (hnull : value ≠ .null)
      (htells : rule.Tells value told) : Records rule (some value) (some told)

/-- What is said of a value that is not what is asked for. Of a list that is to be one of texts, the
first item that is none is named. -/
inductive Refuses : Rule → Json → Mismatch → Prop where
  | text {value : Json} (hvalue : ¬ Accepts .text value) : Refuses .text value (.notText value)
  | integer {value : Json} (hvalue : ¬ Accepts .integer value) :
      Refuses .integer value (.notInt32 value)
  | list {value : Json} (hvalue : ¬ Accepts .list value) :
      Refuses .list value (.wrongType (.ofJson value) .sequence)
  | texts {value : Json} (hvalue : ¬ Accepts .list value) :
      Refuses .texts value (.wrongType (.ofJson value) .sequence)
  | item (before : List String) {item : Json} (after : List Json)
      (hitem : ∀ text, item ≠ .str text) :
      Refuses .texts (.arr (before.map .str ++ item :: after)) (.wrongType (.ofJson item) .text)

variable {rule : Rule} {value : Json} {mismatch : Mismatch}

theorem not_accepts (hnull : value ≠ .null) (hnone : ∀ told, ¬ rule.Tells value told) :
    ¬ rule.Accepts value := by
  rintro (rfl | ⟨told, htells⟩)
  · exact hnull rfl
  · exact hnone told htells

theorem accepts_iff_records : rule.Accepts value ↔ ∃ told, rule.Records (some value) told := by
  constructor
  · rintro (rfl | ⟨told, htells⟩)
    · exact ⟨none, .null⟩
    · by_cases hnull : value = .null
      · exact ⟨none, hnull ▸ .null⟩
      · exact ⟨some told, .value hnull htells⟩
  · rintro ⟨_, _ | _ | ⟨-, htells⟩⟩
    · exact .inl rfl
    · exact .inr ⟨_, htells⟩

end Rule

namespace Decoder

/-- Whether a decoder makes of a member what a rule records of it, and nothing of any other one. -/
structure Follows (rule : Rule) (decoder : Decoder (Option rule.Told)) : Prop where
  records : ∀ value told, decoder.ofJson value = .ok told ↔ rule.Records (some value) told
  refuses : ∀ value mismatch, decoder.ofJson value = .error mismatch → rule.Refuses value mismatch

variable {rule : Rule} {value : Json} {mismatch : Mismatch}

/-- Null comes to nothing with every rule, so that only other values are to be looked at. -/
theorem Follows.of_read {decoder : Decoder (Option rule.Told)}
    (read : Json → Except Mismatch rule.Told) (hnone : decoder.ofJson .null = .ok none)
    (hsome : ∀ value, value ≠ .null →
      decoder.ofJson value = read value >>= fun told => .ok (some told))
    (htells : ∀ value told, value ≠ .null → (read value = .ok told ↔ rule.Tells value told))
    (hrefuses : ∀ value mismatch, ¬ rule.Accepts value → read value = .error mismatch →
      rule.Refuses value mismatch) : decoder.Follows rule where
  records := by
    intro value told
    by_cases hnull : value = .null
    · subst hnull
      rw [hnone]
      constructor
      · intro htold
        obtain rfl := Except.ok.inj htold
        exact .null
      · rintro (_ | _ | ⟨hnull, -⟩)
        · rfl
        · exact absurd rfl hnull
    · rw [hsome value hnull, bind_eq_ok]
      constructor
      · rintro ⟨read, hread, htold⟩
        obtain rfl := Except.ok.inj htold
        exact .value hnull ((htells value read hnull).mp hread)
      · rintro (_ | _ | ⟨hnull, htold⟩)
        · exact absurd rfl hnull
        · exact ⟨_, (htells value _ hnull).mpr htold, rfl⟩
  refuses := by
    intro value mismatch hread
    by_cases hnull : value = .null
    · rw [hnull, hnone] at hread
      exact absurd hread nofun
    · rw [hsome value hnull] at hread
      cases hvalue : read value with
      | ok told => simp [hvalue, bind, Except.bind] at hread
      | error reason =>
          rw [hvalue] at hread
          obtain rfl := Except.error.inj hread
          refine hrefuses value reason (Rule.not_accepts hnull fun told htold => ?_) hvalue
          exact absurd ((htells value told hnull).mpr htold) (by simp [hvalue])

theorem Follows.optional {decoder : Decoder rule.Told}
    (htells : ∀ value told, decoder.ofJson value = .ok told ↔ rule.Tells value told)
    (hrefuses : ∀ value mismatch, ¬ rule.Accepts value → decoder.ofJson value = .error mismatch →
      rule.Refuses value mismatch) : decoder.optional.Follows rule :=
  .of_read decoder.ofJson rfl (fun _ => optional_of_ne_null)
    (fun value told _ => htells value told) hrefuses

theorem Follows.any : Decoder.json.optional.Follows .any := by
  refine .optional (fun value told => Except.ok.injEq value told ▸ Iff.rfl) ?_
  intro value mismatch _ hread
  exact absurd hread nofun

/-- A decoder that reads every spelling of a value, and complains of what is none. -/
theorem Follows.lenient {check : Option Json → Except Mismatch (Option rule.Told)}
    {read : Json → Option rule.Told} {complaint : Json → Mismatch} (hnone : check none = .ok none)
    (hsome : ∀ value, check (some value) =
      (read value).elim (.error (complaint value)) fun told => .ok (some told))
    (hread : ∀ value told, read value = some told ↔ rule.Tells value told)
    (hcomplaint : ∀ value, ¬ rule.Accepts value → rule.Refuses value (complaint value)) :
    (Decoder.json.optional.refine check).Follows rule := by
  refine .of_read (fun value => (read value).elim (.error (complaint value)) .ok) hnone ?_ ?_ ?_
  · intro value hnull
    change (Decoder.json.optional.ofJson value >>= check) = _
    rw [optional_of_ne_null hnull]
    change check (some value) = _
    rw [hsome]
    cases read value <;> rfl
  · intro value told _
    rw [← hread]
    cases read value <;> simp
  · intro value mismatch hvalue hrefused
    cases hfound : read value with
    | none =>
        rw [hfound] at hrefused
        obtain rfl := Except.error.inj hrefused
        exact hcomplaint value hvalue
    | some told => exact absurd (.inr ⟨told, (hread value told).mp hfound⟩) hvalue

theorem Follows.text : Lenient.text.Follows .text := by
  refine .lenient rfl ?_ (fun _ _ => Lenient.text?_eq_some_iff) fun _ => .text
  intro value
  cases htext : Lenient.text? value <;> simp only [htext, Option.elim]

theorem Follows.integer : Lenient.integer.Follows .integer := by
  refine .lenient rfl ?_ (fun _ _ => Lenient.int32_eq_some_iff) fun _ => .integer
  intro value
  cases hinteger : (Lenient.integer? value).bind Lenient.int32? <;>
    simp only [hinteger, Option.elim]

/-! ## Lists -/

theorem list_eq_ok_iff {α : Type} {decoder : Decoder α} {results : List α} :
    decoder.list.ofJson value = .ok results ↔
      ∃ items, value = .arr items ∧ items.mapM decoder.ofJson = .ok results := by
  cases value with
  | arr items => simp [list]
  | _ => simp [list, wrongType]

theorem list_eq_error {α : Type} {decoder : Decoder α}
    (hread : decoder.list.ofJson value = .error mismatch) :
    (∀ items, value ≠ .arr items) ∧ mismatch = .wrongType (.ofJson value) .sequence ∨
      ∃ items, value = .arr items ∧ items.mapM decoder.ofJson = .error mismatch := by
  cases value with
  | arr items => exact .inr ⟨items, rfl, hread⟩
  | _ => exact .inl ⟨nofun, (Except.error.inj hread).symm⟩

theorem text_eq_ok_iff {item : Json} {text : String} :
    Decoder.text.ofJson item = .ok text ↔ item = .str text := by
  cases item <;> simp [Decoder.text, wrongType]

theorem mapM_text_eq_ok_iff {items : List Json} {texts : List String} :
    items.mapM Decoder.text.ofJson = .ok texts ↔ items = texts.map .str := by
  induction items generalizing texts with
  | nil => cases texts <;> simp [pure, Except.pure]
  | cons item items ih =>
      rw [List.mapM_cons, bind_eq_ok]
      simp only [text_eq_ok_iff, bind_eq_ok, ih]
      constructor
      · rintro ⟨text, rfl, rest, rfl, htexts⟩
        obtain rfl := Except.ok.inj htexts
        rfl
      · intro hitems
        cases texts with
        | nil => exact absurd hitems nofun
        | cons text texts =>
            obtain ⟨hitem, hrest⟩ := List.cons.inj hitems
            exact ⟨text, hitem, texts, hrest, rfl⟩

/-- Of the items of a list that are to be texts, the first that is none is complained of. -/
theorem exists_item_of_mapM_text {items : List Json}
    (hread : items.mapM Decoder.text.ofJson = .error mismatch) :
    ∃ (before : List String) (item : Json) (after : List Json),
      items = before.map .str ++ item :: after ∧
      (∀ text, item ≠ .str text) ∧ mismatch = .wrongType (.ofJson item) .text := by
  induction items with
  | nil => exact absurd hread nofun
  | cons item items ih =>
      rw [List.mapM_cons] at hread
      by_cases htext : ∃ text, item = .str text
      · obtain ⟨text, rfl⟩ := htext
        rw [text_eq_ok_iff.mpr rfl] at hread
        cases hrest : items.mapM Decoder.text.ofJson with
        | ok texts =>
            rw [hrest] at hread
            exact absurd hread nofun
        | error reason =>
            rw [hrest] at hread
            obtain rfl := Except.error.inj hread
            obtain ⟨before, found, after, rfl, hfound, hreason⟩ := ih hrest
            exact ⟨text :: before, found, after, rfl, hfound, hreason⟩
      · rw [not_exists] at htext
        refine ⟨[], item, items, rfl, htext, ?_⟩
        cases item with
        | str text => exact absurd rfl (htext text)
        | _ => exact (Except.error.inj hread).symm

theorem Follows.list : Decoder.json.list.optional.Follows .list := by
  refine .optional ?_ ?_
  · intro value told
    rw [list_eq_ok_iff]
    constructor
    · rintro ⟨items, rfl, hread⟩
      rw [mapM_json] at hread
      rw [Except.ok.inj hread]
      rfl
    · rintro rfl
      exact ⟨told, rfl, mapM_json told⟩
  · intro value mismatch hvalue hread
    rcases list_eq_error hread with ⟨-, rfl⟩ | ⟨items, rfl, -⟩
    · exact .list hvalue
    · exact absurd (.inr ⟨items, rfl⟩) hvalue

theorem Follows.texts : Decoder.text.list.optional.Follows .texts := by
  refine .optional ?_ ?_
  · intro value told
    rw [list_eq_ok_iff]
    simp only [mapM_text_eq_ok_iff]
    constructor
    · rintro ⟨items, rfl, rfl⟩
      rfl
    · rintro rfl
      exact ⟨_, rfl, rfl⟩
  · intro value mismatch hvalue hread
    rcases list_eq_error hread with ⟨hlist, rfl⟩ | ⟨items, rfl, hread⟩
    · refine .texts (Rule.not_accepts ?_ hlist)
      rintro rfl
      exact hvalue (.inl rfl)
    · obtain ⟨before, item, after, rfl, hitem, rfl⟩ := exists_item_of_mapM_text hread
      exact .item before after hitem

end Decoder

end AuctionLog
