import AuctionLog.Proofs.Decoder.Framed
import AuctionLog.Proofs.Summary.Projection
import Mathlib.Algebra.Order.Field.Rat

/-!
# Integers, whichever way they are spelled

A number stands for its exact value, and a text that spells an integer stands for that integer. A
summary records the integer that a value stands for, if 32 bits hold it, and refuses every other
value: an integer is recorded as itself or not at all.
-/

namespace AuctionLog

open Json

namespace Double

/-- The number that a double is. -/
def toRat (value : Double) : ℚ :=
  (if value.negative then -(value.steps : Int) else value.steps : Int) / (unit : ℚ)

theorem toRat_eq_intCast_iff {value : Double} {whole : Int} :
    value.toRat = whole ↔
      value.steps = whole.natAbs * unit ∧ if value.negative then whole ≤ 0 else 0 ≤ whole := by
  have hunit : (0 : Int) < unit := Int.natCast_pos.mpr unit_pos
  have hne : (unit : ℚ) ≠ 0 := Nat.cast_ne_zero.mpr unit_pos.ne'
  have hwhole : value.toRat = whole ↔
      (if value.negative then -(value.steps : Int) else value.steps) = whole * unit := by
    rw [toRat, div_eq_iff hne]
    exact_mod_cast Iff.rfl
  have hnonpos : whole * unit ≤ 0 ↔ whole ≤ 0 := by
    rw [← neg_nonneg, ← neg_mul, mul_nonneg_iff_of_pos_right hunit, neg_nonneg]
  rw [hwhole, signed_eq_iff, Int.natAbs_mul, Int.natAbs_natCast, hnonpos,
    mul_nonneg_iff_of_pos_right hunit]

end Double

namespace Lenient

/-- The number that a value stands for: a number itself, or the integer that a text spells. -/
inductive StandsFor : Json → ℚ → Prop where
  | int (value : Int) (lower : -0x8000000000000000 ≤ value) (upper : value < 0x10000000000000000) :
      StandsFor (.num (.int value lower upper)) value
  | double (value : Double) : StandsFor (.num (.double value)) value.toRat
  | text {before literal after : List Char} {whole : Int}
      (hbefore : ∀ char ∈ before, Blank.isBlank char) (hliteral : Numeral.Literal literal whole)
      (hafter : ∀ char ∈ after, Blank.isBlank char) :
      StandsFor (.str (String.ofList (before ++ literal ++ after))) whole

/-- Whether a value stands for an integer that 32 bits hold. -/
def StandsForInt32 (value : Json) : Prop :=
  ∃ whole : Int, StandsFor value whole ∧ -2147483648 ≤ whole ∧ whole ≤ 2147483647

variable {value : Json}

theorem isInteger_iff_standsFor {whole : Int} : IsInteger value whole ↔ StandsFor value whole := by
  constructor
  · rintro (_ | ⟨hsteps, hsign⟩ | ⟨hbefore, hliteral, hafter⟩)
    · exact .int ..
    · exact Double.toRat_eq_intCast_iff.mpr ⟨hsteps, hsign⟩ ▸ .double _
    · exact .text hbefore hliteral hafter
  · intro hstands
    generalize hnumber : (whole : ℚ) = number at hstands
    cases hstands with
    | int value lower upper => exact Int.cast_injective hnumber ▸ .int value lower upper
    | double value =>
        obtain ⟨hsteps, hsign⟩ := Double.toRat_eq_intCast_iff.mp hnumber.symm
        exact .double hsteps hsign
    | text hbefore hliteral hafter =>
        exact Int.cast_injective hnumber ▸ .text hbefore hliteral hafter

theorem standsForInt32_iff :
    StandsForInt32 value ↔ ∃ whole : Int32, IsInteger value whole.toInt := by
  simp only [isInteger_iff_standsFor]
  constructor
  · rintro ⟨whole, hstands, hlower, hupper⟩
    refine ⟨Int32.ofInt whole, ?_⟩
    rwa [Int32.toInt_ofInt_of_le hlower (Int.lt_add_one_of_le hupper)]
  · rintro ⟨whole, hstands⟩
    exact ⟨_, hstands, whole.le_toInt, Int.le_of_lt_add_one whole.toInt_lt⟩

theorem accepts_iff : Rule.integer.Accepts value ↔ value = .null ∨ StandsForInt32 value :=
  or_congr_right standsForInt32_iff.symm

end Lenient

/-! ## One member that is to be an integer -/

/-- A member of a summary that is an integer: its name, and its place in the summary. -/
structure IntegerKey (ρ : Type) where
  name : String
  get : ρ → Option Int32
  set : ρ → Option Int32 → ρ

namespace IntegerKey

variable {ρ : Type}

def field (key : IntegerKey ρ) : Field ρ :=
  .defaulted key.name Lenient.integer key.set

/-- A payload with a value for the member, among others. -/
def among (key : IntegerKey ρ) (before : Members) (value : Json) (after : Members) : Option Json :=
  some (.obj (before ++ (key.name, value) :: after))

/-- Whether the member is read into its own place of the record, which is empty at first. -/
structure Placed (key : IntegerKey ρ) (fields : List (Field ρ)) (empty : ρ) : Prop where
  mem : key.field ∈ fields
  unset : key.set empty none = empty
  get_set : ∀ record told, key.get (key.set record told) = told

/-- What a value for the member comes to, next to others. Where these are summarized on their own,
nothing changes for null, the integer that a value stands for is set if 32 bits hold it, and there
is a fault for any other value. -/
structure Coerces (key : IntegerKey ρ) (payload : Payload)
    (ofPayload : Option Json → Except PayloadFault (Option ρ)) (before after : Members) : Prop where
  absent : ∀ record, ofPayload (some (.obj (before ++ after))) = .ok (some record) →
    key.get record = none
  null : ∀ record, ofPayload (some (.obj (before ++ after))) = .ok (some record) → ∀ value,
    (ofPayload (key.among before value after) = .ok (some record) ↔ value = .null)
  told : ∀ record, ofPayload (some (.obj (before ++ after))) = .ok (some record) →
    ∀ value (whole : Int32),
      (ofPayload (key.among before value after) = .ok (some (key.set record (some whole))) ↔
        Lenient.StandsFor value whole.toInt)
  refused : ∀ record, ofPayload (some (.obj (before ++ after))) = .ok (some record) → ∀ value,
    (ofPayload (key.among before value after) = .error ⟨payload, .notInt32 value⟩ ↔
      value ≠ .null ∧ ¬ Lenient.StandsForInt32 value)
  faulty : ∀ value, value ≠ .null → ¬ Lenient.StandsForInt32 value →
    ∃ fault, ofPayload (key.among before value after) = .error fault
  exact : ∀ record value whole, ofPayload (key.among before value after) = .ok (some record) →
    key.get record = some whole → Lenient.StandsFor value whole.toInt
  alike : ∀ value other (whole : Int32), Lenient.StandsFor value whole.toInt →
    Lenient.StandsFor other whole.toInt →
      ofPayload (key.among before value after) = ofPayload (key.among before other after)

variable {key : IntegerKey ρ} {fields : List (Field ρ)} {empty record : ρ} {payload : Payload}
  {type : String} {before after members : Members} {value : Json} {told : Option Int32}

theorem summarize_obj_eq_ok_iff :
    summarize payload (.record type fields empty) (some (.obj members)) = .ok (some record) ↔
      Decoder.ofMembers fields [] empty members = .ok record := by
  have hnull : Json.obj members ≠ .null := nofun
  rw [summarize_eq_ok_iff hnull]
  simp only [Option.some.injEq, exists_eq_left']
  exact Iff.rfl

theorem summarize_obj_eq_error {mismatch : Mismatch}
    (hread : Decoder.ofMembers fields [] empty members = .error mismatch) :
    summarize payload (.record type fields empty) (some (.obj members)) =
      .error ⟨payload, mismatch⟩ := by
  have hnull : Json.obj members ≠ .null := nofun
  have hdecoder : (Decoder.record type fields empty).ofJson (.obj members) = .error mismatch :=
    hread
  rw [summarize_of_ne_null hnull, hdecoder]

theorem summarize_obj_congr {others : Members}
    (hsame : Decoder.ofMembers fields [] empty members =
      Decoder.ofMembers fields [] empty others) :
    summarize payload (.record type fields empty) (some (.obj members)) =
      summarize payload (.record type fields empty) (some (.obj others)) := by
  cases hread : Decoder.ofMembers fields [] empty members with
  | ok record =>
      rw [summarize_obj_eq_ok_iff.mpr hread, summarize_obj_eq_ok_iff.mpr (hsame ▸ hread)]
  | error mismatch =>
      rw [summarize_obj_eq_error hread, summarize_obj_eq_error (hsame ▸ hread)]

theorem field_of_records (hrecords : Rule.integer.Records (some value) told) :
    key.field.decoder.ofJson value = .ok fun record => key.set record told :=
  Decoder.map_eq_ok_iff.mpr ⟨told, (Decoder.Follows.integer.records value told).mpr hrecords, rfl⟩

theorem field_of_not_accepts (hvalue : ¬ Rule.integer.Accepts value) :
    key.field.decoder.ofJson value = .error (.notInt32 value) := by
  refine Decoder.map_eq_error_iff.mpr ?_
  cases hread : Lenient.integer.ofJson value with
  | ok told =>
      have hrecords := (Decoder.Follows.integer.records value told).mp hread
      exact absurd (Rule.accepts_iff_records.mpr ⟨told, hrecords⟩) hvalue
  | error mismatch =>
      have hrefuses := Decoder.Follows.integer.refuses value mismatch hread
      cases hrefuses
      rfl

section Placed

variable (hkey : key.Placed fields empty) (hfields : Independent fields)
  (hunseen : Decoder.Unseen [] (before ++ (key.name, value) :: after))
include hkey hfields hunseen

/-- A value that the rule takes is put in its place, whatever the other members come to. -/
theorem ofMembers_of_records (hrecords : Rule.integer.Records (some value) told) :
    Decoder.ofMembers fields [] empty (before ++ (key.name, value) :: after) =
      (Decoder.ofMembers fields [] empty (before ++ after)).map (key.set · told) :=
  Decoder.ofMembers_insert hfields hkey.mem hunseen (field_of_records hrecords)

/-- Without a value for the member its place stays empty. -/
theorem set_none_of_ofMembers
    (hrecord : Decoder.ofMembers fields [] empty (before ++ after) = .ok record) :
    key.set record none = record := by
  have hcommuting := hfields.commuting hkey.mem (field_of_records .null)
  have hempty : Decoder.ofMembers fields [] (key.set empty none) (before ++ after) =
      (Decoder.ofMembers fields [] empty (before ++ after)).map (key.set · none) :=
    Decoder.ofMembers_update hfields hcommuting hunseen.append_cons hunseen.name_ne_of_append
  rw [hkey.unset, hrecord] at hempty
  exact (Except.ok.inj hempty).symm

/-- Next to members that come to a record, a value that the rule takes is what is told. -/
theorem among_eq_ok_iff
    (hrecord : Decoder.ofMembers fields [] empty (before ++ after) = .ok record) :
    summarize payload (.record type fields empty) (key.among before value after) =
        .ok (some (key.set record told)) ↔ Rule.integer.Records (some value) told := by
  rw [among, summarize_obj_eq_ok_iff]
  constructor
  · intro hread
    by_cases hvalue : Rule.integer.Accepts value
    · obtain ⟨other, hother⟩ := Rule.accepts_iff_records.mp hvalue
      rw [ofMembers_of_records hkey hfields hunseen hother, hrecord] at hread
      have hsame : key.set record other = key.set record told := Except.ok.inj hread
      rwa [← hkey.get_set record told, ← hsame, hkey.get_set]
    · exact absurd hread (Decoder.ofMembers_insert_ne_ok hfields hkey.mem hunseen
        (field_of_not_accepts hvalue))
  · intro hrecords
    rw [ofMembers_of_records hkey hfields hunseen hrecords, hrecord]
    rfl

theorem among_eq_error_iff
    (hrecord : Decoder.ofMembers fields [] empty (before ++ after) = .ok record) :
    summarize payload (.record type fields empty) (key.among before value after) =
        .error ⟨payload, .notInt32 value⟩ ↔ ¬ Rule.integer.Accepts value := by
  constructor
  · intro hread hvalue
    obtain ⟨told, htold⟩ := Rule.accepts_iff_records.mp hvalue
    rw [(among_eq_ok_iff hkey hfields hunseen hrecord).mpr htold] at hread
    exact absurd hread nofun
  · intro hvalue
    exact summarize_obj_eq_error (Decoder.ofMembers_insert_error hfields hkey.mem hunseen
      (field_of_not_accepts hvalue) hrecord)

theorem exists_among_error (hvalue : ¬ Rule.integer.Accepts value) :
    ∃ fault, summarize payload (.record type fields empty) (key.among before value after) =
      .error fault := by
  cases hread : Decoder.ofMembers fields [] empty (before ++ (key.name, value) :: after) with
  | ok record =>
      exact absurd hread (Decoder.ofMembers_insert_ne_ok hfields hkey.mem hunseen
        (field_of_not_accepts hvalue))
  | error mismatch => exact ⟨_, summarize_obj_eq_error hread⟩

end Placed

theorem records_iff {whole : Int32} :
    Rule.integer.Records (some value) (some whole) ↔ Lenient.StandsFor value whole.toInt := by
  rw [← Lenient.isInteger_iff_standsFor]
  constructor
  · rintro (_ | _ | ⟨-, htells⟩)
    exact htells
  · intro hinteger
    refine .value ?_ hinteger
    rintro rfl
    cases hinteger

theorem records_none_iff : Rule.integer.Records (some value) none ↔ value = .null := by
  constructor
  · rintro (_ | _)
    rfl
  · rintro rfl
    exact .null

theorem not_accepts_iff :
    ¬ Rule.integer.Accepts value ↔ value ≠ .null ∧ ¬ Lenient.StandsForInt32 value :=
  Lenient.accepts_iff.not.trans not_or

/-- **What one member comes to depends on what its value stands for**, and on nothing else. -/
theorem Placed.coerces (hkey : key.Placed fields empty) (hfields : Independent fields)
    (payload : Payload) (type : String) (hdistinct : ((before ++ after).map (·.1)).Nodup)
    (hname : key.name ∉ (before ++ after).map (·.1)) :
    key.Coerces payload (summarize payload (.record type fields empty)) before after := by
  have hunseen : ∀ value, Decoder.Unseen [] (before ++ (key.name, value) :: after) := by
    intro value
    refine .start ?_
    rw [List.map_append, List.map_cons, List.nodup_middle, ← List.map_append]
    exact List.nodup_cons.mpr ⟨hname, hdistinct⟩
  constructor
  case absent =>
    intro record hothers
    have hrecord := summarize_obj_eq_ok_iff.mp hothers
    rw [← set_none_of_ofMembers hkey hfields (hunseen .null) hrecord, hkey.get_set]
  case null =>
    intro record hothers value
    have hrecord := summarize_obj_eq_ok_iff.mp hothers
    rw [← records_none_iff, ← among_eq_ok_iff hkey hfields (hunseen value) hrecord,
      set_none_of_ofMembers hkey hfields (hunseen value) hrecord]
  case told =>
    intro record hothers value whole
    rw [← records_iff]
    exact among_eq_ok_iff hkey hfields (hunseen value) (summarize_obj_eq_ok_iff.mp hothers)
  case refused =>
    intro record hothers value
    rw [← not_accepts_iff]
    exact among_eq_error_iff hkey hfields (hunseen value) (summarize_obj_eq_ok_iff.mp hothers)
  case faulty =>
    intro value hnull hnone
    exact exists_among_error hkey hfields (hunseen value) (not_accepts_iff.mpr ⟨hnull, hnone⟩)
  case exact =>
    intro record value whole hread htold
    have hread := summarize_obj_eq_ok_iff.mp hread
    by_cases hvalue : Rule.integer.Accepts value
    · obtain ⟨told, hrecords⟩ := Rule.accepts_iff_records.mp hvalue
      rw [ofMembers_of_records hkey hfields (hunseen value) hrecords] at hread
      obtain ⟨others, -, rfl⟩ := map_eq_ok.mp hread
      rw [hkey.get_set] at htold
      exact records_iff.mp (htold ▸ hrecords)
    · exact absurd hread (Decoder.ofMembers_insert_ne_ok hfields hkey.mem (hunseen value)
        (field_of_not_accepts hvalue))
  case alike =>
    intro value other whole hvalue hother
    refine summarize_obj_congr ?_
    rw [ofMembers_of_records hkey hfields (hunseen value) (records_iff.mpr hvalue),
      ofMembers_of_records hkey hfields (hunseen other) (records_iff.mpr hother)]

end IntegerKey

/-! ## The integers of bid requests and bid responses -/

namespace BidRequest

def integerKeys : List (IntegerKey BidRequest) :=
  [ ⟨"test", (·.test), fun request told => { request with test := told }⟩
  , ⟨"at", (·.auctionType), fun request told => { request with auctionType := told }⟩
  , ⟨"tmax", (·.tmax), fun request told => { request with tmax := told }⟩ ]

theorem placed {key : IntegerKey BidRequest} (hkey : key ∈ integerKeys) : key.Placed fields {} := by
  simp only [integerKeys, List.mem_cons, List.not_mem_nil, or_false] at hkey
  rcases hkey with rfl | rfl | rfl
  all_goals exact ⟨by simp [fields, IntegerKey.field], rfl, fun _ _ => rfl⟩

end BidRequest

namespace BidResponse

def integerKeys : List (IntegerKey BidResponse) :=
  [⟨"nbr", (·.nbr), fun response told => { response with nbr := told }⟩]

theorem placed {key : IntegerKey BidResponse} (hkey : key ∈ integerKeys) :
    key.Placed fields {} := by
  obtain rfl := List.mem_singleton.mp hkey
  exact ⟨by simp [fields, IntegerKey.field], rfl, fun _ _ => rfl⟩

end BidResponse

/-- **No integer is made up.** Each integer of a bid request and of a bid response is recorded as
what the value in its place stands for, next to any other members, and a value that stands for no
integer of 32 bits is a fault. -/
theorem integers_coerced {before after : Members}
    (hdistinct : ((before ++ after).map (·.1)).Nodup) :
    (∀ key ∈ BidRequest.integerKeys, key.name ∉ (before ++ after).map (·.1) →
      key.Coerces .bidRequest BidRequest.ofPayload before after) ∧
    ∀ key ∈ BidResponse.integerKeys, key.name ∉ (before ++ after).map (·.1) →
      key.Coerces .bidResponse BidResponse.ofPayload before after := by
  constructor
  · intro key hkey hname
    exact (BidRequest.placed hkey).coerces BidRequest.independent .bidRequest _ hdistinct hname
  · intro key hkey hname
    exact (BidResponse.placed hkey).coerces BidResponse.independent .bidResponse _ hdistinct hname

/-- A time limit in a text, at the least integer of 32 bits and next to the greatest one. -/
theorem integers_coerced_limits :
    (([("id", .str "r"), ("ext", .null)] : Members).map (·.1)).Nodup ∧
      BidRequest.ofPayload
          (some (.obj [("id", .str "r"), ("tmax", .str " -2147483648 "), ("ext", .null)])) =
        .ok (some { id := some "r", tmax := some (-2147483648) }) ∧
      BidRequest.ofPayload
          (some (.obj [("id", .str "r"), ("tmax", .str "2147483648"), ("ext", .null)])) =
        .error ⟨.bidRequest, .notInt32 (.str "2147483648")⟩ := by
  have hdistinct : (([("id", .str "r")] ++ [("ext", .null)] : Members).map (·.1)).Nodup := by
    decide
  have hkey : ⟨"tmax", (·.tmax), fun request told => { request with tmax := told }⟩ ∈
      BidRequest.integerKeys := by
    simp [BidRequest.integerKeys]
  have hothers : BidRequest.ofPayload (some (.obj [("id", .str "r"), ("ext", .null)])) =
      .ok (some { id := some "r" }) := by
    rfl
  have hcoerces := (integers_coerced hdistinct).1 _ hkey (by decide)
  have hleast : Lenient.StandsFor (.str " -2147483648 ") (-2147483648 : Int32).toInt :=
    Lenient.isInteger_iff_standsFor.mp (Lenient.int32_eq_some_iff.mp (by decide))
  have hbeyond : ¬ Lenient.StandsForInt32 (.str "2147483648") := by
    rw [Lenient.standsForInt32_iff]
    rintro ⟨whole, hwhole⟩
    have hread := Lenient.int32_eq_some_iff.mpr hwhole
    rw [show (Lenient.integer? (.str "2147483648")).bind Lenient.int32? = none by decide] at hread
    exact absurd hread nofun
  exact ⟨hdistinct, (hcoerces.told _ hothers _ _).mpr hleast,
    (hcoerces.refused _ hothers _).mpr ⟨nofun, hbeyond⟩⟩

end AuctionLog
