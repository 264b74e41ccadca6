import AuctionLog.Json.Reader
import AuctionLog.Json.Writer
import AuctionLog.Proofs.Json.Number
import AuctionLog.Proofs.Json.StringLiteral
import AuctionLog.Proofs.Json.Tree

/-!
# Values read back

The text of a value is read back as the value if it nests no deeper than the reader allows, and
otherwise reading stops because it is too deep, and for no other reason. Both follow at once by
induction on the value, where the reader has one level less for the parts than for the whole.

This takes for granted that the doubles of the value are read back. A reader that takes the nearest
double for a decimal reads back every one, so a text has a meaning whatever it holds; the reader of
texts rounds twice, and does so for those that survive on their own.
-/

namespace AuctionLog.Json

/-- What reading a part comes to, given how deep the part nests. -/
def Settles {α : Type} (levels depth : Nat) (part : α) (rest : List UInt8)
    (result : Except Fault (α × List UInt8)) : Prop :=
  (depth ≤ levels → result = .ok (part, rest)) ∧
    (levels < depth → ∃ after, result = .error ⟨.tooDeep, after⟩)

/-- Whether a value is read back from its text as it is, or found to be too deep, where doubles are
taken by `double?`. -/
def ReadsBack (double? : Bool → NumberLiteral.Parts → Option Double) (value : Json) : Prop :=
  ∀ levels rest, NumberLiteral.Ends rest →
    Settles levels value.depth value rest
      (readTree (NumberLiteral.readBy double?) levels (Utf8.encode value.chars ++ rest))

variable {double? : Bool → NumberLiteral.Parts → Option Double}
  {number : Bool → List UInt8 → Reading Number} {levels : Nat} {rest : List UInt8}

theorem skipBlank_cons {byte : UInt8} (hbyte : isBlank byte = false) (rest : List UInt8) :
    skipBlank (byte :: rest) = byte :: rest := by
  simp [skipBlank, hbyte]

theorem ReadsBack.of_scalar {value : Json} (hdepth : value.depth = 0)
    (hread : ∀ levels rest, NumberLiteral.Ends rest →
      readTree (NumberLiteral.readBy double?) levels (Utf8.encode value.chars ++ rest) =
        .ok (value, rest)) :
    value.ReadsBack double? := by
  intro levels rest hends
  refine ⟨fun _ => hread levels rest hends, fun hdeep => ?_⟩
  omega

theorem readIdent_append (word rest : List UInt8) : readIdent word (word ++ rest) = .ok rest := by
  induction word with
  | nil => rfl
  | cons letter word ih => simpa [readIdent] using ih

theorem readsBack_null : null.ReadsBack double? := by
  refine .of_scalar rfl fun levels rest _ => ?_
  have htext : Utf8.encode (chars .null) = 0x6E :: nullTail := rfl
  rw [htext, List.cons_append, readTree, skipBlank_cons rfl]
  simp [readIdent_append, bind, Except.bind, pure, Except.pure]

theorem readsBack_bool (value : Bool) : (bool value).ReadsBack double? := by
  refine .of_scalar rfl fun levels rest _ => ?_
  cases value with
  | true =>
      have htext : Utf8.encode (chars (.bool true)) = 0x74 :: trueTail := rfl
      rw [htext, List.cons_append, readTree, skipBlank_cons rfl]
      simp [readIdent_append, bind, Except.bind, pure, Except.pure]
  | false =>
      have htext : Utf8.encode (chars (.bool false)) = 0x66 :: falseTail := rfl
      rw [htext, List.cons_append, readTree, skipBlank_cons rfl]
      simp [readIdent_append, bind, Except.bind, pure, Except.pure]

theorem isBlank_of_isDigit {byte : UInt8} (hdigit : NumberLiteral.isDigit byte) :
    isBlank byte = false := by
  simp only [isBlank, Bool.or_eq_false_iff, beq_eq_false_iff_ne]
  refine ⟨⟨⟨?_, ?_⟩, ?_⟩, ?_⟩ <;> exact NumberLiteral.ne_of_isDigit hdigit (by decide)

theorem readTree_of_digit {byte : UInt8} (hdigit : NumberLiteral.isDigit byte)
    (after : List UInt8) :
    readTree number levels (byte :: after) =
      (do
        let read ← number false (byte :: after)
        .ok (.num read.1, read.2)) := by
  have hn : byte ≠ 0x6E := NumberLiteral.ne_of_isDigit hdigit (by decide)
  have ht : byte ≠ 0x74 := NumberLiteral.ne_of_isDigit hdigit (by decide)
  have hf : byte ≠ 0x66 := NumberLiteral.ne_of_isDigit hdigit (by decide)
  have hminus : byte ≠ 0x2D := NumberLiteral.ne_of_isDigit hdigit (by decide)
  rw [readTree, skipBlank_cons (isBlank_of_isDigit hdigit)]
  simp only [hn, ht, hf, hminus, hdigit, if_true, if_false, pure, Except.pure]

theorem readTree_of_minus (after : List UInt8) :
    readTree number levels (0x2D :: after) =
      (do
        let read ← number true after
        .ok (.num read.1, read.2)) := by
  rw [readTree, skipBlank_cons rfl]
  simp [pure, Except.pure]

theorem readsBack_num {value : Number} (hvalue : value.ReadBy double?) :
    (num value).ReadsBack double? := by
  refine .of_scalar rfl fun levels rest hends => ?_
  rw [chars]
  rcases hvalue rest hends with ⟨input, htext, hread⟩ | hread
  · rw [htext, readTree_of_minus, hread]
    rfl
  · obtain ⟨byte, after, htext, hdigit⟩ := NumberLiteral.exists_digit_of_readBy hread
    rw [htext] at hread ⊢
    rw [readTree_of_digit hdigit, hread]
    rfl

theorem readsBack_str (value : String) : (str value).ReadsBack double? := by
  refine .of_scalar rfl fun levels rest _ => ?_
  have hquote : String.utf8EncodeChar '"' = [0x22] := rfl
  have hread := StringLiteral.read_text value rest
  have htext : Utf8.encode (chars (.str value)) ++ rest =
      0x22 :: (Utf8.encode (value.toList.flatMap escaped) ++ 0x22 :: rest) := by
    simp [chars, quoted, hquote]
  rw [htext, readTree, skipBlank_cons rfl]
  simp [hread, NumberLiteral.isDigit, bind, Except.bind, pure, Except.pure]

/-! ## Lists -/

/-- Pieces of a list or an object, as they stand after the first one. -/
def following (pieces : List (List Char)) : List Char :=
  pieces.flatMap fun piece => ',' :: piece

theorem separated_cons (piece : List Char) (pieces : List (List Char)) :
    separated (piece :: pieces) = piece ++ following pieces := by
  induction pieces generalizing piece with
  | nil => simp [separated, following]
  | cons next pieces ih => rw [separated, ih, following, following, List.flatMap_cons]; simp

/-- Whether a text starts with something that is neither a blank nor the end of a list. -/
def Starts (input : List UInt8) : Prop :=
  ∃ byte after, input = byte :: after ∧ isBlank byte = false ∧ byte ≠ 0x5D

theorem Starts.append {input : List UInt8} (hstarts : Starts input) (rest : List UInt8) :
    Starts (input ++ rest) := by
  obtain ⟨byte, after, rfl, hbyte⟩ := hstarts
  exact ⟨byte, after ++ rest, rfl, hbyte⟩

theorem starts_chars (value : Json) : Starts (Utf8.encode value.chars) := by
  cases value with
  | null => exact ⟨_, _, rfl, by decide⟩
  | bool value => cases value <;> exact ⟨_, _, rfl, by decide⟩
  | num value =>
      have hends : NumberLiteral.Ends [] := by
        simp [NumberLiteral.Ends]
      have htext := value.readBy_nearest [] hends
      rw [List.append_nil] at htext
      rcases htext with ⟨input, htext, -⟩ | hread
      · exact ⟨_, _, htext, by decide⟩
      · obtain ⟨byte, after, htext, hdigit⟩ := NumberLiteral.exists_digit_of_readBy hread
        have hcloser : byte ≠ 0x5D := NumberLiteral.ne_of_isDigit hdigit (by decide)
        exact ⟨byte, after, htext, isBlank_of_isDigit hdigit, hcloser⟩
  | str value => exact ⟨_, _, rfl, by decide⟩
  | arr items => exact ⟨_, _, rfl, by decide⟩
  | obj members => exact ⟨_, _, rfl, by decide⟩

theorem ends_comma : NumberLiteral.Ends (0x2C :: rest) := by
  simp [NumberLiteral.Ends, NumberLiteral.isDigit]

theorem ends_bracket : NumberLiteral.Ends (0x5D :: rest) := by
  simp [NumberLiteral.Ends, NumberLiteral.isDigit]

theorem ends_brace : NumberLiteral.Ends (0x7D :: rest) := by
  simp [NumberLiteral.Ends, NumberLiteral.isDigit]

theorem encode_following_cons (piece : List Char) (pieces : List (List Char)) :
    Utf8.encode (following (piece :: pieces)) ++ rest =
      0x2C :: (Utf8.encode piece ++ (Utf8.encode (following pieces) ++ rest)) := by
  have hcomma : String.utf8EncodeChar ',' = [0x2C] := rfl
  simp [following, hcomma]

/-- What follows a piece ends it, if it is a number. -/
theorem ends_following (pieces : List (List Char)) (hends : NumberLiteral.Ends rest) :
    NumberLiteral.Ends (Utf8.encode (following pieces) ++ rest) := by
  cases pieces with
  | nil => exact hends
  | cons piece pieces =>
      rw [encode_following_cons]
      exact ends_comma

/-- One part after another: the whole is as deep as the deeper of the two. -/
theorem Settles.andThen {α β γ : Type} {firstDepth otherDepth : Nat} {first : α} {other : β}
    {middle : List UInt8} {readFirst : Except Fault (α × List UInt8)}
    {readOther : List UInt8 → Except Fault (β × List UInt8)}
    (hfirst : Settles levels firstDepth first middle readFirst)
    (hother : Settles levels otherDepth other rest (readOther middle)) (join : α → β → γ) :
    Settles levels (max firstDepth otherDepth) (join first other) rest
      (do
        let read ← readFirst
        let more ← readOther read.2
        .ok (join read.1 more.1, more.2)) := by
  constructor
  · intro hle
    rw [hfirst.1 (by omega)]
    simp only [bind, Except.bind, hother.1 (by omega)]
  · intro hlt
    by_cases hle : firstDepth ≤ levels
    · obtain ⟨after, hdeep⟩ := hother.2 (by omega)
      rw [hfirst.1 hle]
      exact ⟨after, by simp only [bind, Except.bind, hdeep]⟩
    · obtain ⟨after, hdeep⟩ := hfirst.2 (by omega)
      rw [hdeep]
      exact ⟨after, rfl⟩

theorem nextItem_first {input : List UInt8} (hstarts : Starts input) :
    nextItem true input = .ok (true, input) := by
  obtain ⟨byte, after, rfl, hblank, hcloser⟩ := hstarts
  simp [nextItem, skipBlank_cons hblank, hcloser]

theorem nextItem_comma {input : List UInt8} (hstarts : Starts input) :
    nextItem false (0x2C :: input) = .ok (true, input) := by
  obtain ⟨byte, after, rfl, hblank, hcloser⟩ := hstarts
  rw [nextItem, skipBlank_cons rfl]
  simp [skipBlank_cons hblank, hcloser]

theorem readItems_of_next {α : Type} {item : List UInt8 → Except Fault (α × List UInt8)}
    {most : Nat} {first : Bool} {input start : List UInt8}
    (hnext : nextItem first input = .ok (true, start)) :
    readItems item (most + 1) first input =
      (do
        let read ← item start
        let more ← readItems item most false read.2
        .ok (read.1 :: more.1, more.2)) := by
  rw [readItems, hnext]
  rfl

theorem readItems_following {items : List Json} (hitems : ∀ item ∈ items, item.ReadsBack double?)
    (levels : Nat) (rest : List UInt8) (most : Nat)
    (hmost : (Utf8.encode (following (itemChars items)) ++ 0x5D :: rest).length < most) :
    Settles levels (itemsDepth items) items rest
      (readItems (readTree (NumberLiteral.readBy double?) levels) most false
        (Utf8.encode (following (itemChars items)) ++ 0x5D :: rest)) := by
  induction items generalizing most with
  | nil =>
      obtain ⟨most, rfl⟩ := Nat.exists_eq_add_one_of_ne_zero (by omega : most ≠ 0)
      exact ⟨fun _ => rfl, fun hlt => absurd hlt (Nat.not_lt_zero levels)⟩
  | cons item items ih =>
      obtain ⟨most, rfl⟩ := Nat.exists_eq_add_one_of_ne_zero (by omega : most ≠ 0)
      obtain ⟨hitem, hitems⟩ := List.forall_mem_cons.mp hitems
      rw [itemChars, encode_following_cons] at hmost ⊢
      have hstarts := (starts_chars item).append
        (Utf8.encode (following (itemChars items)) ++ 0x5D :: rest)
      rw [readItems_of_next (nextItem_comma hstarts)]
      refine Settles.andThen (hitem _ _ (ends_following _ ends_bracket)) (ih hitems most ?_)
        List.cons
      rw [List.length_cons, List.length_append] at hmost
      omega

/-- What a list or an object comes to, by its parts: it has a level more than they. -/
theorem Settles.enclosed {α : Type} {depth : Nat} {parts : α}
    {result : Except Fault (α × List UInt8)} (hparts : Settles levels depth parts rest result)
    (whole : α → Json) :
    Settles (levels + 1) (depth + 1) (whole parts) rest
      (do
        let read ← result
        .ok (whole read.1, read.2)) := by
  constructor
  · intro hle
    rw [hparts.1 (by omega)]
    rfl
  · intro hlt
    obtain ⟨after, hdeep⟩ := hparts.2 (by omega)
    rw [hdeep]
    exact ⟨after, rfl⟩

theorem readItems_all {items : List Json} (hitems : ∀ item ∈ items, item.ReadsBack double?)
    (levels : Nat) (rest : List UInt8) (most : Nat)
    (hmost : (Utf8.encode (separated (itemChars items)) ++ 0x5D :: rest).length < most) :
    Settles levels (itemsDepth items) items rest
      (readItems (readTree (NumberLiteral.readBy double?) levels) most true
        (Utf8.encode (separated (itemChars items)) ++ 0x5D :: rest)) := by
  obtain ⟨most, rfl⟩ := Nat.exists_eq_add_one_of_ne_zero (by omega : most ≠ 0)
  cases items with
  | nil => exact ⟨fun _ => rfl, fun hlt => absurd hlt (Nat.not_lt_zero levels)⟩
  | cons item items =>
      obtain ⟨hitem, hitems⟩ := List.forall_mem_cons.mp hitems
      rw [itemChars, separated_cons, Utf8.encode_append, List.append_assoc] at hmost ⊢
      have hstarts := starts_chars item
      rw [readItems_of_next (nextItem_first (hstarts.append _))]
      refine Settles.andThen (hitem _ _ (ends_following _ ends_bracket))
        (readItems_following hitems levels rest most ?_) List.cons
      obtain ⟨byte, after, htext, -⟩ := hstarts
      rw [htext, List.cons_append, List.length_cons, List.length_append] at hmost
      omega

theorem readsBack_arr {items : List Json} (hitems : ∀ item ∈ items, item.ReadsBack double?) :
    (arr items).ReadsBack double? := by
  intro levels rest _
  have hopen : String.utf8EncodeChar '[' = [0x5B] := rfl
  have hclose : String.utf8EncodeChar ']' = [0x5D] := rfl
  have htext : Utf8.encode (chars (.arr items)) ++ rest =
      0x5B :: (Utf8.encode (separated (itemChars items)) ++ 0x5D :: rest) := by
    simp [chars, hopen, hclose]
  rw [htext, depth, readTree, skipBlank_cons rfl]
  simp only [NumberLiteral.isDigit]
  cases levels with
  | zero => exact ⟨by omega, fun _ => ⟨_, rfl⟩⟩
  | succ levels => exact (readItems_all hitems levels rest _ (Nat.lt_succ_self _)).enclosed .arr

/-! ## Objects -/

theorem encode_member (name : String) (value : Json) :
    Utf8.encode (quoted name ++ ':' :: chars value) ++ rest =
      0x22 :: (Utf8.encode (name.toList.flatMap escaped) ++
        0x22 :: 0x3A :: (Utf8.encode value.chars ++ rest)) := by
  have hquote : String.utf8EncodeChar '"' = [0x22] := rfl
  have hcolon : String.utf8EncodeChar ':' = [0x3A] := rfl
  simp [quoted, hquote, hcolon]

theorem nextKey_first (input : List UInt8) : nextKey true (0x22 :: input) = .ok (true, input) := by
  rw [nextKey, skipBlank_cons rfl]
  simp

theorem nextKey_comma (input : List UInt8) :
    nextKey false (0x2C :: 0x22 :: input) = .ok (true, input) := by
  rw [nextKey, skipBlank_cons rfl]
  simp [skipBlank_cons (rfl : isBlank 0x22 = false)]

theorem readMembers_of_next {α : Type} {item : List UInt8 → Except Fault (α × List UInt8)}
    {most : Nat} {first : Bool} {input start : List UInt8} {name : String}
    (hnext : nextKey first input =
      .ok (true, Utf8.encode (name.toList.flatMap escaped) ++ 0x22 :: 0x3A :: start)) :
    readMembers item (most + 1) first input =
      (do
        let read ← item start
        let more ← readMembers item most false read.2
        .ok ((name, read.1) :: more.1, more.2)) := by
  have hcolon : readColon (0x3A :: start) = .ok start := by
    rw [readColon, skipBlank_cons rfl]
    rfl
  rw [readMembers, hnext]
  simp only [bind, Except.bind, StringLiteral.read_text, hcolon]

theorem readMembers_following {members : Members}
    (hmembers : ∀ member ∈ members, member.2.ReadsBack double?) (levels : Nat) (rest : List UInt8)
    (most : Nat)
    (hmost : (Utf8.encode (following (memberChars members)) ++ 0x7D :: rest).length < most) :
    Settles levels (membersDepth members) members rest
      (readMembers (readTree (NumberLiteral.readBy double?) levels) most false
        (Utf8.encode (following (memberChars members)) ++ 0x7D :: rest)) := by
  induction members generalizing most with
  | nil =>
      obtain ⟨most, rfl⟩ := Nat.exists_eq_add_one_of_ne_zero (by omega : most ≠ 0)
      exact ⟨fun _ => rfl, fun hlt => absurd hlt (Nat.not_lt_zero levels)⟩
  | cons member members ih =>
      obtain ⟨name, value⟩ := member
      obtain ⟨most, rfl⟩ := Nat.exists_eq_add_one_of_ne_zero (by omega : most ≠ 0)
      obtain ⟨hvalue, hmembers⟩ := List.forall_mem_cons.mp hmembers
      rw [memberChars, encode_following_cons, encode_member] at hmost ⊢
      rw [readMembers_of_next (nextKey_comma _)]
      refine Settles.andThen (hvalue _ _ (ends_following _ ends_brace)) (ih hmembers most ?_)
        fun read more => (name, read) :: more
      simp only [List.length_cons, List.length_append] at hmost ⊢
      omega

theorem readMembers_all {members : Members}
    (hmembers : ∀ member ∈ members, member.2.ReadsBack double?) (levels : Nat) (rest : List UInt8)
    (most : Nat)
    (hmost : (Utf8.encode (separated (memberChars members)) ++ 0x7D :: rest).length < most) :
    Settles levels (membersDepth members) members rest
      (readMembers (readTree (NumberLiteral.readBy double?) levels) most true
        (Utf8.encode (separated (memberChars members)) ++ 0x7D :: rest)) := by
  obtain ⟨most, rfl⟩ := Nat.exists_eq_add_one_of_ne_zero (by omega : most ≠ 0)
  cases members with
  | nil => exact ⟨fun _ => rfl, fun hlt => absurd hlt (Nat.not_lt_zero levels)⟩
  | cons member members =>
      obtain ⟨name, value⟩ := member
      obtain ⟨hvalue, hmembers⟩ := List.forall_mem_cons.mp hmembers
      rw [memberChars, separated_cons, Utf8.encode_append, List.append_assoc,
        encode_member] at hmost ⊢
      rw [readMembers_of_next (nextKey_first _)]
      refine Settles.andThen (hvalue _ _ (ends_following _ ends_brace))
        (readMembers_following hmembers levels rest most ?_) fun read more => (name, read) :: more
      simp only [List.length_cons, List.length_append] at hmost ⊢
      omega

theorem readsBack_obj {members : Members}
    (hmembers : ∀ member ∈ members, member.2.ReadsBack double?) :
    (obj members).ReadsBack double? := by
  intro levels rest _
  have hopen : String.utf8EncodeChar '{' = [0x7B] := rfl
  have hclose : String.utf8EncodeChar '}' = [0x7D] := rfl
  have htext : Utf8.encode (chars (.obj members)) ++ rest =
      0x7B :: (Utf8.encode (separated (memberChars members)) ++ 0x7D :: rest) := by
    simp [chars, hopen, hclose]
  rw [htext, depth, readTree, skipBlank_cons rfl]
  simp only [NumberLiteral.isDigit]
  cases levels with
  | zero => exact ⟨by omega, fun _ => ⟨_, rfl⟩⟩
  | succ levels =>
      exact (readMembers_all hmembers levels rest _ (Nat.lt_succ_self _)).enclosed .obj

/-! ## Whole texts -/

/-- **Every value is read back from its text**, unless it nests too deep or a double of it is not
read back. -/
theorem readsBack (value : Json)
    (hdoubles : value.AllDoubles fun d => (Number.double d).ReadBy double?) :
    value.ReadsBack double? := by
  induction value using tree_induction with
  | null => exact readsBack_null
  | bool value => exact readsBack_bool value
  | num value =>
      cases value with
      | int value hlower hupper => exact readsBack_num (Number.readBy_int hlower hupper)
      | double value => exact readsBack_num (allDoubles_double.mp hdoubles)
  | str value => exact readsBack_str value
  | arr items ih =>
      exact readsBack_arr fun item hmem => ih item hmem (allDoubles_arr.mp hdoubles item hmem)
  | obj members ih =>
      exact readsBack_obj fun member hmem =>
        ih member hmem (allDoubles_obj.mp hdoubles member hmem)

theorem parse_eq (input : List UInt8) :
    parse input = (readTree NumberLiteral.read maxLevels input).bind fun read =>
      readEnd read.1.arranged read.2 := by
  rw [parse, readValue]
  cases readTree NumberLiteral.read maxLevels input <;> rfl

theorem ends_blanks (count : Nat) : NumberLiteral.Ends (List.replicate count 0x20) := by
  cases count with
  | zero => simp [NumberLiteral.Ends]
  | succ count => simp [NumberLiteral.Ends, NumberLiteral.isDigit, List.replicate_succ]

/-- Whether a text means a value, member for member as it is written: it is read as the value by
every reader that allows for its depth and takes the nearest double for a decimal. -/
def Denotes (text : String) (value : Json) : Prop :=
  ∀ levels, value.depth ≤ levels →
    readTree (NumberLiteral.readBy NumberLiteral.Parts.nearest?) levels
      (Utf8.encode text.toList) = .ok (value, [])

theorem denotes_compact (value : Json) : Denotes value.compact value := by
  intro levels hdepth
  have hdoubles := fun d (_ : d ∈ value.doubles) => (Number.double d).readBy_nearest
  have hread := (readsBack value hdoubles levels [] (ends_blanks 0)).1 hdepth
  rw [List.append_nil] at hread
  rw [compact, String.toList_ofList]
  exact hread

end AuctionLog.Json

/-! ## Texts that are read -/

namespace AuctionLog.Double

open Json Json.NumberLiteral

/-- Whether the reader of texts takes the text of a double for the double. -/
def Survives (d : Double) : Prop :=
  parse (Utf8.encode (num (.double d)).compact.toList) = .ok (num (.double d))

instance (d : Double) : Decidable d.Survives :=
  inferInstanceAs (Decidable (_ = _))

variable {d : Double}

theorem survives_of_readBy (hread : (Number.double d).ReadBy Parts.double?) : d.Survives := by
  have hsettles := (readsBack_num hread maxLevels [] (ends_blanks 0)).1 (Nat.zero_le _)
  rw [List.append_nil] at hsettles
  rw [Survives, parse_eq, compact, String.toList_ofList, NumberLiteral.read, hsettles]
  rfl

/-- The text of a double is read as what the parts of it are taken for. -/
theorem readTree_text {double? : Bool → Parts → Option Double} {parts : Parts}
    {levels : Nat} {rest : List UInt8}
    (hparts : HasParts (Number.decimalText d.shortest) parts) (hwhole : ¬ parts.IsWhole)
    (hends : Ends rest) :
    readTree (readBy double?) levels (Utf8.encode (Number.double d).text ++ rest) =
      match double? d.negative parts with
      | some value => .ok (num (.double value), rest)
      | none => stop .numberOutOfRange rest := by
  have hsign : String.utf8EncodeChar '-' = [0x2D] := rfl
  have hread := fun negative => @readBy_of_not_isWhole double? negative _ _ _
    (hparts rest hends) hwhole
  rw [Number.text]
  by_cases hneg : d.negative
  · rw [if_pos hneg, Utf8.encode_cons, hsign, List.cons_append, List.nil_append, List.cons_append,
      readTree_of_minus, hread, hneg]
    cases double? true parts <;> rfl
  · rw [if_neg hneg, Bool.eq_false_iff.mpr hneg]
    obtain ⟨byte, after, htext, hdigit⟩ := exists_digit_of_readParts (hparts rest hends)
    rw [htext, readTree_of_digit hdigit, ← htext, hread]
    cases double? false parts <;> rfl

/-- A double that survives on its own does so wherever it is written. -/
theorem Survives.readBy (hsurvives : d.Survives) : (Number.double d).ReadBy Parts.double? := by
  obtain ⟨_, _, ⟨parts, hparts, hwhole, -⟩, -⟩ := d.exists_notates
  refine Number.readBy_double hparts hwhole ?_
  have hread := @readTree_text d Parts.double? _ maxLevels _ hparts hwhole (ends_blanks 0)
  rw [List.replicate_zero, List.append_nil] at hread
  rw [Survives, parse_eq, compact, String.toList_ofList, chars, NumberLiteral.read,
    hread] at hsurvives
  cases hvalue : Parts.double? d.negative parts with
  | none =>
      rw [hvalue] at hsurvives
      simp [stop, Except.bind] at hsurvives
  | some value =>
      rw [hvalue] at hsurvives
      have hsame : num (.double value) = num (.double d) := Except.ok.inj hsurvives
      rw [Number.double.inj (num.inj hsame)]

/-- **A double that takes few digits to write survives**: its text has no more than 53 bits of
digits, and its last digit is no more than 22 places behind the point. -/
theorem survives_of_short (hpower : -22 ≤ d.shortest.power)
    (hdigits : d.shortest.digits * 10 ^ (d.shortest.power.toNat + 1) < 2 ^ 53) : d.Survives :=
  survives_of_readBy (Number.readBy_of_short hpower hdigits)

/-- Of `100.00000000000001` the reader makes `100.0`. -/
example : ¬ Survives ⟨false, 7036874417766401, 1028, by decide, by decide, by decide⟩ := by
  decide +kernel

end AuctionLog.Double

namespace AuctionLog.Json

variable {value : Json} (hdoubles : value.AllDoubles Double.Survives)

include hdoubles

theorem settles_compact {rest : List UInt8} (hends : NumberLiteral.Ends rest) :
    Settles maxLevels value.depth value rest
      (readTree NumberLiteral.read maxLevels (Utf8.encode value.compact.toList ++ rest)) := by
  rw [compact, String.toList_ofList]
  exact readsBack value (fun d hmem => (hdoubles d hmem).readBy) maxLevels rest hends

/-- What the text of a value denotes is the value, as it is told apart from others. Blanks may
follow it. -/
theorem parse_compact_append (hdepth : value.depth ≤ maxLevels) (count : Nat) :
    parse (Utf8.encode value.compact.toList ++ List.replicate count 0x20) = .ok value.arranged := by
  have hblank : skipBlank (List.replicate count 0x20) = [] := by
    simp [skipBlank, isBlank]
  rw [parse_eq, (settles_compact hdoubles (ends_blanks count)).1 hdepth]
  simp only [Except.bind, readEnd, hblank]

theorem parse_compact (hdepth : value.depth ≤ maxLevels) :
    parse (Utf8.encode value.compact.toList) = .ok value.arranged := by
  have hparse := parse_compact_append hdoubles hdepth 0
  rwa [List.replicate_zero, List.append_nil] at hparse

theorem parse_compact_of_deep (hdepth : maxLevels < value.depth) :
    ∃ rest, parse (Utf8.encode value.compact.toList) = .error ⟨.tooDeep, rest⟩ := by
  obtain ⟨rest, hdeep⟩ := (settles_compact hdoubles (ends_blanks 0)).2 hdepth
  rw [List.replicate_zero, List.append_nil] at hdeep
  rw [parse_eq, hdeep]
  exact ⟨rest, rfl⟩

end AuctionLog.Json
