import AuctionLog.Proofs.Json.Kept
import AuctionLog.Proofs.Json.Written
import AuctionLog.Proofs.NamedValues.Expanded

/-!
# Values by name from a text

Values by name are read straight from the text of an object, or from the value that the text stands
for. Straight from the text every member counts, in the order of the text, and the first one that is
neither a text nor a list of texts ends the reading. In the value only the last member of each name
is left, in the order of the names. The two agree in every lookup where no two names are the same
but for the case of their letters.
-/

namespace AuctionLog

open Json

variable {levels most : Nat} {first : Bool} {text : List UInt8} {left more : List Token}
  {members : Members} {written before : List (List StringLiteral.Piece × Written)}
  {name : List StringLiteral.Piece} {key : String} {value : Json}

namespace NamedValues

/-! ## Members as they are written -/

/-- A member is read as the name and the value that it is written as. -/
theorem readsMember_of_spaced {content : Written} (hcloses : Closes more)
    (hspaced : Spaced (Token.lead first ++ Token.quoted name :: [0x3A] :: (content.tokens ++ more))
      text)
    (hname : StringLiteral.text? name = some key) (hvalue : content.value? levels = some value) :
    ∃ tree rest, ReadsMember levels first text key tree rest ∧ tree.arranged = value ∧
      Spaced more rest ∧ rest.length < text.length := by
  obtain ⟨colon, hnext, hcolon, hshort⟩ := Written.nextKey_lead hspaced
  obtain ⟨start, hskip, hstart, hshorter⟩ := hcolon.skip rfl
  have hread : readColon colon = .ok start := by
    simp [readColon, hskip]
  have hkey := (StringLiteral.read_alike name colon).eq_ok hname
  have hcomes := content.readable levels more start hcloses hstart
  rw [hvalue] at hcomes
  obtain ⟨tree, rest, htree, harranged, hrest, hsize⟩ := hcomes.exists_of_some
  exact ⟨tree, rest, ⟨_, colon, start, hnext, hkey, hread, htree⟩, harranged, hrest, by omega⟩

/-- The reading ends behind the first member that is neither a text nor a list of texts, whatever
comes next. -/
theorem readEntries_stops {bad : Written} {earlier : Members} {entries : List (String × String)}
    (hname : StringLiteral.text? name = some key) (hbad : bad.value? levels = some value)
    (hnone : ¬ IsTexts value) (hcloses : Closes left)
    (hearlier : Written.memberValues? levels before = some earlier)
    (hexpands : Expands earlier entries)
    (hspaced : Spaced (Token.rows first (Written.memberTokens (before ++ [(name, bad)])) ++ left)
      text) (hmost : text.length < most) :
    ∃ rest, readEntries levels most first text = .error ⟨.misfit .neitherTextNorTexts, rest⟩ ∧
      Spaced left rest := by
  obtain ⟨most, rfl⟩ := Nat.exists_eq_add_one_of_ne_zero (by omega : most ≠ 0)
  -- By the members before it, each of which is read and leaves a shorter text.
  induction before generalizing text most first earlier entries with
  | nil =>
      rw [List.nil_append, Written.memberTokens, Written.memberTokens, Token.rows, Token.rows,
        List.append_nil, List.append_assoc] at hspaced
      obtain ⟨tree, rest, hmember, rfl, hrest, -⟩ :=
        readsMember_of_spaced hcloses hspaced hname hbad
      refine ⟨rest, ?_, hrest⟩
      exact readEntries_of_mismatch hmember (entriesOf_of_not_isTexts hnone)
  | cons member before ih =>
      obtain ⟨other, content⟩ := member
      obtain ⟨key, found, others, hkey, hfound, hothers, rfl⟩ :=
        Written.memberValues?_cons_iff.mp hearlier
      obtain ⟨texts, entries, htexts, hlater, rfl⟩ := expands_cons_iff.mp hexpands
      rw [List.cons_append, Written.memberTokens, Token.rows, List.append_assoc,
        List.append_assoc] at hspaced
      obtain ⟨tree, middle, hmember, rfl, hmiddle, hsize⟩ :=
        readsMember_of_spaced (Written.closes_memberTokens hcloses) hspaced hkey hfound
      obtain ⟨most, rfl⟩ := Nat.exists_eq_add_one_of_ne_zero (by omega : most ≠ 0)
      obtain ⟨rest, hread, hrest⟩ := ih hothers hlater hmiddle most (by omega)
      refine ⟨rest, ?_, hrest⟩
      have hentries : entriesOf key tree.arranged = .ok (texts.map fun text => (key, text)) :=
        entriesOf_eq_ok_iff.mpr ⟨texts, htexts, rfl⟩
      rw [readEntries_of_entries hmember hentries, hread]
      rfl

/-! ## Whole texts -/

theorem spaced_of_spells (hspells : Spells text (.obj written)) :
    ∃ inner, skipBlank text = 0x7B :: inner ∧
      Spaced (Token.rows true (Written.memberTokens written) ++ [[0x7D]]) inner := by
  obtain ⟨inner, hskip, hinner, -⟩ := Spaced.skip rfl hspells
  exact ⟨inner, hskip, hinner⟩

theorem parse_of_skip {inner : List UInt8} (hskip : skipBlank text = 0x7B :: inner) :
    decoder.parse text = readEntries (maxLevels - 1) (inner.length + 1) true inner >>= fun read =>
      readEnd ⟨read.1⟩ read.2 := by
  rw [Decoder.parse, decoder]
  simp only [hskip, maxLevels, if_pos]
  cases readEntries 126 (inner.length + 1) true inner <;> rfl

/-- Whether an object has these members as it is written, each of them nesting no deeper than it may
there and with literals that stand for something. -/
def HasMembers (written : List (List StringLiteral.Piece × Written)) (members : Members) : Prop :=
  Written.memberValues? (maxLevels - 1) written = some members

theorem parse_eq_ok_iff (hspells : Spells text (.obj written)) {values : NamedValues} :
    decoder.parse text = .ok values ↔
      ∃ members, HasMembers written members ∧ Expands members values.entries := by
  obtain ⟨inner, hskip, hinner⟩ := spaced_of_spells hspells
  have hcomes : ComesTo arrangedMembers [] inner.length
      (Written.memberValues? (maxLevels - 1) written)
      (readMembers (readTree NumberLiteral.read (maxLevels - 1)) (inner.length + 1) true inner) :=
    Written.readMembers_rows (fun member _ => member.2.readable) hinner (Nat.lt_succ_self _)
  rw [parse_of_skip hskip]
  simp only [bind_eq_ok, Prod.exists, readEntries_eq_ok_iff]
  constructor
  · rintro ⟨entries, rest, ⟨trees, hread, hexpands⟩, hend⟩
    rw [hread] at hcomes
    obtain ⟨hmembers, hrest⟩ := hcomes.of_ok
    rw [readEnd, hrest.skip_nil] at hend
    obtain rfl := Except.ok.inj hend
    exact ⟨_, hmembers, expands_arrangedMembers.mpr hexpands⟩
  · rintro ⟨members, hmembers, hexpands⟩
    rw [hmembers] at hcomes
    obtain ⟨trees, rest, hread, rfl, hrest, -⟩ := hcomes.exists_of_some
    refine ⟨values.entries, rest, ⟨trees, hread, expands_arrangedMembers.mp hexpands⟩, ?_⟩
    rw [readEnd, hrest.skip_nil]

/-- Whether values come from a text through the value that it stands for. -/
def FromValue (text : List UInt8) (values : NamedValues) : Prop :=
  ∃ value, parse text = .ok value ∧ decoder.ofJson value = .ok values

theorem parse_value_eq_ok_iff (hspells : Spells text (.obj written)) :
    parse text = .ok value ↔
      ∃ members, HasMembers written members ∧ .obj (Members.ofList members) = value := by
  have hread : (parse text).toOption = some value ↔ parse text = .ok value := by
    cases parse text <;> simp [Except.toOption]
  rw [← hread, hspells.parse_eq]
  exact Option.map_eq_some_iff

theorem fromValue_iff (hspells : Spells text (.obj written)) {values : NamedValues} :
    FromValue text values ↔ ∃ members kept, HasMembers written members ∧ Kept members kept ∧
      Expands kept values.entries := by
  simp only [FromValue, parse_value_eq_ok_iff hspells]
  constructor
  · rintro ⟨_, ⟨members, hmembers, rfl⟩, hread⟩
    exact ⟨members, _, hmembers, Members.kept_ofList members, ofMembers_eq_ok_iff.mp hread⟩
  · rintro ⟨members, kept, hmembers, hkept, hexpands⟩
    obtain rfl := hkept.eq_ofList
    exact ⟨_, ⟨members, hmembers, rfl⟩, ofMembers_eq_ok_iff.mpr hexpands⟩

/-- **The first member that is neither a text nor a list of texts ends the reading**, whatever comes
next in the text. -/
theorem parse_stops {bad : Written} {earlier : Members}
    (hspaced : Spaced ([0x7B] ::
      (Token.rows true (Written.memberTokens (before ++ [(name, bad)])) ++ left)) text)
    (hcloses : Closes left) (hearlier : HasMembers before earlier)
    (htexts : ∀ member ∈ earlier, IsTexts member.2)
    (hname : StringLiteral.text? name = some key)
    (hbad : bad.value? (maxLevels - 1) = some value) (hnone : ¬ IsTexts value) :
    ∃ rest, decoder.parse text = .error ⟨.misfit .neitherTextNorTexts, rest⟩ ∧
      Spaced left rest := by
  obtain ⟨inner, hskip, hinner, -⟩ := Spaced.skip rfl hspaced
  obtain ⟨entries, hexpands⟩ := exists_expands_iff.mpr htexts
  obtain ⟨rest, hread, hrest⟩ := readEntries_stops hname hbad hnone hcloses hearlier hexpands hinner
    (Nat.lt_succ_self _)
  refine ⟨rest, ?_, hrest⟩
  rw [parse_of_skip hskip]
  exact congrArg (· >>= _) hread

theorem exists_parse_iff (hspells : Spells text (.obj written)) :
    (∃ values, decoder.parse text = .ok values) ↔
      ∃ members, HasMembers written members ∧ ∀ member ∈ members, IsTexts member.2 := by
  simp only [parse_eq_ok_iff hspells, ← exists_expands_iff]
  constructor
  · rintro ⟨values, members, hmembers, hexpands⟩
    exact ⟨members, hmembers, values.entries, hexpands⟩
  · rintro ⟨members, hmembers, entries, hexpands⟩
    exact ⟨⟨entries⟩, members, hmembers, hexpands⟩

theorem exists_fromValue_iff (hspells : Spells text (.obj written)) :
    (∃ values, FromValue text values) ↔
      ∃ members kept, HasMembers written members ∧ Kept members kept ∧
        ∀ member ∈ kept, IsTexts member.2 := by
  simp only [fromValue_iff hspells, ← exists_expands_iff]
  constructor
  · rintro ⟨values, members, kept, hmembers, hkept, hexpands⟩
    exact ⟨members, kept, hmembers, hkept, values.entries, hexpands⟩
  · rintro ⟨members, kept, hmembers, hkept, entries, hexpands⟩
    exact ⟨⟨entries⟩, members, kept, hmembers, hkept, hexpands⟩

theorem HasMembers.unique {other : Members} (hmembers : HasMembers written members)
    (hother : HasMembers written other) : members = other :=
  Option.some.inj (hmembers.symm.trans hother)

theorem exists_parse_iff_exists_fromValue (hspells : Spells text (.obj written))
    (hmembers : HasMembers written members) (hapart : NamesApart members) :
    (∃ values, decoder.parse text = .ok values) ↔ ∃ values, FromValue text values := by
  rw [exists_parse_iff hspells, exists_fromValue_iff hspells]
  constructor
  · rintro ⟨_, hother, htexts⟩
    obtain rfl := hmembers.unique hother
    have hkept := Members.kept_ofList members
    have hperm := hkept.perm hapart.ne
    exact ⟨_, _, hmembers, hkept, fun member hmem => htexts member (hperm.mem_iff.mp hmem)⟩
  · rintro ⟨_, kept, hother, hkept, htexts⟩
    obtain rfl := hmembers.unique hother
    have hperm := hkept.perm hapart.ne
    exact ⟨_, hmembers, fun member hmem => htexts member (hperm.mem_iff.mpr hmem)⟩

theorem alike_of_parse {values other : NamedValues} (hspells : Spells text (.obj written))
    (hmembers : HasMembers written members) (hapart : NamesApart members)
    (hvalues : decoder.parse text = .ok values) (hother : FromValue text other) :
    Alike values other := by
  obtain ⟨_, hfirst, hexpands⟩ := (parse_eq_ok_iff hspells).mp hvalues
  obtain ⟨_, kept, hsecond, hkept, hlisted⟩ := (fromValue_iff hspells).mp hother
  obtain rfl := hmembers.unique hfirst
  obtain rfl := hmembers.unique hsecond
  exact hexpands.alike hlisted hapart (hkept.perm hapart.ne)

/-- What the text of an object comes to, straight and through the value that it stands for. -/
structure Routes (text : List UInt8) (written : List (List StringLiteral.Piece × Written)) :
    Prop where
  straight : ∀ values, decoder.parse text = .ok values ↔
    ∃ members, HasMembers written members ∧ Expands members values.entries
  fromValue : ∀ values, FromValue text values ↔
    ∃ members kept, HasMembers written members ∧ Kept members kept ∧ Expands kept values.entries
  reads : (∃ values, decoder.parse text = .ok values) ↔
    ∃ members, HasMembers written members ∧ ∀ member ∈ members, IsTexts member.2
  /-- The first member that is neither a text nor a list of texts is the last one to be read. -/
  stops : ∀ before name bad after earlier key value,
    written = before ++ (name, bad) :: after → HasMembers before earlier →
      (∀ member ∈ earlier, IsTexts member.2) → StringLiteral.text? name = some key →
      bad.value? (maxLevels - 1) = some value → ¬ IsTexts value →
      ∃ rest, decoder.parse text = .error ⟨.misfit .neitherTextNorTexts, rest⟩ ∧
        Spaced (Token.rows false (Written.memberTokens after) ++ [[0x7D]]) rest
  hasValue : (∃ value, parse text = .ok value) ↔ ∃ members, HasMembers written members
  readsValue : (∃ values, FromValue text values) ↔
    ∃ members kept, HasMembers written members ∧ Kept members kept ∧
      ∀ member ∈ kept, IsTexts member.2
  /-- Where no two names are the same but for case, both are read or neither is. -/
  alike : ∀ members, HasMembers written members → NamesApart members →
    ((∃ values, decoder.parse text = .ok values) ↔ ∃ values, FromValue text values) ∧
      ∀ values other, decoder.parse text = .ok values → FromValue text other → Alike values other

/-- **Both ways to values by name**, straight from a text and through its value. -/
theorem routes_of_spells (hspells : Spells text (.obj written)) : Routes text written where
  straight _ := parse_eq_ok_iff hspells
  fromValue _ := fromValue_iff hspells
  reads := exists_parse_iff hspells
  stops := by
    rintro before name bad after earlier key value rfl hearlier htexts hname hbad hnone
    refine parse_stops ?_ (Written.closes_rows (.inr rfl)) hearlier htexts hname hbad hnone
    rwa [Spells, Written.tokens, Written.rows_memberTokens_append, List.append_assoc] at hspells
  hasValue := by
    simp only [parse_value_eq_ok_iff hspells]
    rw [exists_comm]
    simp only [exists_and_left, exists_eq', and_true]
  readsValue := exists_fromValue_iff hspells
  alike _ hmembers hapart :=
    ⟨exists_parse_iff_exists_fromValue hspells hmembers hapart,
      fun _ _ => alike_of_parse hspells hmembers hapart⟩

def spelledText (text : String) : Written :=
  .str (StringLiteral.spelled text)

/-- An object that names `b` twice, once before `a` and once behind it. -/
def repeatedName : List (List StringLiteral.Piece × Written) :=
  [ (StringLiteral.spelled "b", spelledText "x")
  , (StringLiteral.spelled "a", .arr [spelledText "y", spelledText "z"])
  , (StringLiteral.spelled "b", spelledText "w") ]

theorem routes_of_spells_repeatedName :
    let text := (Written.obj repeatedName).text []
    Spells text (.obj repeatedName) ∧ Routes text repeatedName ∧
      decoder.parse text = .ok ⟨[("b", "x"), ("a", "y"), ("a", "z"), ("b", "w")]⟩ ∧
      FromValue text ⟨[("a", "y"), ("a", "z"), ("b", "w")]⟩ := by
  have hspells : Spells _ (.obj repeatedName) := Written.spells_text (List.forall_mem_nil _) _
  have hroutes := routes_of_spells hspells
  have hmembers : HasMembers repeatedName
      [("b", .str "x"), ("a", .arr [.str "y", .str "z"]), ("b", .str "w")] := by rfl
  refine ⟨hspells, hroutes, ?_, ?_⟩
  · rw [hroutes.straight]
    exact ⟨_, hmembers, .member (.one "x") (.member (.many ["y", "z"]) (.member (.one "w") .nil))⟩
  · rw [hroutes.fromValue]
    exact ⟨_, _, hmembers, Members.kept_ofList _,
      .member (.many ["y", "z"]) (.member (.one "w") .nil)⟩

/-- Whether a member is the last one of its name in an object as it is written. -/
def LastWritten (written : List (List StringLiteral.Piece × Written))
    (member : List StringLiteral.Piece × Written) : Prop :=
  ∃ before after, written = before ++ member :: after ∧
    ∀ later ∈ after, StringLiteral.text? later.1 ≠ StringLiteral.text? member.1

/-- The number `1e999`. -/
def beyondDoubles : NumberLiteral.Text where
  negative := false
  whole := ['1']
  fraction := []
  exponent := some ⟨false, none, ['9', '9', '9'], by simp, by simp⟩
  whole_isDigit := by simp
  whole_ne_nil := by simp
  whole_lead := by simp
  fraction_isDigit := by simp

/-- An object that names `a` twice, first for a number that is none and then for a text. -/
def replacedNumber : List (List StringLiteral.Piece × Written) :=
  [ (StringLiteral.spelled "a", .num beyondDoubles)
  , (StringLiteral.spelled "a", spelledText "x") ]

/-- It is not enough for the members that are kept to be texts: a literal that stands for nothing
leaves an object without a value, even where a later member takes its place. -/
theorem not_fromValue_replacedNumber :
    let text := (Written.obj replacedNumber).text []
    Spells text (.obj replacedNumber) ∧
      (∀ member, LastWritten replacedNumber member → ∃ value,
        member.2.value? (maxLevels - 1) = some value ∧ IsTexts value) ∧
      ¬ ∃ values, FromValue text values := by
  have hspells : Spells _ (.obj replacedNumber) := Written.spells_text (List.forall_mem_nil _) _
  refine ⟨hspells, ?_, ?_⟩
  · rintro member ⟨before, after, hsplit, hafter⟩
    rcases List.cons_eq_append_iff.mp hsplit with ⟨rfl, hrest⟩ | ⟨before, rfl, hrest⟩
    · obtain ⟨rfl, rfl⟩ := List.cons.inj hrest
      have hlater := hafter (StringLiteral.spelled "a", spelledText "x") (List.mem_singleton_self _)
      exact absurd rfl hlater
    · have hmem : member ∈ [(StringLiteral.spelled "a", spelledText "x")] :=
        hrest ▸ List.mem_append_right _ (List.mem_cons_self ..)
      obtain rfl := List.mem_singleton.mp hmem
      exact ⟨.str "x", rfl, ["x"], .one "x"⟩
  · rintro ⟨values, hvalues⟩
    obtain ⟨members, -, hmembers, -⟩ := (fromValue_iff hspells).mp hvalues
    have hnone : Written.memberValues? (maxLevels - 1) replacedNumber = none := by decide +kernel
    exact absurd (hnone.symm.trans hmembers) nofun

end NamedValues

end AuctionLog
