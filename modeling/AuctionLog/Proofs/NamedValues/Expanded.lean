import AuctionLog.Proofs.Json.Fits
import AuctionLog.Proofs.Record.Lookup

/-!
# Values by name as expanded members

Values by name come from members that are texts or lists of texts: one entry for a text, and one for
each text of a list, in order. Reading them straight from a text comes to the same as reading its
members first. Where no two names are the same but for the case of their letters, the order of the
members makes no difference to any lookup.
-/

namespace AuctionLog

open Json

namespace NamedValues

/-- The texts of a value that is a text or a list of texts. -/
inductive TextsOf : Json → List String → Prop where
  | one (text : String) : TextsOf (.str text) [text]
  | many (texts : List String) : TextsOf (.arr (texts.map .str)) texts

def IsTexts (value : Json) : Prop :=
  ∃ texts, TextsOf value texts

/-- The entries that members come to, each expanded into one entry for each of its texts. -/
inductive Expands : Members → List (String × String) → Prop where
  | nil : Expands [] []
  | member {name : String} {value : Json} {texts : List String} {members : Members}
      {entries : List (String × String)} (htexts : TextsOf value texts)
      (hrest : Expands members entries) :
      Expands ((name, value) :: members) (texts.map (fun text => (name, text)) ++ entries)

variable {value : Json} {texts : List String} {name : String} {members : Members}
  {entries : List (String × String)}

/-! ## Values -/

theorem valuesOf_str_cons {text : String} {items : List Json} :
    valuesOf (.arr (.str text :: items)) =
      valuesOf (.arr items) >>= fun texts => .ok (text :: texts) := by
  simp only [valuesOf, List.mapM_cons]
  generalize (List.mapM _ items : Option (List String)) = texts
  cases texts <;> rfl

theorem valuesOf_cons_of_ne {item : Json} {items : List Json} (hitem : ∀ text, item ≠ .str text) :
    valuesOf (.arr (item :: items)) = .error .neitherTextNorTexts := by
  cases item with
  | str text => exact absurd rfl (hitem text)
  | _ => rfl

theorem valuesOf_arr_eq_ok_iff {items : List Json} :
    valuesOf (.arr items) = .ok texts ↔ items = texts.map .str := by
  induction items generalizing texts with
  | nil => cases texts <;> simp [valuesOf]
  | cons item rest ih =>
      by_cases htext : ∃ text, item = .str text
      · obtain ⟨text, rfl⟩ := htext
        rw [valuesOf_str_cons, bind_eq_ok]
        simp only [ih, Except.ok.injEq]
        constructor
        · rintro ⟨others, rfl, rfl⟩
          rfl
        · intro hitems
          cases texts with
          | nil => exact absurd hitems nofun
          | cons first others =>
              obtain ⟨hfirst, hrest⟩ := List.cons.inj hitems
              exact ⟨others, hrest, by rw [Json.str.inj hfirst]⟩
      · rw [not_exists] at htext
        rw [valuesOf_cons_of_ne htext]
        refine iff_of_false nofun fun hitems => ?_
        cases texts with
        | nil => exact absurd hitems nofun
        | cons first others => exact htext first (List.cons.inj hitems).1

theorem valuesOf_eq_ok_iff : valuesOf value = .ok texts ↔ TextsOf value texts := by
  constructor
  · intro hvalues
    cases value with
    | str text =>
        obtain rfl := Except.ok.inj hvalues
        exact .one text
    | arr items =>
        rw [valuesOf_arr_eq_ok_iff.mp hvalues]
        exact .many texts
    | _ => exact absurd hvalues nofun
  · intro htexts
    cases htexts with
    | one text => rfl
    | many texts => exact valuesOf_arr_eq_ok_iff.mpr rfl

theorem TextsOf.unique {other : List String} (htexts : TextsOf value texts)
    (hother : TextsOf value other) : texts = other := by
  rw [← valuesOf_eq_ok_iff] at htexts hother
  exact Except.ok.inj (htexts.symm.trans hother)

theorem mismatch_of_valuesOf {mismatch : Mismatch} (hvalues : valuesOf value = .error mismatch) :
    mismatch = .neitherTextNorTexts := by
  cases value with
  | str text => exact absurd hvalues nofun
  | arr items =>
      rw [valuesOf] at hvalues
      split at hvalues
      · exact absurd hvalues nofun
      · exact (Except.error.inj hvalues).symm
  | _ => exact (Except.error.inj hvalues).symm

theorem textsOf_arranged : TextsOf value.arranged texts ↔ TextsOf value texts := by
  cases value with
  | arr items =>
      rw [arranged, arrangedItems_eq_map, ← valuesOf_eq_ok_iff, ← valuesOf_eq_ok_iff,
        valuesOf_arr_eq_ok_iff, valuesOf_arr_eq_ok_iff, map_arranged_eq_map_str_iff]
  | obj members =>
      rw [arranged]
      constructor
      · rintro ⟨⟩
      · rintro ⟨⟩
  | _ => exact Iff.rfl

theorem entriesOf_eq_ok_iff :
    entriesOf name value = .ok entries ↔
      ∃ texts, TextsOf value texts ∧ entries = texts.map fun text => (name, text) := by
  rw [entriesOf, bind_eq_ok]
  simp only [valuesOf_eq_ok_iff, pure, Except.pure, Except.ok.injEq]
  exact exists_congr fun texts => and_congr_right fun _ => eq_comm

theorem entriesOf_of_not_isTexts (hnone : ¬ IsTexts value) :
    entriesOf name value = .error .neitherTextNorTexts := by
  cases hvalues : valuesOf value with
  | ok texts => exact absurd ⟨texts, valuesOf_eq_ok_iff.mp hvalues⟩ hnone
  | error mismatch =>
      rw [entriesOf, hvalues, mismatch_of_valuesOf hvalues]
      rfl

/-! ## Members -/

theorem expands_cons_iff :
    Expands ((name, value) :: members) entries ↔ ∃ texts others, TextsOf value texts ∧
      Expands members others ∧ entries = texts.map (fun text => (name, text)) ++ others := by
  constructor
  · intro hexpands
    cases hexpands with
    | member htexts hrest => exact ⟨_, _, htexts, hrest, rfl⟩
  · rintro ⟨texts, others, htexts, hrest, rfl⟩
    exact .member htexts hrest

theorem exists_expands_iff :
    (∃ entries, Expands members entries) ↔ ∀ member ∈ members, IsTexts member.2 := by
  induction members with
  | nil => exact iff_of_true ⟨[], .nil⟩ (List.forall_mem_nil _)
  | cons member rest ih =>
      obtain ⟨name, value⟩ := member
      rw [List.forall_mem_cons, ← ih]
      simp only [expands_cons_iff]
      constructor
      · rintro ⟨_, texts, others, htexts, hrest, rfl⟩
        exact ⟨⟨texts, htexts⟩, others, hrest⟩
      · rintro ⟨⟨texts, htexts⟩, others, hrest⟩
        exact ⟨_, texts, others, htexts, hrest, rfl⟩

theorem expands_arrangedMembers :
    Expands (arrangedMembers members) entries ↔ Expands members entries := by
  induction members generalizing entries with
  | nil => exact Iff.rfl
  | cons member rest ih =>
      obtain ⟨name, value⟩ := member
      simp only [arrangedMembers, expands_cons_iff, textsOf_arranged, ih]

theorem ofMembers_cons :
    ofMembers ((name, value) :: members) = do
      let first ← entriesOf name value
      let others ← ofMembers members
      return ⟨first ++ others.entries⟩ := by
  simp only [ofMembers, List.mapM_cons]
  cases entriesOf name value with
  | error mismatch => rfl
  | ok first =>
      generalize (List.mapM _ members : Except Mismatch (List (List (String × String)))) = others
      cases others <;> rfl

/-- **Members in hand are expanded one after another.** -/
theorem ofMembers_eq_ok_iff {values : NamedValues} :
    ofMembers members = .ok values ↔ Expands members values.entries := by
  induction members generalizing values with
  | nil =>
      constructor
      · intro hread
        obtain rfl := Except.ok.inj hread
        exact .nil
      · intro hexpands
        obtain ⟨entries⟩ := values
        cases hexpands
        rfl
  | cons member rest ih =>
      obtain ⟨name, value⟩ := member
      rw [ofMembers_cons, bind_eq_ok, expands_cons_iff]
      simp only [bind_eq_ok, entriesOf_eq_ok_iff, ih]
      constructor
      · rintro ⟨_, ⟨texts, htexts, rfl⟩, others, hothers, hread⟩
        obtain rfl := Except.ok.inj hread
        exact ⟨texts, _, htexts, hothers, rfl⟩
      · rintro ⟨texts, others, htexts, hothers, heq⟩
        obtain ⟨entries⟩ := values
        obtain rfl := heq
        exact ⟨_, ⟨texts, htexts, rfl⟩, ⟨others⟩, hothers, rfl⟩

/-! ## Entries that are read from a text -/

variable {levels most : Nat} {first : Bool} {input rest : List UInt8}

/-- Whether a text goes on with a member of an object, up to a rest of it. -/
def ReadsMember (levels : Nat) (first : Bool) (input : List UInt8) (name : String) (value : Json)
    (rest : List UInt8) : Prop :=
  ∃ start colon tree, nextKey first input = .ok (true, start) ∧
    StringLiteral.read start = .ok (name, colon) ∧ readColon colon = .ok tree ∧
    readTree NumberLiteral.read levels tree = .ok (value, rest)

theorem readMembers_succ_iff {members : List (String × Json)} :
    readMembers (readTree NumberLiteral.read levels) (most + 1) first input = .ok (members, rest) ↔
      (∃ last, nextKey first input = .ok (false, last) ∧ members = [] ∧ rest = last.drop 1) ∨
        ∃ name value middle others, ReadsMember levels first input name value middle ∧
          readMembers (readTree NumberLiteral.read levels) most false middle = .ok (others, rest) ∧
          members = (name, value) :: others := by
  rw [readMembers]
  constructor
  · intro hread
    obtain ⟨⟨more, start⟩, hnext, hread⟩ := bind_eq_ok.mp hread
    cases more with
    | false =>
        obtain ⟨rfl, rfl⟩ := Prod.mk.inj (Except.ok.inj hread)
        exact .inl ⟨start, hnext, rfl, rfl⟩
    | true =>
        obtain ⟨⟨name, colon⟩, hname, hread⟩ := bind_eq_ok.mp hread
        obtain ⟨tree, hcolon, hread⟩ := bind_eq_ok.mp hread
        obtain ⟨⟨value, middle⟩, hvalue, hread⟩ := bind_eq_ok.mp hread
        obtain ⟨⟨others, last⟩, hothers, hread⟩ := bind_eq_ok.mp hread
        obtain ⟨rfl, rfl⟩ := Prod.mk.inj (Except.ok.inj hread)
        exact .inr ⟨name, value, middle, others, ⟨start, colon, tree, hnext, hname, hcolon, hvalue⟩,
          hothers, rfl⟩
  · rintro (⟨last, hnext, rfl, rfl⟩ | ⟨name, value, middle, others,
      ⟨start, colon, tree, hnext, hname, hcolon, hvalue⟩, hothers, rfl⟩)
    · rw [hnext]
      rfl
    · simp only [hnext, hname, hcolon, hvalue, hothers, bind, Except.bind]

theorem readEntries_of_mismatch {value : Json} {middle : List UInt8} {mismatch : Mismatch}
    (hmember : ReadsMember levels first input name value middle)
    (hmismatch : entriesOf name value.arranged = .error mismatch) :
    readEntries levels (most + 1) first input = .error ⟨.misfit mismatch, middle⟩ := by
  obtain ⟨start, colon, tree, hnext, hname, hcolon, hvalue⟩ := hmember
  rw [readEntries]
  simp only [hnext, hname, hcolon, readValue, hvalue, hmismatch, bind, Except.bind, pure,
    Except.pure, stop]

theorem readEntries_of_entries {value : Json} {middle : List UInt8}
    {found : List (String × String)}
    (hmember : ReadsMember levels first input name value middle)
    (hfound : entriesOf name value.arranged = .ok found) :
    readEntries levels (most + 1) first input = readEntries levels most false middle >>= fun read =>
      .ok (found ++ read.1, read.2) := by
  obtain ⟨start, colon, tree, hnext, hname, hcolon, hvalue⟩ := hmember
  rw [readEntries]
  simp only [hnext, hname, hcolon, readValue, hvalue, hfound, bind, Except.bind, pure, Except.pure]

theorem readEntries_succ_iff :
    readEntries levels (most + 1) first input = .ok (entries, rest) ↔
      (∃ last, nextKey first input = .ok (false, last) ∧ entries = [] ∧ rest = last.drop 1) ∨
        ∃ name value middle found others, ReadsMember levels first input name value middle ∧
          entriesOf name value.arranged = .ok found ∧
          readEntries levels most false middle = .ok (others, rest) ∧
          entries = found ++ others := by
  constructor
  · intro hread
    obtain ⟨⟨more, start⟩, hnext, hread⟩ := bind_eq_ok.mp hread
    cases more with
    | false =>
        obtain ⟨rfl, rfl⟩ := Prod.mk.inj (Except.ok.inj hread)
        exact .inl ⟨start, hnext, rfl, rfl⟩
    | true =>
        obtain ⟨⟨name, colon⟩, hname, hread⟩ := bind_eq_ok.mp hread
        obtain ⟨tree, hcolon, hread⟩ := bind_eq_ok.mp hread
        obtain ⟨⟨_, middle⟩, hvalue, hread⟩ := bind_eq_ok.mp hread
        obtain ⟨⟨value, _⟩, htree, hvalue⟩ := bind_eq_ok.mp hvalue
        obtain ⟨rfl, rfl⟩ := Prod.mk.inj (Except.ok.inj hvalue)
        cases hfound : entriesOf name value.arranged with
        | error mismatch =>
            simp only [hfound] at hread
            exact absurd hread nofun
        | ok found =>
            simp only [hfound] at hread
            obtain ⟨⟨others, last⟩, hothers, hread⟩ := bind_eq_ok.mp hread
            obtain ⟨rfl, rfl⟩ := Prod.mk.inj (Except.ok.inj hread)
            exact .inr ⟨name, value, _, found, others,
              ⟨start, colon, tree, hnext, hname, hcolon, htree⟩, hfound, hothers, rfl⟩
  · rintro (⟨last, hnext, rfl, rfl⟩ | ⟨name, value, middle, found, others, hmember, hfound,
      hothers, rfl⟩)
    · rw [readEntries, hnext]
      rfl
    · rw [readEntries_of_entries hmember hfound, hothers]
      rfl

/-- **Entries are read as what the members in their place expand to.** -/
theorem readEntries_eq_ok_iff :
    readEntries levels most first input = .ok (entries, rest) ↔
      ∃ members,
        readMembers (readTree NumberLiteral.read levels) most first input = .ok (members, rest) ∧
          Expands members entries := by
  induction most generalizing first input entries with
  | zero =>
      refine iff_of_false nofun ?_
      rintro ⟨_, hread, -⟩
      exact absurd hread nofun
  | succ most ih =>
      -- Both readers take the same member off the text and only differ in what they make of it.
      simp only [readEntries_succ_iff, readMembers_succ_iff, entriesOf_eq_ok_iff, textsOf_arranged,
        ih]
      constructor
      · rintro (⟨last, hnext, rfl, rfl⟩ | ⟨name, value, middle, _, others, hmember,
          ⟨texts, htexts, rfl⟩, ⟨members, hmembers, hexpands⟩, rfl⟩)
        · exact ⟨[], .inl ⟨last, hnext, rfl, rfl⟩, .nil⟩
        · exact ⟨_, .inr ⟨name, value, middle, members, hmember, hmembers, rfl⟩,
            .member htexts hexpands⟩
      · rintro ⟨_, ⟨last, hnext, rfl, rfl⟩ | ⟨name, value, middle, members, hmember, hmembers, rfl⟩,
          hexpands⟩
        · cases hexpands
          exact .inl ⟨last, hnext, rfl, rfl⟩
        · obtain ⟨texts, others, htexts, hothers, rfl⟩ := expands_cons_iff.mp hexpands
          exact .inr ⟨name, value, middle, _, others, hmember, ⟨texts, htexts, rfl⟩,
            ⟨members, hmembers, hothers⟩, rfl⟩

/-! ## Lookups -/

/-- Whether no two members have names that are the same but for case. -/
def NamesApart (members : Members) : Prop :=
  members.Pairwise fun left right => ¬ Ascii.sameFold left.1 right.1

theorem NamesApart.ne (hapart : NamesApart members) :
    members.Pairwise fun left right => left.1 ≠ right.1 := by
  refine List.Pairwise.imp (fun {left right} hnot heq => hnot ?_) hapart
  rw [heq]
  exact Ascii.sameFold_refl _

theorem NamesApart.perm {listed : Members} (hapart : NamesApart members)
    (hperm : listed.Perm members) : NamesApart listed :=
  (hperm.pairwise_iff fun hnot hsame => hnot (Ascii.sameFold_comm.mp hsame)).mpr hapart

theorem isLast_named_iff {key text : String} :
    IsLast (texts.map fun text => (name, text)) (key, text) ↔
      key = name ∧ texts.getLast? = some text := by
  constructor
  · rintro ⟨before, after, hsplit, hafter⟩
    obtain ⟨first, others, rfl, -, hothers⟩ := List.map_eq_append_iff.mp hsplit
    obtain ⟨text, last, rfl, heq, rfl⟩ := List.map_eq_cons_iff.mp hothers
    obtain ⟨rfl, rfl⟩ := Prod.mk.inj heq
    -- A text behind this one would come under its name as well.
    cases last with
    | nil => exact ⟨rfl, List.getLast?_concat⟩
    | cons later last =>
        exact absurd (Ascii.sameFold_refl _) (hafter (name, later) (List.mem_cons_self ..))
  · rintro ⟨rfl, hlast⟩
    obtain ⟨first, rfl⟩ := List.getLast?_eq_some_iff.mp hlast
    exact ⟨first.map fun text => (key, text), [], by simp, nofun⟩

theorem Expands.exists_name (hexpands : Expands members entries) {entry : String × String}
    (hentry : entry ∈ entries) : ∃ member ∈ members, member.1 = entry.1 := by
  induction hexpands with
  | nil => exact absurd hentry List.not_mem_nil
  | @member name value texts members others htexts hrest ih =>
      rcases List.mem_append.mp hentry with hfirst | hother
      · obtain ⟨text, -, rfl⟩ := List.mem_map.mp hfirst
        exact ⟨_, List.mem_cons_self .., rfl⟩
      · obtain ⟨member, hmember, hname⟩ := ih hother
        exact ⟨member, List.mem_cons_of_mem _ hmember, hname⟩

/-- Where no two names are the same but for case, the last entry of a name is the last text of its
one member. -/
theorem Expands.isLast_iff (hexpands : Expands members entries)
    (hapart : NamesApart members) {entry : String × String} :
    IsLast entries entry ↔ ∃ value texts, (entry.1, value) ∈ members ∧ TextsOf value texts ∧
      texts.getLast? = some entry.2 := by
  obtain ⟨key, text⟩ := entry
  induction hexpands with
  | nil => simp [IsLast]
  | @member name value texts members others htexts hrest ih =>
      obtain ⟨hname, hapart⟩ := List.pairwise_cons.mp hapart
      have hothers : ∀ later ∈ others, ¬ Ascii.sameFold name later.1 := by
        intro later hlater
        obtain ⟨member, hmember, heq⟩ := hrest.exists_name hlater
        exact heq ▸ hname member hmember
      rw [isLast_append_iff, ih hapart, isLast_named_iff]
      constructor
      · rintro (⟨value, found, hmem, hfound, hlast⟩ | ⟨⟨rfl, hlast⟩, -⟩)
        · exact ⟨value, found, List.mem_cons_of_mem _ hmem, hfound, hlast⟩
        · exact ⟨value, texts, List.mem_cons_self .., htexts, hlast⟩
      · rintro ⟨other, found, hmem, hfound, hlast⟩
        rcases List.mem_cons.mp hmem with heq | hmem
        · obtain ⟨rfl, rfl⟩ := Prod.mk.inj heq
          obtain rfl := htexts.unique hfound
          exact .inr ⟨⟨rfl, hlast⟩, hothers⟩
        · exact .inl ⟨other, found, hmem, hfound, hlast⟩

/-- Whether no lookup and nothing that is told by name tells two sets of values apart. -/
structure Alike (values other : NamedValues) : Prop where
  get : ∀ name, values.get? name = other.get? name
  single : values.single = other.single

/-- **The order of members does not matter** where no two names are the same but for case. -/
theorem Expands.alike {values other : NamedValues} {listed : Members}
    (hexpands : Expands members values.entries) (hother : Expands listed other.entries)
    (hapart : NamesApart members) (hperm : listed.Perm members) : Alike values other := by
  have hsame : ∀ entry, IsLast values.entries entry ↔ IsLast other.entries entry := by
    intro entry
    simp only [hexpands.isLast_iff hapart, hother.isLast_iff (hapart.perm hperm), hperm.mem_iff]
  exact ⟨get?_congr hsame, single_congr hsame⟩

end NamedValues

end AuctionLog
