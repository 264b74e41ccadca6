import AuctionLog.Proofs.Json.Arranged
import AuctionLog.Proofs.Record.OnePerName
import Mathlib.Data.List.Induction

/-!
# Lookups and what is told by name

Values that come by name are looked up from the last one back, and are told with one value per name.
Both go by the last entry of a name, and so agree for every name. The one value per name can also be
found in a single pass, in a table of the last entry for every folded name; in whichever order the
table gives its entries, the same values are told.
-/

namespace AuctionLog

open Json

theorem Ascii.sameFold_trans {first second third : String} (hfirst : sameFold first second)
    (hsecond : sameFold second third) : sameFold first third := by
  rw [sameFold, beq_iff_eq] at *
  exact hfirst.trans hsecond

namespace NamedValues

/-- Whether an entry is the last one of its name. -/
def IsLast (entries : List (String × String)) (entry : String × String) : Prop :=
  ∃ before after, entries = before ++ entry :: after ∧
    ∀ later ∈ after, ¬ Ascii.sameFold entry.1 later.1

variable {entries : List (String × String)} {entry : String × String}

theorem isLast_cons_iff {first : String × String} {rest : List (String × String)} :
    IsLast (first :: rest) entry ↔
      (entry = first ∧ ∀ later ∈ rest, ¬ Ascii.sameFold first.1 later.1) ∨ IsLast rest entry := by
  constructor
  · rintro ⟨before, after, hsplit, hafter⟩
    rcases List.cons_eq_append_iff.mp hsplit with ⟨rfl, hrest⟩ | ⟨before, rfl, rfl⟩
    · obtain ⟨rfl, rfl⟩ := List.cons.inj hrest
      exact .inl ⟨rfl, hafter⟩
    · exact .inr ⟨before, after, rfl, hafter⟩
  · rintro (⟨rfl, hrest⟩ | ⟨before, after, rfl, hafter⟩)
    · exact ⟨[], rest, rfl, hrest⟩
    · exact ⟨first :: before, after, rfl, hafter⟩

theorem mem_lastOfName_iff : entry ∈ lastOfName entries ↔ IsLast entries entry := by
  induction entries with
  | nil => simp [lastOfName, IsLast]
  | cons first rest ih =>
      rw [lastOfName, isLast_cons_iff, ← ih]
      split
      · rename_i hany
        obtain ⟨later, hlater, hsame⟩ := List.any_eq_true.mp hany
        rw [or_iff_right]
        rintro ⟨-, hnone⟩
        exact hnone later hlater hsame
      · rename_i hany
        have hnone : ∀ later ∈ rest, ¬ Ascii.sameFold first.1 later.1 :=
          fun later hlater hsame => hany (List.any_eq_true.mpr ⟨later, hlater, hsame⟩)
        rw [List.mem_cons, and_iff_left hnone]

/-- A search from the end finds the last entry that it looks for. -/
theorem find?_reverse_eq_some_iff {sought : String × String → Bool} :
    entries.reverse.find? sought = some entry ↔
      sought entry ∧ ∃ before after, entries = before ++ entry :: after ∧
        ∀ later ∈ after, ¬ sought later := by
  rw [List.find?_eq_some_iff_append]
  refine and_congr_right fun _ => ?_
  constructor
  · rintro ⟨after, before, hsplit, hafter⟩
    refine ⟨before.reverse, after.reverse, ?_, ?_⟩
    · rw [← List.reverse_reverse entries, hsplit]
      simp
    · intro later hlater
      simpa using hafter later (List.mem_reverse.mp hlater)
  · rintro ⟨before, after, rfl, hafter⟩
    refine ⟨after.reverse, before.reverse, by simp, ?_⟩
    intro later hlater
    simpa using hafter later (List.mem_reverse.mp hlater)

/-- What looks for one name, in whichever way it tells names apart, finds the last entry of it. -/
theorem find?_reverse_eq_some_iff_isLast {sought : String × String → Bool}
    (hsought : sought entry → ∀ other, sought other ↔ Ascii.sameFold entry.1 other.1) :
    entries.reverse.find? sought = some entry ↔ sought entry ∧ IsLast entries entry := by
  rw [find?_reverse_eq_some_iff]
  refine and_congr_right fun hentry => ?_
  simp only [hsought hentry]
  rfl

theorem find?_name_eq_some_iff {name : String} :
    (entries.reverse.find? fun other => Ascii.sameFold other.1 name) = some entry ↔
      Ascii.sameFold entry.1 name ∧ IsLast entries entry := by
  refine find?_reverse_eq_some_iff_isLast fun hentry other => ?_
  constructor
  · intro hother
    exact Ascii.sameFold_trans hentry (Ascii.sameFold_comm.mp hother)
  · intro hother
    exact Ascii.sameFold_trans (Ascii.sameFold_comm.mp hother) hentry

/-- Every name that comes has a last entry. -/
theorem exists_isLast (hmem : entry ∈ entries) :
    ∃ last, IsLast entries last ∧ Ascii.sameFold last.1 entry.1 := by
  cases hfind : entries.reverse.find? fun other => Ascii.sameFold other.1 entry.1 with
  | none =>
      have hnone := List.find?_eq_none.mp hfind entry (List.mem_reverse.mpr hmem)
      exact absurd (Ascii.sameFold_refl _) hnone
  | some last =>
      obtain ⟨hsame, hlast⟩ := find?_name_eq_some_iff.mp hfind
      exact ⟨last, hlast, hsame⟩

theorem IsLast.eq_of_sameFold {left right : String × String} {name : String}
    (hleft : IsLast entries left) (hright : IsLast entries right)
    (hleftName : Ascii.sameFold left.1 name) (hrightName : Ascii.sameFold right.1 name) :
    left = right := by
  have hfound := find?_name_eq_some_iff.mpr ⟨hleftName, hleft⟩
  exact Option.some.inj (hfound.symm.trans (find?_name_eq_some_iff.mpr ⟨hrightName, hright⟩))

/-! ## The table of last entries -/

/-- The last entry of every name, under the name in lower case. -/
def winners (entries : List (String × String)) : Std.HashMap String (String × String) :=
  entries.foldl (fun table entry => table.insert (Ascii.fold entry.1) entry) ∅

theorem getElem?_winners (key : String) :
    (winners entries)[key]? = entries.reverse.find? fun entry => Ascii.fold entry.1 == key := by
  -- From the end, as an entry takes the place of every earlier one of its name.
  induction entries using List.reverseRecOn with
  | nil => exact Std.HashMap.getElem?_empty
  | append_singleton rest entry ih =>
      rw [winners, List.foldl_append, ← winners, List.foldl_cons, List.foldl_nil,
        Std.HashMap.getElem?_insert, ih, List.reverse_append, List.reverse_singleton,
        List.singleton_append, List.find?_cons]
      cases Ascii.fold entry.1 == key <;> rfl

theorem mem_winners_iff {key : String} :
    (key, entry) ∈ (winners entries).toList ↔ Ascii.fold entry.1 = key ∧ IsLast entries entry := by
  rw [Std.HashMap.mem_toList_iff_getElem?_eq_some, getElem?_winners,
    find?_reverse_eq_some_iff_isLast, beq_iff_eq]
  intro hentry other
  rw [← beq_iff_eq.mp hentry, Ascii.sameFold, beq_iff_eq, beq_iff_eq, eq_comm]

theorem perm_winners : ((winners entries).toList.map (·.2)).Perm (lastOfName entries) := by
  have hdistinct : (lastOfName entries).Nodup := by
    refine (distinct_lastOfName entries).imp fun hdistinct => ?_
    rintro rfl
    exact hdistinct (Ascii.sameFold_refl _)
  have hwinners : ((winners entries).toList.map (·.2)).Nodup := by
    refine List.pairwise_map.mpr ?_
    refine List.Pairwise.imp_of_mem ?_ (winners entries).distinct_keys_toList
    rintro ⟨left, entry⟩ ⟨right, other⟩ hleft hright hkeys rfl
    obtain ⟨rfl, -⟩ := mem_winners_iff.mp hleft
    obtain ⟨rfl, -⟩ := mem_winners_iff.mp hright
    simp at hkeys
  -- Neither has an entry twice, so that it is enough for both to have the same ones.
  refine (List.perm_ext_iff_of_nodup hwinners hdistinct).mpr fun entry => ?_
  rw [mem_lastOfName_iff, List.mem_map]
  constructor
  · rintro ⟨⟨key, _⟩, hmem, rfl⟩
    exact (mem_winners_iff.mp hmem).2
  · intro hlast
    exact ⟨(Ascii.fold entry.1, entry), mem_winners_iff.mpr ⟨rfl, hlast⟩, rfl⟩

/-! ## Values that are told by name -/

/-- Whether the result of a lookup is what is told under the one key for a name. -/
structure LookedUp (told : List (String × String)) (name : String) (result : Option String) :
    Prop where
  unique : ∀ left ∈ told, ∀ right ∈ told, Ascii.sameFold left.1 name →
    Ascii.sameFold right.1 name → left = right
  some_iff : ∀ value, result = some value ↔ ∃ key, (key, value) ∈ told ∧ Ascii.sameFold key name
  none_iff : result = none ↔ ∀ entry ∈ told, ¬ Ascii.sameFold entry.1 name

/-- Whether entries tell of every name the last entry and nothing else, in the order of the names.
Any table of the last entries comes to them, and any lookup finds what they tell. -/
structure Flattens (values : NamedValues) (told : List (String × String)) : Prop where
  mem_iff : ∀ entry, entry ∈ told ↔ IsLast values.entries entry
  existsUnique : ∀ entry ∈ values.entries, ∃! last, last ∈ told ∧ Ascii.sameFold last.1 entry.1
  sorted : told.Pairwise fun left right => left.1 < right.1
  collected : ∀ order : List (String × String),
    order.Perm ((winners values.entries).toList.map (·.2)) →
      .obj (Members.ofList (order.map fun entry => (entry.1, .str entry.2))) = textMembers told
  lookedUp : ∀ name, LookedUp told name (values.get? name)

variable (values : NamedValues)

theorem perm_single : values.single.Perm (lastOfName values.entries) :=
  List.mergeSort_perm _ _

theorem mem_single_iff : entry ∈ values.single ↔ IsLast values.entries entry := by
  rw [values.perm_single.mem_iff, mem_lastOfName_iff]

theorem collected_single {order : List (String × String)}
    (horder : order.Perm ((winners values.entries).toList.map (·.2))) :
    .obj (Members.ofList (order.map fun entry => (entry.1, .str entry.2))) =
      textMembers values.single := by
  have hperm : order.Perm values.single := (horder.trans perm_winners).trans values.perm_single.symm
  have hsorted : Members.Sorted (values.single.map fun entry => (entry.1, .str entry.2)) :=
    List.pairwise_map.mpr values.sorted_single
  rw [textMembers, hsorted.ofList_eq_of_perm (hperm.map _)]

theorem lookedUp_single (name : String) : LookedUp values.single name (values.get? name) where
  unique := by
    intro left hleft right hright
    exact (values.mem_single_iff.mp hleft).eq_of_sameFold (values.mem_single_iff.mp hright)
  some_iff := by
    intro value
    simp only [get?, Option.map_eq_some_iff, find?_name_eq_some_iff, mem_single_iff]
    constructor
    · rintro ⟨⟨key, _⟩, ⟨hname, hlast⟩, rfl⟩
      exact ⟨key, hlast, hname⟩
    · rintro ⟨key, hlast, hname⟩
      exact ⟨(key, value), ⟨hname, hlast⟩, rfl⟩
  none_iff := by
    rw [get?, Option.map_eq_none_iff, List.find?_eq_none]
    constructor
    · intro hnone entry hentry
      have hmem := mem_of_mem_lastOfName (values.perm_single.mem_iff.mp hentry)
      exact hnone entry (List.mem_reverse.mpr hmem)
    · intro hnone entry hentry hname
      obtain ⟨last, hlast, hsame⟩ := exists_isLast (List.mem_reverse.mp hentry)
      exact hnone last (values.mem_single_iff.mpr hlast) (Ascii.sameFold_trans hsame hname)

theorem flattens_single : values.Flattens values.single where
  mem_iff _ := values.mem_single_iff
  existsUnique := by
    intro entry hentry
    obtain ⟨last, hlast, hsame⟩ := exists_isLast hentry
    refine ⟨last, ⟨values.mem_single_iff.mpr hlast, hsame⟩, ?_⟩
    rintro other ⟨hother, hotherSame⟩
    exact (values.mem_single_iff.mp hother).eq_of_sameFold hlast hotherSame hsame
  sorted := values.sorted_single
  collected _ := values.collected_single
  lookedUp := values.lookedUp_single

/-! ## Values with the same last entries -/

variable {values} {other : NamedValues}

theorem isLast_append_iff {left right : List (String × String)} :
    IsLast (left ++ right) entry ↔ IsLast right entry ∨
      IsLast left entry ∧ ∀ later ∈ right, ¬ Ascii.sameFold entry.1 later.1 := by
  induction left with
  | nil => simp [IsLast]
  | cons first rest ih =>
      rw [List.cons_append, isLast_cons_iff, isLast_cons_iff, ih, List.forall_mem_append]
      constructor
      · rintro (⟨rfl, hrest, hright⟩ | hlast | ⟨hlast, hright⟩)
        · exact .inr ⟨.inl ⟨rfl, hrest⟩, hright⟩
        · exact .inl hlast
        · exact .inr ⟨.inr hlast, hright⟩
      · rintro (hlast | ⟨⟨rfl, hrest⟩ | hlast, hright⟩)
        · exact .inr (.inl hlast)
        · exact .inl ⟨rfl, hrest, hright⟩
        · exact .inr (.inr ⟨hlast, hright⟩)

theorem isLast_iff_mem
    (hdistinct : entries.Pairwise fun left right => ¬ Ascii.sameFold left.1 right.1) :
    IsLast entries entry ↔ entry ∈ entries := by
  constructor
  · rintro ⟨before, after, rfl, -⟩
    exact List.mem_append_right _ (List.mem_cons_self ..)
  · intro hmem
    obtain ⟨before, after, rfl⟩ := List.append_of_mem hmem
    have hafter := (List.pairwise_append.mp hdistinct).2.1
    exact ⟨before, after, rfl, (List.pairwise_cons.mp hafter).1⟩

/-- Only the last entry of each name counts for a lookup. -/
theorem get?_congr (hsame : ∀ entry, IsLast values.entries entry ↔ IsLast other.entries entry)
    (name : String) : values.get? name = other.get? name := by
  refine Option.ext fun value => ?_
  simp only [get?, Option.map_eq_some_iff, find?_name_eq_some_iff, hsame]

/-- Only the last entry of each name counts for what is told. -/
theorem single_congr (hsame : ∀ entry, IsLast values.entries entry ↔ IsLast other.entries entry) :
    values.single = other.single := by
  have hirrefl : Std.Irrefl fun left right : String × String => left.1 < right.1 :=
    ⟨fun _ => lt_irrefl _⟩
  have hantisymm : Std.Antisymm fun left right : String × String => left.1 < right.1 :=
    ⟨fun _ _ hlt hgt => absurd hgt hlt.not_gt⟩
  refine values.sorted_single.eq_of_mem_iff other.sorted_single fun entry => ?_
  rw [mem_single_iff, mem_single_iff, hsame]

end NamedValues

/-- Whether what is told of a request are its headers, with the two that are named apart looked up
in the request, and as they are told among all headers. -/
structure RequestView.LooksUpHeaders (request : ServedRequest) (view : RequestView) : Prop where
  headers_eq : view.headers = request.headers.single
  referer_eq : view.refererHeader = request.headers.get? "Referer"
  userAgent_eq : view.userAgent = request.headers.get? "User-Agent"
  referer : NamedValues.LookedUp view.headers "Referer" view.refererHeader
  userAgent : NamedValues.LookedUp view.headers "User-Agent" view.userAgent

/-- **A lookup finds what is told by name**, whichever values came, and so does what is told of a
request. -/
theorem lookups_agree :
    (∀ values : NamedValues, values.Flattens values.single) ∧
      ∀ request : ServedRequest,
        RequestView.LooksUpHeaders request (RequestView.ofRequest request) := by
  refine ⟨NamedValues.flattens_single, fun request => ?_⟩
  exact {
    headers_eq := rfl
    referer_eq := rfl
    userAgent_eq := rfl
    referer := request.headers.lookedUp_single "Referer"
    userAgent := request.headers.lookedUp_single "User-Agent" }

end AuctionLog
