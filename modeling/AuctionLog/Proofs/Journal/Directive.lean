import AuctionLog.Journal.Directive
import AuctionLog.Proofs.Results
import AuctionLog.Proofs.Text.Numeral
import AuctionLog.Proofs.Text.Utf8

/-!
# The text of a directive

Without a bracket it is a level, a target or a target with its level, and gives a directive for no
span or field. Its parts are looked for without the blanks at its ends and are cut out with them: a
text that begins with blanks may be cut inside a character, and no other text ever is.
-/

namespace AuctionLog.Directive

open Utf8

variable {directive other : Directive} {text : String}

/-! ## Directives without spans and fields -/

/-- Whether a directive is for a target or for all, and for no span or field. -/
structure IsPlain (directive : Directive) : Prop where
  span : directive.span = none
  field : directive.field = none

theorem IsPlain.withLevel (hplain : directive.IsPlain) {start : Nat}
    (hread : directive.withLevel text start = .ok (some other)) : other.IsPlain := by
  obtain ⟨level, -, hread⟩ := bind_eq_ok.mp hread
  split_ifs at hread
  · obtain rfl := Option.some.inj (Except.ok.inj hread)
    exact ⟨hplain.span, hplain.field⟩
  · obtain ⟨ceiling, -, rfl⟩ := Option.map_eq_some_iff.mp (Except.ok.inj hread)
    exact ⟨hplain.span, hplain.field⟩

theorem isPlain_ofWord : (ofWord text).IsPlain := by
  unfold ofWord
  split <;> exact ⟨rfl, rfl⟩

/-- What is made of a text without a bracket: nothing, a word, or a target with its level. -/
inductive Reads (text : String) : Except Miscut (Option Directive) → Prop where
  | nothing (hopening : ∀ opening ∈ (Blank.trim text.toList).head?, ¬ isOpening opening) :
      Reads text (.ok none)
  | word (hsign : '=' ∉ Blank.trim text.toList) : Reads text (.ok (some (ofWord text)))
  | levelled {opening : Char} {head level : List Char} (hopening : isOpening opening)
      (htrim : Blank.trim text.toList = opening :: head ++ '=' :: level)
      (hsign : '=' ∉ opening :: head) :
      Reads text (do
        let target ← slice text 0 (width (opening :: head))
        { everything with target := some target }.withLevel text (width (opening :: head) + 1))

theorem not_mem_trim {char : Char} (hchar : char ∉ text.toList) :
    char ∉ Blank.trim text.toList := by
  obtain ⟨before, after, htext, -⟩ := Blank.exists_trim text.toList
  intro hmem
  rw [htext] at hchar
  exact hchar (List.mem_append_left _ (List.mem_append_right _ hmem))

theorem not_of_dropWhile {holds : Char → Bool} {chars tail : List Char} {char : Char}
    (hdrop : chars.dropWhile holds = char :: tail) : holds char = false := by
  have hhead := List.head_dropWhile_not holds (by simp [hdrop] : chars.dropWhile holds ≠ [])
  simpa only [hdrop, List.head_cons] using hhead

theorem endsTarget_iff {char : Char} : endsTarget char ↔ char = '=' ∨ char = '[' := by
  simp [endsTarget]

theorem not_endsTarget_of_isOpening {opening : Char} (hopening : isOpening opening) :
    ¬ endsTarget opening := by
  rw [endsTarget_iff]
  rintro (rfl | rfl) <;> exact absurd hopening (by decide)

/-- **A text without a bracket is nothing, a word, or a target with its level.** -/
theorem reads_ofText (hbracket : '[' ∉ text.toList) : Reads text (ofText text) := by
  have hnone := not_mem_trim hbracket
  unfold ofText
  split
  · rename_i htrim
    exact .nothing (by simp [htrim])
  · rename_i rest htrim
    exact absurd (htrim ▸ List.mem_cons_self ..) hnone
  · rename_i opening rest _ htrim
    simp only
    split_ifs with hopening
    · exact .nothing (by simpa [htrim] using hopening)
    · rw [Bool.not_eq_true', Bool.not_eq_false] at hopening
      rw [htrim] at hnone
      have hstart := not_endsTarget_of_isOpening hopening
      set head := rest.takeWhile (!endsTarget ·) with hhead
      have hparts := List.takeWhile_append_dropWhile (p := (!endsTarget ·)) (l := rest)
      have hsign : '=' ∉ opening :: head := by
        intro hmem
        rcases List.mem_cons.mp hmem with rfl | hmem
        · exact absurd hstart (by decide)
        · exact absurd (List.mem_takeWhile_imp hmem) (by decide)
      rw [List.takeWhile_cons_of_pos (by simpa using hstart),
        List.dropWhile_cons_of_pos (by simpa using hstart), ← hhead]
      split
      · rename_i level hdrop
        rw [hdrop] at hparts
        exact .levelled hopening (by rw [htrim, List.cons_append, hparts]) hsign
      · rename_i tail hdrop
        rw [hdrop] at hparts
        exact absurd (hparts ▸ by simp) hnone
      · rename_i hlevel hspan
        refine .word ?_
        cases hdrop : rest.dropWhile (!endsTarget ·) with
        | nil =>
            rw [hdrop, List.append_nil] at hparts
            rwa [htrim, ← hparts]
        | cons char tail =>
            have hends := not_of_dropWhile hdrop
            rw [Bool.not_eq_false', endsTarget_iff] at hends
            rcases hends with rfl | rfl
            · exact absurd hdrop (hlevel tail)
            · exact absurd hdrop (hspan tail)

/-- **A directive without a bracket is a level, a target, or a target with its level.** -/
theorem isPlain_of_ofText (hbracket : '[' ∉ text.toList)
    (hread : ofText text = .ok (some directive)) : directive.IsPlain := by
  have hreads := reads_ofText hbracket
  rw [hread] at hreads
  generalize hresult : Except.ok (some directive) = result at hreads
  cases hreads with
  | nothing => exact absurd (Except.ok.inj hresult) nofun
  | word =>
      obtain rfl := Option.some.inj (Except.ok.inj hresult)
      exact isPlain_ofWord
  | levelled =>
      obtain ⟨target, -, hlevel⟩ := bind_eq_ok.mp hresult.symm
      exact IsPlain.withLevel ⟨rfl, rfl⟩ hlevel

/-! ## Cuts inside characters -/

theorem exists_withLevel_eq_error_iff {start : Nat} (hstart : start ≤ text.utf8ByteSize) :
    (∃ miscut, directive.withLevel text start = .error miscut) ↔
      ¬ IsBoundary text.toList start := by
  have hend : IsBoundary text.toList text.utf8ByteSize := width_toList text ▸ isBoundary_width _
  have hslice := @exists_slice_eq_error_iff text _ _ hstart
  rw [or_iff_left (not_not.mpr hend)] at hslice
  rw [← hslice]
  refine exists_congr fun miscut => ?_
  rw [withLevel, bind_eq_error]
  refine or_iff_left ?_
  rintro ⟨level, -, hlevel⟩
  split_ifs at hlevel <;> exact absurd hlevel nofun

/-- Whether a target with its level is cut inside a character: where its sign is found without the
blanks at the ends of the text, or just behind, the text as it stands is inside a character. -/
def CutsInside (text : String) : Prop :=
  ∃ (opening : Char) (head level : List Char),
    Blank.trim text.toList = opening :: head ++ '=' :: level ∧ isOpening opening ∧
      '=' ∉ opening :: head ∧
      (¬ IsBoundary text.toList (width (opening :: head)) ∨
        ¬ IsBoundary text.toList (width (opening :: head) + 1))

theorem takeWhile_sign {head level : List Char} (hsign : '=' ∉ head) :
    (head ++ '=' :: level).takeWhile (· ≠ '=') = head := by
  have hhead : ∀ char ∈ head, decide (char ≠ '=') := by
    intro char hmem
    rw [decide_eq_true_eq]
    rintro rfl
    exact hsign hmem
  rw [List.takeWhile_append_of_pos hhead, List.takeWhile_cons_of_neg (by decide), List.append_nil]

theorem width_lt_of_trim {head level : List Char} {char : Char}
    (htrim : Blank.trim text.toList = head ++ char :: level) : width head < text.utf8ByteSize := by
  obtain ⟨before, after, htext, -⟩ := Blank.exists_trim text.toList
  have hsize := char.utf8Size_pos
  rw [← width_toList, htext, htrim]
  simp only [width_append, width_cons]
  omega

theorem exists_ofText_eq_error_iff (hbracket : '[' ∉ text.toList) :
    (∃ miscut, ofText text = .error miscut) ↔ CutsInside text := by
  have hreads := reads_ofText hbracket
  generalize ofText text = result at hreads
  cases hreads with
  | nothing hopening =>
      refine iff_of_false nofun ?_
      rintro ⟨opening, head, level, htrim, hstart, -⟩
      exact hopening opening (by simp [htrim]) hstart
  | word hsign =>
      refine iff_of_false nofun ?_
      rintro ⟨opening, head, level, htrim, -⟩
      exact hsign (htrim ▸ List.mem_append_right _ (List.mem_cons_self ..))
  | @levelled opening head level hopening htrim hsign =>
      have hcut : CutsInside text ↔ ¬ IsBoundary text.toList (width (opening :: head)) ∨
          ¬ IsBoundary text.toList (width (opening :: head) + 1) := by
        constructor
        · rintro ⟨first, other, rest, hother, -, hfree, hinside⟩
          have hhead := congrArg (List.takeWhile (· ≠ '=')) (htrim.symm.trans hother)
          rw [takeWhile_sign hsign, takeWhile_sign hfree] at hhead
          rwa [hhead]
        · exact fun hinside => ⟨opening, head, level, htrim, hopening, hsign, hinside⟩
      have hstart : IsBoundary text.toList 0 := ⟨[], text.toList, rfl, rfl⟩
      have hslice := @exists_slice_eq_error_iff text _ _ (Nat.zero_le (width (opening :: head)))
      rw [or_iff_right (not_not.mpr hstart)] at hslice
      rw [hcut, ← hslice]
      cases slice text 0 (width (opening :: head)) with
      | error miscut => exact iff_of_true ⟨miscut, rfl⟩ (.inl ⟨miscut, rfl⟩)
      | ok target =>
          rw [or_iff_right (by simp)]
          exact exists_withLevel_eq_error_iff (width_lt_of_trim htrim)

example : ofText " é=info" = .error ⟨" é=info", 2⟩ := by decide

/-! ## Texts that do not begin with a blank -/

section Unshifted

-- What is left to look through stands in the text as it is, too, from the byte that was counted on,
-- so that each part is cut out between characters.
variable {start : Nat} {rest : List Char} (hstands : StandsAt text start rest)
include hstands

theorem exists_withLevel (directive : Directive) :
    ∃ found, directive.withLevel text start = .ok found := by
  have hstart := hstands.isBoundary
  have hle : start ≤ text.utf8ByteSize := hstart.le_utf8ByteSize
  cases hread : directive.withLevel text start with
  | ok found => exact ⟨found, rfl⟩
  | error miscut =>
      exact absurd hstart ((exists_withLevel_eq_error_iff hle).mp ⟨miscut, hread⟩)

theorem exists_ofTail (directive : Directive) :
    ∃ found, ofTail directive text start rest = .ok found := by
  unfold ofTail
  split
  · exact ⟨_, rfl⟩
  · exact exists_withLevel (@StandsAt.skip text start ['='] _ hstands) directive
  · exact ⟨_, rfl⟩

theorem exists_ofField (directive : Directive) :
    ∃ found, ofField directive text start rest = .ok found := by
  rw [← List.takeWhile_append_dropWhile (p := (· ≠ '\x7d')) (l := rest)] at hstands
  unfold ofField
  simp only
  split
  · exact ⟨_, rfl⟩
  · rename_i close tail hdrop
    obtain rfl : close = '\x7d' := by simpa using not_of_dropWhile hdrop
    rw [hdrop] at hstands
    rw [hstands.slice_eq_ok]
    simp only [bind, Except.bind]
    split
    · rename_i tail
      split
      · exact ⟨_, rfl⟩
      · exact exists_ofTail (@StandsAt.skip text _ ['\x7d', ']'] tail hstands.skip) _
    · exact ⟨_, rfl⟩

theorem exists_ofSpan (directive : Directive) :
    ∃ found, ofSpan directive text start rest = .ok found := by
  rw [← List.takeWhile_append_dropWhile (p := (!endsSpan ·)) (l := rest)] at hstands
  unfold ofSpan
  simp only
  split
  · rename_i tail hdrop
    rw [hdrop] at hstands
    rw [hstands.slice_eq_ok]
    exact exists_ofTail (@StandsAt.skip text _ [']'] tail hstands.skip) _
  · rename_i tail hdrop
    rw [hdrop] at hstands
    rw [hstands.slice_eq_ok]
    exact exists_ofField (@StandsAt.skip text _ ['\x7b'] tail hstands.skip) _
  · exact ⟨_, rfl⟩

end Unshifted

/-- **A text that does not begin with a blank is never cut inside a character.** -/
theorem exists_ofText (hfront : ∀ char ∈ text.toList.head?, ¬ Blank.isBlank char) :
    ∃ found, ofText text = .ok found := by
  obtain ⟨before, after, htext, hbefore, -⟩ := Blank.exists_trim text.toList
  obtain rfl : before = [] := by
    cases before with
    | nil => rfl
    | cons char before => exact absurd (hbefore char (by simp)) (hfront char (by rw [htext]; simp))
  have hstands : StandsAt text 0 (Blank.trim text.toList) := ⟨[], after, htext, rfl⟩
  unfold ofText
  split
  · exact ⟨_, rfl⟩
  · rename_i rest htrim
    rw [htrim] at hstands
    exact exists_ofSpan (@StandsAt.skip text 0 ['['] rest hstands) _
  · rename_i opening rest _ htrim
    rw [htrim, ← List.takeWhile_append_dropWhile (p := (!endsTarget ·)) (l := opening :: rest)]
      at hstands
    have hcut := hstands.slice_eq_ok
    have hrest := hstands.skip
    rw [Nat.zero_add] at hcut hrest
    simp only
    split_ifs
    · exact ⟨_, rfl⟩
    · rw [hcut]
      split
      · rename_i level hdrop
        rw [hdrop] at hrest
        exact exists_withLevel (@StandsAt.skip text _ ['='] level hrest) _
      · rename_i tail hdrop
        rw [hdrop] at hrest
        exact exists_ofSpan (@StandsAt.skip text _ ['['] tail hrest) _
      · exact ⟨_, rfl⟩

end AuctionLog.Directive
