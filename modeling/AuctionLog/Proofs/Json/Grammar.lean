import AuctionLog.Proofs.Json.LiteralsRead
import AuctionLog.Proofs.Json.Written

/-!
# The grammar of what can be read

Every text that is read is a value as it is written, with blanks around its tokens. Together with
what such texts are read as, this says exactly which texts are read, and as which values.
-/

namespace AuctionLog.Json

/-- Whether a text goes on with these tokens, up to some rest. -/
def Before (tokens : List Token) (text rest : List UInt8) : Prop :=
  ∀ left, Spaced left rest → Spaced (tokens ++ left) text

section

variable {tokens others : List Token} {token : Token} {text middle rest : List UInt8}

theorem Spaced.prepend {blanks : List UInt8} (hblanks : ∀ byte ∈ blanks, isBlank byte)
    (hspaced : Spaced tokens text) : Spaced tokens (blanks ++ text) := by
  cases hspaced with
  | nil hmore => exact .nil (List.forall_mem_append.mpr ⟨hblanks, hmore⟩)
  | cons hmore hrest =>
      rw [← List.append_assoc]
      exact .cons (List.forall_mem_append.mpr ⟨hblanks, hmore⟩) hrest

theorem Spaced.of_skipBlank (hspaced : Spaced tokens (skipBlank text)) : Spaced tokens text := by
  have hblanks : ∀ byte ∈ text.takeWhile isBlank, isBlank byte :=
    fun _ hmem => List.mem_takeWhile_imp hmem
  rw [← @List.takeWhile_append_dropWhile _ isBlank text]
  exact hspaced.prepend hblanks

theorem Before.append (hfirst : Before tokens text middle) (hnext : Before others middle rest) :
    Before (tokens ++ others) text rest := by
  intro left hleft
  rw [List.append_assoc]
  exact hfirst _ (hnext left hleft)

theorem Before.of_skipBlank (hbefore : Before tokens (skipBlank text) rest) :
    Before tokens text rest :=
  fun left hleft => (hbefore left hleft).of_skipBlank

theorem before_token (hskip : skipBlank text = token ++ rest) : Before [token] text rest := by
  intro left hleft
  refine Spaced.of_skipBlank ?_
  rw [hskip]
  exact hleft.token token

end

/-! ## Lists -/

section Lists

variable {α : Type} {item : List UInt8 → Reading α} {first more : Bool} {most : Nat}
  {input start rest : List UInt8}

theorem before_lead (input : List UInt8) : Before (Token.lead true) input input :=
  fun _ hleft => hleft

theorem before_comma (hskip : skipBlank input = 0x2C :: rest) :
    Before (Token.lead false) input rest :=
  before_token hskip

theorem nextItem_cases (hnext : nextItem first input = .ok (more, start)) :
    (more = false ∧ ∃ rest, start = 0x5D :: rest ∧ Before [[0x5D]] input rest) ∨
      more = true ∧ ∃ middle, start = skipBlank middle ∧
        Before (Token.lead first) input middle := by
  rw [nextItem] at hnext
  cases hskip : skipBlank input with
  | nil => simp [hskip, stop] at hnext
  | cons byte after =>
      simp only [hskip] at hnext
      split_ifs at hnext with hcloser hfirst hcomma
      · obtain ⟨rfl, rfl⟩ := Prod.mk.inj (Except.ok.inj hnext)
        subst hcloser
        exact .inl ⟨rfl, after, rfl, before_token hskip⟩
      · obtain ⟨rfl, rfl⟩ := Prod.mk.inj (Except.ok.inj hnext)
        subst hfirst
        exact .inr ⟨rfl, input, hskip.symm, before_lead input⟩
      · rw [Bool.not_eq_true] at hfirst
        subst hfirst hcomma
        cases hlater : skipBlank after with
        | nil => simp [hlater, stop] at hnext
        | cons next last =>
            simp only [hlater] at hnext
            split_ifs at hnext with hearly
            · exact absurd hnext stop_ne_ok
            · obtain ⟨rfl, rfl⟩ := Prod.mk.inj (Except.ok.inj hnext)
              exact .inr ⟨rfl, after, hlater.symm, before_comma hskip⟩
      · exact absurd hnext stop_ne_ok

/-- **What is read as a list** is its items with commas between them, up to its bracket. -/
theorem exists_items_of_readItems
    (hitem : ∀ {input value rest}, item input = .ok (value, rest) →
      ∃ written : Written, Before written.tokens input rest) {values : List α}
    (hread : readItems item most first input = .ok (values, rest)) :
    ∃ items : List Written,
      Before (Token.rows first (Written.itemTokens items) ++ [[0x5D]]) input rest := by
  induction most generalizing first input values with
  | zero => exact absurd hread stop_ne_ok
  | succ most ih =>
      rw [readItems] at hread
      obtain ⟨⟨more, start⟩, hnext, hread⟩ := bind_eq_ok.mp hread
      rcases nextItem_cases hnext with ⟨rfl, last, rfl, hend⟩ | ⟨rfl, middle, rfl, hlead⟩
      · obtain ⟨-, rfl⟩ := Prod.mk.inj (Except.ok.inj hread)
        exact ⟨[], hend⟩
      · obtain ⟨⟨value, afterItem⟩, hvalue, hread⟩ := bind_eq_ok.mp hread
        obtain ⟨⟨others, last⟩, hothers, hread⟩ := bind_eq_ok.mp hread
        obtain ⟨-, rfl⟩ := Prod.mk.inj (Except.ok.inj hread)
        obtain ⟨written, hwritten⟩ := hitem hvalue
        obtain ⟨items, hitems⟩ := ih hothers
        refine ⟨written :: items, ?_⟩
        rw [Written.itemTokens, Token.rows, List.append_assoc, List.append_assoc]
        exact hlead.append (hwritten.of_skipBlank.append hitems)

/-! ## Objects -/

theorem nextKey_cases (hnext : nextKey first input = .ok (more, start)) :
    (more = false ∧ ∃ rest, start = 0x7D :: rest ∧ Before [[0x7D]] input rest) ∨
      more = true ∧ ∃ middle, skipBlank middle = 0x22 :: start ∧
        Before (Token.lead first) input middle := by
  rw [nextKey] at hnext
  cases hskip : skipBlank input with
  | nil => simp [hskip, stop] at hnext
  | cons byte after =>
      simp only [hskip] at hnext
      split_ifs at hnext with hcloser hfirst hquote hcomma
      · obtain ⟨rfl, rfl⟩ := Prod.mk.inj (Except.ok.inj hnext)
        subst hcloser
        exact .inl ⟨rfl, after, rfl, before_token hskip⟩
      · obtain ⟨rfl, rfl⟩ := Prod.mk.inj (Except.ok.inj hnext)
        subst hfirst hquote
        exact .inr ⟨rfl, input, hskip, before_lead input⟩
      · exact absurd hnext stop_ne_ok
      · rw [Bool.not_eq_true] at hfirst
        subst hfirst hcomma
        cases hlater : skipBlank after with
        | nil => simp [hlater, stop] at hnext
        | cons next last =>
            simp only [hlater] at hnext
            split_ifs at hnext with hquote hearly
            · obtain ⟨rfl, rfl⟩ := Prod.mk.inj (Except.ok.inj hnext)
              subst hquote
              exact .inr ⟨rfl, after, hlater, before_comma hskip⟩
            · exact absurd hnext stop_ne_ok
            · exact absurd hnext stop_ne_ok
      · exact absurd hnext stop_ne_ok

theorem before_colon (hread : readColon input = .ok rest) : Before [[0x3A]] input rest := by
  rw [readColon] at hread
  cases hskip : skipBlank input with
  | nil => simp [hskip, stop] at hread
  | cons byte after =>
      simp only [hskip] at hread
      split_ifs at hread with hcolon
      · obtain rfl := Except.ok.inj hread
        subst hcolon
        exact before_token hskip
      · exact absurd hread stop_ne_ok

theorem exists_quoted {value : String} (hskip : skipBlank input = 0x22 :: start)
    (hread : StringLiteral.read start = .ok (value, rest)) :
    ∃ pieces, Before [Token.quoted pieces] input rest := by
  obtain ⟨pieces, rfl⟩ := StringLiteral.exists_pieces_of_read hread
  refine ⟨pieces, before_token ?_⟩
  rw [hskip, Token.quoted, List.cons_append, List.append_assoc]
  rfl

/-- **What is read as an object** is its members with commas between them, up to its brace. -/
theorem exists_members_of_readMembers
    (hitem : ∀ {input value rest}, item input = .ok (value, rest) →
      ∃ written : Written, Before written.tokens input rest) {values : List (String × α)}
    (hread : readMembers item most first input = .ok (values, rest)) :
    ∃ members : List (List StringLiteral.Piece × Written),
      Before (Token.rows first (Written.memberTokens members) ++ [[0x7D]]) input rest := by
  induction most generalizing first input values with
  | zero => exact absurd hread stop_ne_ok
  | succ most ih =>
      rw [readMembers] at hread
      obtain ⟨⟨more, start⟩, hnext, hread⟩ := bind_eq_ok.mp hread
      rcases nextKey_cases hnext with ⟨rfl, last, rfl, hend⟩ | ⟨rfl, middle, hskip, hlead⟩
      · obtain ⟨-, rfl⟩ := Prod.mk.inj (Except.ok.inj hread)
        exact ⟨[], hend⟩
      · obtain ⟨⟨name, afterName⟩, hname, hread⟩ := bind_eq_ok.mp hread
        obtain ⟨afterColon, hcolon, hread⟩ := bind_eq_ok.mp hread
        obtain ⟨⟨value, afterItem⟩, hvalue, hread⟩ := bind_eq_ok.mp hread
        obtain ⟨⟨others, last⟩, hothers, hread⟩ := bind_eq_ok.mp hread
        obtain ⟨-, rfl⟩ := Prod.mk.inj (Except.ok.inj hread)
        obtain ⟨pieces, hquoted⟩ := exists_quoted hskip hname
        obtain ⟨written, hwritten⟩ := hitem hvalue
        obtain ⟨members, hmembers⟩ := ih hothers
        refine ⟨(pieces, written) :: members, ?_⟩
        have hrow := hquoted.append ((before_colon hcolon).append hwritten)
        rw [Written.memberTokens, Token.rows, List.append_assoc, List.append_assoc]
        exact hlead.append (hrow.append hmembers)

end Lists

/-! ## Values -/

variable {levels : Nat} {input rest : List UInt8} {value : Json}

theorem eq_append_of_readIdent {word : List UInt8} (hread : readIdent word input = .ok rest) :
    input = word ++ rest := by
  induction word generalizing input with
  | nil => exact Except.ok.inj hread
  | cons letter word ih =>
      cases input with
      | nil => exact absurd hread stop_ne_ok
      | cons byte input =>
          rw [readIdent] at hread
          split_ifs at hread with hletter
          · rw [ih hread, hletter, List.cons_append]
          · exact absurd hread stop_ne_ok

theorem before_word {byte : UInt8} {word after : List UInt8} {made : Json}
    (hskip : skipBlank input = byte :: after)
    (hread : (do return (made, ← readIdent word after) : Except Fault (Json × List UInt8)) =
      .ok (value, rest)) : Before [byte :: word] input rest := by
  obtain ⟨last, hword, hread⟩ := bind_eq_ok.mp hread
  obtain ⟨-, rfl⟩ := Prod.mk.inj (Except.ok.inj hread)
  exact before_token (by rw [hskip, eq_append_of_readIdent hword, List.cons_append])

/-- Reading a value takes it as it is written, if that is so of its parts. -/
theorem exists_written_of_below
    (hbelow : ∀ below, levels = below + 1 → ∀ {input value rest},
      readTree NumberLiteral.read below input = .ok (value, rest) → ∃ written : Written,
        Before written.tokens input rest)
    (hread : readTree NumberLiteral.read levels input = .ok (value, rest)) :
    ∃ written : Written, Before written.tokens input rest := by
  rw [readTree] at hread
  cases hskip : skipBlank input with
  | nil => simp [hskip, stop] at hread
  | cons byte after =>
      simp only [hskip] at hread
      split_ifs at hread with hnull htrue hfalse hminus hdigit hquote hlist hobject
      · subst hnull
        exact ⟨.null, before_word hskip hread⟩
      · subst htrue
        exact ⟨.bool true, before_word hskip hread⟩
      · subst hfalse
        exact ⟨.bool false, before_word hskip hread⟩
      · obtain ⟨⟨number, last⟩, hnumber, hread⟩ := bind_eq_ok.mp hread
        obtain ⟨-, rfl⟩ := Prod.mk.inj (Except.ok.inj hread)
        obtain ⟨text, hnegative, rfl⟩ := NumberLiteral.exists_text_of_read hnumber
        refine ⟨.num text, before_token ?_⟩
        rw [hskip, hminus, Token.number, if_pos hnegative, List.cons_append]
      · obtain ⟨⟨number, last⟩, hnumber, hread⟩ := bind_eq_ok.mp hread
        obtain ⟨-, rfl⟩ := Prod.mk.inj (Except.ok.inj hread)
        obtain ⟨text, hnegative, htext⟩ := NumberLiteral.exists_text_of_read hnumber
        refine ⟨.num text, before_token ?_⟩
        rw [hskip, htext, Token.number, hnegative, if_neg Bool.false_ne_true]
      · subst hquote
        obtain ⟨⟨text, last⟩, htext, hread⟩ := bind_eq_ok.mp hread
        obtain ⟨-, rfl⟩ := Prod.mk.inj (Except.ok.inj hread)
        obtain ⟨pieces, hquoted⟩ := exists_quoted hskip htext
        exact ⟨.str pieces, hquoted⟩
      · subst hlist
        cases levels with
        | zero => exact absurd hread stop_ne_ok
        | succ below =>
            obtain ⟨⟨values, last⟩, hitems, hread⟩ := bind_eq_ok.mp hread
            obtain ⟨-, rfl⟩ := Prod.mk.inj (Except.ok.inj hread)
            obtain ⟨items, hitems⟩ := exists_items_of_readItems (hbelow below rfl) hitems
            exact ⟨.arr items, (@before_token [0x5B] _ _ hskip).append hitems⟩
      · subst hobject
        cases levels with
        | zero => exact absurd hread stop_ne_ok
        | succ below =>
            obtain ⟨⟨values, last⟩, hmembers, hread⟩ := bind_eq_ok.mp hread
            obtain ⟨-, rfl⟩ := Prod.mk.inj (Except.ok.inj hread)
            obtain ⟨members, hmembers⟩ := exists_members_of_readMembers (hbelow below rfl) hmembers
            exact ⟨.obj members, (@before_token [0x7B] _ _ hskip).append hmembers⟩
      · exact absurd hread stop_ne_ok

/-- Whatever is read is a value as it is written. -/
theorem exists_written_of_readTree
    (hread : readTree NumberLiteral.read levels input = .ok (value, rest)) :
    ∃ written : Written, Before written.tokens input rest := by
  induction levels generalizing input value rest with
  | zero => exact exists_written_of_below (fun _ hlevels => absurd hlevels (by omega)) hread
  | succ levels ih =>
      refine exists_written_of_below (fun below hlevels => ?_) hread
      obtain rfl := Nat.succ.inj hlevels
      exact ih

/-- **A text is read as a value** exactly if it is that value as it is written, with blanks around
the tokens. -/
theorem parse_eq_ok_iff :
    parse input = .ok value ↔
      ∃ written, Spells input written ∧ written.value? maxLevels = some value := by
  constructor
  · intro hparse
    obtain ⟨⟨read, rest⟩, hread, hend⟩ := bind_eq_ok.mp hparse
    obtain ⟨⟨tree, last⟩, htree, hread⟩ := bind_eq_ok.mp hread
    obtain ⟨rfl, rfl⟩ := Prod.mk.inj (Except.ok.inj hread)
    obtain ⟨written, hbefore⟩ := exists_written_of_readTree htree
    have hblank : ∀ byte ∈ last, isBlank byte := by
      simp only [readEnd] at hend
      cases hskip : skipBlank last with
      | nil => exact List.dropWhile_eq_nil_iff.mp hskip
      | cons byte after => simp [hskip, stop] at hend
    have hspells : Spells input written := by
      have hspaced := hbefore [] (.nil hblank)
      rwa [List.append_nil] at hspaced
    refine ⟨written, hspells, ?_⟩
    rw [← hspells.parse_eq, hparse]
    rfl
  · rintro ⟨written, hspells, hvalue⟩
    rw [← hspells.parse_eq] at hvalue
    cases hparse : parse input with
    | error fault => simp [hparse, Except.toOption] at hvalue
    | ok read => simpa [hparse, Except.toOption] using hvalue

end AuctionLog.Json
