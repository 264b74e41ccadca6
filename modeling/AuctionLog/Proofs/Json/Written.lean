import AuctionLog.Proofs.Json.Arranged
import AuctionLog.Proofs.Json.Literals
import AuctionLog.Proofs.Json.RoundTrip
import Mathlib.Data.List.TakeWhile

/-!
# Values as they are written

The text of a value is a row of tokens, with blanks before, between and behind them as one likes.
What the reader makes of it depends on the tokens only: the value that is written, or nothing if it
nests too deep or one of its literals stands for nothing.
-/

namespace AuctionLog.Json

/-- A value as the grammar has it: with its literals as they are written, and its members in the
order they are written in. -/
inductive Written where
  | null
  | bool (value : Bool)
  | num (text : NumberLiteral.Text)
  | str (pieces : List StringLiteral.Piece)
  | arr (items : List Written)
  | obj (members : List (List StringLiteral.Piece × Written))

/-- What holds of a list once it holds of its items, and of an object once it holds of its members,
holds of every value that is written. -/
@[elab_as_elim]
theorem Written.tree_induction {P : Written → Prop} (null : P .null)
    (bool : ∀ value, P (.bool value)) (num : ∀ text, P (.num text))
    (str : ∀ pieces, P (.str pieces))
    (arr : ∀ items, (∀ item ∈ items, P item) → P (.arr items))
    (obj : ∀ members, (∀ member ∈ members, P member.2) → P (.obj members)) (written : Written) :
    P written :=
  @Written.rec P (fun items => ∀ item ∈ items, P item)
    (fun members => ∀ member ∈ members, P member.2) (fun member => P member.2) null bool num str
    arr obj (by simp) (fun _ _ hitem hrest => List.forall_mem_cons.mpr ⟨hitem, hrest⟩) (by simp)
    (fun _ _ hmember hrest => List.forall_mem_cons.mpr ⟨hmember, hrest⟩) (fun _ _ hvalue => hvalue)
    written

/-! ## Tokens -/

abbrev Token := List UInt8

namespace Token

def quoted (pieces : List StringLiteral.Piece) : Token :=
  0x22 :: (StringLiteral.written pieces ++ [0x22])

def number (text : NumberLiteral.Text) : Token :=
  if text.negative then 0x2D :: text.unsigned else text.unsigned

/-- What comes before a part of a list or an object: a comma, unless it is the first one. -/
def lead (first : Bool) : List Token :=
  if first then [] else [[0x2C]]

/-- The parts of a list or an object, from the first one or a later one on. -/
def rows (first : Bool) : List (List Token) → List Token
  | [] => []
  | row :: rest => lead first ++ (row ++ rows false rest)

end Token

mutual

def Written.tokens : Written → List Token
  | .null => [0x6E :: nullTail]
  | .bool true => [0x74 :: trueTail]
  | .bool false => [0x66 :: falseTail]
  | .num text => [Token.number text]
  | .str pieces => [Token.quoted pieces]
  | .arr items => [0x5B] :: (Token.rows true (itemTokens items) ++ [[0x5D]])
  | .obj members => [0x7B] :: (Token.rows true (memberTokens members) ++ [[0x7D]])

def Written.itemTokens : List Written → List (List Token)
  | [] => []
  | item :: rest => item.tokens :: itemTokens rest

def Written.memberTokens : List (List StringLiteral.Piece × Written) → List (List Token)
  | [] => []
  | (name, value) :: rest =>
      (Token.quoted name :: [0x3A] :: value.tokens) :: memberTokens rest

end

/-- Whether a text is made of these tokens and blanks around them. -/
inductive Spaced : List Token → List UInt8 → Prop where
  | nil {blanks : List UInt8} (hblanks : ∀ byte ∈ blanks, isBlank byte) : Spaced [] blanks
  | cons {blanks : List UInt8} {token : Token} {tokens : List Token} {rest : List UInt8}
      (hblanks : ∀ byte ∈ blanks, isBlank byte) (hrest : Spaced tokens rest) :
      Spaced (token :: tokens) (blanks ++ (token ++ rest))

mutual

/-- The value that is written, arranged, if it nests in as many levels and all its literals stand
for something. -/
def Written.value? : Nat → Written → Option Json
  | _, .null => some .null
  | _, .bool value => some (.bool value)
  | _, .num text => text.number?.map .num
  | _, .str pieces => (StringLiteral.text? pieces).map .str
  | 0, .arr _ => none
  | 0, .obj _ => none
  | levels + 1, .arr items => (itemValues? levels items).map .arr
  | levels + 1, .obj members =>
      (memberValues? levels members).map fun members => .obj (Members.ofList members)

def Written.itemValues? : Nat → List Written → Option (List Json)
  | _, [] => some []
  | levels, item :: rest => do
      let value ← item.value? levels
      let values ← itemValues? levels rest
      return value :: values

def Written.memberValues? :
    Nat → List (List StringLiteral.Piece × Written) → Option Members
  | _, [] => some []
  | levels, (name, value) :: rest => do
      let name ← StringLiteral.text? name
      let value ← value.value? levels
      let members ← memberValues? levels rest
      return (name, value) :: members

end

/-! ## What comes next in a text -/

section

variable {tokens : List Token} {text : List UInt8}

theorem Spaced.skip {byte : UInt8} {after : List UInt8} (hbyte : isBlank byte = false)
    (hspaced : Spaced ((byte :: after) :: tokens) text) :
    ∃ rest, skipBlank text = byte :: (after ++ rest) ∧ Spaced tokens rest ∧
      rest.length < text.length := by
  cases hspaced with
  | @cons blanks token _ rest hblanks hrest =>
      refine ⟨rest, ?_, hrest, ?_⟩
      · rw [skipBlank, List.dropWhile_append_of_pos hblanks, List.cons_append]
        exact skipBlank_cons hbyte _
      · simp only [List.length_append, List.length_cons]
        omega

theorem Spaced.skip_nil (hspaced : Spaced [] text) : skipBlank text = [] := by
  cases hspaced with
  | nil hblanks => exact List.dropWhile_eq_nil_iff.mpr hblanks

theorem Spaced.token {rest : List UInt8} (hrest : Spaced tokens rest) (token : Token) :
    Spaced (token :: tokens) (token ++ rest) :=
  @cons [] token tokens rest nofun hrest

/-- The tokens that may come after a value: none, or a comma or the end of a list or an object. -/
def Closes (tokens : List Token) : Prop :=
  ∀ token ∈ tokens.head?, token = [0x2C] ∨ token = [0x5D] ∨ token = [0x7D]

theorem not_isDigit_of_isBlank {byte : UInt8} (hblank : isBlank byte) :
    ¬ NumberLiteral.isDigit byte ∧ byte ≠ 0x2E ∧ byte ≠ 0x65 ∧ byte ≠ 0x45 := by
  simp only [isBlank, Bool.or_eq_true, beq_iff_eq] at hblank
  rcases hblank with ((rfl | rfl) | rfl) | rfl <;> decide

theorem Spaced.ends (hcloses : Closes tokens) (hspaced : Spaced tokens text) :
    NumberLiteral.Ends text := by
  intro byte hmem
  cases hspaced with
  | nil hblanks => exact not_isDigit_of_isBlank (hblanks byte (List.mem_of_mem_head? hmem))
  | @cons blanks token _ rest hblanks hrest =>
      cases blanks with
      | nil =>
          rcases hcloses token rfl with rfl | rfl | rfl <;> obtain rfl := Option.some.inj hmem <;>
            decide
      | cons blank blanks =>
          obtain rfl := Option.some.inj hmem
          exact not_isDigit_of_isBlank (hblanks blank (List.mem_cons_self ..))

end

/-! ## Reading -/

/-- What reading comes to: something that has the given value, before a shorter text of the tokens
that are left, or a fault if there is no value. -/
inductive ComesTo {α β : Type} (valueOf : α → β) (left : List Token) (size : Nat) :
    Option β → Except Fault (α × List UInt8) → Prop where
  | read {part : α} {rest : List UInt8} (hrest : Spaced left rest) (hsize : rest.length < size) :
      ComesTo valueOf left size (some (valueOf part)) (.ok (part, rest))
  | refused (fault : Fault) : ComesTo valueOf left size none (.error fault)

namespace ComesTo

variable {α β γ δ ε ζ : Type} {valueOf : α → β} {otherOf : γ → δ} {left middle : List Token}
  {size : Nat} {value : Option β} {other : Option δ} {rest : List UInt8}
  {result : Except Fault (α × List UInt8)}

/-- One part after another. -/
theorem andThen {next : List UInt8 → Except Fault (γ × List UInt8)} {bothOf : ε → ζ}
    {joined : β → δ → ζ} (join : α → γ → ε)
    (hfirst : ComesTo valueOf middle size value result)
    (hnext : ∀ rest, Spaced middle rest → rest.length < size →
      ComesTo otherOf left rest.length other (next rest))
    (hjoin : ∀ part more, bothOf (join part more) = joined (valueOf part) (otherOf more)) :
    ComesTo bothOf left size
      (do
        let first ← value
        let second ← other
        return joined first second)
      (do
        let read ← result
        let more ← next read.2
        .ok (join read.1 more.1, more.2)) := by
  cases hfirst with
  | refused fault => exact .refused fault
  | @read part rest hrest hsize =>
      have hother := hnext rest hrest hsize
      simp only [bind, Except.bind, Option.bind]
      generalize next rest = nextResult at hother
      cases hother with
      | refused fault => exact .refused fault
      | @read more last hlast hshorter =>
          have hboth := @read _ _ bothOf left size (join part more) last hlast
            (hshorter.trans hsize)
          rwa [hjoin] at hboth

theorem map {bothOf : ε → ζ} {make : α → ε} {made : β → ζ}
    (hresult : ComesTo valueOf left size value result)
    (hmake : ∀ part, bothOf (make part) = made (valueOf part)) :
    ComesTo bothOf left size (value.map made)
      (do
        let read ← result
        .ok (make read.1, read.2)) := by
  cases hresult with
  | refused fault => exact .refused fault
  | @read part rest hrest hsize =>
      have hmade := @read _ _ bothOf left size (make part) rest hrest hsize
      rwa [hmake] at hmade

theorem mono {more : Nat} (hresult : ComesTo valueOf left size value result) (hle : size ≤ more) :
    ComesTo valueOf left more value result := by
  cases hresult with
  | refused fault => exact .refused fault
  | read hrest hsize => exact .read hrest (hsize.trans_le hle)

theorem of_alike {alone : Except Fault (α × List UInt8)} (halike : ReadAlike rest result alone)
    (hrest : Spaced left rest) (hsize : rest.length < size) :
    ComesTo id left size (valueRead? alone) result := by
  cases halike with
  | read value => exact .read hrest hsize
  | refused fault other => exact .refused fault

theorem exists_of_some {found : β} (hresult : ComesTo valueOf left size (some found) result) :
    ∃ part rest, result = .ok (part, rest) ∧ valueOf part = found ∧ Spaced left rest ∧
      rest.length < size := by
  cases hresult with
  | @read part rest hrest hsize => exact ⟨part, rest, rfl, rfl, hrest, hsize⟩

theorem of_ok {part : α} (hresult : ComesTo valueOf left size value (.ok (part, rest))) :
    value = some (valueOf part) ∧ Spaced left rest := by
  cases hresult with
  | read hrest hsize => exact ⟨rfl, hrest⟩

end ComesTo

/-- Whether a value is read from every text that it is written as. -/
def Written.Readable (written : Written) : Prop :=
  ∀ levels left text, Closes left → Spaced (written.tokens ++ left) text →
    ComesTo arranged left text.length (written.value? levels)
      (readTree NumberLiteral.read levels text)

namespace Written

variable {levels : Nat} {left : List Token} {text rest : List UInt8}

theorem comesTo_scalar {value : Json} (hscalar : value.arranged = value) (hrest : Spaced left rest)
    (hsize : rest.length < text.length) :
    ComesTo arranged left text.length (some value) (.ok (value, rest)) := by
  have hread := @ComesTo.read _ _ arranged left text.length value rest hrest hsize
  rwa [hscalar] at hread

theorem readable_null : Readable .null := by
  intro levels left text _ hspaced
  obtain ⟨rest, hskip, hrest, hsize⟩ := hspaced.skip rfl
  have hread : readTree NumberLiteral.read levels text = .ok (.null, rest) := by
    rw [readTree, hskip]
    simp [readIdent_append, bind, Except.bind, pure, Except.pure]
  rw [hread]
  exact comesTo_scalar rfl hrest hsize

theorem readable_bool (value : Bool) : Readable (.bool value) := by
  intro levels left text _ hspaced
  cases value with
  | true =>
      obtain ⟨rest, hskip, hrest, hsize⟩ := hspaced.skip rfl
      have hread : readTree NumberLiteral.read levels text = .ok (.bool true, rest) := by
        rw [readTree, hskip]
        simp [readIdent_append, bind, Except.bind, pure, Except.pure]
      rw [hread]
      exact comesTo_scalar rfl hrest hsize
  | false =>
      obtain ⟨rest, hskip, hrest, hsize⟩ := hspaced.skip rfl
      have hread : readTree NumberLiteral.read levels text = .ok (.bool false, rest) := by
        rw [readTree, hskip]
        simp [readIdent_append, bind, Except.bind, pure, Except.pure]
      rw [hread]
      exact comesTo_scalar rfl hrest hsize

theorem comesTo_literal {α : Type} {wrap : α → Json}
    (hscalar : ∀ value, (wrap value).arranged = wrap value)
    {result alone : Except Fault (α × List UInt8)} (halike : ReadAlike rest result alone)
    (hrest : Spaced left rest) (hsize : rest.length < text.length) :
    ComesTo arranged left text.length ((valueRead? alone).map wrap)
      (do
        let read ← result
        .ok (wrap read.1, read.2)) :=
  (ComesTo.of_alike halike hrest hsize).map hscalar

theorem readable_num (number : NumberLiteral.Text) : Readable (.num number) := by
  intro levels left text hcloses hspaced
  cases hnegative : number.negative with
  | true =>
      have htoken : (Written.num number).tokens = [0x2D :: number.unsigned] := by
        rw [tokens, Token.number, hnegative, if_pos rfl]
      rw [htoken] at hspaced
      obtain ⟨rest, hskip, hrest, hsize⟩ := hspaced.skip rfl
      have halike := number.read_alike (hrest.ends hcloses)
      rw [hnegative] at halike
      have hread : readTree NumberLiteral.read levels text = (do
          let read ← NumberLiteral.read true (number.unsigned ++ rest)
          .ok (.num read.1, read.2)) := by
        rw [readTree, hskip]
        simp [pure, Except.pure]
      rw [hread, value?, NumberLiteral.Text.number?, hnegative]
      exact comesTo_literal (fun _ => rfl) halike hrest hsize
  | false =>
      obtain ⟨byte, after, hunsigned, hdigit⟩ := number.unsigned_digit
      have htoken : (Written.num number).tokens = [byte :: after] := by
        rw [tokens, Token.number, hnegative, if_neg Bool.false_ne_true, hunsigned]
      rw [htoken] at hspaced
      obtain ⟨rest, hskip, hrest, hsize⟩ := hspaced.skip (isBlank_of_isDigit hdigit)
      have halike := number.read_alike (hrest.ends hcloses)
      rw [hnegative] at halike
      have hread : readTree NumberLiteral.read levels text = (do
          let read ← NumberLiteral.read false (number.unsigned ++ rest)
          .ok (.num read.1, read.2)) := by
        have hn : byte ≠ 0x6E := NumberLiteral.ne_of_isDigit hdigit (by decide)
        have ht : byte ≠ 0x74 := NumberLiteral.ne_of_isDigit hdigit (by decide)
        have hf : byte ≠ 0x66 := NumberLiteral.ne_of_isDigit hdigit (by decide)
        have hminus : byte ≠ 0x2D := NumberLiteral.ne_of_isDigit hdigit (by decide)
        rw [readTree, hskip, hunsigned]
        simp only [hn, ht, hf, hminus, hdigit, if_true, if_false, pure, Except.pure,
          List.cons_append]
      rw [hread, value?, NumberLiteral.Text.number?, hnegative]
      exact comesTo_literal (fun _ => rfl) halike hrest hsize

theorem readable_str (pieces : List StringLiteral.Piece) : Readable (.str pieces) := by
  intro levels left text _ hspaced
  obtain ⟨rest, hskip, hrest, hsize⟩ := hspaced.skip rfl
  rw [List.append_assoc, List.singleton_append] at hskip
  have hread : readTree NumberLiteral.read levels text = (do
      let read ← StringLiteral.read (StringLiteral.written pieces ++ 0x22 :: rest)
      .ok (.str read.1, read.2)) := by
    rw [readTree, hskip]
    simp [NumberLiteral.isDigit, pure, Except.pure]
  rw [hread]
  exact comesTo_literal (fun _ => rfl) (StringLiteral.read_alike pieces rest) hrest hsize

/-! ## Lists -/

theorem tokens_head (written : Written) :
    ∃ byte after tokens, written.tokens = (byte :: after) :: tokens ∧ isBlank byte = false ∧
      byte ≠ 0x5D := by
  cases written with
  | null => exact ⟨_, _, _, rfl, by decide⟩
  | bool value => cases value <;> exact ⟨_, _, _, rfl, by decide⟩
  | num number =>
      obtain ⟨byte, after, hunsigned, hdigit⟩ := number.unsigned_digit
      rw [tokens, Token.number]
      cases number.negative with
      | true => exact ⟨_, _, _, rfl, by decide⟩
      | false =>
          have hcloser : byte ≠ 0x5D := NumberLiteral.ne_of_isDigit hdigit (by decide)
          rw [if_neg Bool.false_ne_true, hunsigned]
          exact ⟨_, _, _, rfl, isBlank_of_isDigit hdigit, hcloser⟩
  | str pieces => exact ⟨_, _, _, rfl, by decide⟩
  | arr items => exact ⟨_, _, _, rfl, by decide⟩
  | obj members => exact ⟨_, _, _, rfl, by decide⟩

theorem closes_rows {rows : List (List Token)} {closer : UInt8}
    (hcloser : closer = 0x5D ∨ closer = 0x7D) :
    Closes (Token.rows false rows ++ [closer] :: left) := by
  cases rows with
  | nil =>
      rintro token ⟨⟩
      rcases hcloser with rfl | rfl <;> simp
  | cons row rows =>
      rintro token ⟨⟩
      exact .inl rfl

variable {written : Written} {more : List Token} {first : Bool}

theorem nextItem_lead (hspaced : Spaced (Token.lead first ++ (written.tokens ++ more)) text) :
    ∃ start, nextItem first text = .ok (true, start) ∧ Spaced (written.tokens ++ more) start ∧
      start.length ≤ text.length := by
  obtain ⟨byte, after, tokens, htokens, hblank, hcloser⟩ := written.tokens_head
  rw [htokens, List.cons_append] at hspaced ⊢
  cases first with
  | true =>
      have hspaced : Spaced ((byte :: after) :: (tokens ++ more)) text := hspaced
      obtain ⟨rest, hskip, hrest, -⟩ := hspaced.skip hblank
      have hnext : nextItem true text = .ok (true, byte :: (after ++ rest)) := by
        simp [nextItem, hskip, hcloser]
      refine ⟨_, hnext, hrest.token _, ?_⟩
      rw [← hskip]
      exact (List.dropWhile_suffix isBlank).length_le
  | false =>
      have hspaced : Spaced ([0x2C] :: (byte :: after) :: (tokens ++ more)) text := hspaced
      obtain ⟨middle, hcomma, hmiddle, hsize⟩ := hspaced.skip rfl
      obtain ⟨rest, hskip, hrest, -⟩ := hmiddle.skip hblank
      have hnext : nextItem false text = .ok (true, byte :: (after ++ rest)) := by
        simp [nextItem, hcomma, hskip, hcloser]
      refine ⟨_, hnext, hrest.token _, ?_⟩
      rw [← hskip]
      exact (List.dropWhile_suffix isBlank).length_le.trans hsize.le

theorem readItems_end {most : Nat} (hspaced : Spaced ([0x5D] :: left) text) :
    ComesTo (List.map arranged) left text.length (some [])
      (readItems (readTree NumberLiteral.read levels) (most + 1) first text) := by
  obtain ⟨rest, hskip, hrest, hsize⟩ := hspaced.skip rfl
  have hread : readItems (readTree NumberLiteral.read levels) (most + 1) first text =
      .ok ([], rest) := by
    simp [readItems, nextItem, hskip, bind, Except.bind]
  rw [hread]
  exact @ComesTo.read _ _ (List.map arranged) left text.length [] rest hrest hsize

/-- A list is read if its next item is and what follows it is. -/
theorem readItems_item {most : Nat} {start : List UInt8} {item : Written}
    {items : List Written} (hitem : Readable item) (hcloses : Closes more)
    (hnext : nextItem first text = .ok (true, start)) (hspaced : Spaced (item.tokens ++ more) start)
    (hrest : ∀ rest, Spaced more rest → rest.length < start.length →
      ComesTo (List.map arranged) left rest.length (itemValues? levels items)
        (readItems (readTree NumberLiteral.read levels) most false rest)) :
    ComesTo (List.map arranged) left start.length (itemValues? levels (item :: items))
      (readItems (readTree NumberLiteral.read levels) (most + 1) first text) := by
  rw [readItems_of_next hnext]
  exact .andThen List.cons (hitem levels more start hcloses hspaced) hrest fun _ _ => rfl

theorem readItems_rows {items : List Written} (hitems : ∀ item ∈ items, Readable item)
    (hspaced : Spaced (Token.rows first (itemTokens items) ++ [0x5D] :: left) text) {most : Nat}
    (hmost : text.length < most) :
    ComesTo (List.map arranged) left text.length (itemValues? levels items)
      (readItems (readTree NumberLiteral.read levels) most first text) := by
  obtain ⟨most, rfl⟩ := Nat.exists_eq_add_one_of_ne_zero (by omega : most ≠ 0)
  induction items generalizing text most first with
  | nil => exact readItems_end hspaced
  | cons item items ih =>
      obtain ⟨hitem, hitems⟩ := List.forall_mem_cons.mp hitems
      rw [itemTokens, Token.rows, List.append_assoc, List.append_assoc] at hspaced
      obtain ⟨start, hnext, hstart, hle⟩ := nextItem_lead hspaced
      refine ComesTo.mono (readItems_item hitem (closes_rows (.inl rfl)) hnext hstart ?_) hle
      intro rest hrest hsize
      obtain ⟨most, rfl⟩ := Nat.exists_eq_add_one_of_ne_zero (by omega : most ≠ 0)
      exact ih hitems hrest most (by omega)

theorem readable_arr {items : List Written} (hitems : ∀ item ∈ items, Readable item) :
    Readable (.arr items) := by
  intro levels left text _ hspaced
  rw [tokens, List.cons_append, List.append_assoc] at hspaced
  obtain ⟨rest, hskip, hrest, hsize⟩ := hspaced.skip rfl
  rw [List.nil_append] at hskip
  rw [readTree, hskip]
  simp only [NumberLiteral.isDigit]
  cases levels with
  | zero => exact .refused _
  | succ levels =>
      refine ComesTo.mono (ComesTo.map (readItems_rows hitems hrest (Nat.lt_succ_self _)) ?_)
        hsize.le
      intro items
      rw [arranged, arrangedItems_eq_map]

/-! ## Objects -/

theorem nextKey_lead {name : List StringLiteral.Piece}
    (hspaced : Spaced (Token.lead first ++ Token.quoted name :: more) text) :
    ∃ rest, nextKey first text = .ok (true, StringLiteral.written name ++ 0x22 :: rest) ∧
      Spaced more rest ∧ rest.length < text.length := by
  cases first with
  | true =>
      have hspaced : Spaced (Token.quoted name :: more) text := hspaced
      obtain ⟨rest, hskip, hrest, hsize⟩ := hspaced.skip rfl
      rw [List.append_assoc, List.singleton_append] at hskip
      exact ⟨rest, by simp [nextKey, hskip], hrest, hsize⟩
  | false =>
      have hspaced : Spaced ([0x2C] :: Token.quoted name :: more) text := hspaced
      obtain ⟨middle, hcomma, hmiddle, hshorter⟩ := hspaced.skip rfl
      obtain ⟨rest, hskip, hrest, hsize⟩ := hmiddle.skip rfl
      rw [List.append_assoc, List.singleton_append] at hskip
      exact ⟨rest, by simp [nextKey, hcomma, hskip], hrest, hsize.trans hshorter⟩

theorem memberValues?_cons_iff {name : List StringLiteral.Piece} {content : Written}
    {rest : List (List StringLiteral.Piece × Written)} {members : Members} :
    memberValues? levels ((name, content) :: rest) = some members ↔
      ∃ key value others, StringLiteral.text? name = some key ∧
        content.value? levels = some value ∧ memberValues? levels rest = some others ∧
        members = (key, value) :: others := by
  simp only [memberValues?, Option.bind_eq_bind, Option.bind_eq_some_iff, Option.pure_def,
    Option.some.injEq, eq_comm (b := members), exists_and_left]

theorem closes_memberTokens {members : List (List StringLiteral.Piece × Written)}
    (hcloses : Closes left) : Closes (Token.rows false (memberTokens members) ++ left) := by
  cases members with
  | nil => exact hcloses
  | cons member rest =>
      rintro token ⟨⟩
      exact .inl rfl

theorem rows_memberTokens_append {member : List StringLiteral.Piece × Written}
    {before after : List (List StringLiteral.Piece × Written)} :
    Token.rows first (memberTokens (before ++ member :: after)) =
      Token.rows first (memberTokens (before ++ [member])) ++
        Token.rows false (memberTokens after) := by
  induction before generalizing first with
  | nil => simp [memberTokens, Token.rows]
  | cons other before ih => simp [memberTokens, Token.rows, ih]

theorem readMembers_end {most : Nat} (hspaced : Spaced ([0x7D] :: left) text) :
    ComesTo arrangedMembers left text.length (some [])
      (readMembers (readTree NumberLiteral.read levels) (most + 1) first text) := by
  obtain ⟨rest, hskip, hrest, hsize⟩ := hspaced.skip rfl
  have hread : readMembers (readTree NumberLiteral.read levels) (most + 1) first text =
      .ok ([], rest) := by
    simp [readMembers, nextKey, hskip, bind, Except.bind]
  rw [hread]
  exact @ComesTo.read _ _ arrangedMembers left text.length [] rest hrest hsize

/-- An object is read if its next member is, the name as well as the value, and what follows it
is. -/
theorem readMembers_member {most : Nat} {start : List UInt8}
    {name : List StringLiteral.Piece} {value : Written}
    {members : List (List StringLiteral.Piece × Written)} (hvalue : Readable value)
    (hcloses : Closes more)
    (hnext : nextKey first text = .ok (true, StringLiteral.written name ++ 0x22 :: start))
    (hspaced : Spaced ([0x3A] :: (value.tokens ++ more)) start)
    (hrest : ∀ rest, Spaced more rest → rest.length < start.length →
      ComesTo arrangedMembers left rest.length (memberValues? levels members)
        (readMembers (readTree NumberLiteral.read levels) most false rest)) :
    ComesTo arrangedMembers left start.length (memberValues? levels ((name, value) :: members))
      (readMembers (readTree NumberLiteral.read levels) (most + 1) first text) := by
  obtain ⟨rest, hskip, hspaced, hsize⟩ := hspaced.skip rfl
  have hcolon : readColon start = .ok rest := by
    simp [readColon, hskip]
  have halike := StringLiteral.read_alike name start
  have hparts : ∀ name, ComesTo arrangedMembers left rest.length
      (do
        let value ← value.value? levels
        let values ← memberValues? levels members
        return (name, value) :: values)
      (do
        let read ← readTree NumberLiteral.read levels rest
        let more ← readMembers (readTree NumberLiteral.read levels) most false read.2
        .ok ((name, read.1) :: more.1, more.2)) := by
    intro name
    refine .andThen (fun value more => (name, value) :: more)
      (hvalue levels more rest hcloses hspaced) ?_ fun _ _ => rfl
    exact fun last hlast hshorter => hrest last hlast (hshorter.trans hsize)
  rw [readMembers, hnext, memberValues?, StringLiteral.text?]
  simp only [bind, Except.bind] at hparts ⊢
  generalize StringLiteral.read (StringLiteral.written name ++ 0x22 :: start) = result at halike ⊢
  generalize StringLiteral.read (StringLiteral.written name ++ [0x22]) = alone at halike ⊢
  cases halike with
  | refused fault other => exact .refused fault
  | read name =>
      simp only [hcolon]
      exact (hparts name).mono hsize.le

theorem readMembers_rows {members : List (List StringLiteral.Piece × Written)}
    (hmembers : ∀ member ∈ members, Readable member.2)
    (hspaced : Spaced (Token.rows first (memberTokens members) ++ [0x7D] :: left) text) {most : Nat}
    (hmost : text.length < most) :
    ComesTo arrangedMembers left text.length (memberValues? levels members)
      (readMembers (readTree NumberLiteral.read levels) most first text) := by
  obtain ⟨most, rfl⟩ := Nat.exists_eq_add_one_of_ne_zero (by omega : most ≠ 0)
  induction members generalizing text most first with
  | nil => exact readMembers_end hspaced
  | cons member members ih =>
      obtain ⟨name, value⟩ := member
      obtain ⟨hvalue, hmembers⟩ := List.forall_mem_cons.mp hmembers
      rw [memberTokens, Token.rows, List.append_assoc, List.append_assoc] at hspaced
      obtain ⟨start, hnext, hstart, hshorter⟩ := nextKey_lead hspaced
      refine ComesTo.mono (readMembers_member hvalue (closes_rows (.inr rfl)) hnext hstart ?_)
        hshorter.le
      intro rest hrest hsize
      obtain ⟨most, rfl⟩ := Nat.exists_eq_add_one_of_ne_zero (by omega : most ≠ 0)
      exact ih hmembers hrest most (by omega)

theorem readable_obj {members : List (List StringLiteral.Piece × Written)}
    (hmembers : ∀ member ∈ members, Readable member.2) : Readable (.obj members) := by
  intro levels left text _ hspaced
  rw [tokens, List.cons_append, List.append_assoc] at hspaced
  obtain ⟨rest, hskip, hrest, hsize⟩ := hspaced.skip rfl
  rw [List.nil_append] at hskip
  rw [readTree, hskip]
  simp only [NumberLiteral.isDigit]
  cases levels with
  | zero => exact .refused _
  | succ levels =>
      refine ComesTo.mono (ComesTo.map (readMembers_rows hmembers hrest (Nat.lt_succ_self _)) ?_)
        hsize.le
      exact fun _ => rfl

/-! ## Whole texts -/

theorem readable (written : Written) : Readable written := by
  induction written using tree_induction with
  | null => exact readable_null
  | bool value => exact readable_bool value
  | num number => exact readable_num number
  | str pieces => exact readable_str pieces
  | arr items hitems => exact readable_arr hitems
  | obj members hmembers => exact readable_obj hmembers

end Written

/-- Whether a text is a value as it is written, with blanks around its tokens. -/
def Spells (text : List UInt8) (written : Written) : Prop :=
  Spaced written.tokens text

/-- The text of a value with the same blanks before each token. -/
def Written.text (blanks : List UInt8) (written : Written) : List UInt8 :=
  written.tokens.flatMap (blanks ++ ·)

theorem Written.spells_text {blanks : List UInt8} (hblanks : ∀ byte ∈ blanks, isBlank byte)
    (written : Written) : Spells (written.text blanks) written := by
  rw [Spells, text]
  induction written.tokens with
  | nil => exact .nil nofun
  | cons token tokens ih =>
      rw [List.flatMap_cons, List.append_assoc]
      exact .cons hblanks ih

theorem Spells.append_blanks {text blanks : List UInt8} {written : Written}
    (hspells : Spells text written) (hblanks : ∀ byte ∈ blanks, isBlank byte) :
    Spells (text ++ blanks) written := by
  rw [Spells] at hspells ⊢
  generalize written.tokens = tokens at hspells ⊢
  induction hspells with
  | nil hbefore => exact .nil (List.forall_mem_append.mpr ⟨hbefore, hblanks⟩)
  | cons hbefore _ ih =>
      rw [List.append_assoc, List.append_assoc]
      exact .cons hbefore ih

/-- **What a text is read as** depends on its tokens only. -/
theorem Spells.parse_eq {text : List UInt8} {written : Written} (hspells : Spells text written) :
    (parse text).toOption = written.value? maxLevels := by
  have hread := written.readable maxLevels [] text nofun (by rwa [List.append_nil])
  rw [parse, readValue]
  generalize readTree NumberLiteral.read maxLevels text = result at hread
  generalize written.value? maxLevels = value at hread
  cases hread with
  | refused fault => rfl
  | @read tree rest hrest _ =>
      simp only [bind, Except.bind, pure, Except.pure, readEnd, hrest.skip_nil]
      rfl

end AuctionLog.Json
