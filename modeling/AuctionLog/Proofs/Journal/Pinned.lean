import AuctionLog.Journal.Filter
import AuctionLog.Proofs.Journal.Directive

/-!
# Records are pinned

A rule that is added stands in the place of those of its scope, and decides on an entry if it is
finer than all others that are about it. The rule for records names their target in full, so that
no rule of another target is finer, and is about no entry of a target that does not begin like it.
-/

namespace AuctionLog

namespace Directive

variable {directive other : Directive}

/-! ## Which of two rules is finer -/

theorem utf8ByteSize_lt_of_begins {start target : String}
    (hbegins : start.toList <+: target.toList) (hne : start ≠ target) :
    start.utf8ByteSize < target.utf8ByteSize := by
  obtain ⟨rest, hrest⟩ := hbegins
  have htarget : target = start ++ String.ofList rest := by
    rw [← String.toList_inj, String.toList_append, String.toList_ofList, hrest]
  have hsome : String.ofList rest ≠ "" := by
    intro hnone
    rw [hnone, String.append_empty] at htarget
    exact hne htarget.symm
  have hsize : (String.ofList rest).utf8ByteSize ≠ 0 := mt String.utf8ByteSize_eq_zero_iff.mp hsome
  rw [htarget, String.utf8ByteSize_append]
  omega

theorem coversTarget_iff {target : String} :
    directive.coversTarget target ↔ ∀ start ∈ directive.target, start.toList <+: target.toList := by
  unfold coversTarget
  cases directive.target <;> simp

theorem sameScope_iff :
    directive.sameScope other ↔ directive.target = other.target ∧ directive.span = other.span ∧
      directive.field = other.field := by
  simp [sameScope, and_assoc]

theorem coversTarget_of_covers {entry : Entry} (hcovers : directive.covers entry) :
    directive.coversTarget entry.target := by
  simp only [covers, Bool.and_eq_true] at hcovers
  exact hcovers.1.2

theorem covers_ofTarget {target : String} {ceiling : Ceiling} {entry : Entry} :
    (ofTarget target ceiling).covers entry ↔ target.toList <+: entry.target.toList := by
  simp [covers, ofTarget, coversTarget]

/-- **The rule that names a target in full is finer than any other about it**, of those without a
span or a field. -/
theorem isFiner_ofTarget {ceiling : Ceiling} {entry : Entry} (hplain : directive.IsPlain)
    (hcovers : directive.covers entry)
    (hscope : ¬ directive.sameScope (ofTarget entry.target ceiling)) :
    (ofTarget entry.target ceiling).isFiner directive := by
  have hbegins := coversTarget_iff.mp (coversTarget_of_covers hcovers)
  have hprecision : directive.precision < (ofTarget entry.target ceiling).precision := by
    rw [sameScope_iff, hplain.span, hplain.field] at hscope
    unfold precision
    cases htarget : directive.target with
    | none => exact Nat.succ_pos _
    | some start =>
        have hne : start ≠ entry.target := by
          rintro rfl
          exact hscope ⟨htarget, rfl, rfl⟩
        exact Nat.succ_lt_succ (utf8ByteSize_lt_of_begins (hbegins start htarget) hne)
  simp [isFiner, hprecision]

end Directive

namespace Filter

variable {filter : Filter} {directive other : Directive} {entry : Entry}

/-! ## What is added -/

theorem mem_add_iff :
    other ∈ filter.add directive ↔
      (other ∈ filter ∧ ¬ other.sameScope directive) ∨ other = directive := by
  simp [add]

/-- Whether a directive is one of several and none behind it is about the same. -/
def LastOfScope (found : List Directive) (directive : Directive) : Prop :=
  ∃ before after, found = before ++ directive :: after ∧
    ∀ later ∈ after, ¬ directive.sameScope later

theorem lastOfScope_cons_iff {first : Directive} {found : List Directive} :
    LastOfScope (first :: found) other ↔
      LastOfScope found other ∨ other = first ∧ ∀ later ∈ found, ¬ other.sameScope later := by
  constructor
  · rintro ⟨_ | ⟨_, before⟩, after, hfound, hlast⟩
    · obtain ⟨rfl, rfl⟩ := List.cons.inj hfound
      exact .inr ⟨rfl, hlast⟩
    · obtain ⟨rfl, rfl⟩ := List.cons.inj hfound
      exact .inl ⟨before, after, rfl, hlast⟩
  · rintro (⟨before, after, rfl, hlast⟩ | ⟨rfl, hlast⟩)
    · exact ⟨first :: before, after, rfl, hlast⟩
    · exact ⟨[], found, rfl, hlast⟩

theorem mem_foldl_add_iff {found filter : List Directive} :
    other ∈ found.foldl add filter ↔
      LastOfScope found other ∨ other ∈ filter ∧ ∀ later ∈ found, ¬ other.sameScope later := by
  induction found generalizing filter with
  | nil => simp [LastOfScope]
  | cons first found ih =>
      rw [List.foldl_cons, ih, lastOfScope_cons_iff, mem_add_iff, List.forall_mem_cons, or_assoc]
      refine or_congr_right ?_
      rw [or_and_right, and_assoc, or_comm]

/-- Whether a directive is among the rules that several directives give: the last ones of their
scopes, or the level for all targets when there are none. -/
def GivenBy (level : Level) (found : List Directive) (directive : Directive) : Prop :=
  LastOfScope found directive ∨ found = [] ∧ directive = .everywhere (.upTo level)

theorem mem_of_ofText {level : Level} {text : String}
    (hread : ofText (.upTo level) text = .ok filter) :
    ∃ found, directives text = .ok found ∧ ∀ other, other ∈ filter ↔ GivenBy level found other := by
  obtain ⟨found, hfound, hfilter⟩ := bind_eq_ok.mp hread
  refine ⟨found, hfound, fun other => ?_⟩
  cases found with
  | nil =>
      obtain rfl := Except.ok.inj hfilter
      simp [GivenBy, LastOfScope]
  | cons first found =>
      obtain rfl := Except.ok.inj hfilter
      rw [mem_foldl_add_iff, GivenBy]
      simp

/-! ## Which rule decides -/

/-- The finer one of two rules, the first of which may be missing. -/
def finer (best : Option Directive) (directive : Directive) : Option Directive :=
  match best with
  | none => some directive
  | some other => if directive.isFiner other then some directive else best

theorem ruleFor?_eq : filter.ruleFor? entry = (filter.filter (·.covers entry)).foldl finer none :=
  rfl

theorem mem_of_foldl_finer {found : List Directive} {best : Option Directive}
    (hfinest : found.foldl finer best = some other) : other ∈ found ∨ best = some other := by
  induction found generalizing best with
  | nil => exact .inr hfinest
  | cons first found ih =>
      rcases ih hfinest with hmem | hfirst
      · exact .inl (List.mem_cons_of_mem _ hmem)
      · unfold finer at hfirst
        split at hfirst
        · exact .inl (Option.some.inj hfirst ▸ List.mem_cons_self ..)
        · split_ifs at hfirst
          · exact .inl (Option.some.inj hfirst ▸ List.mem_cons_self ..)
          · exact .inr hfirst

/-- A rule that is added decides on an entry if it is finer than the others about it. -/
theorem ruleFor?_add (hcovers : directive.covers entry)
    (hfiner : ∀ other ∈ filter, other.covers entry → ¬ other.sameScope directive →
      directive.isFiner other) : (filter.add directive).ruleFor? entry = some directive := by
  have hself : [directive].filter (·.covers entry) = [directive] := by simp [hcovers]
  rw [ruleFor?_eq, add, List.filter_append, hself, List.foldl_append]
  set kept := (filter.filter (!·.sameScope directive)).filter (·.covers entry) with hkept
  cases hfinest : kept.foldl finer none with
  | none => rfl
  | some other =>
      have hother : directive.isFiner other := by
        rcases mem_of_foldl_finer hfinest with hmem | hnone
        · rw [hkept, List.mem_filter, List.mem_filter, Bool.not_eq_true'] at hmem
          exact hfiner other hmem.1.1 hmem.2 (by simp [hmem.1.2])
        · exact absurd hnone nofun
      rw [List.foldl_cons, List.foldl_nil, finer]
      simp only [hother, if_true]

section Unaffected

variable {holds : Directive → Bool} (hscope : ∀ other, other.sameScope directive → ¬ holds other)
include hscope

theorem filter_add_of_not : (filter.add directive).filter holds = filter.filter holds := by
  have hself : [directive].filter holds = [] := by
    simp [hscope directive (Directive.sameScope_iff.mpr ⟨rfl, rfl, rfl⟩)]
  rw [add, List.filter_append, hself, List.append_nil, List.filter_filter]
  refine List.filter_congr fun other _ => ?_
  cases hsame : other.sameScope directive with
  | false => simp
  | true => simp [hscope other hsame]

theorem any_add_of_not : (filter.add directive).any holds = filter.any holds := by
  rw [Bool.eq_iff_iff, List.any_eq_true, List.any_eq_true]
  constructor
  · rintro ⟨other, hmem, hholds⟩
    rcases mem_add_iff.mp hmem with ⟨hfilter, -⟩ | rfl
    · exact ⟨other, hfilter, hholds⟩
    · exact absurd hholds (hscope other (Directive.sameScope_iff.mpr ⟨rfl, rfl, rfl⟩))
  · rintro ⟨other, hmem, hholds⟩
    exact ⟨other, mem_add_iff.mpr (.inl ⟨hmem, fun hsame => hscope other hsame hholds⟩), hholds⟩

end Unaffected

/-- **Adding a rule changes nothing for entries of other targets.** -/
theorem allows_add_ofTarget_of_not_begins {target : String} {ceiling : Ceiling}
    (htarget : ¬ target.toList <+: entry.target.toList) :
    (filter.add (.ofTarget target ceiling)).allows entry = filter.allows entry := by
  have hcovers : ∀ other : Directive, other.sameScope (.ofTarget target ceiling) →
      ¬ other.covers entry := by
    intro other hsame hcovers
    have hother := (Directive.sameScope_iff.mp hsame).1
    exact htarget (Directive.coversTarget_iff.mp (Directive.coversTarget_of_covers hcovers) target
      hother)
  have hreaches : ∀ span : Span, ∀ other : Directive, other.sameScope (.ofTarget target ceiling) →
      ¬ (other.reaches span && other.ceiling.allows entry.level) := by
    intro span other hsame
    have hspan : other.span = none := (Directive.sameScope_iff.mp hsame).2.1
    simp [Directive.reaches, hspan]
  have hrule : (filter.add (.ofTarget target ceiling)).ruleFor? entry = filter.ruleFor? entry := by
    rw [ruleFor?_eq, ruleFor?_eq, filter_add_of_not hcovers]
  have hspan : (filter.add (.ofTarget target ceiling)).allowsInSpan entry =
      filter.allowsInSpan entry := by
    unfold allowsInSpan
    cases entry.span with
    | none => rfl
    | some span => exact any_add_of_not (hreaches span)
  rw [allows, allows, hrule, hspan]

/-! ## The rule for records -/

/-- Whether each directive of a text is a level, a target, or a target with its level: what holds a
bracket is none. -/
def PlainText (text : String) : Prop :=
  ∀ piece ∈ pieces text, '[' ∈ piece.toList →
    ∀ directive, Directive.ofText piece ≠ .ok (some directive)

theorem exists_piece_of_mem {text : String} {found : List Directive}
    (hread : directives text = .ok found) (hmem : other ∈ found) :
    ∃ piece ∈ pieces text, Directive.ofText piece = .ok (some other) := by
  obtain ⟨read, hitems, hfound⟩ := bind_eq_ok.mp hread
  obtain rfl := Except.ok.inj hfound
  obtain ⟨_, hresult, rfl⟩ := List.mem_filterMap.mp hmem
  exact exists_item_of_mapM hitems hresult

theorem PlainText.isPlain {text : String} (hplain : PlainText text) {level : Level}
    (hread : ofText (.upTo level) text = .ok filter) (hmem : other ∈ filter) : other.IsPlain := by
  obtain ⟨found, hfound, hgiven⟩ := mem_of_ofText hread
  rcases (hgiven other).mp hmem with ⟨before, after, rfl, -⟩ | ⟨-, rfl⟩
  · obtain ⟨piece, hpiece, hother⟩ := exists_piece_of_mem hfound (by simp : other ∈ _)
    by_cases hbracket : '[' ∈ piece.toList
    · exact absurd hother (hplain piece hpiece hbracket other)
    · exact Directive.isPlain_of_ofText hbracket hother
  · exact ⟨rfl, rfl⟩

/-- What is let through once records are pinned to the rules of the environment, or to the level if
these are none: records up to their own level whatever the other rules say, and of what does not
begin like their target the same as before. -/
structure Pins (level : Level) (rules : Option String) (filter : Filter) : Prop where
  rules : ∃ found, directives (rules.getD "") = .ok found ∧ ∀ directive, directive ∈ filter ↔
    (GivenBy level found directive ∧
      ¬ directive.sameScope (.ofTarget recordTarget (.upTo .info))) ∨
    directive = .ofTarget recordTarget (.upTo .info)
  target : ∀ entry : Entry, entry.target = recordTarget →
    (filter.allows entry ↔ entry.level.number ≤ Level.info.number)
  records : ∀ (line : String) (span : Span), filter.allows ((recordEntry line).within span)
  others : ∀ (unpinned : Filter) (entry : Entry), ¬ recordTarget.toList <+: entry.target.toList →
    unpinned.pinRecords.allows entry = unpinned.allows entry

theorem allowsInSpan_of_isPlain (hplain : ∀ other ∈ filter, other.IsPlain) :
    filter.allowsInSpan entry = false := by
  unfold allowsInSpan
  cases entry.span with
  | none => rfl
  | some span =>
      refine List.any_eq_false.mpr fun other hmem => ?_
      simp [Directive.reaches, (hplain other hmem).span]

theorem allows_pinRecords_iff (hplain : ∀ other ∈ filter, other.IsPlain)
    (htarget : entry.target = recordTarget) :
    filter.pinRecords.allows entry ↔ entry.level.number ≤ Level.info.number := by
  have hrule : filter.pinRecords.ruleFor? entry = some (.ofTarget entry.target (.upTo .info)) := by
    rw [pinRecords, ← htarget]
    refine ruleFor?_add (Directive.covers_ofTarget.mpr (List.prefix_refl _)) ?_
    intro other hmem hcovers hscope
    exact Directive.isFiner_ofTarget (hplain other hmem) hcovers hscope
  have hspan : filter.pinRecords.allowsInSpan entry = false := by
    refine allowsInSpan_of_isPlain fun other hmem => ?_
    rcases mem_add_iff.mp hmem with ⟨hfound, -⟩ | rfl
    · exact hplain other hfound
    · exact ⟨rfl, rfl⟩
  rw [allows, hrule, hspan]
  simp [Directive.ofTarget, Ceiling.allows]

theorem exists_ofLevel_iff {level : Level} {rules : Option String} :
    (∃ filter, ofLevel level rules = .ok filter) ↔
      ∀ piece ∈ pieces (rules.getD ""), ∃ found, Directive.ofText piece = .ok found := by
  rw [← exists_mapM_iff]
  constructor
  · rintro ⟨filter, hfilter⟩
    obtain ⟨unpinned, hunpinned, -⟩ := map_eq_ok.mp hfilter
    obtain ⟨found, hfound, -⟩ := bind_eq_ok.mp hunpinned
    obtain ⟨read, hread, -⟩ := bind_eq_ok.mp hfound
    exact ⟨read, hread⟩
  · rintro ⟨read, hread⟩
    have hfound : directives (rules.getD "") = .ok (read.filterMap id) :=
      bind_eq_ok.mpr ⟨read, hread, rfl⟩
    rw [ofLevel, ofText, hfound]
    cases read.filterMap id <;> exact ⟨_, rfl⟩

/-- Whether a piece of the rules is cut inside a character: at the sign of a target with its level,
if it has no bracket. -/
def Miscuts (piece : String) : Prop :=
  '[' ∉ piece.toList ∧ Directive.CutsInside piece ∨
    '[' ∈ piece.toList ∧ ∃ miscut, Directive.ofText piece = .error miscut

theorem miscuts_iff {piece : String} :
    Miscuts piece ↔ ∃ miscut, Directive.ofText piece = .error miscut := by
  by_cases hbracket : '[' ∈ piece.toList
  · simp [Miscuts, hbracket]
  · simp [Miscuts, hbracket, Directive.exists_ofText_eq_error_iff hbracket]

/-- Rules that turn off everything and records by name, with one that is no directive at all. -/
def turnedOff : String :=
  "off,analytics_log=off,analytics=error,oracle[=info"

/-- The rule for records is that of its own text. -/
example : Directive.ofText "analytics_log=info" =
    .ok ((Ceiling.ofText? "info").map (.ofTarget recordTarget)) := rfl

end Filter

end AuctionLog
