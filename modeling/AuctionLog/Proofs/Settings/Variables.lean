import AuctionLog.Proofs.Settings.Environment
import AuctionLog.Proofs.Text.LetterCase
import AuctionLog.Proofs.Text.Numeral

/-!
# Variables, and the first one that is bad

Seven variables are looked at, each for a setting of its own, and no other one. A variable that is
not set stands for a default, which is always good. Settings come of an environment exactly if none
of the seven is bad, and else the fault is about the first bad one in the order of the settings.
-/

namespace AuctionLog

/-! ## What the texts of variables say -/

namespace Numeral

theorem Unsigned.map_toLower {text : List Char} {value : Nat} (hunsigned : Unsigned text value) :
    text.map Char.toLower = text := by
  cases hunsigned with
  | plain _ hall => exact Ascii.map_toLower_of_isDigit hall
  | plus _ hall =>
      rw [List.map_cons, Ascii.map_toLower_of_isDigit hall]
      rfl

end Numeral

namespace Level

/-- Whether a text is for a level: its name, in letters of either case, or its number. -/
inductive NamedBy : String → Level → Prop where
  | word {text : String} {level : Level} (hword : Ascii.sameFold level.name text) :
      NamedBy text level
  | number {text : String} {level : Level}
      (hnumber : Numeral.Unsigned text.toList level.number) : NamedBy text level

variable {text : String} {level : Level}

theorem find?_all_iff {holds : Level → Bool}
    (hunique : ∀ level other, holds level → holds other → level = other) :
    all.find? holds = some level ↔ holds level := by
  constructor
  · exact List.find?_some
  · intro hlevel
    have hmem : level ∈ all := by cases level <;> decide
    cases hfind : all.find? holds with
    | none => exact absurd hlevel (List.find?_eq_none.mp hfind level hmem)
    | some found => rw [hunique found level (List.find?_some hfind) hlevel]

theorem not_word_of_unsigned {value : Nat} (hunsigned : Numeral.Unsigned text.toList value) :
    ¬ Ascii.sameFold level.name text := by
  intro hword
  rw [Ascii.sameFold_iff, hunsigned.map_toLower] at hword
  have hread := Numeral.natural?_eq_some_iff.mpr hunsigned
  have hname : Numeral.natural? (level.name.toList.map Char.toLower) = none := by
    cases level <;> decide
  rw [← hword, hname] at hread
  exact absurd hread nofun

theorem number_unique {value : Nat} (level other : Level) (hlevel : level.number == value)
    (hother : other.number == value) : level = other := by
  have hsame : level.number = other.number :=
    (beq_iff_eq.mp hlevel).trans (beq_iff_eq.mp hother).symm
  cases level <;> cases other <;> first | rfl | exact absurd hsame (by decide)

theorem name_unique (level other : Level) (hlevel : Ascii.sameFold level.name text)
    (hother : Ascii.sameFold other.name text) : level = other := by
  rw [Ascii.sameFold_iff] at hlevel hother
  have hsame := hlevel.trans hother.symm
  cases level <;> cases other <;> first | rfl | exact absurd hsame (by decide)

theorem ofText?_eq_some_iff : ofText? text = some level ↔ NamedBy text level := by
  unfold ofText?
  cases hread : Numeral.natural? text.toList with
  | some value =>
      have hunsigned := Numeral.natural?_eq_some_iff.mp hread
      simp only [find?_all_iff number_unique, beq_iff_eq]
      constructor
      · rintro rfl
        exact .number hunsigned
      · rintro (hword | hnumber)
        · exact absurd hword (not_word_of_unsigned hunsigned)
        · exact Option.some.inj ((Numeral.natural?_eq_some_iff.mpr hnumber).symm.trans hread)
  | none =>
      simp only [find?_all_iff name_unique]
      constructor
      · intro hword
        exact .word hword
      · rintro (hword | hnumber)
        · exact hword
        · have hsome := Numeral.natural?_eq_some_iff.mpr hnumber
          rw [hread] at hsome
          exact absurd hsome nofun

end Level

namespace Settings

/-- Whether a text says whether something is on. -/
inductive FlagText : String → Bool → Prop where
  | on : FlagText "true" true
  | off : FlagText "false" false

/-- Whether a text is for a number of 64 bits. -/
def CapacityText (text : String) (value : Nat) : Prop :=
  Numeral.Unsigned text.toList value ∧ value < 2 ^ 64

theorem flag?_eq_some_iff {text : String} {value : Bool} :
    flag? text = some value ↔ FlagText text value := by
  unfold flag?
  constructor
  · intro hread
    split_ifs at hread with htrue hfalse
    · exact htrue ▸ Option.some.inj hread ▸ .on
    · exact hfalse ▸ Option.some.inj hread ▸ .off
  · rintro (_ | _) <;> rfl

theorem flag?_true : flag? "true" = some true :=
  rfl

theorem flag?_false : flag? "false" = some false :=
  rfl

theorem capacity?_eq_some_iff {text : String} {value : Nat} :
    capacity? text = some value ↔ CapacityText text value := by
  rw [capacity?, Option.filter_eq_some_iff, Numeral.natural?_eq_some_iff, decide_eq_true_eq]
  exact Iff.rfl

theorem capacity?_default : capacity? "10000" = some 10000 := by
  decide

/-! ## Settings one by one -/

/-- Whether a setting is what the text of its variable says, or the default if there is none. -/
inductive Says {α : Type} (Tells : String → α → Prop) (default : α) : Option String → α → Prop where
  | unset : Says Tells default none default
  | set {text : String} {value : α} (htells : Tells text value) :
      Says Tells default (some text) value

/-- Whether each setting is what its own variable says. -/
structure Decoded (environment : String → Option String) (settings : Settings) : Prop where
  enabled : Says FlagText true (environment "ENABLED") settings.enabled
  name : Says Eq "psdoaAnalytics" (environment "ADAPTER_NAME") settings.name
  address : Says (fun text address => SocketAddress.ofText? text = some address)
    ⟨.v4 [127, 0, 0, 1], 3000⟩ (environment "ADDRESS") settings.address
  printsRecords : Says FlagText false (environment "PRINT_SINK") settings.printsRecords
  queueCapacity : Says CapacityText 10000 (environment "CHANNEL_CAPACITY") settings.queueCapacity
  showsCounters : Says FlagText true (environment "EXPORT_PROMETHEUS") settings.showsCounters
  journalLevel : Says Level.NamedBy .info (environment "LOG_LEVEL") settings.journalLevel

/-- A variable, and the texts that are good for it. -/
structure Variable where
  name : String
  Accepts : String → Prop

/-- The variables that settings come from, in the order in which they are looked at. -/
def readVariables : List Variable :=
  [ ⟨"ENABLED", fun text => ∃ value, FlagText text value⟩
  , ⟨"ADAPTER_NAME", fun _ => True⟩
  , ⟨"ADDRESS", fun text => ∃ address, SocketAddress.ofText? text = some address⟩
  , ⟨"PRINT_SINK", fun text => ∃ value, FlagText text value⟩
  , ⟨"CHANNEL_CAPACITY", fun text => ∃ value, CapacityText text value⟩
  , ⟨"EXPORT_PROMETHEUS", fun text => ∃ value, FlagText text value⟩
  , ⟨"LOG_LEVEL", fun text => ∃ level, Level.NamedBy text level⟩ ]

variable {environment : String → Option String} {settings : Settings} {fault : SettingFault}

section Says

variable {α : Type} {default : String} {parse? : String → Option α} {Tells : String → α → Prop}
  {fallback : α}

theorem setting_eq_error_iff {name : String} :
    setting environment name default parse? = .error fault ↔
      parse? (textOf environment name default) = none ∧ fault = ⟨name⟩ := by
  unfold setting textOf
  cases parse? ((environment name).getD default) <;> simp [eq_comm]

theorem says_iff (environment : String → Option String) (hdefault : parse? default = some fallback)
    (hparse : ∀ text value, parse? text = some value ↔ Tells text value) (name : String)
    (value : α) :
    parse? (textOf environment name default) = some value ↔
      Says Tells fallback (environment name) value := by
  unfold textOf
  cases environment name with
  | none =>
      rw [Option.getD_none, hdefault]
      constructor
      · intro hvalue
        exact Option.some.inj hvalue ▸ .unset
      · rintro ⟨⟩
        rfl
  | some text =>
      rw [Option.getD_some, hparse]
      constructor
      · exact .set
      · rintro (_ | htells)
        exact htells

end Says

/-! ## The first bad variable -/

namespace Variable

/-- Whether a variable is set to a text that is not good for it. -/
def Bad (environment : String → Option String) (source : Variable) : Prop :=
  ∃ text, environment source.name = some text ∧ ¬ source.Accepts text

end Variable

/-- Whether a fault names the first bad one of some variables. -/
def FirstBad (environment : String → Option String) (sources : List Variable)
    (fault : SettingFault) : Prop :=
  ∃ before source after, sources = before ++ source :: after ∧ source.Bad environment ∧
    (∀ earlier ∈ before, ¬ earlier.Bad environment) ∧ fault.variableName = source.name

section FirstBad

variable {source : Variable} {sources : List Variable}

theorem not_firstBad_nil : ¬ FirstBad environment [] fault := by
  rintro ⟨before, source, after, hsplit, -⟩
  exact absurd hsplit (by simp)

theorem firstBad_cons_iff :
    FirstBad environment (source :: sources) fault ↔
      (source.Bad environment ∧ fault.variableName = source.name) ∨
        (¬ source.Bad environment ∧ FirstBad environment sources fault) := by
  constructor
  · rintro ⟨before, found, after, hsplit, hbad, hbefore, hname⟩
    cases before with
    | nil =>
        obtain ⟨rfl, rfl⟩ := List.cons.inj hsplit
        exact .inl ⟨hbad, hname⟩
    | cons first before =>
        obtain ⟨rfl, rfl⟩ := List.cons.inj hsplit
        obtain ⟨hfirst, hbefore⟩ := List.forall_mem_cons.mp hbefore
        exact .inr ⟨hfirst, before, found, after, rfl, hbad, hbefore, hname⟩
  · rintro (⟨hbad, hname⟩ | ⟨hgood, before, found, after, rfl, hbad, hbefore, hname⟩)
    · exact ⟨[], source, sources, rfl, hbad, List.forall_mem_nil _, hname⟩
    · exact ⟨source :: before, found, after, rfl, hbad, List.forall_mem_cons.mpr ⟨hgood, hbefore⟩,
        hname⟩

theorem exists_firstBad_iff :
    (∃ fault, FirstBad environment sources fault) ↔ ∃ source ∈ sources, source.Bad environment := by
  induction sources with
  | nil => simp [not_firstBad_nil]
  | cons source sources ih =>
      simp only [firstBad_cons_iff, exists_or, exists_and_left, ih, List.exists_mem_cons_iff]
      by_cases hbad : source.Bad environment
      · exact iff_of_true (.inl ⟨hbad, ⟨source.name⟩, rfl⟩) (.inl hbad)
      · simp only [hbad, not_false_eq_true, false_and, true_and, false_or]

end FirstBad

/-- One step of reading settings: a variable that is bad ends it, and else the next ones decide. -/
theorem setting_bind_eq_error_iff {α β : Type} {name default : String} {Accepts : String → Prop}
    {sources : List Variable} {parse? : String → Option α} {fallback : α}
    {rest : α → Except SettingFault β} (hdefault : parse? default = some fallback)
    (haccepts : ∀ text, (∃ value, parse? text = some value) ↔ Accepts text)
    (hrest : ∀ value, rest value = .error fault ↔ FirstBad environment sources fault) :
    (setting environment name default parse? >>= rest) = .error fault ↔
      FirstBad environment (⟨name, Accepts⟩ :: sources) fault := by
  have hbad : Variable.Bad environment ⟨name, Accepts⟩ ↔
      parse? (textOf environment name default) = none := by
    rw [Variable.Bad, textOf]
    cases environment name with
    | none => simp [hdefault]
    | some text =>
        simp only [Option.some.injEq, exists_eq_left', ← haccepts, Option.getD_some, not_exists]
        exact Option.eq_none_iff_forall_ne_some.symm
  rw [firstBad_cons_iff, hbad]
  cases hread : parse? (textOf environment name default) with
  | none =>
      have hsetting : setting environment name default parse? = .error ⟨name⟩ :=
        setting_eq_error_iff.mpr ⟨hread, rfl⟩
      rw [hsetting]
      simp only [not_true_eq_false, false_and, or_false, true_and]
      constructor
      · intro hfault
        rw [← Except.error.inj hfault]
      · intro hname
        rw [← hname]
        rfl
  | some value =>
      rw [setting_eq_ok_iff.mpr hread]
      simp only [reduceCtorEq, false_and, not_false_eq_true, true_and, false_or]
      exact hrest value

theorem ofEnvironment_eq_error_iff :
    ofEnvironment environment = .error fault ↔ FirstBad environment readVariables fault := by
  have hflag : ∀ text, (∃ value, flag? text = some value) ↔ ∃ value, FlagText text value :=
    fun text => exists_congr fun _ => flag?_eq_some_iff
  have hcapacity : ∀ text, (∃ value, capacity? text = some value) ↔
      ∃ value, CapacityText text value :=
    fun text => exists_congr fun _ => capacity?_eq_some_iff
  have hlevel : ∀ text, (∃ level, Level.ofText? text = some level) ↔
      ∃ level, Level.NamedBy text level :=
    fun text => exists_congr fun _ => Level.ofText?_eq_some_iff
  have hname : ∀ text : String, (∃ value, some text = some value) ↔ True :=
    fun text => iff_of_true ⟨text, rfl⟩ trivial
  -- Which variables come next does not depend on what the ones before them say.
  unfold ofEnvironment readVariables
  refine setting_bind_eq_error_iff flag?_true hflag fun enabled => ?_
  refine setting_bind_eq_error_iff rfl hname fun name => ?_
  refine setting_bind_eq_error_iff SocketAddress.ofText?_default (fun _ => Iff.rfl)
    fun address => ?_
  refine setting_bind_eq_error_iff flag?_false hflag fun printsRecords => ?_
  refine setting_bind_eq_error_iff capacity?_default hcapacity fun queueCapacity => ?_
  refine setting_bind_eq_error_iff flag?_true hflag fun showsCounters => ?_
  refine setting_bind_eq_error_iff Level.ofText?_info hlevel fun journalLevel => ?_
  exact iff_of_false nofun not_firstBad_nil

theorem readFrom_iff_decoded : ReadFrom environment settings ↔ Decoded environment settings := by
  have hflag : ∀ text value, flag? text = some value ↔ FlagText text value :=
    fun _ _ => flag?_eq_some_iff
  have hsame : ∀ text value : String, some text = some value ↔ text = value :=
    fun text value => Option.some.injEq text value ▸ Iff.rfl
  have hdefault : some Recorder.defaultName = some "psdoaAnalytics" := rfl
  have htrue := says_iff environment flag?_true hflag
  have hfalse := says_iff environment flag?_false hflag
  have hname := says_iff environment hdefault hsame "ADAPTER_NAME" settings.name
  have haddress := says_iff environment SocketAddress.ofText?_default fun _ _ => Iff.rfl
  have hcapacity := says_iff environment capacity?_default
    fun _ _ => capacity?_eq_some_iff
  have hlevel := says_iff environment Level.ofText?_info
    fun _ _ => Level.ofText?_eq_some_iff
  constructor
  · intro hread
    exact ⟨(htrue _ _).mp hread.enabled, hname.mp (congrArg some hread.name),
      (haddress _ _).mp hread.address, (hfalse _ _).mp hread.printsRecords,
      (hcapacity _ _).mp hread.queueCapacity, (htrue _ _).mp hread.showsCounters,
      (hlevel _ _).mp hread.journalLevel⟩
  · intro hread
    exact ⟨(htrue _ _).mpr hread.enabled, Option.some.inj (hname.mpr hread.name),
      (haddress _ _).mpr hread.address, (hfalse _ _).mpr hread.printsRecords,
      (hcapacity _ _).mpr hread.queueCapacity, (htrue _ _).mpr hread.showsCounters,
      (hlevel _ _).mpr hread.journalLevel⟩

theorem exists_ok_iff :
    (∃ settings, ofEnvironment environment = .ok settings) ↔
      ∀ source ∈ readVariables, ∀ text ∈ environment source.name, source.Accepts text := by
  have hfails : (∃ fault, ofEnvironment environment = .error fault) ↔
      ∃ source ∈ readVariables, source.Bad environment := by
    simp only [ofEnvironment_eq_error_iff, exists_firstBad_iff]
  have hbad : (∀ source ∈ readVariables, ∀ text ∈ environment source.name, source.Accepts text) ↔
      ¬ ∃ source ∈ readVariables, source.Bad environment := by
    simp only [Variable.Bad, not_exists, not_and, not_not, Option.mem_def]
  rw [hbad, ← hfails]
  cases ofEnvironment environment <;> simp

/-- Settings come of an environment variable by variable. -/
structure ReadByVariable (environment : String → Option String) : Prop where
  succeeds : (∃ settings, ofEnvironment environment = .ok settings) ↔
    ∀ source ∈ readVariables, ∀ text ∈ environment source.name, source.Accepts text
  decoded : ∀ settings, ofEnvironment environment = .ok settings ↔ Decoded environment settings
  fails : ∀ fault, ofEnvironment environment = .error fault ↔
    FirstBad environment readVariables fault
  others : ∀ other : String → Option String,
    (∀ source ∈ readVariables, other source.name = environment source.name) →
      ofEnvironment other = ofEnvironment environment

/-- **Settings are read one by one, and the first bad variable is reported.** -/
theorem environment_read (environment : String → Option String) : ReadByVariable environment where
  succeeds := exists_ok_iff
  decoded _ := ofEnvironment_eq_ok_iff.trans readFrom_iff_decoded
  fails _ := ofEnvironment_eq_error_iff
  others other hsame := by
    simp only [readVariables, List.forall_mem_cons] at hsame
    obtain ⟨henabled, hname, haddress, hprints, hcapacity, hshows, hlevel, -⟩ := hsame
    simp only [ofEnvironment, setting, henabled, hname, haddress, hprints, hcapacity, hshows,
      hlevel]

end Settings

end AuctionLog
