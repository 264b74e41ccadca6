import AuctionLog.Proofs.Results
import AuctionLog.Settings.Basic

/-!
# Settings and the variables they come from

Each setting is read from a variable of its own, or from its default if there is no such variable.
An environment gives settings exactly if each of these texts can be read.
-/

namespace AuctionLog

theorem Ascii.sameFold_iff {left right : String} :
    sameFold left right ↔ left.toList.map Char.toLower = right.toList.map Char.toLower := by
  rw [sameFold, beq_iff_eq, ← String.toList_inj, fold, fold, String.toList_map, String.toList_map]

/-- The level that the journal is kept at by default. -/
theorem Level.ofText?_info : ofText? "info" = some .info := by
  have hword : Numeral.natural? "info".toList = none := by decide
  simp only [ofText?, hword]
  refine List.find?_eq_some_iff_append.mpr ⟨?_, [.error, .warn], [.debug, .trace], rfl, ?_⟩
  · rw [Ascii.sameFold_iff]
    decide
  · simp [Bool.eq_false_iff, Ascii.sameFold_iff, name]

/-- The address that is listened at by default. -/
theorem SocketAddress.ofText?_default :
    ofText? "127.0.0.1:3000" = some ⟨.v4 [127, 0, 0, 1], 3000⟩ := by
  decide +kernel

namespace Settings

/-- The text that a setting is read from. -/
def textOf (environment : String → Option String) (name default : String) : String :=
  (environment name).getD default

variable {environment : String → Option String} {settings : Settings}

theorem setting_eq_ok_iff {α : Type} {name default : String} {parse? : String → Option α}
    {value : α} :
    setting environment name default parse? = .ok value ↔
      parse? (textOf environment name default) = some value := by
  unfold setting textOf
  cases parse? ((environment name).getD default) <;> simp

/-- The settings whose texts can all be read. -/
structure ReadFrom (environment : String → Option String) (settings : Settings) : Prop where
  enabled : flag? (textOf environment "ENABLED" "true") = some settings.enabled
  name : textOf environment "ADAPTER_NAME" Recorder.defaultName = settings.name
  address :
    SocketAddress.ofText? (textOf environment "ADDRESS" "127.0.0.1:3000") = some settings.address
  printsRecords : flag? (textOf environment "PRINT_SINK" "false") = some settings.printsRecords
  queueCapacity :
    capacity? (textOf environment "CHANNEL_CAPACITY" "10000") = some settings.queueCapacity
  showsCounters :
    flag? (textOf environment "EXPORT_PROMETHEUS" "true") = some settings.showsCounters
  journalLevel : Level.ofText? (textOf environment "LOG_LEVEL" "info") = some settings.journalLevel

/-- **Settings are read one by one**: an environment gives those settings, and only those, that each
come from the text of their own variable. -/
theorem ofEnvironment_eq_ok_iff :
    ofEnvironment environment = .ok settings ↔ ReadFrom environment settings := by
  constructor
  · intro hread
    simp only [ofEnvironment, bind_eq_ok, setting_eq_ok_iff, pure, Except.pure,
      Except.ok.injEq] at hread
    obtain ⟨_, henabled, _, hname, _, haddress, _, hprints, _, hcapacity, _, hshows, _, hlevel,
      rfl⟩ := hread
    exact ⟨henabled, Option.some.inj hname, haddress, hprints, hcapacity, hshows, hlevel⟩
  · rintro ⟨henabled, hname, haddress, hprints, hcapacity, hshows, hlevel⟩
    simp only [ofEnvironment, bind_eq_ok, setting_eq_ok_iff, pure, Except.pure,
      Except.ok.injEq]
    exact ⟨_, henabled, _, congrArg some hname, _, haddress, _, hprints, _, hcapacity, _, hshows, _,
      hlevel, rfl⟩

end Settings

end AuctionLog
