import AuctionLog.Proofs.Json.RoundTrip
import AuctionLog.Proofs.Record.Doubles
import AuctionLog.Proofs.Record.Reported
import AuctionLog.Recorder.Basic

/-!
# The line of a record

A line can be read back, and then denotes the reference object of its record, unless that nests too
deep. What a host reports can be as deep as texts may be; a value that is kept whole is one level
deeper in its record, whereas all else that is recorded of a value has lost a level or more.
-/

namespace AuctionLog

open Json

/-- What an object without a request carries whole is one level down. -/
theorem depth_reference_unknown (value : Json) :
    (LogRecord.reference ⟨.unknown (some value), none⟩).depth = value.depth + 1 := by
  have hmembers : (LogRecord.table ⟨.unknown (some value), none⟩).members =
      [("type", .str "unknown"), ("unknownEvent", value)] := by
    simp [LogRecord.table, Facts.table, Table.merge, Table.members, LogRecord.endpoint,
      Facts.endpoint, Endpoint.path]
  rw [LogRecord.reference, hmembers]
  simp [depth, membersDepth]

/-- What is recorded of a value that was read, by whether it was kept whole. -/
theorem Event.record_cases {value : Json} (hfits : Fits 127 value) {record : LogRecord}
    (hrecord : Event.record (Intake.ofJson value).event = .ok record) :
    ((Intake.ofJson value).event = some (.unrecognized value) ∧
        record = ⟨.unknown (some value), none⟩) ∨
      ((Intake.ofJson value).event ≠ some (.unrecognized value) ∧
        record.facts.Carries (Fits 125)) := by
  obtain ⟨facts, hfacts, hrecord⟩ := bind_eq_ok.mp hrecord
  obtain rfl := Except.ok.inj hrecord
  by_cases hnull : value.isNull
  · have hevent : (Intake.ofJson value).event = none := by
      rw [Intake.ofJson, if_pos hnull, Intake.event]
    rw [hevent] at hfacts ⊢
    obtain rfl := Except.ok.inj hfacts
    exact .inr ⟨nofun, nofun⟩
  by_cases htag : Intake.tag value = .unknown
  · have hevent : (Intake.ofJson value).event = some (.unrecognized value) := by
      rw [Intake.ofJson, if_neg hnull, if_pos htag, Intake.event]
    rw [hevent] at hfacts ⊢
    obtain rfl := Except.ok.inj hfacts
    exact .inl ⟨rfl, rfl⟩
  cases hread : (Event.decoder (Intake.tag value)).ofJson value with
  | error mismatch =>
      have hevent : (Intake.ofJson value).event = some (.unrecognized value) := by
        rw [Intake.ofJson, if_neg hnull, if_neg htag, hread, Intake.event]
      rw [hevent] at hfacts ⊢
      obtain rfl := Except.ok.inj hfacts
      exact .inl ⟨rfl, rfl⟩
  | ok event =>
      have hevent : (Intake.ofJson value).event = some event := by
        rw [Intake.ofJson, if_neg hnull, if_neg htag, hread, Intake.event]
      rw [hevent] at hfacts ⊢
      refine .inr ⟨?_, Event.carries_facts htag hfits hread hfacts⟩
      rintro ⟨⟩
      exact htag (Event.endpoint_of_decoder hread).symm

/-- **The line of a record denotes its reference object**: the encoder of lines gives one for every
record, and it can be read if and only if that object nests no deeper than texts may, and then gives
it, arranged if what the record carries was not. This takes for granted that the doubles among what
the record carries survive. For what is recorded of a text that could be read the object is arranged
already, and is too deep only for a value that was kept whole and was itself as deep as texts may
be. -/
theorem LogRecord.parse_line (record : LogRecord) :
    ∃ line, Encoder.json record = .line line ∧
      (record.facts.Carries (AllDoubles Double.Survives) →
        (∀ read, parse (Utf8.encode line.toList) = .ok read ↔
          record.reference.depth ≤ 127 ∧ read = record.reference.arranged) ∧
        (127 < record.reference.depth →
          ∃ rest, parse (Utf8.encode line.toList) = .error ⟨.tooDeep, rest⟩)) ∧
      ((record.facts.Carries fun value => value.arranged = value) →
        record.reference.arranged = record.reference) ∧
      ∀ body value, parse body = .ok value →
        Event.record (Intake.ofJson value).event = .ok record →
        record.reference.arranged = record.reference ∧
          (127 < record.reference.depth ↔
            (Intake.ofJson value).event = some (.unrecognized value) ∧ value.depth = 127) := by
  obtain ⟨harranged, hdepth⟩ := record.same_reference
  refine ⟨record.line, rfl, fun hdoubles => ?_, fun hcarries => hcarries.arranged_reference, ?_⟩
  · have hwritten := hdoubles.allDoubles_toJson
    have hdeep : 127 < record.reference.depth →
        ∃ rest, parse (Utf8.encode record.line.toList) = .error ⟨.tooDeep, rest⟩ := by
      intro hlt
      exact parse_compact_of_deep hwritten (hdepth ▸ hlt)
    have hparse : record.reference.depth ≤ 127 →
        parse (Utf8.encode record.line.toList) = .ok record.reference.arranged := by
      intro hle
      rw [← harranged]
      exact parse_compact hwritten (hdepth ▸ hle)
    refine ⟨fun read => ⟨fun hread => ?_, ?_⟩, hdeep⟩
    · have hle : record.reference.depth ≤ 127 := by
        by_contra hlt
        obtain ⟨rest, herror⟩ := hdeep (not_le.mp hlt)
        simp [herror] at hread
      exact ⟨hle, Except.ok.inj (hread.symm.trans (hparse hle))⟩
    · rintro ⟨hle, rfl⟩
      exact hparse hle
  · intro body value hparse hrecord
    have hfits := fits_of_parse hparse
    rcases Event.record_cases hfits hrecord with ⟨hevent, rfl⟩ | ⟨hevent, hcarries⟩
    · have hkept : Facts.Carries (fun value => value.arranged = value) (.unknown (some value)) := by
        rintro _ ⟨⟩
        exact hfits.1
      refine ⟨hkept.arranged_reference, ?_⟩
      rw [depth_reference_unknown]
      have hle : value.depth ≤ 127 := hfits.2
      constructor
      · intro hlt
        exact ⟨hevent, by omega⟩
      · rintro ⟨-, hvalue⟩
        omega
    · have hreference : Fits 127 record.reference :=
        hcarries.reference (builds_fits 122) (builds_fits 123)
      refine ⟨hreference.1, iff_of_false (not_lt.mpr hreference.2) ?_⟩
      rintro ⟨hkept, -⟩
      exact hevent hkept

/-- A value that was kept whole, with a double in it. -/
theorem LogRecord.parse_line_oneAndHalf :
    let oneAndHalf : Double :=
      ⟨false, 6755399441055744, 1022, by decide, by decide, by decide⟩
    let kept := Json.obj [("price", .num (.double oneAndHalf))]
    let record : LogRecord := ⟨.unknown (some kept), none⟩
    record.facts.Carries (AllDoubles Double.Survives) ∧
      Encoder.json record = .line record.line ∧
      record.line = "\x7b\"type\":\"unknown\",\"unknownEvent\":\x7b\"price\":1.5\x7d\x7d" ∧
      parse (Utf8.encode record.line.toList) = .ok record.reference := by
  intro oneAndHalf kept record
  have hsurvives : oneAndHalf.Survives :=
    Double.survives_of_short (by decide +kernel) (by decide +kernel)
  have hdoubles : record.facts.Carries (AllDoubles Double.Survives) := by
    rintro _ ⟨⟩
    exact List.forall_mem_singleton.mpr hsurvives
  have hdepth : record.reference.depth ≤ 127 := by
    rw [depth_reference_unknown]
    decide
  have harranged : record.facts.Carries fun value => value.arranged = value := by
    rintro _ ⟨⟩
    rfl
  obtain ⟨line, hline, hread, hreference, -⟩ := record.parse_line
  obtain rfl : record.line = line := Encoded.line.inj hline
  refine ⟨hdoubles, hline, by decide +kernel, ((hread hdoubles).1 _).mpr ⟨hdepth, ?_⟩⟩
  exact (hreference harranged).symm

end AuctionLog
