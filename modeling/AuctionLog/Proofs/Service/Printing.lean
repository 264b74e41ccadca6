import AuctionLog.Proofs.Json.RoundTrip
import AuctionLog.Proofs.Service.Stopping

/-!
# A service that prints its records

Whatever the order in which requests come and the writer gets to work, the output holds the lines of
the records that were accepted, as far as it has got, and after the shutdown all of them. An output
that fails stops the writer, which only the records notice: they find the queue closed, while the
requests are answered as before.
-/

namespace AuctionLog.Service

/-- What is promised of the lines that a service prints to an output, whatever happens to it. -/
structure PrintsFaithfully (output : Device) (service : Service) : Prop where
  inOrder : ∀ steps, (service.run steps).printed <+: linesOf (service.accepted steps)
  counted : ∀ steps,
    (service.run steps).station.counts.processed = (service.accepted steps).map (·.endpoint)
  /-- After the shutdown the writer stops, if only it is given enough steps. -/
  comesToEnd : ∀ steps, ∃ enough, ∀ ending, (∀ step ∈ ending, step.isRequest = false) →
    enough ≤ ending.countP ServiceStep.isWrite →
      (service.run (steps ++ .close :: ending)).Stopped
  /-- Unless the output failed, all lines have been printed then, and can be told apart. -/
  complete : output.NeverFails → ∀ steps ending, (∀ step ∈ steps ++ ending, step.NeverFails) →
    (∀ step ∈ ending, step.isRequest = false) →
    (service.run (steps ++ .close :: ending)).Stopped →
      (service.run (steps ++ .close :: ending)).writer.map (·.status) = some (.ended none) ∧
      (service.run (steps ++ .close :: ending)).printed = linesOf (service.accepted steps) ∧
      Lines.cut (service.run (steps ++ .close :: ending)).printed =
        (service.accepted steps).map fun record => LineWriter.lineBytes record.line
  /-- Once the writer has stopped, nothing more is printed and each line is refused, but an event
  that can be read is acknowledged as ever. -/
  afterwards : ∀ steps more, (service.run steps).Stopped →
    (service.run (steps ++ more)).printed = (service.run steps).printed ∧
    (∀ line, ((service.run (steps ++ more)).station.sink.offer line).refusal =
      some "queue closed") ∧
    ∀ request value, request.PostsEvent → request.body.length ≤ Http.Site.maxBody →
      Json.parse request.body = .ok value →
        ((service.run (steps ++ more)).handle request).1 = .acknowledge .ok

variable {service : Service} {output : Device}

theorem printsFaithfully_of_prints (hprints : Prints [] service)
    (hhealthy : output.NeverFails → service.Healthy) : service.PrintsFaithfully output where
  inOrder steps := (hprints.run steps).printed
  counted steps := (hprints.run steps).counted
  comesToEnd steps := by
    obtain ⟨writer, queue, hwriter, hsink, -⟩ := (hprints.run steps).delivers
    refine ⟨writer.work queue, fun ending hending henough => ?_⟩
    have hlast := (closing_close hwriter hsink).run hending
    rw [Nat.sub_eq_zero_of_le henough] at hlast
    rw [run_append]
    exact hlast.stopped
  complete houtput steps ending hnever hending hstopped := by
    obtain ⟨hsteps, hrest⟩ := List.forall_mem_append.mp hnever
    have haccepted : service.accepted (steps ++ .close :: ending) = service.accepted steps := by
      have hnone : ∀ step ∈ ServiceStep.close :: ending, step.isRequest = false :=
        List.forall_mem_cons.mpr ⟨rfl, hending⟩
      rw [accepted_append, accepted_eq_nil hnone, List.append_nil]
    have hlast := (hprints.run (steps ++ .close :: ending)).delivers
    have hhealthy : (service.run (steps ++ .close :: ending)).Healthy := by
      refine (hhealthy houtput).run (List.forall_mem_append.mpr ⟨hsteps, ?_⟩)
      exact List.forall_mem_cons.mpr ⟨trivial, hrest⟩
    rw [List.nil_append, haccepted] at hlast
    generalize service.run (steps ++ .close :: ending) = last at *
    obtain ⟨writer, queue, hwriter, -, hdelivers⟩ := hlast
    obtain ⟨stopped, hmem, hstatus⟩ := hstopped
    obtain rfl := Option.some.inj (hwriter.symm.trans hmem)
    obtain ⟨healthy, hmem, -, hrunning | hended⟩ := hhealthy
    · obtain rfl := Option.some.inj (hwriter.symm.trans hmem)
      exact absurd hrunning hstatus
    · obtain rfl := Option.some.inj (hwriter.symm.trans hmem)
      have hprinted : last.printed = linesOf (service.accepted steps) := by
        rw [printed, hwriter, linesOf_eq]
        exact hdelivers.ended none hended
      refine ⟨?_, hprinted, ?_⟩
      · rw [hwriter, Option.map_some, hended]
      · rw [hprinted, cut_linesOf]
  afterwards steps more hstopped := by
    have hlater := hstopped.run more
    rw [← run_append] at hlater
    refine ⟨hlater.2, fun line => (hprints.run _).offer_of_stopped hlater.1 line, ?_⟩
    intro request value hposts hsize hparse
    rw [handle, Http.Site.handle_response, Http.Site.answer_of_postsEvent hposts]
    exact Http.Site.acceptEvent_response hsize hparse

theorem start_of_new {settings : Settings} (henabled : settings.enabled)
    (hprints : settings.printsRecords) {queue : Queue}
    (hqueue : Queue.new settings.queueCapacity = .ok queue) :
    start settings output = .ok
      { site := ⟨some ⟨settings.name, Encoder.json⟩, settings.showsCounters⟩
        station := .start (.queue queue)
        writer := some (.start output) } := by
  simp only [start, henabled, hprints, hqueue, Bool.not_true, Bool.false_eq_true, if_false, if_true]

/-- **Records are printed as they are accepted**: by every service that is set up to print. It can
be started with each capacity that a queue can have. -/
theorem start_printsFaithfully {settings : Settings} (henabled : settings.enabled)
    (hprints : settings.printsRecords) (hcapacity : 0 < settings.queueCapacity)
    (hfresh : output.written = []) :
    (settings.queueCapacity ≤ Queue.maxCapacity → ∃ service, start settings output = .ok service) ∧
      ∀ service, start settings output = .ok service → service.PrintsFaithfully output := by
  constructor
  · intro hmost
    have hqueue := Queue.new_eq_ok_iff.mpr ⟨hcapacity, hmost, rfl⟩
    exact ⟨_, start_of_new henabled hprints hqueue⟩
  · intro service hservice
    cases hqueue : Queue.new settings.queueCapacity with
    | error fault => simp [start, henabled, hprints, hqueue] at hservice
    | ok queue =>
        rw [start_of_new henabled hprints hqueue] at hservice
        obtain rfl := Except.ok.inj hservice
        obtain ⟨-, -, rfl⟩ := Queue.new_eq_ok_iff.mp hqueue
        refine printsFaithfully_of_prints ⟨⟨_, rfl⟩, ⟨_, _, rfl, rfl, ?_⟩, rfl⟩ fun houtput => ?_
        · exact LineWriter.Delivers.start hfresh _
        · exact ⟨_, rfl, houtput, .inl rfl⟩

def onePrinting : Settings :=
  { enabled := true
    name := Recorder.defaultName
    address := ⟨.v4 [127, 0, 0, 1], 3000⟩
    printsRecords := true
    queueCapacity := 1
    showsCounters := false
    journalLevel := .info }

theorem onePrinting_printsFaithfully :
    ∃ service, start onePrinting .reliable = .ok service ∧
      service.PrintsFaithfully .reliable := by
  have hstart := @start_printsFaithfully .reliable onePrinting rfl rfl (by decide) rfl
  obtain ⟨service, hservice⟩ := hstart.1 (by decide)
  exact ⟨service, hservice, hstart.2 service hservice⟩

/-- A request that posts the text of a value, with blanks behind it. -/
def post (value : Json) (blanks : Nat) : Http.Request :=
  { method := "POST"
    target := "/event"
    body := Utf8.encode value.compact.toList ++ List.replicate blanks 0x20 }

/-- A list in a list, and so on. -/
def nested : Nat → Json
  | 0 => .arr []
  | levels + 1 => .arr [nested levels]

theorem depth_nested (levels : Nat) : (nested levels).depth = levels + 1 := by
  induction levels with
  | zero => rfl
  | succ levels ih => simp [nested, Json.depth, Json.itemsDepth, ih]

theorem allDoubles_nested {P : Double → Prop} (levels : Nat) : (nested levels).AllDoubles P := by
  induction levels with
  | zero => exact Json.allDoubles_arr.mpr (List.forall_mem_nil _)
  | succ levels ih => exact Json.allDoubles_arr.mpr (List.forall_mem_singleton.mpr ih)

theorem length_nested (levels : Nat) :
    (Utf8.encode (nested levels).chars).length = 2 * levels + 2 := by
  have hopen : String.utf8EncodeChar '[' = [0x5B] := rfl
  have hclose : String.utf8EncodeChar ']' = [0x5D] := rfl
  induction levels with
  | zero => rfl
  | succ levels ih =>
      simp only [nested, Json.chars, Json.itemChars, Json.separated, Utf8.encode_cons,
        Utf8.encode_append, Utf8.encode_nil, hopen, hclose, List.length_append, List.length_cons,
        List.length_nil, ih]
      omega

theorem postsEvent_post (value : Json) (blanks : Nat) : (post value blanks).PostsEvent := by
  have hpath : Http.Target.path "/event" = "/event" := by decide
  exact ⟨rfl, hpath⟩

theorem handle_post (value : Json) (blanks : Nat) (service : Service) :
    (service.handle (post value blanks)).1 =
      (service.site.acceptEvent (post value blanks).body service.station).1 := by
  rw [handle, Http.Site.handle_response,
    Http.Site.answer_of_postsEvent (postsEvent_post value blanks)]

theorem status_of_tooLarge {value : Json} {blanks : Nat} (hblanks : Http.Site.maxBody < blanks) :
    (service.handle (post value blanks)).1.status = 413 := by
  have hsize : Http.Site.maxBody < (post value blanks).body.length := by
    rw [post, List.length_append, List.length_replicate]
    omega
  rw [handle_post, Http.Site.acceptEvent, if_pos hsize]
  rfl

theorem status_of_tooDeep {value : Json} (hdoubles : value.AllDoubles Double.Survives)
    (hdepth : Json.maxLevels < value.depth)
    (hsize : (post value 0).body.length ≤ Http.Site.maxBody) :
    (service.handle (post value 0)).1.status = 400 := by
  obtain ⟨rest, hparse⟩ := Json.parse_compact_of_deep hdoubles hdepth
  have hbody : (post value 0).body = Utf8.encode value.compact.toList := by
    rw [post, List.replicate_zero, List.append_nil]
  rw [handle_post, Http.Site.acceptEvent, if_neg (Nat.not_lt.mpr hsize), hbody, hparse]
  rfl

/-- After a failure of the output as before it, a value is not acknowledged whose body is longer
than what is read, nor one that nests too deep. -/
theorem unacknowledged_after_failure :
    ∃ service, start onePrinting { Device.reliable with broken := true } = .ok service ∧
      (service.run [.request (post .null 0), .write, .write]).Stopped ∧
      Json.parse (post .null 2097153).body = .ok .null ∧
      ((service.run [.request (post .null 0), .write, .write]).handle
        (post .null 2097153)).1.status = 413 ∧
      ((service.run [.request (post .null 0), .write, .write]).handle
        (post (nested 127) 0)).1.status = 400 := by
  have hparse := Json.parse_compact_append Json.allDoubles_null (Nat.zero_le _) 2097153
  have hdeep : Json.maxLevels < (nested 127).depth := by
    rw [depth_nested]
    decide
  have hsize : (post (nested 127) 0).body.length ≤ Http.Site.maxBody := by
    rw [post, List.replicate_zero, List.append_nil, Json.compact, String.toList_ofList,
      length_nested]
    decide
  refine ⟨_, rfl, ⟨_, rfl, by decide⟩, hparse, status_of_tooLarge (by decide), ?_⟩
  exact status_of_tooDeep (allDoubles_nested _) hdeep hsize

end AuctionLog.Service
