import AuctionLog.Proofs.Service.Printing

/-!
# Serving requests one after another

A service that lets its writer catch up after every request goes through one of the orders in which
things can happen to it. As the queue is empty whenever a request comes, no record is refused, and a
session prints one line for each of its requests that there is a record of.
-/

namespace AuctionLog

namespace LineWriter

variable {writer : LineWriter} {queue : Queue}

theorem run_succ (steps : Nat) (writer : LineWriter) (queue : Queue) :
    run (steps + 1) writer queue = run steps (writer.step queue).1 (writer.step queue).2 := rfl

theorem run_of_unmoved (hstep : writer.step queue = (writer, queue)) (steps : Nat) :
    run steps writer queue = (writer, queue) := by
  induction steps with
  | zero => rfl
  | succ steps ih => rw [run_succ, hstep, ih]

theorem run_of_stopped (hstatus : writer.status ≠ .running) (steps : Nat) :
    run steps writer queue = (writer, queue) :=
  run_of_unmoved (step_of_stopped hstatus) steps

/-- With enough steps a writer comes to the end of what is queued, unless it stops. -/
theorem run_settles {steps : Nat} (hsteps : writer.work queue ≤ steps)
    (hrunning : (run steps writer queue).1.status = .running) :
    (run steps writer queue).1.pending = [] ∧ (run steps writer queue).2.lines = [] := by
  induction steps generalizing writer queue with
  | zero =>
      have hpos := writer.work_pos queue
      omega
  | succ steps ih =>
      rw [run_succ] at hrunning ⊢
      have hmoves := writer.step_moves queue
      have hunmoved := @run_of_unmoved writer queue
      generalize writer.step queue = next at *
      cases hmoves with
      | stopped hstatus =>
          rw [hunmoved rfl] at hrunning
          exact absurd hrunning hstatus
      | waits _ hpending hlines =>
          rw [hunmoved rfl]
          exact ⟨hpending, hlines⟩
      | takes _ hpending hlines =>
          refine ih ?_ hrunning
          simp only [work, hpending, hlines, List.foldr_cons, List.length_nil] at hsteps ⊢
          omega
      | writes _ hpending hcount =>
          have hlength : 0 < writer.pending.length := List.length_pos_iff.mpr hpending
          refine ih ?_ hrunning
          simp only [work, List.length_drop] at hsteps ⊢
          omega
      | ends | fails =>
          rw [run_of_stopped (by simp)] at hrunning
          simp at hrunning

end LineWriter

namespace Service

variable {service : Service} {writer : LineWriter} {queue : Queue}

theorem advance_def (hwriter : service.writer = some writer)
    (hsink : service.station.sink = .queue queue) (use : LineWriter → Queue → LineWriter × Queue) :
    service.advance use =
      { service with
        writer := some (use writer queue).1
        station :=
          if writer.status = .running ∧ (use writer queue).1.status ≠ .running then
            Station.noteAll { service.station with sink := .queue (use writer queue).2 }
              (stopEntries (use writer queue).1)
          else { service.station with sink := .queue (use writer queue).2 } } := by
  simp only [advance, hwriter, hsink]

/-- Any number of steps of the writer at once are as many steps of the service. -/
theorem advance_run (hwriter : service.writer = some writer)
    (hsink : service.station.sink = .queue queue) (steps : Nat) :
    service.advance (LineWriter.run steps) = service.run (List.replicate steps .write) := by
  induction steps generalizing service writer queue with
  | zero =>
      rw [advance_def hwriter hsink, if_neg (by simp [LineWriter.run])]
      simp only [LineWriter.run, ← hwriter, ← hsink]
      rfl
  | succ steps ih =>
      obtain ⟨-, hnext, hqueue, -⟩ := advance_eq hwriter hsink LineWriter.step
      refine Eq.trans ?_ (ih hnext hqueue)
      rw [Service.step, writeStep, advance_def hnext hqueue, advance_def hwriter hsink,
        advance_def hwriter hsink, LineWriter.run_succ]
      by_cases hstatus : (writer.step queue).1.status = .running
      · have hbefore : writer.status = .running := by
          by_contra hstopped
          rw [LineWriter.step_of_stopped hstopped] at hstatus
          exact hstopped hstatus
        simp [hstatus, hbefore]
      · rw [LineWriter.run_of_stopped hstatus]
        by_cases hbefore : writer.status = .running
        · simp [hstatus, hbefore, Station.noteAll]
        · simp [hstatus, hbefore]

theorem write_eq_run (hwriter : service.writer = some writer)
    (hsink : service.station.sink = .queue queue) :
    service.write = service.run (List.replicate (writer.work queue) .write) := by
  rw [← advance_run hwriter hsink, write, advance_def hwriter hsink, advance_def hwriter hsink]
  rfl

/-- Whether a service takes lines and its writer is at work. -/
def Open (service : Service) : Prop :=
  ∃ writer queue, service.writer = some writer ∧ service.station.sink = .queue queue ∧
    writer.status = .running ∧ writer.device.NeverFails ∧ queue.receiver = .listening ∧
    0 < queue.senders ∧ 0 < queue.capacity

theorem Open.write (hopen : service.Open) : service.writeStep.Open := by
  obtain ⟨writer, queue, hwriter, hsink, hstatus, hdevice, hreceiver, hsenders, hcapacity⟩ := hopen
  obtain ⟨-, hnext, hqueue, -⟩ := advance_eq hwriter hsink LineWriter.step
  obtain ⟨hstatus, hreceiver, hsame⟩ := LineWriter.step_running hdevice hstatus hreceiver hsenders
  refine ⟨_, _, hnext, hqueue, hstatus, LineWriter.step_neverFails hdevice, hreceiver, ?_, ?_⟩
  · rwa [LineWriter.step_senders]
  · rwa [hsame]

theorem Open.writes (hopen : service.Open) (steps : Nat) :
    (service.run (List.replicate steps .write)).Open := by
  induction steps generalizing service with
  | zero => exact hopen
  | succ steps ih => exact ih hopen.write

/-- A request that finds the queue empty has its record accepted, if there is one. -/
theorem Open.request (hopen : service.Open) {name : String}
    (hrecorder : service.site.recorder = some ⟨name, Encoder.json⟩)
    (hidle : service.station.sink.lines = []) (request : Http.Request) :
    (service.handle request).2.Open ∧
      request.accepted? service.station.sink = request.record? := by
  obtain ⟨writer, queue, hwriter, hsink, hstatus, hdevice, hreceiver, hsenders, hcapacity⟩ := hopen
  rw [hsink, Sink.lines] at hidle
  have htaken : ∀ line, queue.offer line = .ok { queue with lines := queue.lines ++ [line] } := by
    intro line
    refine Queue.offer_eq_ok_iff.mpr ⟨hreceiver, ?_, rfl⟩
    rwa [hidle]
  obtain ⟨hnext, -⟩ :=
    @Http.Site.handle_recording service.site request service.station name hrecorder
  rw [Http.Request.accepted?, hsink]
  rw [hsink] at hnext
  cases hrecord : request.record? with
  | none =>
      rw [hrecord] at hnext
      exact ⟨⟨writer, queue, hwriter, hnext, hstatus, hdevice, hreceiver, hsenders, hcapacity⟩, rfl⟩
  | some record =>
      rw [hrecord, Option.map_some, Option.getD_some, Sink.offer, htaken] at hnext
      refine ⟨⟨writer, _, hwriter, hnext, hstatus, hdevice, hreceiver, hsenders, hcapacity⟩, ?_⟩
      simp [Sink.offer, htaken]

theorem Open.write_idle (hopen : service.Open) :
    service.write.Open ∧ service.write.station.sink.lines = [] := by
  have hwrites := hopen.writes
  obtain ⟨writer, queue, hwriter, hsink, -⟩ := hopen
  have hlast : service.write.Open := by
    rw [write_eq_run hwriter hsink]
    exact hwrites _
  refine ⟨hlast, ?_⟩
  obtain ⟨-, hnext, hqueue, -⟩ := advance_eq hwriter hsink LineWriter.catchUp
  obtain ⟨last, _, hmem, -, hrunning, -⟩ := hlast
  have hsame : (writer.catchUp queue).1 = last := Option.some.inj (hnext.symm.trans hmem)
  have hsettled := LineWriter.run_settles (Nat.le_refl (writer.work queue))
    (hsame ▸ hrunning)
  rw [Service.write, hqueue, Sink.lines]
  exact hsettled.2

/-- Answering requests one after another is a run that accepts all their records. -/
theorem Prints.answerAll {records : List LogRecord} (hprints : Prints records service)
    (hopen : service.Open) (hidle : service.station.sink.lines = [])
    (requests : List Http.Request) :
    ∃ steps, (service.answerAll requests).2 = service.run steps ∧
      service.accepted steps = requests.filterMap (·.record?) ∧
      (∀ step ∈ steps, step.NeverFails) ∧ (service.run steps).Open := by
  induction requests generalizing service records with
  | nil => exact ⟨[], rfl, rfl, nofun, hopen⟩
  | cons request rest ih =>
      obtain ⟨name, hrecorder⟩ := hprints.recorder
      obtain ⟨hanswered, haccepted⟩ := hopen.request hrecorder hidle request
      have hcaught := hanswered.write_idle
      obtain ⟨writer, queue, hwriter, hsink, -⟩ := hanswered
      have hwrite := write_eq_run hwriter hsink
      have hprintsNext := (hprints.request request).run (List.replicate (writer.work queue) .write)
      rw [← hwrite] at hprintsNext
      obtain ⟨steps, hrun, hrecords, hnever, hlast⟩ := ih hprintsNext hcaught.1 hcaught.2
      have hsteps : service.run
          (.request request :: (List.replicate (writer.work queue) .write ++ steps)) =
          ((service.handle request).2.write).run steps := by
        rw [hwrite, ← run_append]
        rfl
      refine ⟨.request request :: (List.replicate (writer.work queue) .write ++ steps),
        ?_, ?_, ?_, ?_⟩
      · rw [hsteps, ← hrun]
        rfl
      · have hnone : ∀ step ∈ List.replicate (writer.work queue) ServiceStep.write,
            step.isRequest = false :=
          List.forall_mem_replicate.mpr (.inr rfl)
        have hrest : (service.step (.request request)).accepted
            (List.replicate (writer.work queue) .write ++ steps) = rest.filterMap (·.record?) := by
          rw [accepted_append, accepted_eq_nil hnone, List.nil_append, ← hrecords, hwrite]
          rfl
        rw [accepted, hrest, accepted?, haccepted, List.filterMap_cons]
        cases request.record? <;> rfl
      · refine List.forall_mem_cons.mpr ⟨trivial, List.forall_mem_append.mpr ⟨?_, hnever⟩⟩
        exact List.forall_mem_replicate.mpr (.inr trivial)
      · rwa [hsteps]

theorem Prints.serve {output : Device} (hprints : Prints [] service) (hopen : service.Open)
    (hidle : service.station.sink.lines = []) (houtput : output.NeverFails)
    (hhealthy : service.Healthy) (requests : List Http.Request) :
    (service.serve requests).2.printed = linesOf (requests.filterMap (·.record?)) := by
  obtain ⟨steps, hanswered, haccepted, hnever, hlast⟩ := hprints.answerAll hopen hidle requests
  obtain ⟨writer, queue, hwriter, hsink, -⟩ := hlast
  have hclosed : (service.run steps).close.station.sink = .queue { queue with senders := 0 } := by
    rw [Service.close, hsink]
  have hwrite := write_eq_run ((close_writer _).trans hwriter) hclosed
  set ending := List.replicate (writer.work { queue with senders := 0 }) ServiceStep.write
    with hending
  have hserved : (service.serve requests).2 = service.run (steps ++ .close :: ending) := by
    have hserve : (service.serve requests).2 = (service.answerAll requests).2.close.write := rfl
    rw [hserve, hanswered, hwrite, run_append]
    rfl
  have hrequests : ∀ step ∈ ending, step.isRequest = false :=
    List.forall_mem_replicate.mpr (.inr rfl)
  have hfine : ∀ step ∈ steps ++ ending, step.NeverFails :=
    List.forall_mem_append.mpr ⟨hnever, List.forall_mem_replicate.mpr (.inr trivial)⟩
  have hstopped : (service.run (steps ++ .close :: ending)).Stopped := by
    have hclosing := (closing_close hwriter hsink).run hrequests
    have hcount : ending.countP ServiceStep.isWrite = writer.work queue := by
      rw [hending, List.countP_replicate]
      rfl
    rw [hcount, Nat.sub_self] at hclosing
    rw [run_append]
    exact hclosing.stopped
  have hpromise := printsFaithfully_of_prints hprints fun _ : output.NeverFails => hhealthy
  rw [hserved, (hpromise.complete houtput steps ending hfine hrequests hstopped).2.1, haccepted]

/-- **A session prints each record once**: over an output that never fails, the lines of the records
of its requests, in order, and nothing else. -/
theorem session_prints_records {settings : Settings} {output : Device} (henabled : settings.enabled)
    (hprints : settings.printsRecords) (hcapacity : 0 < settings.queueCapacity)
    (hmost : settings.queueCapacity ≤ Queue.maxCapacity) (houtput : output.NeverFails)
    (hfresh : output.written = []) (requests : List Http.Request) :
    ∃ served, session settings output requests = .ok served ∧
      served.printed = linesOf (requests.filterMap (·.record?)) := by
  have hqueue := Queue.new_eq_ok_iff.mpr ⟨hcapacity, hmost, rfl⟩
  have hstart := @start_of_new output settings henabled hprints _ hqueue
  set service : Service :=
    { site := ⟨some ⟨settings.name, Encoder.json⟩, settings.showsCounters⟩
      station := .start (.queue (.fresh settings.queueCapacity))
      writer := some (.start output) }
  have hsession : session settings output requests = .ok
      { responses := (service.serve requests).1
        printed := (service.serve requests).2.printed
        journal := (service.serve requests).2.station.journal } := by
    rw [session, hstart]
    rfl
  have hdelivers := LineWriter.Delivers.start hfresh settings.queueCapacity
  have hprints : Prints [] service := ⟨⟨_, rfl⟩, ⟨_, _, rfl, rfl, hdelivers⟩, rfl⟩
  have hopen : service.Open := ⟨_, _, rfl, rfl, rfl, houtput, rfl, Nat.one_pos, hcapacity⟩
  have hhealthy : service.Healthy := ⟨_, rfl, houtput, .inl rfl⟩
  exact ⟨_, hsession, hprints.serve hopen rfl houtput hhealthy requests⟩

end Service

end AuctionLog
