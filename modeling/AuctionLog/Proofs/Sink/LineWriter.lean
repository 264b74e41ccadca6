import AuctionLog.Proofs.Sink.Offer
import AuctionLog.Sink.LineWriter

/-!
# What has been written out

A line is first in the queue, then with the writer, and byte by byte on the device. While the
writer runs, the three together are all the lines that were taken, in order. A writer that stops
leaves what it has written, and nobody can put a line into its queue any more.
-/

namespace AuctionLog

/-- Whether a device takes what it is given, however little at a time. -/
structure Device.NeverFails (device : Device) : Prop where
  open_ : device.broken = false
  roomy : device.room = none
  takes : device.burst ≠ some 0
  flushes : device.flushes = true

namespace Device

variable {device : Device} {bytes : List UInt8}

/-- What a write leaves: some of the bytes are behind those written before, and the rest is left
over. -/
theorem write_eq_ok {next : Device} {rest : List UInt8}
    (hwrite : device.write bytes = .ok (next, rest)) :
    ∃ count, 0 < count ∧ next = { device with written := device.written ++ bytes.take count } ∧
      rest = bytes.drop count := by
  unfold write at hwrite
  split_ifs at hwrite
  split at hwrite
  · simp at hwrite
  · rename_i count hcount
    obtain ⟨rfl, rfl⟩ := Prod.mk.inj (Except.ok.inj hwrite)
    exact ⟨_, Nat.pos_of_ne_zero hcount, rfl, rfl⟩

theorem NeverFails.write_ne_error (hdevice : device.NeverFails) (hbytes : bytes ≠ [])
    (fault : WriteFault) : device.write bytes ≠ .error fault := by
  have hlength : 0 < bytes.length := List.length_pos_iff.mpr hbytes
  have haccepts : device.accepts bytes.length ≠ 0 := by
    rw [accepts, hdevice.roomy]
    cases hburst : device.burst with
    | none =>
        simp only [Option.getD_none]
        omega
    | some most =>
        have hmost : most ≠ 0 := fun hzero => hdevice.takes (hzero ▸ hburst)
        simp only [Option.getD_some]
        omega
  unfold write isFull
  rw [hdevice.roomy, hdevice.open_]
  split
  · contradiction
  · simp

theorem NeverFails.flush (hdevice : device.NeverFails) : device.flush = none :=
  if_pos hdevice.flushes

theorem NeverFails.written (hdevice : device.NeverFails) (written : List UInt8) :
    NeverFails { device with written } :=
  ⟨hdevice.open_, hdevice.roomy, hdevice.takes, hdevice.flushes⟩

end Device

namespace LineWriter

inductive Moves (writer : LineWriter) (queue : Queue) : LineWriter × Queue → Prop where
  | stopped (hstatus : writer.status ≠ .running) : Moves writer queue (writer, queue)
  | takes {line : String} {rest : List String} (hstatus : writer.status = .running)
      (hpending : writer.pending = []) (hlines : queue.lines = line :: rest) :
      Moves writer queue
        ({ writer with pending := lineBytes line }, { queue with lines := rest })
  | waits (hstatus : writer.status = .running) (hpending : writer.pending = [])
      (hlines : queue.lines = []) (hopen : queue.receiver = .listening ∧ 0 < queue.senders) :
      Moves writer queue (writer, queue)
  | ends (hstatus : writer.status = .running) (hpending : writer.pending = [])
      (hlines : queue.lines = []) (hclosed : ¬ (queue.receiver = .listening ∧ 0 < queue.senders)) :
      Moves writer queue
        ({ writer with status := .ended writer.device.flush }, queue.dropReceiver)
  | writes {count : Nat} (hstatus : writer.status = .running) (hpending : writer.pending ≠ [])
      (hcount : 0 < count) :
      Moves writer queue
        ({ writer with
            device := { writer.device with
              written := writer.device.written ++ writer.pending.take count }
            pending := writer.pending.drop count }, queue)
  | fails {fault : WriteFault} (hstatus : writer.status = .running)
      (hpending : writer.pending ≠ [])
      (hwrite : writer.device.write writer.pending = .error fault) :
      Moves writer queue ({ writer with status := .failed fault }, queue.dropReceiver)

theorem step_moves (writer : LineWriter) (queue : Queue) :
    Moves writer queue (writer.step queue) := by
  unfold step
  split
  · rename_i hstatus hpending
    unfold Queue.receive
    cases hlines : queue.lines with
    | cons line rest => exact .takes hstatus hpending hlines
    | nil =>
        split_ifs with hopen
        · exact .waits hstatus hpending hlines hopen
        · exact .ends hstatus hpending hlines hopen
  · rename_i hstatus hpending
    cases hwrite : writer.device.write writer.pending with
    | error fault => exact .fails hstatus hpending hwrite
    | ok left =>
        obtain ⟨device, rest⟩ := left
        obtain ⟨count, hcount, rfl, rfl⟩ := Device.write_eq_ok hwrite
        exact .writes hstatus hpending hcount
  · rename_i hstatus _
    exact .stopped hstatus

def bytesOf (lines : List String) : List UInt8 :=
  lines.flatMap lineBytes

/-- What is true of a writer and its queue, given the lines that were taken so far. -/
structure Delivers (lines : List String) (writer : LineWriter) (queue : Queue) : Prop where
  written : writer.device.written <+: bytesOf lines
  running : writer.status = .running → queue.receiver = .listening ∧
    writer.device.written ++ (writer.pending ++ bytesOf queue.lines) = bytesOf lines
  stopped : writer.status ≠ .running → queue.receiver = .gone
  ended : ∀ fault, writer.status = .ended fault → writer.device.written = bytesOf lines

namespace Delivers

variable {lines : List String} {writer : LineWriter} {queue : Queue}

theorem start {device : Device} (hfresh : device.written = []) (capacity : Nat) :
    Delivers [] (LineWriter.start device) (.fresh capacity) where
  written := by simp [LineWriter.start, hfresh]
  running := by simp [LineWriter.start, hfresh, bytesOf, Queue.fresh]
  stopped := by simp [LineWriter.start]
  ended := by simp [LineWriter.start]

/-- A line that the queue takes is one that will be written. -/
theorem offered (hdelivers : Delivers lines writer queue) {line : String} {next : Queue}
    (htaken : queue.offer line = .ok next) : Delivers (lines ++ [line]) writer next := by
  obtain ⟨hlistening, -, rfl⟩ := Queue.offer_eq_ok_iff.mp htaken
  have hrunning : writer.status = .running := by
    by_contra hstopped
    simp [hdelivers.stopped hstopped] at hlistening
  have hbytes : bytesOf (lines ++ [line]) = bytesOf lines ++ lineBytes line := by
    simp [bytesOf]
  refine ⟨?_, fun _ => ⟨hlistening, ?_⟩, fun hstopped => absurd hrunning hstopped, ?_⟩
  · rw [hbytes]
    exact hdelivers.written.trans (List.prefix_append _ _)
  · rw [hbytes, ← (hdelivers.running hrunning).2]
    simp [bytesOf]
  · intro fault hended
    simp [hended] at hrunning

theorem step (hdelivers : Delivers lines writer queue) :
    Delivers lines (writer.step queue).1 (writer.step queue).2 := by
  have hmoves := writer.step_moves queue
  generalize writer.step queue = next at *
  cases hmoves with
  | stopped | waits => exact hdelivers
  | takes hstatus hpending hlines =>
      obtain ⟨hlistening, hbytes⟩ := hdelivers.running hstatus
      refine { hdelivers with running := fun _ => ⟨hlistening, ?_⟩ }
      rw [← hbytes, hpending, hlines]
      simp [bytesOf]
  | ends hstatus hpending hlines =>
      obtain ⟨-, hbytes⟩ := hdelivers.running hstatus
      refine ⟨hdelivers.written, nofun, fun _ => rfl, fun _ _ => ?_⟩
      rw [← hbytes, hpending, hlines]
      simp [bytesOf]
  | @writes count hstatus hpending hcount =>
      obtain ⟨hlistening, hbytes⟩ := hdelivers.running hstatus
      have hsplit : writer.device.written ++ writer.pending.take count ++
          (writer.pending.drop count ++ bytesOf queue.lines) = bytesOf lines := by
        rw [← hbytes, List.append_assoc, ← List.append_assoc (writer.pending.take count),
          List.take_append_drop]
      refine ⟨⟨_, hsplit⟩, fun _ => ⟨hlistening, hsplit⟩, hdelivers.stopped, ?_⟩
      intro fault hended
      simp [hstatus] at hended
  | fails hstatus => exact ⟨hdelivers.written, nofun, fun _ => rfl, nofun⟩

theorem withSenders (hdelivers : Delivers lines writer queue) (senders : Nat) :
    Delivers lines writer { queue with senders } :=
  ⟨hdelivers.written, hdelivers.running, hdelivers.stopped, hdelivers.ended⟩

/-- The device may change in all but what has been written to it. -/
theorem withDevice (hdelivers : Delivers lines writer queue) {device : Device}
    (hwritten : device.written = writer.device.written) :
    Delivers lines { writer with device } queue := by
  refine ⟨?_, ?_, hdelivers.stopped, ?_⟩
  · rw [hwritten]
    exact hdelivers.written
  · intro hstatus
    rw [hwritten]
    exact hdelivers.running hstatus
  · intro fault hended
    rw [hwritten]
    exact hdelivers.ended fault hended

end Delivers

/-! ## Coming to an end -/

variable {writer : LineWriter} {queue : Queue}

theorem step_of_stopped (hstatus : writer.status ≠ .running) :
    writer.step queue = (writer, queue) := by
  have hmoves := writer.step_moves queue
  generalize writer.step queue = next at *
  cases hmoves with
  | stopped | waits => rfl
  | takes hrunning | ends hrunning | writes hrunning | fails hrunning =>
    exact absurd hrunning hstatus

/-- A writer whose device never fails stops only at the end of its queue, and without a fault. -/
theorem step_status (hdevice : writer.device.NeverFails) (hstatus : writer.status = .running) :
    (writer.step queue).1.status = .running ∨ (writer.step queue).1.status = .ended none := by
  have hmoves := writer.step_moves queue
  generalize writer.step queue = next at *
  cases hmoves with
  | stopped | waits | takes | writes => exact .inl hstatus
  | ends =>
      right
      rw [hdevice.flush]
  | fails _ hpending hwrite => exact absurd hwrite (hdevice.write_ne_error hpending _)

theorem step_neverFails (hdevice : writer.device.NeverFails) :
    (writer.step queue).1.device.NeverFails := by
  have hmoves := writer.step_moves queue
  generalize writer.step queue = next at *
  cases hmoves with
  | writes => exact hdevice.written _
  | stopped | waits | takes | ends | fails => exact hdevice

theorem step_senders (writer : LineWriter) (queue : Queue) :
    (writer.step queue).2.senders = queue.senders := by
  have hmoves := writer.step_moves queue
  generalize writer.step queue = next at *
  cases hmoves <;> rfl

/-- A writer with a device that never fails goes on as long as there is a sender. -/
theorem step_running (hdevice : writer.device.NeverFails) (hstatus : writer.status = .running)
    (hreceiver : queue.receiver = .listening) (hsenders : 0 < queue.senders) :
    (writer.step queue).1.status = .running ∧ (writer.step queue).2.receiver = .listening ∧
      (writer.step queue).2.capacity = queue.capacity := by
  have hmoves := writer.step_moves queue
  generalize writer.step queue = next at *
  cases hmoves with
  | stopped | waits | takes | writes => exact ⟨hstatus, hreceiver, rfl⟩
  | ends _ _ _ hclosed => exact absurd ⟨hreceiver, hsenders⟩ hclosed
  | fails _ hpending hwrite => exact absurd hwrite (hdevice.write_ne_error hpending _)

/-- Once no sender is left, each step brings a writer that goes on nearer to the end. -/
theorem work_step_lt (hsenders : queue.senders = 0)
    (hrunning : (writer.step queue).1.status = .running) :
    (writer.step queue).1.work (writer.step queue).2 < writer.work queue := by
  have hmoves := writer.step_moves queue
  generalize writer.step queue = next at *
  cases hmoves with
  | stopped hstatus => exact absurd hrunning hstatus
  | waits _ _ _ hopen => omega
  | takes _ hpending hlines =>
      simp only [work, hpending, hlines, List.foldr_cons, List.length_nil]
      omega
  | ends => simp at hrunning
  | @writes count _ hpending hcount =>
      have hlength : 0 < writer.pending.length := List.length_pos_iff.mpr hpending
      simp only [work, List.length_drop]
      omega
  | fails => simp at hrunning

theorem work_pos (writer : LineWriter) (queue : Queue) : 0 < writer.work queue := by
  have hpos : 0 < queue.lines.foldr (fun line steps => (lineBytes line).length + 1 + steps) 1 := by
    cases queue.lines with
    | nil => decide
    | cons line rest =>
        rw [List.foldr_cons]
        omega
  unfold work
  omega

end LineWriter

end AuctionLog
