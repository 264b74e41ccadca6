import AuctionLog.Proofs.Http.Discretion
import AuctionLog.Proofs.Service.Serving
import AuctionLog.Proofs.Settings.Environment

/-!
# Settings that a service can start with

Nothing checks the capacity of the queue when the settings are read. A service that records events
and prints them makes a queue of that capacity, and there is none of capacity zero, nor of one
beyond the greatest. No other settings keep a service from answering its requests.
-/

namespace AuctionLog

/-- Whether an environment asks for events to be recorded and printed, through a queue that there
cannot be. -/
def Settings.AsksForNoQueue (environment : String → Option String) : Prop :=
  flag? (textOf environment "ENABLED" "true") = some true ∧
    flag? (textOf environment "PRINT_SINK" "false") = some true ∧
    ∃ capacity, capacity? (textOf environment "CHANNEL_CAPACITY" "10000") = some capacity ∧
      (capacity = 0 ∨ Queue.maxCapacity < capacity)

namespace Settings

variable {environment : String → Option String} {settings : Settings}

theorem asksForNoQueue_iff (hread : ReadFrom environment settings) :
    AsksForNoQueue environment ↔
      settings.enabled ∧ settings.printsRecords ∧
        (settings.queueCapacity = 0 ∨ Queue.maxCapacity < settings.queueCapacity) := by
  simp only [AsksForNoQueue, hread.enabled, hread.printsRecords, hread.queueCapacity,
    Option.some.injEq, exists_eq_left']

end Settings

namespace Queue

/-- A queue takes as many lines as it has room for. -/
theorem foldlM_offer {queue : Queue} {lines : List String} (hreceiver : queue.receiver = .listening)
    (hroom : queue.lines.length + lines.length ≤ queue.capacity) :
    lines.foldlM offer queue = .ok { queue with lines := queue.lines ++ lines } := by
  induction lines generalizing queue with
  | nil => simp [pure, Except.pure]
  | cons line rest ih =>
      rw [List.length_cons] at hroom
      have htaken : queue.offer line = .ok { queue with lines := queue.lines ++ [line] } :=
        offer_eq_ok_iff.mpr ⟨hreceiver, by omega, rfl⟩
      have hlonger : (queue.lines ++ [line]).length + rest.length ≤ queue.capacity := by
        rw [List.length_append, List.length_singleton]
        omega
      have hrest := @ih { queue with lines := queue.lines ++ [line] } hreceiver hlonger
      rw [List.foldlM_cons, htaken]
      simpa [bind, Except.bind] using hrest

end Queue

namespace Service

variable {settings : Settings} {output : Device}

/-- Starting fails only over the queue. -/
theorem start_eq_error_iff {fault : CapacityFault} :
    start settings output = .error fault ↔
      settings.enabled ∧ settings.printsRecords ∧
        Queue.new settings.queueCapacity = .error fault := by
  unfold start
  cases settings.enabled with
  | false => simp
  | true =>
      cases settings.printsRecords with
      | false => simp
      | true => cases Queue.new settings.queueCapacity <;> simp

theorem exists_start_error_iff :
    (∃ fault, start settings output = .error fault) ↔
      settings.enabled ∧ settings.printsRecords ∧
        (settings.queueCapacity = 0 ∨ Queue.maxCapacity < settings.queueCapacity) := by
  have hnew : (∃ fault, Queue.new settings.queueCapacity = .error fault) ↔
      settings.queueCapacity = 0 ∨ Queue.maxCapacity < settings.queueCapacity := by
    unfold Queue.new
    split_ifs with hzero hgreat
    · simp [hzero]
    · simp [hgreat]
    · simp [hzero, hgreat]
  simp only [start_eq_error_iff, exists_and_left, hnew]

/-- Each request is answered, and a posted event by what its body is. -/
theorem answerAll_responses (service : Service) (requests : List Http.Request) :
    List.Forall₂ (fun request response => request.PostsEvent → response = .toPosted request.body)
      requests (service.answerAll requests).1 := by
  induction requests generalizing service with
  | nil => exact .nil
  | cons request rest ih =>
      exact .cons (fun hposts => Http.Site.handle_eq_toPosted hposts) (ih _)

/-- **A service runs with all settings but some capacities.** With settings read from an
environment, a session panics exactly if the environment asks for a queue that there cannot be.
If it does not panic, all its requests are answered; and if it prints records, its queue takes as
many lines as it has capacity for, and over an output that never fails the record of each request
is printed. -/
theorem session_panics_iff {environment : String → Option String}
    (hsettings : Settings.ofEnvironment environment = .ok settings) (output : Device)
    (requests : List Http.Request) :
    ((∃ fault, session settings output requests = .error fault) ↔
        Settings.AsksForNoQueue environment) ∧
      ∀ served, session settings output requests = .ok served →
        List.Forall₂
            (fun request response => request.PostsEvent → response = .toPosted request.body)
            requests served.responses ∧
          (settings.enabled → settings.printsRecords →
            (∃ queue, Queue.new settings.queueCapacity = .ok queue ∧
              ∀ lines : List String, lines.length ≤ settings.queueCapacity →
                lines.foldlM Queue.offer queue = .ok { queue with lines }) ∧
            (output.NeverFails → output.written = [] →
              served.printed = linesOf (requests.filterMap (·.record?)))) := by
  have hasks := Settings.asksForNoQueue_iff (Settings.ofEnvironment_eq_ok_iff.mp hsettings)
  have hpanics := @exists_start_error_iff settings output
  rw [hasks, ← hpanics]
  constructor
  · rw [session]
    cases start settings output <;> simp [bind, Except.bind, pure, Except.pure]
  · intro served hserved
    obtain ⟨service, hstart, hleft⟩ := bind_eq_ok.mp hserved
    obtain rfl := Except.ok.inj hleft
    refine ⟨service.answerAll_responses requests, fun henabled hprints => ?_⟩
    have hcapacity : ¬ (settings.queueCapacity = 0 ∨
        Queue.maxCapacity < settings.queueCapacity) := by
      intro hno
      obtain ⟨fault, herror⟩ := hpanics.mpr ⟨henabled, hprints, hno⟩
      cases hstart.symm.trans herror
    rw [not_or, Nat.not_lt] at hcapacity
    have hpositive := Nat.pos_of_ne_zero hcapacity.1
    constructor
    · refine ⟨_, Queue.new_eq_ok_iff.mpr ⟨hpositive, hcapacity.2, rfl⟩, ?_⟩
      intro lines hlines
      exact Queue.foldlM_offer rfl (by rwa [Queue.fresh, List.length_nil, Nat.zero_add])
    · intro houtput hfresh
      obtain ⟨printed, hprinted, hlines⟩ := session_prints_records henabled hprints hpositive
        hcapacity.2 houtput hfresh requests
      rw [hserved] at hprinted
      obtain rfl := Except.ok.inj hprinted
      exact hlines

/-- An environment that turns printing on, through a queue of this capacity. -/
def printingThrough (capacity name : String) : Option String :=
  if name = "PRINT_SINK" then some "true"
  else if name = "CHANNEL_CAPACITY" then some capacity
  else if name = "EXPORT_PROMETHEUS" then some "false"
  else none

theorem ofEnvironment_printingThrough {text : String} {capacity : Nat}
    (hcapacity : Settings.capacity? text = some capacity) :
    Settings.ofEnvironment (printingThrough text) =
      .ok { onePrinting with queueCapacity := capacity } := by
  refine Settings.ofEnvironment_eq_ok_iff.mpr ⟨?_, ?_, ?_, ?_, ?_, ?_, ?_⟩
  all_goals
    simp [Settings.textOf, printingThrough, Settings.flag?, onePrinting,
      SocketAddress.ofText?_default, Level.ofText?_info, hcapacity]

/-- The greatest capacity of all, and an event posted over a reliable output. -/
theorem session_panics_iff_greatest :
    Settings.ofEnvironment (printingThrough "2305843009213693951") =
        .ok { onePrinting with queueCapacity := Queue.maxCapacity } ∧
      ∃ served, session { onePrinting with queueCapacity := Queue.maxCapacity } .reliable
          [post .null 0] = .ok served ∧
        served.printed = linesOf ([post .null 0].filterMap (·.record?)) := by
  have hcapacity : Settings.capacity? "2305843009213693951" = some Queue.maxCapacity := by
    decide +kernel
  have hsettings := ofEnvironment_printingThrough hcapacity
  have hfits : ¬ Settings.AsksForNoQueue (printingThrough "2305843009213693951") := by
    rw [Settings.asksForNoQueue_iff (Settings.ofEnvironment_eq_ok_iff.mp hsettings)]
    decide
  obtain ⟨hpanics, hruns⟩ := session_panics_iff hsettings .reliable [post .null 0]
  obtain ⟨served, hserved⟩ := not_not.mp (mt exists_eq_error_iff.mpr (mt hpanics.mp hfits))
  obtain ⟨-, hprints⟩ := hruns served hserved
  exact ⟨hsettings, served, hserved, (hprints rfl rfl).2 ⟨rfl, rfl, nofun, rfl⟩ rfl⟩

/-- A capacity of zero is read like any other, and then there is no service. -/
theorem session_panics_of_zero :
    Settings.ofEnvironment (printingThrough "0") =
        .ok { onePrinting with queueCapacity := 0 } ∧
      session { onePrinting with queueCapacity := 0 } .reliable [] = .error .zero :=
  ⟨ofEnvironment_printingThrough (by decide), rfl⟩

end Service

end AuctionLog
