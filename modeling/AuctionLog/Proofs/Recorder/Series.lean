import AuctionLog.Counter
import Mathlib.Tactic.Common

/-!
# The series of calls

Whoever reads the counters sees series, each under a name and with labels. The calls that record an
event are counted in two families of them: by type if they were processed, and by cause if they were
dropped. No other counter is shown as one of these, so the series alone tell how many calls there
were and what became of them.
-/

namespace AuctionLog

namespace Counter

/-- The name that a series goes by, without its labels. -/
def nameOf (series : String) : String :=
  String.ofList (series.toList.takeWhile (· ≠ '\x7b'))

/-- The series of the calls that were processed, by the type of their records. -/
def processedSeries (type : String) : String :=
  labelled "analytics_events_processed_total" ["type=\"" ++ type ++ "\""]

/-- The series of the calls that were dropped, by the cause. -/
def droppedSeries (cause : String) : String :=
  labelled "analytics_events_dropped_total" ["cause=\"" ++ cause ++ "\""]

def isProcessed (counter : Counter) : Bool :=
  nameOf counter.text == "analytics_events_processed_total"

def isDropped (counter : Counter) : Bool :=
  nameOf counter.text == "analytics_events_dropped_total"

/-- Whether a counter tells how a call that records an event ended. -/
def isOutcome (counter : Counter) : Bool :=
  counter.isProcessed || counter.isDropped

/-- Whether a series is one of those that calls are counted in. -/
def CountsCalls (series : String) : Prop :=
  (∃ type, series = processedSeries type) ∨ ∃ cause, series = droppedSeries cause

theorem toList_labelled (name : String) (labels : List String) :
    (labelled name labels).toList =
      name.toList ++ '\x7b' :: ((",".intercalate labels).toList ++ ['\x7d']) := by
  simp [labelled]

theorem nameOf_labelled {name : String} (hname : '\x7b' ∉ name.toList) (labels : List String) :
    nameOf (labelled name labels) = name := by
  have hplain : ∀ char ∈ name.toList, decide (char ≠ '\x7b') := by
    intro char hmem
    rw [decide_eq_true_eq]
    rintro rfl
    exact hname hmem
  rw [nameOf, toList_labelled, List.takeWhile_append_of_pos hplain]
  simp

theorem labelled_single_inj {name before left right after : String}
    (heq : labelled name [before ++ left ++ after] = labelled name [before ++ right ++ after]) :
    left = right := by
  have hchars := congrArg String.toList heq
  refine String.toList_inj.mp ?_
  simpa [toList_labelled] using hchars

/-- **A processed call is counted under the path of its endpoint.** -/
theorem text_processed (endpoint : Endpoint) :
    (processed endpoint).text = processedSeries endpoint.path := by
  cases endpoint <;> decide

/-- **A dropped call is counted under the name of its cause.** -/
theorem text_dropped (cause : DropCause) : (dropped cause).text = droppedSeries cause.name := by
  cases cause <;> decide

theorem processedSeries_inj {left right : String} :
    processedSeries left = processedSeries right ↔ left = right :=
  ⟨labelled_single_inj, congrArg _⟩

theorem droppedSeries_inj {left right : String} :
    droppedSeries left = droppedSeries right ↔ left = right :=
  ⟨labelled_single_inj, congrArg _⟩

theorem nameOf_processedSeries (type : String) :
    nameOf (processedSeries type) = "analytics_events_processed_total" :=
  nameOf_labelled (by decide) _

theorem nameOf_droppedSeries (cause : String) :
    nameOf (droppedSeries cause) = "analytics_events_dropped_total" :=
  nameOf_labelled (by decide) _

theorem processedSeries_ne_droppedSeries (type cause : String) :
    processedSeries type ≠ droppedSeries cause := by
  intro heq
  have hname := congrArg nameOf heq
  rw [nameOf_processedSeries, nameOf_droppedSeries] at hname
  exact absurd hname (by decide)

/-- The name that each counter is shown under. -/
theorem nameOf_text (counter : Counter) :
    nameOf counter.text = match counter with
      | .processed _ => "analytics_events_processed_total"
      | .dropped _ => "analytics_events_dropped_total"
      | .queueFull => "analytics_channel_full_total"
      | .requests _ => "http_requests_total"
      | .durations _ => "http_requests_duration_seconds_count" := by
  cases counter with
  | queueFull => decide
  | processed | dropped | requests | durations => exact nameOf_labelled (by decide) _

theorem isProcessed_eq (counter : Counter) :
    counter.isProcessed = match counter with
      | .processed _ => true
      | _ => false := by
  rw [isProcessed, nameOf_text]
  cases counter <;> simp

theorem isDropped_eq (counter : Counter) :
    counter.isDropped = match counter with
      | .dropped _ => true
      | _ => false := by
  rw [isDropped, nameOf_text]
  cases counter <;> simp

theorem isOutcome_processed (endpoint : Endpoint) : (processed endpoint).isOutcome := by
  rw [isOutcome, isProcessed_eq, Bool.true_or]

theorem isOutcome_dropped (cause : DropCause) : (dropped cause).isOutcome := by
  rw [isOutcome, isDropped_eq, Bool.or_true]

theorem isOutcome_of_countsCalls {counter : Counter} (hseries : CountsCalls counter.text) :
    counter.isOutcome := by
  rw [isOutcome, isProcessed, isDropped, Bool.or_eq_true, beq_iff_eq, beq_iff_eq]
  rcases hseries with ⟨type, htext⟩ | ⟨cause, htext⟩
  · rw [htext]
    exact .inl (nameOf_processedSeries type)
  · rw [htext]
    exact .inr (nameOf_droppedSeries cause)

end Counter

namespace Counts

/-- How often the series was raised. -/
def ofSeries (counts : Counts) (series : String) : Nat :=
  counts.countP fun counter => counter.text == series

/-- The calls counted as processed, over all types. -/
def processedTotal (counts : Counts) : Nat :=
  counts.countP Counter.isProcessed

/-- The calls counted as dropped, over all causes. -/
def droppedTotal (counts : Counts) : Nat :=
  counts.countP Counter.isDropped

theorem processedTotal_add_droppedTotal (counts : Counts) :
    counts.processedTotal + counts.droppedTotal = counts.countP Counter.isOutcome := by
  induction counts with
  | nil => rfl
  | cons counter rest ih =>
      unfold processedTotal droppedTotal at ih ⊢
      simp only [List.countP_cons]
      cases counter <;>
        simp only [Counter.isOutcome, Counter.isProcessed_eq, Counter.isDropped_eq, Bool.or_false,
          Bool.or_true, Bool.false_eq_true, if_true, if_false] <;> omega

theorem ofSeries_append (counts more : Counts) (series : String) :
    (counts ++ more).ofSeries series = counts.ofSeries series + more.ofSeries series :=
  List.countP_append

theorem ofSeries_singleton (counter : Counter) (series : String) :
    ofSeries [counter] series = if series = counter.text then 1 else 0 := by
  rw [ofSeries, List.countP_singleton]
  by_cases heq : series = counter.text
  · simp [heq]
  · simp [heq, Ne.symm heq]

/-- Counters that tell of no outcome are in none of the series of calls. -/
theorem ofSeries_eq_zero {counts : Counts} (hcounts : counts.countP Counter.isOutcome = 0)
    {series : String} (hseries : Counter.CountsCalls series) : counts.ofSeries series = 0 := by
  refine List.countP_eq_zero.mpr fun counter hmem htext => ?_
  rw [beq_iff_eq] at htext
  have houtcome := Counter.isOutcome_of_countsCalls (htext ▸ hseries)
  exact List.countP_eq_zero.mp hcounts counter hmem houtcome

end Counts

end AuctionLog
