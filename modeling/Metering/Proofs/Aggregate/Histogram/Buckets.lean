import Metering.Proofs.Aggregate.Histogram.Percentile
import Metering.Proofs.Aggregate.History

/-!
# The buckets of every histogram

Boundaries are not checked when a histogram is made: they need not ascend, and some of them may not
even be numbers. Whatever they are and whatever is done to the histogram, the search for a bucket
stays among its counts, and the counts account for every value since the last reset
(`counts_account_for_values`).
-/

namespace Metering.Histogram

variable {h k m : Histogram}

/-- The histogram that came to be in this way. -/
def ofHistory (history : History (List Float)) : Histogram :=
  history.build empty update merge reset

/-- The values that were recorded since the last reset. -/
def recorded (history : History (List Float)) : List Number :=
  history.values (fun _ => true) sameFloats

/-- Histograms merge exactly if their boundaries are equal. -/
theorem merge_cases (h k : Histogram) :
    (sameFloats h.boundaries k.boundaries = true ∧ ∃ m, h.merge k = .ok m) ∨
      sameFloats h.boundaries k.boundaries = false ∧ ∃ d, h.merge k = .error d := by
  rw [merge]
  cases sameFloats h.boundaries k.boundaries with
  | true => exact .inl ⟨rfl, _, if_pos rfl⟩
  | false => exact .inr ⟨rfl, _, if_neg Bool.false_ne_true⟩

theorem boundaries_of_merge (merged : h.merge k = .ok m) : m.boundaries = h.boundaries := by
  rw [merge] at merged
  split at merged
  · rw [← Except.ok.inj merged]
  · cases merged

/-- What is done to a histogram leaves its boundaries as they were made. -/
theorem boundaries_ofHistory (history : History (List Float)) :
    (ofHistory history).boundaries = history.configuration := by
  induction history with
  | made boundaries kind => rfl
  | updated before value ih => exact ih
  | merged before other ih ih' =>
    rcases merge_cases (ofHistory before) (ofHistory other) with ⟨-, m, merged⟩ | ⟨-, d, refused⟩
    · rw [ofHistory, History.build_merged_of_ok merged, boundaries_of_merge merged]
      exact ih
    · rw [ofHistory, History.build_merged_of_error refused]
      exact ih
  | reset before ih => exact ih

/-- A merge brings the values of the other histogram, or it is refused and changes nothing. -/
theorem merged_or_refused (history other : History (List Float)) :
    (∃ m, (ofHistory history).merge (ofHistory other) = .ok m ∧
        ofHistory (history.merged other) = m ∧
        recorded (history.merged other) = recorded history ++ recorded other) ∨
      ∃ d, (ofHistory history).merge (ofHistory other) = .error d ∧
        ofHistory (history.merged other) = ofHistory history ∧
        recorded (history.merged other) = recorded history :=
  History.merged_cases merge_cases (boundaries_ofHistory history) (boundaries_ofHistory other)

/-- A histogram tallies what was recorded. -/
theorem tallies_ofHistory (history : History (List Float)) :
    (ofHistory history).Tallies (recorded history) := by
  induction history with
  | made boundaries kind => exact tallies_empty boundaries kind
  | updated before value ih => exact ih.update value
  | merged before other ih ih' =>
    rcases merged_or_refused before other with ⟨m, merged, built, grown⟩ | ⟨d, -, built, same⟩
    · rw [built, grown]
      exact ih.merge ih' merged
    · rw [built, same]
      exact ih
  | reset before ih => exact ih.reset

/-- Whatever the boundaries and whatever was done to the histogram: its boundaries are those it was
made with, there is one count more than boundaries, the bucket of every value is one of them, and
each of them is the number of the values recorded since the last reset that belong to its bucket, so
together they are the number of those values. A merge brings the values of the other histogram, or
it is refused and leaves everything as it was. -/
theorem counts_account_for_values (history : History (List Float)) :
    (ofHistory history).boundaries = history.configuration ∧
      (ofHistory history).counts.length = (ofHistory history).boundaries.length + 1 ∧
      (∀ x, (ofHistory history).bucketIndex x < (ofHistory history).counts.length) ∧
      (∀ j (inside : j < (ofHistory history).counts.length), (ofHistory history).counts[j] =
        (recorded history).countP fun v => (ofHistory history).bucketIndex v.toFloat = j) ∧
      (ofHistory history).counts.sum = (ofHistory history).count ∧
      (ofHistory history).count = (recorded history).length ∧
      ∀ other, (∃ m, (ofHistory history).merge (ofHistory other) = .ok m ∧
          ofHistory (history.merged other) = m ∧
          recorded (history.merged other) = recorded history ++ recorded other) ∨
        ∃ d, (ofHistory history).merge (ofHistory other) = .error d ∧
          ofHistory (history.merged other) = ofHistory history ∧
          recorded (history.merged other) = recorded history := by
  have tallies := tallies_ofHistory history
  refine ⟨boundaries_ofHistory history, tallies.buckets, fun x => ?_, tallies.counts,
    tallies.sum_counts, tallies.count, merged_or_refused history⟩
  rw [tallies.buckets]
  exact Nat.lt_succ_of_le ((ofHistory history).bucketIndex_le_length x)

/-- Boundaries out of order, one of which is no number: even infinity does not reach the last
bucket. -/
example : (((empty [10.0, 0.0 / 0.0, 5.0] .float64).update (.float (0.0 / 0.0))).update
    (.float (1.0 / 0.0))).counts = [1, 1, 0, 0] := by
  decide +kernel

end Metering.Histogram
