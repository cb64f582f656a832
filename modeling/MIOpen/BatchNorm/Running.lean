import MIOpen.BatchNorm.Moments

/-!
# Running statistics over a sequence of training calls

A training call with `runningmeanvar` set blends, for every group `g` of its routine, its batch mean
into `runningMean[g]` as `mean*m + runningMean*(1 - m)` and its Bessel-adjusted variance into
`runningVariance[g]` as `m*runningVariance + (1 - m)*adjusted`. With every factor `m` in `[0, 1]`
both are convex combinations, so over any run an entry stays in every interval that holds its
initial value and the values blended into it (`trainRun_blend`), the run lemma of the one-call
`run_eq`. Adjusted variances are never negative, so neither is a running variance that starts
non-negative.
-/

namespace MIOpen.BatchNorm

variable {α : Type*} [LinearOrderedField α]

/-- One training call: the routine, spatial or per-activation, and its arguments. -/
structure TrainCall (α : Type*) where
  spatial : Bool
  args : TrainArgs α

namespace TrainCall

variable (sqrt : α → α) (sh : Shape) (c : TrainCall α)

/-- The grouping of the call's routine. -/
def grouping : Grouping := if c.spatial then sh.spatial else sh.perActivation

/-- The call, to the routine as the repository builds it (`MIO_HEIRARCH_SEL == 0`). -/
def run (b : TrainBufs α) : TrainBufs α :=
  if c.spatial then miopenBNFwdTrainSpatialRunHost false sqrt sh c.args b
  else miopenBNFwdTrainPerActivationRunHost sqrt sh c.args b

/-- The batch mean the call blends into `runningMean[g]`, if it blends one. -/
def meanSample (g : ℕ) : Option α :=
  if c.args.runningmeanvar = true ∧ g < (c.grouping sh).count then
    some ((c.grouping sh).mean c.args.inPtr g)
  else none

/-- The adjusted batch variance the call blends into `runningVariance[g]`, if it blends one. -/
def varianceSample (g : ℕ) : Option α :=
  if c.args.runningmeanvar = true ∧ g < (c.grouping sh).count then
    some ((c.grouping sh).adjust ((c.grouping sh).variance c.args.inPtr g))
  else none

theorem run_eq (b : TrainBufs α) : c.run sqrt sh b = (c.grouping sh).fwdTrain sqrt c.args b := by
  unfold run grouping
  split_ifs
  · exact miopenBNFwdTrainSpatialRunHost_eq sqrt sh c.args b
  · exact miopenBNFwdTrainPerActivationRunHost_eq sqrt sh c.args b

theorem run_runningMean (b : TrainBufs α) (g : ℕ) :
    (c.run sqrt sh b).runningMean g = (c.meanSample sh g).elim (b.runningMean g)
      fun v => v * c.args.expAvgFactor + b.runningMean g * (1 - c.args.expAvgFactor) := by
  rw [run_eq, meanSample]
  split_ifs with h <;> simp only [Grouping.fwdTrain, h, and_self, ↓reduceIte, Option.elim]

theorem run_runningVariance (b : TrainBufs α) (g : ℕ) :
    (c.run sqrt sh b).runningVariance g = (c.varianceSample sh g).elim (b.runningVariance g)
      fun v => v * (1 - c.args.expAvgFactor) +
        b.runningVariance g * (1 - (1 - c.args.expAvgFactor)) := by
  rw [run_eq, varianceSample]
  split_ifs with h
  · simp only [Grouping.fwdTrain, if_pos h, Option.elim]
    ring
  · simp only [Grouping.fwdTrain, h, ↓reduceIte, Option.elim]

end TrainCall

/-- A sequence of training calls on one shape, from the buffers `b`. -/
def trainRun (sqrt : α → α) (sh : Shape) (cs : List (TrainCall α)) (b : TrainBufs α) :
    TrainBufs α :=
  cs.foldl (fun b c => c.run sqrt sh b) b

/-- The batch means blended into `runningMean[g]` over the run, in order. -/
def meanSamples (sh : Shape) (cs : List (TrainCall α)) (g : ℕ) : List α :=
  cs.filterMap fun c => c.meanSample sh g

/-- The adjusted batch variances blended into `runningVariance[g]` over the run, in order. -/
def varianceSamples (sh : Shape) (cs : List (TrainCall α)) (g : ℕ) : List α :=
  cs.filterMap fun c => c.varianceSample sh g

/-- A set closed under the blends `u*w + v*(1 - w)` with `w ∈ [0, 1]`. -/
def BlendClosed (S : α → Prop) : Prop :=
  ∀ u v w, S u → S v → 0 ≤ w → w ≤ 1 → S (u * w + v * (1 - w))

theorem blendClosed_interval (lo hi : α) : BlendClosed fun v => lo ≤ v ∧ v ≤ hi := by
  rintro u v w ⟨hu, hu'⟩ ⟨hv, hv'⟩ hw hw'
  have h1 := sub_nonneg.2 hw'
  constructor
  · calc lo = lo * w + lo * (1 - w) := by ring
      _ ≤ u * w + v * (1 - w) :=
        add_le_add (mul_le_mul_of_nonneg_right hu hw) (mul_le_mul_of_nonneg_right hv h1)
  · calc u * w + v * (1 - w) ≤ hi * w + hi * (1 - w) :=
        add_le_add (mul_le_mul_of_nonneg_right hu' hw) (mul_le_mul_of_nonneg_right hv' h1)
      _ = hi := by ring

theorem blendClosed_nonneg : BlendClosed fun v : α => 0 ≤ v := by
  intro u v w hu hv hw hw'
  have := sub_nonneg.2 hw'
  positivity

/-- The run lemma: an observation that each call leaves alone or blends a sample into with a
weight in `[0, 1]` stays in every blend-closed set holding its start and the samples. -/
theorem trainRun_blend (sqrt : α → α) (sh : Shape) (obs : TrainBufs α → α)
    (sample : TrainCall α → Option α) (w : TrainCall α → α)
    (hstep : ∀ c b, obs (c.run sqrt sh b) = (sample c).elim (obs b)
      fun v => v * w c + obs b * (1 - w c))
    (S : α → Prop) (hS : BlendClosed S) (cs : List (TrainCall α))
    (hw : ∀ c ∈ cs, 0 ≤ w c ∧ w c ≤ 1) (b : TrainBufs α) (hb : S (obs b))
    (hs : ∀ v ∈ cs.filterMap sample, S v) : S (obs (trainRun sqrt sh cs b)) := by
  induction cs generalizing b with
  | nil => exact hb
  | cons c cs ih =>
    refine ih (fun c' hc' => hw c' (.tail _ hc')) _ ?_ fun v hv => hs v ?_
    · rw [hstep]
      cases hc : sample c with
      | none => exact hb
      | some v =>
        exact hS _ _ _ (hs v (by simp [List.filterMap_cons, hc])) hb (hw c (.head _)).1
          (hw c (.head _)).2
    · cases hc : sample c <;> simp [List.filterMap_cons, hc, hv]

theorem varianceSamples_nonneg (sh : Shape) (cs : List (TrainCall α)) (g : ℕ) :
    ∀ v ∈ varianceSamples sh cs g, 0 ≤ v := by
  intro v hv
  obtain ⟨c, -, hc⟩ := List.mem_filterMap.1 hv
  unfold TrainCall.varianceSample at hc
  split_ifs at hc
  cases hc
  have hvar := (c.grouping sh).variance_nonneg c.args.inPtr g
  have hsize : (1 : α) ≤ (c.grouping sh).size := Nat.one_le_cast.2 (c.grouping sh).size_pos
  unfold Grouping.adjust
  split_ifs
  · exact hvar
  · exact mul_nonneg (div_nonneg (Nat.cast_nonneg _) (sub_nonneg.2 hsize)) hvar

/-- With exact indices, over any run of training calls with factors in `[0, 1]`, `runningMean[g]`
stays between the least and the greatest of its initial value and the batch means blended into it,
and `runningVariance[g]` likewise with the adjusted variances, so it stays non-negative when it
starts so; a call with `runningmeanvar` unset changes neither array. -/
theorem trainRun_runningStats (sqrt : α → α) (sh : Shape) (cs : List (TrainCall α))
    (hm : ∀ c ∈ cs, 0 ≤ c.args.expAvgFactor ∧ c.args.expAvgFactor ≤ 1) (b : TrainBufs α) (g : ℕ) :
    (∀ lo hi, (∀ v ∈ b.runningMean g :: meanSamples sh cs g, lo ≤ v ∧ v ≤ hi) →
      lo ≤ (trainRun sqrt sh cs b).runningMean g ∧ (trainRun sqrt sh cs b).runningMean g ≤ hi) ∧
    (∀ lo hi, (∀ v ∈ b.runningVariance g :: varianceSamples sh cs g, lo ≤ v ∧ v ≤ hi) →
      lo ≤ (trainRun sqrt sh cs b).runningVariance g ∧
        (trainRun sqrt sh cs b).runningVariance g ≤ hi) ∧
    (0 ≤ b.runningVariance g → 0 ≤ (trainRun sqrt sh cs b).runningVariance g) ∧
    ∀ c ∈ cs, c.args.runningmeanvar = false → ∀ b' : TrainBufs α,
      (c.run sqrt sh b').runningMean = b'.runningMean ∧
        (c.run sqrt sh b').runningVariance = b'.runningVariance := by
  have hw : ∀ c ∈ cs, 0 ≤ 1 - c.args.expAvgFactor ∧ 1 - c.args.expAvgFactor ≤ 1 := fun c hc =>
    ⟨sub_nonneg.2 (hm c hc).2, sub_le_self _ (hm c hc).1⟩
  have hmean := trainRun_blend sqrt sh (fun b => b.runningMean g) (fun c => c.meanSample sh g)
    (fun c => c.args.expAvgFactor) (fun c b => c.run_runningMean sqrt sh b g)
  have hvar := trainRun_blend sqrt sh (fun b => b.runningVariance g)
    (fun c => c.varianceSample sh g) (fun c => 1 - c.args.expAvgFactor)
    (fun c b => c.run_runningVariance sqrt sh b g)
  refine ⟨fun lo hi h => hmean _ (blendClosed_interval lo hi) cs hm b (h _ (.head _))
      fun v hv => h v (.tail _ hv),
    fun lo hi h => hvar _ (blendClosed_interval lo hi) cs hw b (h _ (.head _))
      fun v hv => h v (.tail _ hv),
    fun h0 => hvar _ blendClosed_nonneg cs hw b h0 (varianceSamples_nonneg sh cs g),
    fun c _ hc b' => ⟨funext fun j => ?_, funext fun j => ?_⟩⟩
  · rw [TrainCall.run_runningMean, TrainCall.meanSample, hc]
    rfl
  · rw [TrainCall.run_runningVariance, TrainCall.varianceSample, hc]
    rfl

theorem trainRun_cons (sqrt : α → α) (sh : Shape) (c : TrainCall α) (cs : List (TrainCall α))
    (b : TrainBufs α) : trainRun sqrt sh (c :: cs) b = trainRun sqrt sh cs (c.run sqrt sh b) :=
  rfl

/-- With exact indices, `k` calls of one routine with `runningmeanvar` set, on the same input, take
`runningMean[g]` to `mean + (1 - m)^k * (r₀ - mean)` and `runningVariance[g]` to
`vhat + m^k * (v₀ - vhat)`, with `mean` the group's batch mean and `vhat` its adjusted batch
variance. -/
theorem trainRun_replicate (sqrt : α → α) (sh : Shape) (c : TrainCall α)
    (hc : c.args.runningmeanvar = true) {g : ℕ} (hg : g < (c.grouping sh).count) (k : ℕ)
    (b : TrainBufs α) :
    (trainRun sqrt sh (List.replicate k c) b).runningMean g =
        (c.grouping sh).mean c.args.inPtr g + (1 - c.args.expAvgFactor) ^ k *
          (b.runningMean g - (c.grouping sh).mean c.args.inPtr g) ∧
      (trainRun sqrt sh (List.replicate k c) b).runningVariance g =
        (c.grouping sh).adjust ((c.grouping sh).variance c.args.inPtr g) +
          c.args.expAvgFactor ^ k * (b.runningVariance g -
            (c.grouping sh).adjust ((c.grouping sh).variance c.args.inPtr g)) := by
  have hsample : c.args.runningmeanvar = true ∧ g < (c.grouping sh).count := ⟨hc, hg⟩
  induction k generalizing b with
  | zero => simp [trainRun]
  | succ k ih =>
    rw [List.replicate_succ, trainRun_cons, (ih _).1, (ih _).2, c.run_runningMean,
      c.run_runningVariance, TrainCall.meanSample, TrainCall.varianceSample, if_pos hsample,
      if_pos hsample]
    constructor <;> simp only [Option.elim] <;> ring

end MIOpen.BatchNorm
