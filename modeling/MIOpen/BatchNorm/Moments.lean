import MIOpen.BatchNorm.Gradient

/-!
# Output moments of the forward routines

Over the reals, with `sqrt` the real square root and `epsilon > 0`, the forward routines write
each group's input shifted by its batch mean and scaled by `invVar = 1/sqrt(v + epsilon)`, then by
`scale` and shifted by `bias`. The outputs of every group then have batch mean `bias` and biased
variance `scale²·v/(v + epsilon)`: the normalization identity, exactly.

`Grouping.Normalized` and `Grouping.SavesStats` state this of an output and of the saved
statistics; `fwd_batch_statistics` shows that the four routines that use batch statistics meet
them.
-/

namespace MIOpen.BatchNorm

open Finset

namespace Grouping

variable (G : Grouping)

theorem variance_nonneg {α : Type*} [LinearOrderedField α] (x : ℕ → α) (g : ℕ) :
    0 ≤ G.variance x g :=
  div_nonneg (sum_nonneg fun _ _ => mul_self_nonneg _) (Nat.cast_nonneg _)

section Moments

variable {α : Type*} [Field α] [CharZero α] {G} {x out : ℕ → α} {g : ℕ} {s iv β : α}

/-- An output that is `s*((x - mean)*iv) + β` on the elements of group `g`. -/
def NormalizedAt (G : Grouping) (x out : ℕ → α) (g : ℕ) (s iv β : α) : Prop :=
  ∀ k < G.size, out (G.elem g k) = s * ((x (G.elem g k) - G.mean x g) * iv) + β

theorem sum_sub_mean (x : ℕ → α) (g : ℕ) :
    ∑ k ∈ range G.size, (x (G.elem g k) - G.mean x g) = 0 := by
  have hM : (G.size : α) ≠ 0 := G.size_ne_zero
  rw [sum_sub_distrib, sum_const, card_range, nsmul_eq_mul, Grouping.mean]
  change G.sum x g - _ = 0
  field_simp

theorem mean_normalizedAt (h : G.NormalizedAt x out g s iv β) : G.mean out g = β := by
  have hM : (G.size : α) ≠ 0 := G.size_ne_zero
  have hsum : G.sum out g = G.size * β :=
    calc G.sum out g = ∑ k ∈ range G.size, (s * ((x (G.elem g k) - G.mean x g) * iv) + β) :=
          sum_congr rfl fun k hk => h k (mem_range.1 hk)
      _ = s * ((∑ k ∈ range G.size, (x (G.elem g k) - G.mean x g)) * iv) + G.size * β := by
          rw [sum_add_distrib, ← mul_sum, ← sum_mul, sum_const, card_range, nsmul_eq_mul]
      _ = G.size * β := by rw [sum_sub_mean]; ring
  rw [Grouping.mean, hsum]
  field_simp

theorem variance_normalizedAt (h : G.NormalizedAt x out g s iv β) :
    G.variance out g = (s * iv) ^ 2 * G.variance x g := by
  have hterm : ∀ k ∈ range G.size, (out (G.elem g k) - β) * (out (G.elem g k) - β) =
      (s * iv) ^ 2 * ((x (G.elem g k) - G.mean x g) * (x (G.elem g k) - G.mean x g)) := by
    intro k hk
    rw [h k (mem_range.1 hk)]
    ring
  rw [Grouping.variance, mean_normalizedAt h, Grouping.sum, sum_congr rfl hterm, ← mul_sum,
    mul_div_assoc]
  rfl

end Moments

/-! ## Over the reals -/

/-- The forward's promise about an output: at every element `p` of group `g`,
`out p = scale g * (x p - mean g) * invVar g + bias g` with the group's batch mean and
`invVar = 1/sqrt(v + epsilon)`, `v` its biased variance; and the outputs of every group have batch
mean `bias g` and biased variance `scale g ^ 2 * v / (v + epsilon)`. -/
def Normalized (x scale bias : ℕ → ℝ) (epsilon : ℝ) (out : ℕ → ℝ) : Prop :=
  (∀ p < G.numel, out p = scale (G.groupOf p) * (x p - G.mean x (G.groupOf p)) *
      (1 / Real.sqrt (G.variance x (G.groupOf p) + epsilon)) + bias (G.groupOf p)) ∧
  ∀ g < G.count, G.mean out g = bias g ∧
    G.variance out g = scale g ^ 2 * G.variance x g / (G.variance x g + epsilon)

/-- The statistics a training call saves when `savemeanvar` is set: the batch mean and
`1/sqrt(v + epsilon)` of every group. -/
def SavesStats (a : TrainArgs ℝ) (b : TrainBufs ℝ) : Prop :=
  a.savemeanvar = true → ∀ g < G.count, b.saveMean g = G.mean a.inPtr g ∧
    b.saveInvVariance g = 1 / Real.sqrt (G.variance a.inPtr g + a.epsilon)

/-- What a training call promises: its saved statistics and its normalized output. -/
def TrainOutput (a : TrainArgs ℝ) (b : TrainBufs ℝ) : Prop :=
  G.SavesStats a b ∧ G.Normalized a.inPtr a.scalePtr a.biasPtr a.epsilon b.outPtr

/-- An output that agrees with `batchNormalize` below `numel` keeps the forward's promise. -/
theorem normalized_of_batchNormalize {x scale bias out : ℕ → ℝ} {epsilon : ℝ} (heps : 0 < epsilon)
    (hout : ∀ p < G.numel, out p = G.batchNormalize Real.sqrt x scale bias epsilon p) :
    G.Normalized x scale bias epsilon out := by
  refine ⟨fun p hp => by rw [hout p hp, batchNormalize, normalize, invVariance, mul_assoc],
    fun g hg => ?_⟩
  have hat : G.NormalizedAt x out g (scale g)
      (invVariance Real.sqrt (G.variance x g) epsilon) (bias g) := fun k hk => by
    rw [hout _ (G.elem_lt hg hk), batchNormalize, normalize, G.groupOf_elem hg hk]
  have hpos : 0 < G.variance x g + epsilon := add_pos_of_nonneg_of_pos (G.variance_nonneg x g) heps
  refine ⟨mean_normalizedAt hat, ?_⟩
  rw [variance_normalizedAt hat, invVariance, mul_pow, div_pow, one_pow, Real.sq_sqrt hpos.le]
  ring

theorem fwdTrain_trainOutput (a : TrainArgs ℝ) (heps : 0 < a.epsilon) (b : TrainBufs ℝ) :
    G.TrainOutput a (G.fwdTrain Real.sqrt a b) :=
  ⟨fun hs g hg => by simp [fwdTrain, hs, hg, invVariance],
    G.normalized_of_batchNormalize heps fun p hp => if_pos hp⟩

theorem fwdInfer_normalized (a : InferArgs ℝ) (heps : 0 < a.epsilon) (hest : a.estmeanvar = false)
    (out : ℕ → ℝ) :
    G.Normalized a.inPtr a.scalePtr a.biasPtr a.epsilon (G.fwdInfer Real.sqrt a out) :=
  G.normalized_of_batchNormalize heps fun p hp => by simp [fwdInfer, hp, hest]

end Grouping

/-- With exact indices, over the reals with `epsilon > 0`, the two training routines and the
batch-statistics paths of the two inference routines write, for every group, its batch statistics
and its normalized elements, whose batch mean is `bias` and whose variance is
`scale²·v/(v + epsilon)`. -/
theorem fwd_batch_statistics (sh : Shape) (a : TrainArgs ℝ) (ha : 0 < a.epsilon) (b : TrainBufs ℝ)
    (ai : InferArgs ℝ) (hai : 0 < ai.epsilon) (hest : ai.estmeanvar = false) (out : ℕ → ℝ) :
    sh.perActivation.TrainOutput a (miopenBNFwdTrainPerActivationRunHost Real.sqrt sh a b) ∧
    sh.spatial.TrainOutput a (miopenBNFwdTrainSpatialRunHost false Real.sqrt sh a b) ∧
    sh.perActivation.Normalized ai.inPtr ai.scalePtr ai.biasPtr ai.epsilon
      (miopenBNFwdInferPerActivationRunHost Real.sqrt sh ai out) ∧
    sh.spatial.Normalized ai.inPtr ai.scalePtr ai.biasPtr ai.epsilon
      (miopenBNFwdInferSpatialRunHost false Real.sqrt sh ai out) := by
  rw [miopenBNFwdTrainPerActivationRunHost_eq, miopenBNFwdTrainSpatialRunHost_eq,
    miopenBNFwdInferPerActivationRunHost_eq, miopenBNFwdInferSpatialRunHost_eq]
  exact ⟨sh.perActivation.fwdTrain_trainOutput a ha b, sh.spatial.fwdTrain_trainOutput a ha b,
    sh.perActivation.fwdInfer_normalized ai hai hest out,
    sh.spatial.fwdInfer_normalized ai hai hest out⟩

end MIOpen.BatchNorm
