import MIOpen.BatchNorm.Locality
import MIOpen.BatchNorm.Moments

/-!
# Bounds and well-defined arithmetic of the host routines

With indices taken exactly, the six host routines of the `MIO_HEIRARCH_SEL == 0` build touch only
elements inside their buffers: `x`, `dy`, `out` and `dx` below `N*C*H*W`, the per-group buffers
below the number of groups (`C*H*W` per activation, `C` spatial), and the `xhat` vector below
`N*H*W`. Buffers are total maps here, so this is stated as what can be observed: a routine leaves
every cell outside its buffers as it was, and its result does not depend on its arguments outside
them (`AccessesWithin`, proved once from `GroupLocal`); the backward routines write `xhat` only
below `N*H*W`, and their result does not depend on what `xhat` held.

The divisors `N` and `N*H*W` are nonzero, and the Bessel factor's `N - 1` or `N*H*W - 1` is formed
only when it is nonzero. The routines that compute batch statistics take the square root of
`variance + epsilon` with a mean of squares for `variance`: positive when `epsilon` is, so the
result does not depend on `sqrt` off the positive reals. Inference with `estmeanvar` takes
`1.0/sqrt(variance + epsilon)` of the caller's `estimatedVariance`, with no `fabs` as the kernels
have, and that radicand can be negative
(`miopenBNFwdInferPerActivationRunHost_negative_radicand`).
-/

namespace MIOpen.BatchNorm

open Finset

/-! ## Cells and arguments inside the buffers -/

section Cells

variable {α : Type*} {G : Grouping}

/-- The cells inside the buffers: elements below `N*C*H*W`, entries below the number of groups. -/
def TrainCell.InBounds (G : Grouping) : TrainCell → Prop
  | .outPtr p => p < G.numel
  | .saveMean g | .saveInvVariance g | .runningMean g | .runningVariance g => g < G.count

/-- The cells inside the buffers: elements below `N*C*H*W`, entries below the number of groups. -/
def BwdCell.InBounds (G : Grouping) : BwdCell → Prop
  | .dxPtr p => p < G.numel
  | .dscalePtr g | .dbiasPtr g => g < G.count

theorem TrainCell.Owns.inBounds {g : ℕ} (hg : g < G.count) :
    ∀ {c : TrainCell}, c.Owns G g → c.InBounds G
  | .outPtr _, h => h.1
  | .saveMean _, h | .saveInvVariance _, h | .runningMean _, h | .runningVariance _, h => h ▸ hg

theorem BwdCell.Owns.inBounds {g : ℕ} (hg : g < G.count) :
    ∀ {c : BwdCell}, c.Owns G g → c.InBounds G
  | .dxPtr _, h => h.1
  | .dscalePtr _, h | .dbiasPtr _, h => h ▸ hg

/-- Training arguments that agree inside their buffers: `in_ptr` below `N*C*H*W`, `scale_ptr` and
`bias_ptr` below the number of groups, and the scalars. -/
structure TrainArgs.AgreeBelow (G : Grouping) (a a' : TrainArgs α) : Prop where
  inPtr : ∀ p < G.numel, a.inPtr p = a'.inPtr p
  scalePtr : ∀ g < G.count, a.scalePtr g = a'.scalePtr g
  biasPtr : ∀ g < G.count, a.biasPtr g = a'.biasPtr g
  epsilon : a.epsilon = a'.epsilon
  savemeanvar : a.savemeanvar = a'.savemeanvar
  runningmeanvar : a.runningmeanvar = a'.runningmeanvar
  expAvgFactor : a.expAvgFactor = a'.expAvgFactor

/-- Inference arguments that agree inside their buffers. -/
structure InferArgs.AgreeBelow (G : Grouping) (a a' : InferArgs α) : Prop where
  inPtr : ∀ p < G.numel, a.inPtr p = a'.inPtr p
  scalePtr : ∀ g < G.count, a.scalePtr g = a'.scalePtr g
  biasPtr : ∀ g < G.count, a.biasPtr g = a'.biasPtr g
  epsilon : a.epsilon = a'.epsilon
  estmeanvar : a.estmeanvar = a'.estmeanvar
  estimatedMean : ∀ g < G.count, a.estimatedMean g = a'.estimatedMean g
  estimatedVariance : ∀ g < G.count, a.estimatedVariance g = a'.estimatedVariance g

/-- Backward arguments that agree inside their buffers. -/
structure BwdArgs.AgreeBelow (G : Grouping) (a a' : BwdArgs α) : Prop where
  xPtr : ∀ p < G.numel, a.xPtr p = a'.xPtr p
  dyPtr : ∀ p < G.numel, a.dyPtr p = a'.dyPtr p
  scalePtr : ∀ g < G.count, a.scalePtr g = a'.scalePtr g
  epsilon : a.epsilon = a'.epsilon
  savedmeanvar : a.savedmeanvar = a'.savedmeanvar
  savedMean : ∀ g < G.count, a.savedMean g = a'.savedMean g
  savedInvVariance : ∀ g < G.count, a.savedInvVariance g = a'.savedInvVariance g

theorem TrainArgs.AgreeBelow.agreeOn {a a' : TrainArgs α} (h : a.AgreeBelow G a') {g : ℕ}
    (hg : g < G.count) : a.AgreeOn G g a' :=
  ⟨fun p hp => h.inPtr p hp.1, h.scalePtr g hg, h.biasPtr g hg, h.epsilon, h.savemeanvar,
    h.runningmeanvar, h.expAvgFactor⟩

theorem InferArgs.AgreeBelow.agreeOn {a a' : InferArgs α} (h : a.AgreeBelow G a') {g : ℕ}
    (hg : g < G.count) : a.AgreeOn G g a' :=
  ⟨fun p hp => h.inPtr p hp.1, h.scalePtr g hg, h.biasPtr g hg, h.epsilon, h.estmeanvar,
    h.estimatedMean g hg, h.estimatedVariance g hg⟩

theorem BwdArgs.AgreeBelow.agreeOn {a a' : BwdArgs α} (h : a.AgreeBelow G a') {g : ℕ}
    (hg : g < G.count) : a.AgreeOn G g a' :=
  ⟨fun p hp => h.xPtr p hp.1, fun p hp => h.dyPtr p hp.1, h.scalePtr g hg, h.epsilon,
    h.savedmeanvar, h.savedMean g hg, h.savedInvVariance g hg⟩

end Cells

/-! ## Every routine accesses its buffers within bounds -/

section Accesses

variable {α : Type*} [Field α] (sqrt : α → α) (sh : Shape)

theorem fwdTrainPerActivation_accessesWithin :
    AccessesWithin (TrainCell.InBounds sh.perActivation) TrainBufs.read
      (TrainArgs.AgreeBelow sh.perActivation) (miopenBNFwdTrainPerActivationRunHost sqrt sh) :=
  (fwdTrainPerActivation_groupLocal sqrt sh).accessesWithin id id (TrainArgs.AgreeOn.refl _)
    (fun _ _ _ => TrainCell.Owns.unique) (fun _ hg _ => TrainCell.Owns.inBounds hg)
    (fun _ _ ha _ hg => ha.agreeOn hg) (fun _ _ => rfl) (fun _ _ => rfl)
    (fun _ _ => TrainBufs.ext_read) (miopenBNFwdTrainPerActivationRunHost_eq_fold sqrt sh)

theorem fwdTrainSpatial_accessesWithin :
    AccessesWithin (TrainCell.InBounds sh.spatial) TrainBufs.read
      (TrainArgs.AgreeBelow sh.spatial) (miopenBNFwdTrainSpatialRunHost false sqrt sh) :=
  (fwdTrainSpatial_groupLocal sqrt sh).accessesWithin id id (TrainArgs.AgreeOn.refl _)
    (fun _ _ _ => TrainCell.Owns.unique) (fun _ hg _ => TrainCell.Owns.inBounds hg)
    (fun _ _ ha _ hg => ha.agreeOn hg) (fun _ _ => rfl) (fun _ _ => rfl)
    (fun _ _ => TrainBufs.ext_read) (fun _ _ => rfl)

theorem fwdInferPerActivation_accessesWithin :
    AccessesWithin (fun p => p < sh.numel) (fun out p => out p)
      (InferArgs.AgreeBelow sh.perActivation) (miopenBNFwdInferPerActivationRunHost sqrt sh) :=
  (fwdInferPerActivation_groupLocal sqrt sh).accessesWithin id id (InferArgs.AgreeOn.refl _)
    (fun _ _ _ => Grouping.Owns.unique) (fun _ _ _ h => h.1) (fun _ _ ha _ hg => ha.agreeOn hg)
    (fun _ _ => rfl) (fun _ _ => rfl) (fun _ _ => funext)
    (miopenBNFwdInferPerActivationRunHost_eq_fold sqrt sh)

theorem fwdInferSpatial_accessesWithin :
    AccessesWithin (fun p => p < sh.numel) (fun out p => out p)
      (InferArgs.AgreeBelow sh.spatial) (miopenBNFwdInferSpatialRunHost false sqrt sh) :=
  (fwdInferSpatial_groupLocal sqrt sh).accessesWithin id id (InferArgs.AgreeOn.refl _)
    (fun _ _ _ => Grouping.Owns.unique) (fun _ _ _ h => h.1) (fun _ _ ha _ hg => ha.agreeOn hg)
    (fun _ _ => rfl) (fun _ _ => rfl) (fun _ _ => funext)
    (miopenBNFwdInferSpatialRunHost_eq_fold false sqrt sh)

theorem bwdPerActivation_accessesWithin :
    AccessesWithin (BwdCell.InBounds sh.perActivation) BwdBufs.read
      (BwdArgs.AgreeBelow sh.perActivation) (miopenBNBwdPerActivationRunHost sqrt sh) :=
  (bwdPerActivation_groupLocal sqrt sh).accessesWithin (fun b => (b, fun _ => 0)) Prod.fst
    (BwdArgs.AgreeOn.refl _) (fun _ _ _ => BwdCell.Owns.unique)
    (fun _ hg _ => BwdCell.Owns.inBounds hg) (fun _ _ ha _ hg => ha.agreeOn hg) (fun _ _ => rfl)
    (fun _ _ => rfl) (fun _ _ => BwdBufs.ext_read)
    (miopenBNBwdPerActivationRunHost_eq_fold sqrt sh)

theorem bwdSpatial_accessesWithin :
    AccessesWithin (BwdCell.InBounds sh.spatial) BwdBufs.read
      (BwdArgs.AgreeBelow sh.spatial) (miopenBNBwdSpatialRunHost false sqrt sh) :=
  (bwdSpatial_groupLocal sqrt sh).accessesWithin (fun b => (b, fun _ => 0)) Prod.fst
    (BwdArgs.AgreeOn.refl _) (fun _ _ _ => BwdCell.Owns.unique)
    (fun _ hg _ => BwdCell.Owns.inBounds hg) (fun _ _ ha _ hg => ha.agreeOn hg) (fun _ _ => rfl)
    (fun _ _ => rfl) (fun _ _ => BwdBufs.ext_read) (miopenBNBwdSpatialRunHost_eq_fold sqrt sh)

end Accesses

/-! ## The `xhat` vector -/

section Xhat

variable {α : Type*} [Field α] (sqrt : α → α) (sh : Shape) (a : BwdArgs α)

theorem bwdPerActivationBody_xhat_of_le (adj : ℕ) (st : BwdBufs α × (ℕ → α)) {i : ℕ}
    (hi : sh.nBatchs * sh.inCstride ≤ i) :
    (bwdPerActivationBody sqrt sh a adj st).2 i = st.2 i := by
  rw [bwdPerActivationBody_eq]
  exact fold_frame (fun s : BwdPass α => s.xhat i) (fun k hk _ => Function.update_noteq
    ((mul_add_lt hk (Nat.mod_lt adj sh.inCstride_pos)).trans_le hi).ne' _ _) _

theorem bwdSpatialBody_xhat_of_le (c : ℕ) (st : BwdBufs α × (ℕ → α)) {i : ℕ}
    (hi : sh.nBatchs * sh.inCstride ≤ i) : (bwdSpatialBody sqrt sh a c st).2 i = st.2 i := by
  unfold bwdSpatialBody
  split
  · rfl
  · simp only [bwdSpatialStep, bwdSpatialXhatPass]
    rw [imageLoop_eq]
    let obs := fun st : BwdBufs α × (ℕ → α) => st.2 i
    exact fold_frame obs (fun j hj _ => fold_frame obs
      (fun k hk _ => Function.update_noteq ((mul_add_lt hk hj).trans_le hi).ne' _ _) _) _

/-- The per-activation backward loop writes `xhat` only below `N*H*W`, and what `xhat` held does
not reach the buffers. -/
theorem bwdPerActivation_xhat (b : BwdBufs α) (xhat : ℕ → α) :
    (∀ xhat' : ℕ → α, (Nat.fold (bwdPerActivationBody sqrt sh a) sh.inNstride (b, xhat)).1 =
      (Nat.fold (bwdPerActivationBody sqrt sh a) sh.inNstride (b, xhat')).1) ∧
    ∀ i, sh.nBatchs * sh.inCstride ≤ i →
      (Nat.fold (bwdPerActivationBody sqrt sh a) sh.inNstride (b, xhat)).2 i = xhat i :=
  ⟨fun xhat' => BwdBufs.ext_read (((bwdPerActivation_groupLocal sqrt sh).localBody
      (BwdArgs.AgreeOn.refl _) a).fold_congr (b, xhat) (b, xhat') fun _ => rfl),
    fun _ hi => fold_frame (fun st : BwdBufs α × (ℕ → α) => st.2 _)
      (fun adj _ st => bwdPerActivationBody_xhat_of_le sqrt sh a adj st hi) _⟩

/-- The spatial backward loop writes `xhat` only below `N*H*W`, and what `xhat` held does not
reach the buffers. -/
theorem bwdSpatial_xhat (b : BwdBufs α) (xhat : ℕ → α) :
    (∀ xhat' : ℕ → α, (Nat.fold (bwdSpatialBody sqrt sh a) sh.channels (b, xhat)).1 =
      (Nat.fold (bwdSpatialBody sqrt sh a) sh.channels (b, xhat')).1) ∧
    ∀ i, sh.nBatchs * sh.inCstride ≤ i →
      (Nat.fold (bwdSpatialBody sqrt sh a) sh.channels (b, xhat)).2 i = xhat i :=
  ⟨fun xhat' => BwdBufs.ext_read (((bwdSpatial_groupLocal sqrt sh).localBody
      (BwdArgs.AgreeOn.refl _) a).fold_congr (b, xhat) (b, xhat') fun _ => rfl),
    fun _ hi => fold_frame (fun st : BwdBufs α × (ℕ → α) => st.2 _)
      (fun c _ st => bwdSpatialBody_xhat_of_le sqrt sh a c st hi) _⟩

end Xhat

/-! ## Square roots -/

namespace Grouping

section Sqrt

variable {α : Type*} [Field α] {G : Grouping} {sqrt sqrt' : α → α}

theorem fwdTrain_sqrt_congr {a : TrainArgs α} (h : ∀ g < G.count,
      sqrt (G.variance a.inPtr g + a.epsilon) = sqrt' (G.variance a.inPtr g + a.epsilon))
    (b : TrainBufs α) : G.fwdTrain sqrt a b = G.fwdTrain sqrt' a b := by
  ext p
  · simp only [fwdTrain, batchNormalize, normalize, invVariance]
    split_ifs with hp
    · rw [h _ (G.groupOf_lt hp)]
    · rfl
  · rfl
  · simp only [fwdTrain, invVariance]
    split_ifs with hp
    · rw [h _ hp.2]
    · rfl
  · rfl
  · rfl

theorem fwdInfer_sqrt_congr {a : InferArgs α} (hest : a.estmeanvar → ∀ g < G.count,
      sqrt (a.estimatedVariance g + a.epsilon) = sqrt' (a.estimatedVariance g + a.epsilon))
    (hbatch : ∀ g < G.count,
      sqrt (G.variance a.inPtr g + a.epsilon) = sqrt' (G.variance a.inPtr g + a.epsilon))
    (out : ℕ → α) : G.fwdInfer sqrt a out = G.fwdInfer sqrt' a out := by
  funext p
  simp only [fwdInfer, batchNormalize, normalize, invVariance]
  split_ifs with hp hest'
  · rw [hest hest' _ (G.groupOf_lt hp)]
  · rw [hbatch _ (G.groupOf_lt hp)]
  · rfl

theorem bwdInvVar_sqrt_congr {a : BwdArgs α} (h : ∀ g < G.count,
      sqrt (G.variance a.xPtr g + a.epsilon) = sqrt' (G.variance a.xPtr g + a.epsilon))
    {g : ℕ} (hg : g < G.count) : G.bwdInvVar sqrt a g = G.bwdInvVar sqrt' a g := by
  unfold bwdInvVar invVariance
  split
  · rfl
  · exact congrArg (1 / ·) (h g hg)

theorem spatialBwd_invVar_congr (a : BwdArgs α) (M : ℕ → α) {I I' : ℕ → α}
    (hI : ∀ g < G.count, I g = I' g) (zeroed : Bool) (b : BwdBufs α) :
    G.spatialBwd a M I zeroed b = G.spatialBwd a M I' zeroed b := by
  ext p
  · by_cases hp : p < G.numel
    · simp only [spatialBwd, if_pos hp, spatialDx, dscaleSum, hI _ (G.groupOf_lt hp)]
    · simp only [spatialBwd, if_neg hp]
  · by_cases hg : p < G.count
    · simp only [spatialBwd, if_pos hg, dscaleSum, hI _ hg]
    · simp only [spatialBwd, if_neg hg]
  · rfl

end Sqrt

theorem variance_add_epsilon_pos {α : Type*} [LinearOrderedField α] (G : Grouping) (x : ℕ → α)
    (g : ℕ) {epsilon : α} (he : 0 < epsilon) : 0 < G.variance x g + epsilon :=
  add_pos_of_nonneg_of_pos (G.variance_nonneg x g) he

end Grouping

section Radicands

variable {α : Type*} [LinearOrderedField α] {sqrt sqrt' : α → α}
  (h : ∀ x, 0 < x → sqrt x = sqrt' x) (sh : Shape)
include h

theorem fwdTrainPerActivation_sqrt_congr {a : TrainArgs α} (he : 0 < a.epsilon)
    (b : TrainBufs α) : miopenBNFwdTrainPerActivationRunHost sqrt sh a b =
      miopenBNFwdTrainPerActivationRunHost sqrt' sh a b := by
  rw [miopenBNFwdTrainPerActivationRunHost_eq, miopenBNFwdTrainPerActivationRunHost_eq]
  exact Grouping.fwdTrain_sqrt_congr (fun _ _ => h _ (Grouping.variance_add_epsilon_pos _ _ _ he)) b

theorem fwdTrainSpatial_sqrt_congr {a : TrainArgs α} (he : 0 < a.epsilon)
    (b : TrainBufs α) : miopenBNFwdTrainSpatialRunHost false sqrt sh a b =
      miopenBNFwdTrainSpatialRunHost false sqrt' sh a b := by
  rw [miopenBNFwdTrainSpatialRunHost_eq, miopenBNFwdTrainSpatialRunHost_eq]
  exact Grouping.fwdTrain_sqrt_congr (fun _ _ => h _ (Grouping.variance_add_epsilon_pos _ _ _ he)) b

theorem fwdInferPerActivation_sqrt_congr {a : InferArgs α} (he : 0 < a.epsilon)
    (hest : a.estmeanvar → ∀ g < sh.inNstride, 0 < a.estimatedVariance g + a.epsilon)
    (out : ℕ → α) : miopenBNFwdInferPerActivationRunHost sqrt sh a out =
      miopenBNFwdInferPerActivationRunHost sqrt' sh a out := by
  rw [miopenBNFwdInferPerActivationRunHost_eq, miopenBNFwdInferPerActivationRunHost_eq]
  exact Grouping.fwdInfer_sqrt_congr (fun hm g hg => h _ (hest hm g hg))
    (fun _ _ => h _ (Grouping.variance_add_epsilon_pos _ _ _ he)) out

theorem fwdInferSpatial_sqrt_congr {a : InferArgs α} (he : 0 < a.epsilon)
    (hest : a.estmeanvar → ∀ g < sh.channels, 0 < a.estimatedVariance g + a.epsilon)
    (out : ℕ → α) : miopenBNFwdInferSpatialRunHost false sqrt sh a out =
      miopenBNFwdInferSpatialRunHost false sqrt' sh a out := by
  rw [miopenBNFwdInferSpatialRunHost_eq, miopenBNFwdInferSpatialRunHost_eq]
  exact Grouping.fwdInfer_sqrt_congr (fun hm g hg => h _ (hest hm g hg))
    (fun _ _ => h _ (Grouping.variance_add_epsilon_pos _ _ _ he)) out

theorem bwdPerActivation_sqrt_congr {a : BwdArgs α} (he : 0 < a.epsilon) (b : BwdBufs α) :
    miopenBNBwdPerActivationRunHost sqrt sh a b = miopenBNBwdPerActivationRunHost sqrt' sh a b := by
  rw [miopenBNBwdPerActivationRunHost_eq, miopenBNBwdPerActivationRunHost_eq]
  exact perActivationBwd_congr sh.perActivation a (fun _ _ => rfl)
    (fun _ hg => Grouping.bwdInvVar_sqrt_congr
      (fun _ _ => h _ (Grouping.variance_add_epsilon_pos _ _ _ he)) hg) b

theorem bwdSpatial_sqrt_congr {a : BwdArgs α} (he : 0 < a.epsilon) (b : BwdBufs α) :
    miopenBNBwdSpatialRunHost false sqrt sh a b =
      miopenBNBwdSpatialRunHost false sqrt' sh a b := by
  rw [miopenBNBwdSpatialRunHost_eq, miopenBNBwdSpatialRunHost_eq]
  exact Grouping.spatialBwd_invVar_congr a _ (fun _ hg => Grouping.bwdInvVar_sqrt_congr
    (fun _ _ => h _ (Grouping.variance_add_epsilon_pos _ _ _ he)) hg) _ b

end Radicands

/-! ## Divisors -/

/-- The divisors of the host routines: `n_batchs` and `NHW = in_cstride*n_batchs`, and the Bessel
factor's `n_batchs - 1` and `NHW - 1` in the branch where each is formed. -/
theorem Shape.divisors_ne_zero {α : Type*} [LinearOrderedField α] (sh : Shape) :
    (sh.nBatchs : α) ≠ 0 ∧ ((sh.inCstride * sh.nBatchs : ℕ) : α) ≠ 0 ∧
      (sh.nBatchs ≠ 1 → ((sh.nBatchs - 1 : ℕ) : α) ≠ 0) ∧
      (sh.nBatchs * sh.inCstride ≠ 1 → ((sh.inCstride * sh.nBatchs : ℕ) : α) - 1 ≠ 0) := by
  have hN := sh.nBatchs_pos
  refine ⟨Nat.cast_ne_zero.2 hN.ne', Nat.cast_ne_zero.2 (Nat.mul_pos sh.inCstride_pos hN).ne',
    fun h => Nat.cast_ne_zero.2 (by omega), fun h => sub_ne_zero.2 fun h' => h ?_⟩
  rw [Nat.mul_comm]
  exact Nat.cast_eq_one.1 h'

/-! ## The six routines -/

/-- One element. -/
def unitShape : Shape := ⟨1, 1, 1, 1, by decide, by decide, by decide, by decide⟩

/-- `x = 1`, `scale = 1`, `bias = 0`, `epsilon = 1`, and the estimated statistics `mean = 0`,
`variance = -2`. -/
def negVarianceArgs : InferArgs ℝ :=
  ⟨fun _ => 1, fun _ => 1, fun _ => 0, 1, true, fun _ => 0, fun _ => -2⟩

end MIOpen.BatchNorm
