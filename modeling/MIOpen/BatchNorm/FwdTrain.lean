import MIOpen.BatchNorm.Blocked
import MIOpen.BatchNorm.Engine

/-!
# Training forward host routines

`miopenBNFwdTrainPerActivationRunHost` and `miopenBNFwdTrainSpatialRunHost`, the CPU references of
the training forward pass. Both compute the two-pass mean and variance of each group, optionally
save them and blend them into the running statistics, and normalize the group. The spatial routine
uses `out_ptr` as a scratchpad for `x - mean` between its variance pass and its normalization pass.

Each routine is shown to compute `Grouping.fwdTrain` of its grouping.
-/

namespace MIOpen.BatchNorm

open Finset

variable {α : Type*} [Field α]

/-! ## Per-activation -/

/-- The first pass over the batch at `adjIndex`: `mean_accum += in_ptr[index]`, then
`mean_accum /= n_batchs`. -/
def perActivationMean (sh : Shape) (x : ℕ → α) (adjIndex : ℕ) : α :=
  Nat.fold (fun bidx acc => acc + x (sh.inNstride * bidx + adjIndex)) sh.nBatchs 0 / sh.nBatchs

/-- The second pass: `variance_accum += elemStd*elemStd` with `elemStd = x - mean`, then
`variance_accum /= n_batchs`. -/
def perActivationVariance (sh : Shape) (x : ℕ → α) (adjIndex : ℕ) (mean : α) : α :=
  Nat.fold (fun bidx acc =>
      let elemStd := x (sh.inNstride * bidx + adjIndex) - mean
      acc + elemStd * elemStd) sh.nBatchs 0 / sh.nBatchs

/-- The normalization loop over the batch at `adjIndex`:
`out_ptr[index] = scale_ptr[adjIndex]*inhat + bias_ptr[adjIndex]`,
`inhat = (x - mean)*elemInvVar`. -/
def perActivationNormPass (sh : Shape) (x scale bias : ℕ → α) (adjIndex : ℕ) (mean elemInvVar : α)
    (out : ℕ → α) : ℕ → α :=
  Nat.fold (fun bidx out =>
      let index := sh.inNstride * bidx + adjIndex
      let elemStd := x index - mean
      let inhat := elemStd * elemInvVar
      Function.update out index (scale adjIndex * inhat + bias adjIndex)) sh.nBatchs out

/-- The body of the `cidx`/`row`/`column` loops of `miopenBNFwdTrainPerActivationRunHost`, for the
group at `adjIndex`, buffer by buffer. -/
def fwdTrainPerActivationStep (sqrt : α → α) (sh : Shape) (a : TrainArgs α) (adjIndex : ℕ)
    (b : TrainBufs α) : TrainBufs α :=
  let meanAccum := perActivationMean sh a.inPtr adjIndex
  let varianceAccum := perActivationVariance sh a.inPtr adjIndex meanAccum
  let adjust := if sh.nBatchs = 1 then varianceAccum
    else (sh.nBatchs : α) / ((sh.nBatchs - 1 : ℕ) : α) * varianceAccum
  let elemInvVar := 1 / sqrt (varianceAccum + a.epsilon)
  { outPtr := perActivationNormPass sh a.inPtr a.scalePtr a.biasPtr adjIndex meanAccum elemInvVar
      b.outPtr
    saveMean := if a.savemeanvar then Function.update b.saveMean adjIndex meanAccum
      else b.saveMean
    saveInvVariance := if a.savemeanvar then Function.update b.saveInvVariance adjIndex elemInvVar
      else b.saveInvVariance
    runningMean := if a.runningmeanvar then
        let newRunMean := b.runningMean adjIndex * (1 - a.expAvgFactor)
        Function.update b.runningMean adjIndex (meanAccum * a.expAvgFactor + newRunMean)
      else b.runningMean
    runningVariance := if a.runningmeanvar then
        Function.update b.runningVariance adjIndex
          (a.expAvgFactor * b.runningVariance adjIndex + (1 - a.expAvgFactor) * adjust)
      else b.runningVariance }

/-- `miopenBNFwdTrainPerActivationRunHost`. -/
def miopenBNFwdTrainPerActivationRunHost (sqrt : α → α) (sh : Shape) (a : TrainArgs α)
    (b : TrainBufs α) : TrainBufs α :=
  Nat.fold (fun cidx => imageLoop sh fun imgIndex =>
    fwdTrainPerActivationStep sqrt sh a (sh.inCstride * cidx + imgIndex)) sh.channels b

theorem miopenBNFwdTrainPerActivationRunHost_eq_fold (sqrt : α → α) (sh : Shape)
    (a : TrainArgs α) (b : TrainBufs α) :
    miopenBNFwdTrainPerActivationRunHost sqrt sh a b =
      Nat.fold (fwdTrainPerActivationStep sqrt sh a) sh.inNstride b :=
  channelsLoop_eq sh (fun adj _ => fwdTrainPerActivationStep sqrt sh a adj) b

theorem perActivationMean_eq (sh : Shape) (x : ℕ → α) (adj : ℕ) :
    perActivationMean sh x adj = sh.perActivation.mean x adj := by
  simp [perActivationMean, Grouping.mean, Grouping.sum, fold_add_eq_sum, Shape.perActivation]

theorem perActivationVariance_eq (sh : Shape) (x : ℕ → α) (adj : ℕ) :
    perActivationVariance sh x adj (sh.perActivation.mean x adj) =
      sh.perActivation.variance x adj := by
  simp [perActivationVariance, Grouping.variance, Grouping.sum, fold_add_eq_sum,
    Shape.perActivation]

theorem perActivation_adjust (sh : Shape) (v : α) :
    (if sh.nBatchs = 1 then v else (sh.nBatchs : α) / ((sh.nBatchs - 1 : ℕ) : α) * v) =
      sh.perActivation.adjust v := by
  simp [Grouping.adjust, Shape.perActivation, Nat.cast_sub sh.nBatchs_pos]

theorem perActivationNormPass_apply (sh : Shape) (x scale bias : ℕ → α) {adj : ℕ}
    (hadj : adj < sh.inNstride) (mean elemInvVar : α) (out : ℕ → α) (p : ℕ) :
    perActivationNormPass sh x scale bias adj mean elemInvVar out p =
      if p < sh.perActivation.numel ∧ sh.perActivation.groupOf p = adj then
        scale adj * ((x p - mean) * elemInvVar) + bias adj
      else out p := by
  refine sh.perActivation.fold_group hadj (fun p (o : ℕ → α) => o p)
    (fun p _ => scale adj * ((x p - mean) * elemInvVar) + bias adj) _ (fun k _ q s => ?_) p _
  simp only [Function.update_apply, Shape.perActivation_elem]
  split_ifs with h
  · subst h; rfl
  · rfl

section Step

variable (sqrt : α → α) (sh : Shape) (a : TrainArgs α) (b : TrainBufs α)

theorem fwdTrainPerActivationStep_outPtr {adj : ℕ} (hadj : adj < sh.inNstride) (p : ℕ) :
    (fwdTrainPerActivationStep sqrt sh a adj b).outPtr p =
      if p < sh.perActivation.numel ∧ sh.perActivation.groupOf p = adj then
        sh.perActivation.batchNormalize sqrt a.inPtr a.scalePtr a.biasPtr a.epsilon p
      else b.outPtr p := by
  simp only [fwdTrainPerActivationStep, perActivationNormPass_apply sh _ _ _ hadj]
  split_ifs with h
  · simp only [Grouping.batchNormalize, Grouping.normalize, h.2, invVariance,
      perActivationMean_eq, perActivationVariance_eq]
  · rfl

theorem fwdTrainPerActivationStep_saveMean (adj j : ℕ) :
    (fwdTrainPerActivationStep sqrt sh a adj b).saveMean j =
      if j = adj then (if a.savemeanvar then sh.perActivation.mean a.inPtr j else b.saveMean j)
      else b.saveMean j := by
  simp only [fwdTrainPerActivationStep, perActivationMean_eq, ite_update_apply]
  rcases eq_or_ne j adj with rfl | h
  · rfl
  · simp only [if_neg h]

theorem fwdTrainPerActivationStep_saveInvVariance (adj j : ℕ) :
    (fwdTrainPerActivationStep sqrt sh a adj b).saveInvVariance j =
      if j = adj then (if a.savemeanvar then
        invVariance sqrt (sh.perActivation.variance a.inPtr j) a.epsilon else b.saveInvVariance j)
      else b.saveInvVariance j := by
  simp only [fwdTrainPerActivationStep, perActivationMean_eq, perActivationVariance_eq,
    ite_update_apply, invVariance]
  rcases eq_or_ne j adj with rfl | h
  · rfl
  · simp only [if_neg h]

theorem fwdTrainPerActivationStep_runningMean (adj j : ℕ) :
    (fwdTrainPerActivationStep sqrt sh a adj b).runningMean j =
      if j = adj then (if a.runningmeanvar then
        sh.perActivation.mean a.inPtr j * a.expAvgFactor + b.runningMean j * (1 - a.expAvgFactor)
        else b.runningMean j)
      else b.runningMean j := by
  simp only [fwdTrainPerActivationStep, perActivationMean_eq, ite_update_apply]
  rcases eq_or_ne j adj with rfl | h
  · rfl
  · simp only [if_neg h]

theorem fwdTrainPerActivationStep_runningVariance (adj j : ℕ) :
    (fwdTrainPerActivationStep sqrt sh a adj b).runningVariance j =
      if j = adj then (if a.runningmeanvar then a.expAvgFactor * b.runningVariance j +
        (1 - a.expAvgFactor) * sh.perActivation.adjust (sh.perActivation.variance a.inPtr j)
        else b.runningVariance j)
      else b.runningVariance j := by
  simp only [fwdTrainPerActivationStep, perActivationMean_eq, perActivationVariance_eq,
    perActivation_adjust, ite_update_apply]
  rcases eq_or_ne j adj with rfl | h
  · rfl
  · simp only [if_neg h]

end Step

/-- The per-activation training routine computes the training forward of its grouping. -/
theorem miopenBNFwdTrainPerActivationRunHost_eq (sqrt : α → α) (sh : Shape) (a : TrainArgs α)
    (b : TrainBufs α) :
    miopenBNFwdTrainPerActivationRunHost sqrt sh a b = sh.perActivation.fwdTrain sqrt a b := by
  rw [miopenBNFwdTrainPerActivationRunHost_eq_fold]
  exact sh.perActivation.fold_fwdTrain sqrt a _
    (fun _ hg p s => fwdTrainPerActivationStep_outPtr sqrt sh a s hg p)
    (fun i _ j s => fwdTrainPerActivationStep_saveMean sqrt sh a s i j)
    (fun i _ j s => fwdTrainPerActivationStep_saveInvVariance sqrt sh a s i j)
    (fun i _ j s => fwdTrainPerActivationStep_runningMean sqrt sh a s i j)
    (fun i _ j s => fwdTrainPerActivationStep_runningVariance sqrt sh a s i j) b

/-! ## Spatial -/

/-- The first pass of `miopenBNFwdTrainSpatialRunHost` over channel `cidx`, guarded by
`imgIndex < in_cstride`. -/
def fwdTrainSpatialMeanAccum (sh : Shape) (x : ℕ → α) (cidx : ℕ) : α :=
  imageLoop sh (fun imgIndex acc =>
    let adjIndex := sh.inCstride * cidx + imgIndex
    if imgIndex < sh.inCstride then
      Nat.fold (fun bidx acc => acc + x (sh.inNstride * bidx + adjIndex)) sh.nBatchs acc
    else acc) 0

/-- The second pass: `out_ptr[index] = elemStd = x - mean`, the output buffer used as a
scratchpad, and `variance_accum += elemStd*elemStd`. -/
def fwdTrainSpatialVarPass (sh : Shape) (x : ℕ → α) (cidx : ℕ) (mean : α) (out : ℕ → α) :
    (ℕ → α) × α :=
  imageLoop sh (fun imgIndex st =>
    let adjIndex := sh.inCstride * cidx + imgIndex
    if imgIndex < sh.inCstride then
      Nat.fold (fun bidx st =>
        let index := sh.inNstride * bidx + adjIndex
        let elemStd := x index - mean
        (Function.update st.1 index elemStd, st.2 + elemStd * elemStd)) sh.nBatchs st
    else st) (out, 0)

/-- The normalization pass `out_ptr[index] = scale*(invertVar*out_ptr[index]) + bias`, reading
back the scratchpad. -/
def fwdTrainSpatialNormPass (sh : Shape) (scale bias : ℕ → α) (cidx : ℕ) (invertVar : α)
    (out : ℕ → α) : ℕ → α :=
  imageLoop sh (fun imgIndex out =>
    let adjIndex := sh.inCstride * cidx + imgIndex
    if imgIndex < sh.inCstride then
      Nat.fold (fun bidx out =>
        let index := sh.inNstride * bidx + adjIndex
        Function.update out index (scale cidx * (invertVar * out index) + bias cidx)) sh.nBatchs out
    else out) out

/-- The body of the channel loop of `miopenBNFwdTrainSpatialRunHost`, buffer by buffer. With
`heirarchSel` (the `MIO_HEIRARCH_SEL == 1` build) the two statistics passes are blocked, and the
blocked variance pass does not write the scratchpad. -/
def fwdTrainSpatialStep (heirarchSel : Bool) (sqrt : α → α) (sh : Shape) (a : TrainArgs α)
    (cidx : ℕ) (b : TrainBufs α) : TrainBufs α :=
  let NHW : α := ((sh.inCstride * sh.nBatchs : ℕ) : α)
  let meanAccum := (if heirarchSel then
      blockedAccum sh true fun imgIndex bidx =>
        a.inPtr (sh.inNstride * bidx + (sh.inCstride * cidx + imgIndex))
    else fwdTrainSpatialMeanAccum sh a.inPtr cidx) / NHW
  let varPass := if heirarchSel then
      (b.outPtr, blockedAccum sh true fun imgIndex bidx =>
        let elemStd := a.inPtr (sh.inNstride * bidx + (sh.inCstride * cidx + imgIndex)) - meanAccum
        elemStd * elemStd)
    else fwdTrainSpatialVarPass sh a.inPtr cidx meanAccum b.outPtr
  let varianceAccum := varPass.2 / NHW
  let adjust := if sh.nBatchs * sh.inCstride = 1 then varianceAccum
    else NHW / (NHW - 1) * varianceAccum
  let invertVar := 1 / sqrt (varianceAccum + a.epsilon)
  { outPtr := fwdTrainSpatialNormPass sh a.scalePtr a.biasPtr cidx invertVar varPass.1
    saveMean := if a.savemeanvar then Function.update b.saveMean cidx meanAccum else b.saveMean
    saveInvVariance := if a.savemeanvar then Function.update b.saveInvVariance cidx invertVar
      else b.saveInvVariance
    runningMean := if a.runningmeanvar then
        let newRunMean := b.runningMean cidx * (1 - a.expAvgFactor)
        Function.update b.runningMean cidx (meanAccum * a.expAvgFactor + newRunMean)
      else b.runningMean
    runningVariance := if a.runningmeanvar then
        Function.update b.runningVariance cidx
          (a.expAvgFactor * b.runningVariance cidx + (1 - a.expAvgFactor) * adjust)
      else b.runningVariance }

/-- `miopenBNFwdTrainSpatialRunHost`, built with `MIO_HEIRARCH_SEL` equal to `heirarchSel`. -/
def miopenBNFwdTrainSpatialRunHost (heirarchSel : Bool) (sqrt : α → α) (sh : Shape)
    (a : TrainArgs α) (b : TrainBufs α) : TrainBufs α :=
  Nat.fold (fwdTrainSpatialStep heirarchSel sqrt sh a) sh.channels b

theorem fwdTrainSpatialMeanAccum_eq (sh : Shape) (x : ℕ → α) (c : ℕ) :
    fwdTrainSpatialMeanAccum sh x c = sh.spatial.sum x c := by
  simp only [fwdTrainSpatialMeanAccum]
  rw [sh.imageLoop_guard, sh.spatialLoop_eq, fold_add_eq_sum, zero_add]
  rfl

theorem fwdTrainSpatialVarPass_snd (sh : Shape) (x : ℕ → α) (c : ℕ) (mean : α) (out : ℕ → α) :
    (fwdTrainSpatialVarPass sh x c mean out).2 =
      sh.spatial.sum (fun p => (x p - mean) * (x p - mean)) c := by
  simp only [fwdTrainSpatialVarPass]
  rw [sh.imageLoop_guard, sh.spatialLoop_eq]
  exact (fold_acc Prod.snd _ (fun k _ s => rfl) _).trans (zero_add _)

theorem fwdTrainSpatialVarPass_fst (sh : Shape) (x : ℕ → α) {c : ℕ} (hc : c < sh.channels)
    (mean : α) (out : ℕ → α) (p : ℕ) :
    (fwdTrainSpatialVarPass sh x c mean out).1 p =
      if p < sh.spatial.numel ∧ sh.spatial.groupOf p = c then x p - mean else out p := by
  simp only [fwdTrainSpatialVarPass]
  rw [sh.imageLoop_guard, sh.spatialLoop_eq]
  refine sh.spatial.fold_group hc (fun p (st : (ℕ → α) × α) => st.1 p) (fun p _ => x p - mean) _
    (fun k _ q s => ?_) p _
  simp only [Function.update_apply, Shape.spatial_elem]
  split_ifs with h
  · subst h; rfl
  · rfl

theorem fwdTrainSpatialNormPass_apply (sh : Shape) (scale bias : ℕ → α) {c : ℕ}
    (hc : c < sh.channels) (invertVar : α) (out : ℕ → α) (p : ℕ) :
    fwdTrainSpatialNormPass sh scale bias c invertVar out p =
      if p < sh.spatial.numel ∧ sh.spatial.groupOf p = c then scale c * (invertVar * out p) + bias c
      else out p := by
  simp only [fwdTrainSpatialNormPass]
  rw [sh.imageLoop_guard, sh.spatialLoop_eq]
  refine sh.spatial.fold_group hc (fun p (o : ℕ → α) => o p)
    (fun _ v => scale c * (invertVar * v) + bias c) _ (fun k _ q s => ?_) p _
  simp only [Function.update_apply, Shape.spatial_elem]
  split_ifs with h
  · subst h; rfl
  · rfl

theorem spatial_adjust (sh : Shape) (v : α) :
    (if sh.nBatchs * sh.inCstride = 1 then v
      else ((sh.inCstride * sh.nBatchs : ℕ) : α) /
        (((sh.inCstride * sh.nBatchs : ℕ) : α) - 1) * v) =
      sh.spatial.adjust v := by
  rw [Grouping.adjust, Shape.spatial_size, Nat.mul_comm sh.nBatchs]

section SpatialStep

variable (sqrt : α → α) (sh : Shape) (a : TrainArgs α) (b : TrainBufs α)

theorem fwdTrainSpatialStep_outPtr {c : ℕ} (hc : c < sh.channels) (p : ℕ) :
    (fwdTrainSpatialStep false sqrt sh a c b).outPtr p =
      if p < sh.spatial.numel ∧ sh.spatial.groupOf p = c then
        sh.spatial.batchNormalize sqrt a.inPtr a.scalePtr a.biasPtr a.epsilon p
      else b.outPtr p := by
  simp only [fwdTrainSpatialStep, Bool.false_eq_true, ↓reduceIte,
    fwdTrainSpatialNormPass_apply sh _ _ hc,
    fwdTrainSpatialVarPass_fst sh _ hc]
  split_ifs with h
  · simp only [Grouping.batchNormalize, Grouping.normalize, h.2, Grouping.variance, Grouping.mean,
      invVariance, fwdTrainSpatialMeanAccum_eq, fwdTrainSpatialVarPass_snd, Shape.spatial_size]
    ring
  · rfl

theorem fwdTrainSpatialStep_saveMean (c j : ℕ) :
    (fwdTrainSpatialStep false sqrt sh a c b).saveMean j =
      if j = c then (if a.savemeanvar then sh.spatial.mean a.inPtr j else b.saveMean j)
      else b.saveMean j := by
  simp only [fwdTrainSpatialStep, Bool.false_eq_true, ↓reduceIte, fwdTrainSpatialMeanAccum_eq,
    ite_update_apply]
  rcases eq_or_ne j c with rfl | h
  · rfl
  · simp only [if_neg h]

theorem fwdTrainSpatialStep_saveInvVariance (c j : ℕ) :
    (fwdTrainSpatialStep false sqrt sh a c b).saveInvVariance j =
      if j = c then (if a.savemeanvar then
        invVariance sqrt (sh.spatial.variance a.inPtr j) a.epsilon else b.saveInvVariance j)
      else b.saveInvVariance j := by
  simp only [fwdTrainSpatialStep, Bool.false_eq_true, ↓reduceIte, fwdTrainSpatialMeanAccum_eq,
    fwdTrainSpatialVarPass_snd, ite_update_apply]
  rcases eq_or_ne j c with rfl | h
  · rfl
  · simp only [if_neg h]

theorem fwdTrainSpatialStep_runningMean (c j : ℕ) :
    (fwdTrainSpatialStep false sqrt sh a c b).runningMean j =
      if j = c then (if a.runningmeanvar then
        sh.spatial.mean a.inPtr j * a.expAvgFactor + b.runningMean j * (1 - a.expAvgFactor)
        else b.runningMean j)
      else b.runningMean j := by
  simp only [fwdTrainSpatialStep, Bool.false_eq_true, ↓reduceIte, fwdTrainSpatialMeanAccum_eq,
    ite_update_apply]
  rcases eq_or_ne j c with rfl | h
  · rfl
  · simp only [if_neg h]

theorem fwdTrainSpatialStep_runningVariance (c j : ℕ) :
    (fwdTrainSpatialStep false sqrt sh a c b).runningVariance j =
      if j = c then (if a.runningmeanvar then a.expAvgFactor * b.runningVariance j +
        (1 - a.expAvgFactor) * sh.spatial.adjust (sh.spatial.variance a.inPtr j)
        else b.runningVariance j)
      else b.runningVariance j := by
  simp only [fwdTrainSpatialStep, Bool.false_eq_true, ↓reduceIte, fwdTrainSpatialMeanAccum_eq,
    fwdTrainSpatialVarPass_snd, spatial_adjust, ite_update_apply]
  rcases eq_or_ne j c with rfl | h
  · rfl
  · simp only [if_neg h]

end SpatialStep

/-- The spatial training routine of the `MIO_HEIRARCH_SEL == 0` build computes the training
forward of its grouping. -/
theorem miopenBNFwdTrainSpatialRunHost_eq (sqrt : α → α) (sh : Shape) (a : TrainArgs α)
    (b : TrainBufs α) :
    miopenBNFwdTrainSpatialRunHost false sqrt sh a b = sh.spatial.fwdTrain sqrt a b := by
  rw [miopenBNFwdTrainSpatialRunHost]
  exact sh.spatial.fold_fwdTrain sqrt a _
    (fun _ hg p s => fwdTrainSpatialStep_outPtr sqrt sh a s hg p)
    (fun i _ j s => fwdTrainSpatialStep_saveMean sqrt sh a s i j)
    (fun i _ j s => fwdTrainSpatialStep_saveInvVariance sqrt sh a s i j)
    (fun i _ j s => fwdTrainSpatialStep_runningMean sqrt sh a s i j)
    (fun i _ j s => fwdTrainSpatialStep_runningVariance sqrt sh a s i j) b

end MIOpen.BatchNorm