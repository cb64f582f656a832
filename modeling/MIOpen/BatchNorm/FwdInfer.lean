import MIOpen.BatchNorm.FwdTrain

/-!
# Inference forward host routines

`miopenBNFwdInferPerActivationRunHost` and `miopenBNFwdInferSpatialRunHost` normalize with the
estimated statistics when `estmeanvar` is set, and otherwise recompute the batch statistics with
the same two passes as training, saving and blending nothing. The `printf` of the estimated branch
is not modelled.

Each routine is shown to compute `Grouping.fwdInfer` of its grouping.
-/

namespace MIOpen.BatchNorm

open Finset

variable {α : Type*} [Field α]

/-! ## Per-activation -/

/-- `miopenBNFwdInferPerActivationRunHost`. -/
def miopenBNFwdInferPerActivationRunHost (sqrt : α → α) (sh : Shape) (a : InferArgs α)
    (out : ℕ → α) : ℕ → α :=
  if a.estmeanvar then
    Nat.fold (fun cidx => imageLoop sh fun imgIndex out =>
      let adjIndex := sh.inCstride * cidx + imgIndex
      let mean := a.estimatedMean adjIndex
      let variance := a.estimatedVariance adjIndex
      let elemInvVar := 1 / sqrt (variance + a.epsilon)
      perActivationNormPass sh a.inPtr a.scalePtr a.biasPtr adjIndex mean elemInvVar out)
      sh.channels out
  else
    Nat.fold (fun cidx => imageLoop sh fun imgIndex out =>
      let adjIndex := sh.inCstride * cidx + imgIndex
      let meanAccum := perActivationMean sh a.inPtr adjIndex
      let varianceAccum := perActivationVariance sh a.inPtr adjIndex meanAccum
      let elemInvVar := 1 / sqrt (varianceAccum + a.epsilon)
      perActivationNormPass sh a.inPtr a.scalePtr a.biasPtr adjIndex meanAccum elemInvVar out)
      sh.channels out

/-- The body of the `cidx`/`row`/`column` loops of `miopenBNFwdInferPerActivationRunHost` for the
group at `adjIndex`, with the test of `estmeanvar` taken inside. -/
def fwdInferPerActivationBody (sqrt : α → α) (sh : Shape) (a : InferArgs α) (adjIndex : ℕ)
    (out : ℕ → α) : ℕ → α :=
  if a.estmeanvar then
    let mean := a.estimatedMean adjIndex
    let variance := a.estimatedVariance adjIndex
    let elemInvVar := 1 / sqrt (variance + a.epsilon)
    perActivationNormPass sh a.inPtr a.scalePtr a.biasPtr adjIndex mean elemInvVar out
  else
    let meanAccum := perActivationMean sh a.inPtr adjIndex
    let varianceAccum := perActivationVariance sh a.inPtr adjIndex meanAccum
    let elemInvVar := 1 / sqrt (varianceAccum + a.epsilon)
    perActivationNormPass sh a.inPtr a.scalePtr a.biasPtr adjIndex meanAccum elemInvVar out

theorem miopenBNFwdInferPerActivationRunHost_eq_fold (sqrt : α → α) (sh : Shape)
    (a : InferArgs α) (out : ℕ → α) :
    miopenBNFwdInferPerActivationRunHost sqrt sh a out =
      Nat.fold (fwdInferPerActivationBody sqrt sh a) sh.inNstride out := by
  rw [← channelsLoop_eq sh (fun adj _ => fwdInferPerActivationBody sqrt sh a adj),
    miopenBNFwdInferPerActivationRunHost]
  unfold fwdInferPerActivationBody
  cases a.estmeanvar <;> rfl

theorem fwdInferPerActivationBody_apply (sqrt : α → α) (sh : Shape) (a : InferArgs α) {adj : ℕ}
    (hadj : adj < sh.inNstride) (out : ℕ → α) (p : ℕ) :
    fwdInferPerActivationBody sqrt sh a adj out p =
      if p < sh.perActivation.numel ∧ sh.perActivation.groupOf p = adj then
        (if a.estmeanvar then
          sh.perActivation.normalize sqrt a.inPtr a.scalePtr a.biasPtr a.epsilon a.estimatedMean
            a.estimatedVariance p
        else sh.perActivation.batchNormalize sqrt a.inPtr a.scalePtr a.biasPtr a.epsilon p)
      else out p := by
  cases hest : a.estmeanvar <;>
    simp only [fwdInferPerActivationBody, hest, Bool.false_eq_true, ↓reduceIte,
      perActivationNormPass_apply sh _ _ _ hadj] <;>
    split_ifs with h
  · simp only [Grouping.batchNormalize, Grouping.normalize, h.2, invVariance,
      perActivationMean_eq, perActivationVariance_eq]
  · rfl
  · simp only [Grouping.normalize, h.2, invVariance]
  · rfl

/-- The per-activation inference routine computes the inference forward of its grouping. -/
theorem miopenBNFwdInferPerActivationRunHost_eq (sqrt : α → α) (sh : Shape) (a : InferArgs α)
    (out : ℕ → α) :
    miopenBNFwdInferPerActivationRunHost sqrt sh a out = sh.perActivation.fwdInfer sqrt a out := by
  funext p
  rw [miopenBNFwdInferPerActivationRunHost_eq_fold]
  exact sh.perActivation.fold_groups (fun p (o : ℕ → α) => o p) (fun p _ => if a.estmeanvar then
      sh.perActivation.normalize sqrt a.inPtr a.scalePtr a.biasPtr a.epsilon a.estimatedMean
        a.estimatedVariance p
    else sh.perActivation.batchNormalize sqrt a.inPtr a.scalePtr a.biasPtr a.epsilon p) _
    (fun g hg q o => fwdInferPerActivationBody_apply sqrt sh a hg o q) p out

/-! ## Spatial -/

/-- The first pass over channel `cidx` of the inference and backward spatial routines:
`mean_accum += in_ptr[index]`, with no guard on the image position. -/
def spatialMeanAccum (sh : Shape) (x : ℕ → α) (cidx : ℕ) : α :=
  imageLoop sh (fun imgIndex =>
    let adjIndex := sh.inCstride * cidx + imgIndex
    Nat.fold (fun bidx acc => acc + x (sh.inNstride * bidx + adjIndex)) sh.nBatchs) 0

/-- The second pass of the inference routine: `out_ptr[index] = elemStd = x - mean` as scratch and
`variance_accum += elemStd*elemStd`. -/
def fwdInferSpatialVarPass (sh : Shape) (x : ℕ → α) (cidx : ℕ) (mean : α) (out : ℕ → α) :
    (ℕ → α) × α :=
  imageLoop sh (fun imgIndex =>
    let adjIndex := sh.inCstride * cidx + imgIndex
    Nat.fold (fun bidx st =>
      let index := sh.inNstride * bidx + adjIndex
      let elemStd := x index - mean
      (Function.update st.1 index elemStd, st.2 + elemStd * elemStd)) sh.nBatchs) (out, 0)

/-- The blocked second pass of the inference routine: the scratch writes and the partial sums
`variance_accum_arr[i]`, with no guard on the image position. -/
def fwdInferSpatialBlockedVarPass (sh : Shape) (x : ℕ → α) (cidx : ℕ) (mean : α) (out : ℕ → α) :
    (ℕ → α) × α :=
  let st := blockedLoop sh (fun i imgIndex =>
    let adjIndex := sh.inCstride * cidx + imgIndex
    Nat.fold (fun bidx st =>
      let index := sh.inNstride * bidx + adjIndex
      let elemStd := x index - mean
      (Function.update st.1 index elemStd, Function.update st.2 i (st.2 i + elemStd * elemStd)))
      sh.nBatchs) (out, fun _ => 0)
  (st.1, Nat.fold (fun i acc => acc + st.2 i) mioBnDist 0)

/-- The normalization pass of the inference routine: `elemStd = out_ptr[index]`, reading back the
scratch, and `out_ptr[index] = scale*(elemStd*invertVar) + bias`. -/
def fwdInferSpatialNormPass (sh : Shape) (scale bias : ℕ → α) (cidx : ℕ) (invertVar : α)
    (out : ℕ → α) : ℕ → α :=
  imageLoop sh (fun imgIndex =>
    let adjIndex := sh.inCstride * cidx + imgIndex
    Nat.fold (fun bidx out =>
      let index := sh.inNstride * bidx + adjIndex
      let elemStd := out index
      let inhat := elemStd * invertVar
      Function.update out index (scale cidx * inhat + bias cidx)) sh.nBatchs) out

/-- The channel body of the estimated-statistics branch: `out = scale*((x - mean)*invertVar) + bias`
with the supplied `mean` and `variance` of channel `cidx`. -/
def fwdInferSpatialEstPass (sqrt : α → α) (sh : Shape) (a : InferArgs α) (cidx : ℕ)
    (out : ℕ → α) : ℕ → α :=
  let mean := a.estimatedMean cidx
  let variance := a.estimatedVariance cidx
  let invertVar := 1 / sqrt (variance + a.epsilon)
  imageLoop sh (fun imgIndex =>
    let adjIndex := sh.inCstride * cidx + imgIndex
    Nat.fold (fun bidx out =>
      let index := sh.inNstride * bidx + adjIndex
      let elemStd := a.inPtr index - mean
      let inhat := elemStd * invertVar
      Function.update out index (a.scalePtr cidx * inhat + a.biasPtr cidx)) sh.nBatchs) out

/-- The channel body of the batch-statistics branch; `heirarchSel` selects the blocked passes of
the `MIO_HEIRARCH_SEL == 1` build. -/
def fwdInferSpatialStep (heirarchSel : Bool) (sqrt : α → α) (sh : Shape) (a : InferArgs α)
    (cidx : ℕ) (out : ℕ → α) : ℕ → α :=
  let NHW : α := ((sh.inCstride * sh.nBatchs : ℕ) : α)
  let meanAccum := (if heirarchSel then
      blockedAccum sh false fun imgIndex bidx =>
        a.inPtr (sh.inNstride * bidx + (sh.inCstride * cidx + imgIndex))
    else spatialMeanAccum sh a.inPtr cidx) / NHW
  let varPass := if heirarchSel then fwdInferSpatialBlockedVarPass sh a.inPtr cidx meanAccum out
    else fwdInferSpatialVarPass sh a.inPtr cidx meanAccum out
  let varianceAccum := varPass.2 / NHW
  let invertVar := 1 / sqrt (varianceAccum + a.epsilon)
  fwdInferSpatialNormPass sh a.scalePtr a.biasPtr cidx invertVar varPass.1

/-- `miopenBNFwdInferSpatialRunHost`, built with `MIO_HEIRARCH_SEL` equal to `heirarchSel`. -/
def miopenBNFwdInferSpatialRunHost (heirarchSel : Bool) (sqrt : α → α) (sh : Shape)
    (a : InferArgs α) (out : ℕ → α) : ℕ → α :=
  if a.estmeanvar then Nat.fold (fwdInferSpatialEstPass sqrt sh a) sh.channels out
  else Nat.fold (fwdInferSpatialStep heirarchSel sqrt sh a) sh.channels out

theorem spatialMeanAccum_eq (sh : Shape) (x : ℕ → α) (c : ℕ) :
    spatialMeanAccum sh x c = sh.spatial.sum x c := by
  simp only [spatialMeanAccum]
  rw [sh.spatialLoop_eq, fold_add_eq_sum, zero_add]
  rfl

theorem fwdInferSpatialVarPass_snd (sh : Shape) (x : ℕ → α) (c : ℕ) (mean : α) (out : ℕ → α) :
    (fwdInferSpatialVarPass sh x c mean out).2 =
      sh.spatial.sum (fun p => (x p - mean) * (x p - mean)) c := by
  simp only [fwdInferSpatialVarPass]
  rw [sh.spatialLoop_eq]
  exact (fold_acc Prod.snd _ (fun k _ s => rfl) _).trans (zero_add _)

theorem fwdInferSpatialVarPass_fst (sh : Shape) (x : ℕ → α) {c : ℕ} (hc : c < sh.channels)
    (mean : α) (out : ℕ → α) (p : ℕ) :
    (fwdInferSpatialVarPass sh x c mean out).1 p =
      if p < sh.spatial.numel ∧ sh.spatial.groupOf p = c then x p - mean else out p := by
  simp only [fwdInferSpatialVarPass]
  rw [sh.spatialLoop_eq]
  refine sh.spatial.fold_group hc (fun p (st : (ℕ → α) × α) => st.1 p) (fun p _ => x p - mean) _
    (fun k _ q s => ?_) p _
  simp only [Function.update_apply, Shape.spatial_elem]
  split_ifs with h
  · subst h; rfl
  · rfl

theorem fwdInferSpatialNormPass_apply (sh : Shape) (scale bias : ℕ → α) {c : ℕ}
    (hc : c < sh.channels) (invertVar : α) (out : ℕ → α) (p : ℕ) :
    fwdInferSpatialNormPass sh scale bias c invertVar out p =
      if p < sh.spatial.numel ∧ sh.spatial.groupOf p = c then scale c * (out p * invertVar) + bias c
      else out p := by
  simp only [fwdInferSpatialNormPass]
  rw [sh.spatialLoop_eq]
  refine sh.spatial.fold_group hc (fun p (o : ℕ → α) => o p)
    (fun _ v => scale c * (v * invertVar) + bias c) _ (fun k _ q s => ?_) p _
  simp only [Function.update_apply, Shape.spatial_elem]
  split_ifs with h
  · subst h; rfl
  · rfl

theorem fwdInferSpatialEstPass_apply (sqrt : α → α) (sh : Shape) (a : InferArgs α) {c : ℕ}
    (hc : c < sh.channels) (out : ℕ → α) (p : ℕ) :
    fwdInferSpatialEstPass sqrt sh a c out p =
      if p < sh.spatial.numel ∧ sh.spatial.groupOf p = c then
        sh.spatial.normalize sqrt a.inPtr a.scalePtr a.biasPtr a.epsilon a.estimatedMean
          a.estimatedVariance p
      else out p := by
  simp only [fwdInferSpatialEstPass]
  rw [sh.spatialLoop_eq]
  refine sh.spatial.fold_group hc (fun p (o : ℕ → α) => o p)
    (fun p _ => sh.spatial.normalize sqrt a.inPtr a.scalePtr a.biasPtr a.epsilon a.estimatedMean
          a.estimatedVariance p) _ (fun k hk q s => ?_) p _
  have hg := sh.spatial.groupOf_elem hc hk
  simp only [Shape.spatial_elem] at hg
  simp only [Function.update_apply, Shape.spatial_elem]
  split_ifs with h
  · subst h
    simp only [Grouping.normalize, Shape.spatial_groupOf] at hg ⊢
    rw [hg, invVariance]
  · rfl

/-- The body of the channel loop of `miopenBNFwdInferSpatialRunHost`, with the test of
`estmeanvar` taken inside. -/
def fwdInferSpatialBody (heirarchSel : Bool) (sqrt : α → α) (sh : Shape) (a : InferArgs α)
    (cidx : ℕ) (out : ℕ → α) : ℕ → α :=
  if a.estmeanvar then fwdInferSpatialEstPass sqrt sh a cidx out
  else fwdInferSpatialStep heirarchSel sqrt sh a cidx out

theorem miopenBNFwdInferSpatialRunHost_eq_fold (heirarchSel : Bool) (sqrt : α → α) (sh : Shape)
    (a : InferArgs α) (out : ℕ → α) :
    miopenBNFwdInferSpatialRunHost heirarchSel sqrt sh a out =
      Nat.fold (fwdInferSpatialBody heirarchSel sqrt sh a) sh.channels out := by
  rw [miopenBNFwdInferSpatialRunHost]
  unfold fwdInferSpatialBody
  cases a.estmeanvar <;> rfl

theorem fwdInferSpatialBody_apply (sqrt : α → α) (sh : Shape) (a : InferArgs α) {c : ℕ}
    (hc : c < sh.channels) (out : ℕ → α) (p : ℕ) :
    fwdInferSpatialBody false sqrt sh a c out p =
      if p < sh.spatial.numel ∧ sh.spatial.groupOf p = c then
        (if a.estmeanvar then
          sh.spatial.normalize sqrt a.inPtr a.scalePtr a.biasPtr a.epsilon a.estimatedMean
            a.estimatedVariance p
        else sh.spatial.batchNormalize sqrt a.inPtr a.scalePtr a.biasPtr a.epsilon p)
      else out p := by
  cases hest : a.estmeanvar
  · simp only [fwdInferSpatialBody, hest, fwdInferSpatialStep, Bool.false_eq_true, ↓reduceIte,
      fwdInferSpatialNormPass_apply sh _ _ hc, fwdInferSpatialVarPass_fst sh _ hc]
    split_ifs with h
    · simp only [Grouping.batchNormalize, Grouping.normalize, h.2, Grouping.variance,
        Grouping.mean, invVariance, spatialMeanAccum_eq, fwdInferSpatialVarPass_snd,
        Shape.spatial_size]
    · rfl
  · simp only [fwdInferSpatialBody, hest, ↓reduceIte, fwdInferSpatialEstPass_apply sqrt sh a hc]

/-- The spatial inference routine of the `MIO_HEIRARCH_SEL == 0` build computes the inference
forward of its grouping. -/
theorem miopenBNFwdInferSpatialRunHost_eq (sqrt : α → α) (sh : Shape) (a : InferArgs α)
    (out : ℕ → α) :
    miopenBNFwdInferSpatialRunHost false sqrt sh a out = sh.spatial.fwdInfer sqrt a out := by
  funext p
  rw [miopenBNFwdInferSpatialRunHost_eq_fold]
  exact sh.spatial.fold_groups (fun p (o : ℕ → α) => o p) (fun p _ => if a.estmeanvar then
      sh.spatial.normalize sqrt a.inPtr a.scalePtr a.biasPtr a.epsilon a.estimatedMean
        a.estimatedVariance p
    else sh.spatial.batchNormalize sqrt a.inPtr a.scalePtr a.biasPtr a.epsilon p) _
    (fun g hg q o => fwdInferSpatialBody_apply sqrt sh a hg o q) p out

end MIOpen.BatchNorm
