import MIOpen.BatchNorm.Bwd

/-!
# Batch-norm host routines with `unsigned int` indices

The host routines of `miopen_BatchNormHost.hpp` hold `in_nstride`, `in_cstride`, `index`,
`adjIndex`, `imgIndex`, `Csubindex` and `xhat_index` in `unsigned int` variables, so each is its
exact value modulo `2^32`; so are `NHW = double(in_cstride*n_batchs)` and the size
`n_batchs*in_cstride` of the `xhat` vector of the backward routines. `in_nstride` and `in_cstride`
are initialized from the `int` products `channels*height*width` and `height*width`, and
`width*row + column` is an `int`: these are taken as the two's-complement machine computes them,
which modulo `2^32` is the exact value. The loop counters `cidx`, `row`, `column` and `bidx` stay
below the positive `int` extents and never wrap.

This module has the six routines of the `MIO_HEIRARCH_SEL == 0` build with that arithmetic. An
access of `xhat` at or past its size is undefined behaviour; the backward routines are `none`
when their loops make one (`Shape.XhatFits32` fails).

With fewer than `2^32` elements (`Shape.Fits`) no index wraps, and each routine is the one of
`MIOpen.BatchNorm.FwdTrain`, `MIOpen.BatchNorm.FwdInfer` or `MIOpen.BatchNorm.Bwd`, whose indices
are exact (`miopenBNFwdTrainPerActivationRunHost32_eq` and the like). For every shape, each routine
is the loop of the body of its group loop (`miopenBNFwdTrainPerActivationRunHost32_eq_fold` and the
like).

## Main definitions

* `u32`, `Shape.inNstride32`, `Shape.inCstride32`: `unsigned int` values.
* `Shape.Fits`: `N*C*H*W < 2^32`; `Shape.XhatFits32`: every `xhat_index` is below the size of
  `xhat`.
* `miopenBNFwdTrainPerActivationRunHost32`, `miopenBNFwdTrainSpatialRunHost32`,
  `miopenBNFwdInferPerActivationRunHost32`, `miopenBNFwdInferSpatialRunHost32`,
  `miopenBNBwdPerActivationRunHost32`, `miopenBNBwdSpatialRunHost32`.
-/

namespace MIOpen.BatchNorm

/-! ## `unsigned int` values -/

/-- `unsigned int` arithmetic: the value modulo `2^32`. -/
def u32 (x : ℕ) : ℕ := x % 2 ^ 32

theorem u32_of_lt {x : ℕ} (h : x < 2 ^ 32) : u32 x = x := Nat.mod_eq_of_lt h

/-- A product and sum in `unsigned int` wraps once, whatever its first factor wrapped before. -/
theorem u32_mul_add (a b c : ℕ) : u32 (u32 a * b + c) = u32 (a * b + c) := by
  simp only [u32]
  rw [Nat.add_mod, Nat.mod_mul_mod, ← Nat.add_mod]

theorem u32_u32_add (a c : ℕ) : u32 (u32 a + c) = u32 (a + c) := Nat.mod_add_mod a _ c

namespace Shape

variable (sh : Shape)

/-- `in_nstride = channels*height*width` in its `unsigned int`. -/
def inNstride32 : ℕ := u32 (sh.channels * sh.height * sh.width)

/-- `in_cstride = height*width` in its `unsigned int`. -/
def inCstride32 : ℕ := u32 (sh.height * sh.width)

/-- Fewer than `2^32` elements. -/
def Fits : Prop := sh.numel < 2 ^ 32

instance : Decidable sh.Fits := Nat.decLt _ _

/-- Every `xhat_index = in_cstride*bidx + imgIndex` the backward loops form is below the size
`n_batchs*in_cstride` of `xhat`. -/
def XhatFits32 : Prop :=
  ∀ bidx < sh.nBatchs, ∀ imgIndex < sh.inCstride,
    u32 (sh.inCstride32 * bidx + imgIndex) < u32 (sh.nBatchs * sh.inCstride32)

instance : Decidable sh.XhatFits32 := by unfold XhatFits32; infer_instance

theorem inCstride_le_inNstride : sh.inCstride ≤ sh.inNstride := by
  rw [inNstride_eq]; exact Nat.le_mul_of_pos_left _ sh.channels_pos

theorem nBatchs_mul_inCstride_le : sh.nBatchs * sh.inCstride ≤ sh.numel :=
  Nat.mul_le_mul_left _ sh.inCstride_le_inNstride

theorem adjIndex_lt {cidx imgIndex : ℕ} (hc : cidx < sh.channels) (himg : imgIndex < sh.inCstride) :
    sh.inCstride * cidx + imgIndex < sh.inNstride :=
  sh.inNstride_eq ▸ mul_add_lt hc himg

/-! ### No index wraps in a tensor that fits -/

variable {sh} (hfit : sh.Fits)
include hfit

theorem Fits.inNstride_lt : sh.inNstride < 2 ^ 32 :=
  lt_of_le_of_lt (Nat.le_mul_of_pos_left _ sh.nBatchs_pos) hfit

theorem Fits.inNstride32 : sh.inNstride32 = sh.inNstride := u32_of_lt hfit.inNstride_lt

theorem Fits.inCstride32 : sh.inCstride32 = sh.inCstride :=
  u32_of_lt (lt_of_le_of_lt sh.inCstride_le_inNstride hfit.inNstride_lt)

/-- `index = in_nstride*bidx + adjIndex`. -/
theorem Fits.index {bidx adj : ℕ} (hb : bidx < sh.nBatchs) (hadj : adj < sh.inNstride) :
    u32 (sh.inNstride32 * bidx + adj) = sh.inNstride * bidx + adj := by
  rw [hfit.inNstride32]
  exact u32_of_lt ((mul_add_lt hb hadj).trans hfit)

/-- `adjIndex = in_cstride*cidx + imgIndex`. -/
theorem Fits.adjIndex {cidx imgIndex : ℕ} (hc : cidx < sh.channels)
    (himg : imgIndex < sh.inCstride) :
    u32 (sh.inCstride32 * cidx + imgIndex) = sh.inCstride * cidx + imgIndex := by
  rw [hfit.inCstride32]
  exact u32_of_lt ((sh.adjIndex_lt hc himg).trans hfit.inNstride_lt)

/-- `adjIndex = Csubindex + imgIndex` with `Csubindex = in_cstride*cidx`. -/
theorem Fits.csubIndex {cidx imgIndex : ℕ} (hc : cidx < sh.channels)
    (himg : imgIndex < sh.inCstride) :
    u32 (u32 (sh.inCstride32 * cidx) + imgIndex) = sh.inCstride * cidx + imgIndex := by
  rw [u32_u32_add, hfit.adjIndex hc himg]

/-- `xhat_index = in_cstride*bidx + imgIndex`. -/
theorem Fits.xhatIndex {bidx imgIndex : ℕ} (hb : bidx < sh.nBatchs)
    (himg : imgIndex < sh.inCstride) :
    u32 (sh.inCstride32 * bidx + imgIndex) = sh.inCstride * bidx + imgIndex := by
  rw [hfit.inCstride32]
  exact u32_of_lt (((mul_add_lt hb himg).trans_le sh.nBatchs_mul_inCstride_le).trans hfit)

/-- The image position `width*row + column` in an `unsigned int`. -/
theorem Fits.imgIndex {imgIndex : ℕ} (himg : imgIndex < sh.inCstride) : u32 imgIndex = imgIndex :=
  u32_of_lt ((himg.trans_le sh.inCstride_le_inNstride).trans hfit.inNstride_lt)

/-- `n_batchs*in_cstride`, the group size of the spatial routines and the size of `xhat`. -/
theorem Fits.nBatchs_mul_inCstride :
    u32 (sh.nBatchs * sh.inCstride32) = sh.nBatchs * sh.inCstride := by
  rw [hfit.inCstride32]
  exact u32_of_lt (lt_of_le_of_lt sh.nBatchs_mul_inCstride_le hfit)

theorem Fits.inCstride_mul_nBatchs :
    u32 (sh.inCstride32 * sh.nBatchs) = sh.inCstride * sh.nBatchs := by
  rw [Nat.mul_comm, hfit.nBatchs_mul_inCstride, Nat.mul_comm]

theorem Fits.xhatFits32 : sh.XhatFits32 := fun _ hb _ himg => by
  rw [hfit.xhatIndex hb himg, hfit.nBatchs_mul_inCstride]
  exact mul_add_lt hb himg

end Shape

/-- The `row`/`column` loops of two bodies that agree at every image position. -/
theorem imageLoop_congr {σ : Type*} (sh : Shape) {body body' : ℕ → σ → σ}
    (h : ∀ imgIndex < sh.inCstride, body imgIndex = body' imgIndex) :
    imageLoop sh body = imageLoop sh body' := by
  rw [imageLoop_eq, imageLoop_eq]
  exact funext (fold_congr h)

/-- The `cidx`/`row`/`column` loops of a per-activation routine, with `adjIndex` in `unsigned int`,
visit the positions `0, …, C*H*W - 1` in increasing order and run the body at the position in
`unsigned int`. -/
theorem channelsLoop32_eq {σ : Type*} (sh : Shape) (step : ℕ → ℕ → σ → σ) (s : σ) :
    Nat.fold (fun cidx => imageLoop sh fun imgIndex =>
        step (u32 (sh.inCstride32 * cidx + imgIndex)) imgIndex) sh.channels s =
      Nat.fold (fun g => step (u32 g) (g % sh.inCstride)) sh.inNstride s := by
  simp only [Shape.inCstride32, u32_mul_add]
  exact channelsLoop_eq sh (fun adj => step (u32 adj)) s

variable {α : Type*} [Field α]

/-! ## Training, per-activation -/

/-- The first pass over the batch at `adjIndex`, `index = in_nstride*bidx + adjIndex`. -/
def perActivationMean32 (sh : Shape) (x : ℕ → α) (adjIndex : ℕ) : α :=
  Nat.fold (fun bidx acc => acc + x (u32 (sh.inNstride32 * bidx + adjIndex))) sh.nBatchs 0 /
    sh.nBatchs

/-- The second pass: `variance_accum += elemStd*elemStd`, then `variance_accum /= n_batchs`. -/
def perActivationVariance32 (sh : Shape) (x : ℕ → α) (adjIndex : ℕ) (mean : α) : α :=
  Nat.fold (fun bidx acc =>
      let elemStd := x (u32 (sh.inNstride32 * bidx + adjIndex)) - mean
      acc + elemStd * elemStd) sh.nBatchs 0 / sh.nBatchs

/-- The normalization loop over the batch at `adjIndex`. -/
def perActivationNormPass32 (sh : Shape) (x scale bias : ℕ → α) (adjIndex : ℕ)
    (mean elemInvVar : α) (out : ℕ → α) : ℕ → α :=
  Nat.fold (fun bidx out =>
      let index := u32 (sh.inNstride32 * bidx + adjIndex)
      let elemStd := x index - mean
      let inhat := elemStd * elemInvVar
      Function.update out index (scale adjIndex * inhat + bias adjIndex)) sh.nBatchs out

/-- The body of the `cidx`/`row`/`column` loops of `miopenBNFwdTrainPerActivationRunHost32` at
`adjIndex`, buffer by buffer. -/
def fwdTrainPerActivationStep32 (sqrt : α → α) (sh : Shape) (a : TrainArgs α) (adjIndex : ℕ)
    (b : TrainBufs α) : TrainBufs α :=
  let meanAccum := perActivationMean32 sh a.inPtr adjIndex
  let varianceAccum := perActivationVariance32 sh a.inPtr adjIndex meanAccum
  let adjust := if sh.nBatchs = 1 then varianceAccum
    else (sh.nBatchs : α) / ((sh.nBatchs - 1 : ℕ) : α) * varianceAccum
  let elemInvVar := 1 / sqrt (varianceAccum + a.epsilon)
  { outPtr := perActivationNormPass32 sh a.inPtr a.scalePtr a.biasPtr adjIndex meanAccum
      elemInvVar b.outPtr
    saveMean := if a.savemeanvar then Function.update b.saveMean adjIndex meanAccum
      else b.saveMean
    saveInvVariance := if a.savemeanvar then Function.update b.saveInvVariance adjIndex elemInvVar
      else b.saveInvVariance
    runningMean := if a.runningmeanvar then
        let newRunMean := b.runningMean adjIndex * (1 - a.expAvgFactor)
        Function.update b.runningMean adjIndex (meanAccum * a.expAvgFactor + newRunMean)
      else b.runningMean
    runningVariance := if a.runningmeanvar then
        Function.update b.runningVariance adjIndex
          (a.expAvgFactor * b.runningVariance adjIndex + (1 - a.expAvgFactor) * adjust)
      else b.runningVariance }

/-- `miopenBNFwdTrainPerActivationRunHost` with `unsigned int` indices. -/
def miopenBNFwdTrainPerActivationRunHost32 (sqrt : α → α) (sh : Shape) (a : TrainArgs α)
    (b : TrainBufs α) : TrainBufs α :=
  Nat.fold (fun cidx => imageLoop sh fun imgIndex =>
    fwdTrainPerActivationStep32 sqrt sh a (u32 (sh.inCstride32 * cidx + imgIndex))) sh.channels b

/-- The body of the loops of `miopenBNFwdTrainPerActivationRunHost32` at position
`g = in_cstride*cidx + width*row + column`, whose `adjIndex` is `g` in `unsigned int`. -/
def fwdTrainPerActivationBody32 (sqrt : α → α) (sh : Shape) (a : TrainArgs α) (g : ℕ) :
    TrainBufs α → TrainBufs α :=
  fwdTrainPerActivationStep32 sqrt sh a (u32 g)

theorem miopenBNFwdTrainPerActivationRunHost32_eq_fold (sqrt : α → α) (sh : Shape)
    (a : TrainArgs α) (b : TrainBufs α) :
    miopenBNFwdTrainPerActivationRunHost32 sqrt sh a b =
      Nat.fold (fwdTrainPerActivationBody32 sqrt sh a) sh.inNstride b :=
  channelsLoop32_eq sh (fun adj _ => fwdTrainPerActivationStep32 sqrt sh a adj) b

section Fits

variable {sh : Shape} (hfit : sh.Fits)
include hfit

theorem perActivationMean32_eq (x : ℕ → α) {adj : ℕ} (hadj : adj < sh.inNstride) :
    perActivationMean32 sh x adj = perActivationMean sh x adj := by
  rw [perActivationMean32, perActivationMean]
  congr 1
  exact fold_congr (fun bidx hb => by simp only [hfit.index hb hadj]) 0

theorem perActivationVariance32_eq (x : ℕ → α) {adj : ℕ} (hadj : adj < sh.inNstride) (mean : α) :
    perActivationVariance32 sh x adj mean = perActivationVariance sh x adj mean := by
  rw [perActivationVariance32, perActivationVariance]
  congr 1
  exact fold_congr (fun bidx hb => by simp only [hfit.index hb hadj]) 0

theorem perActivationNormPass32_eq (x scale bias : ℕ → α) {adj : ℕ} (hadj : adj < sh.inNstride)
    (mean elemInvVar : α) :
    perActivationNormPass32 sh x scale bias adj mean elemInvVar =
      perActivationNormPass sh x scale bias adj mean elemInvVar :=
  funext (fold_congr fun bidx hb => by simp only [hfit.index hb hadj])

theorem fwdTrainPerActivationStep32_eq (sqrt : α → α) (a : TrainArgs α) {adj : ℕ}
    (hadj : adj < sh.inNstride) :
    fwdTrainPerActivationStep32 sqrt sh a adj = fwdTrainPerActivationStep sqrt sh a adj := by
  funext b
  simp only [fwdTrainPerActivationStep32, fwdTrainPerActivationStep,
    perActivationMean32_eq hfit _ hadj,
    perActivationVariance32_eq hfit _ hadj, perActivationNormPass32_eq hfit _ _ _ hadj]

theorem fwdTrainPerActivationBody32_eq (sqrt : α → α) (a : TrainArgs α) {g : ℕ}
    (hg : g < sh.inNstride) :
    fwdTrainPerActivationBody32 sqrt sh a g = fwdTrainPerActivationStep sqrt sh a g := by
  rw [fwdTrainPerActivationBody32, u32_of_lt (hg.trans hfit.inNstride_lt),
    fwdTrainPerActivationStep32_eq hfit sqrt a hg]

theorem miopenBNFwdTrainPerActivationRunHost32_eq (sqrt : α → α) (a : TrainArgs α) :
    miopenBNFwdTrainPerActivationRunHost32 sqrt sh a =
      miopenBNFwdTrainPerActivationRunHost sqrt sh a := by
  funext b
  rw [miopenBNFwdTrainPerActivationRunHost32_eq_fold, miopenBNFwdTrainPerActivationRunHost_eq_fold]
  exact fold_congr (fun _ hg => fwdTrainPerActivationBody32_eq hfit sqrt a hg) b

end Fits

/-! ## Training, spatial -/

/-- The first pass of `miopenBNFwdTrainSpatialRunHost32` over channel `cidx`: `imgIndex` is the
image position `width*row + column` in an `unsigned int`, tested against `in_cstride`. -/
def fwdTrainSpatialMeanAccum32 (sh : Shape) (x : ℕ → α) (cidx : ℕ) : α :=
  imageLoop sh (fun pos acc =>
    let imgIndex := u32 pos
    let adjIndex := u32 (sh.inCstride32 * cidx + imgIndex)
    if imgIndex < sh.inCstride32 then
      Nat.fold (fun bidx acc => acc + x (u32 (sh.inNstride32 * bidx + adjIndex))) sh.nBatchs acc
    else acc) 0

/-- The second pass: `out_ptr[index] = elemStd = x - mean` as scratch and
`variance_accum += elemStd*elemStd`. -/
def fwdTrainSpatialVarPass32 (sh : Shape) (x : ℕ → α) (cidx : ℕ) (mean : α) (out : ℕ → α) :
    (ℕ → α) × α :=
  imageLoop sh (fun pos st =>
    let imgIndex := u32 pos
    let adjIndex := u32 (sh.inCstride32 * cidx + imgIndex)
    if imgIndex < sh.inCstride32 then
      Nat.fold (fun bidx st =>
        let index := u32 (sh.inNstride32 * bidx + adjIndex)
        let elemStd := x index - mean
        (Function.update st.1 index elemStd, st.2 + elemStd * elemStd)) sh.nBatchs st
    else st) (out, 0)

/-- The normalization pass `out_ptr[index] = scale*(invertVar*out_ptr[index]) + bias`. -/
def fwdTrainSpatialNormPass32 (sh : Shape) (scale bias : ℕ → α) (cidx : ℕ) (invertVar : α)
    (out : ℕ → α) : ℕ → α :=
  imageLoop sh (fun pos out =>
    let imgIndex := u32 pos
    let adjIndex := u32 (sh.inCstride32 * cidx + imgIndex)
    if imgIndex < sh.inCstride32 then
      Nat.fold (fun bidx out =>
        let index := u32 (sh.inNstride32 * bidx + adjIndex)
        Function.update out index (scale cidx * (invertVar * out index) + bias cidx)) sh.nBatchs out
    else out) out

/-- The body of the channel loop of `miopenBNFwdTrainSpatialRunHost32`, buffer by buffer, with
`NHW = double(in_cstride*n_batchs)` and the test `n_batchs*in_cstride == 1` in `unsigned int`. -/
def fwdTrainSpatialStep32 (sqrt : α → α) (sh : Shape) (a : TrainArgs α) (cidx : ℕ)
    (b : TrainBufs α) : TrainBufs α :=
  let NHW : α := (u32 (sh.inCstride32 * sh.nBatchs) : ℕ)
  let meanAccum := fwdTrainSpatialMeanAccum32 sh a.inPtr cidx / NHW
  let varPass := fwdTrainSpatialVarPass32 sh a.inPtr cidx meanAccum b.outPtr
  let varianceAccum := varPass.2 / NHW
  let adjust := if u32 (sh.nBatchs * sh.inCstride32) = 1 then varianceAccum
    else NHW / (NHW - 1) * varianceAccum
  let invertVar := 1 / sqrt (varianceAccum + a.epsilon)
  { outPtr := fwdTrainSpatialNormPass32 sh a.scalePtr a.biasPtr cidx invertVar varPass.1
    saveMean := if a.savemeanvar then Function.update b.saveMean cidx meanAccum else b.saveMean
    saveInvVariance := if a.savemeanvar then Function.update b.saveInvVariance cidx invertVar
      else b.saveInvVariance
    runningMean := if a.runningmeanvar then
        let newRunMean := b.runningMean cidx * (1 - a.expAvgFactor)
        Function.update b.runningMean cidx (meanAccum * a.expAvgFactor + newRunMean)
      else b.runningMean
    runningVariance := if a.runningmeanvar then
        Function.update b.runningVariance cidx
          (a.expAvgFactor * b.runningVariance cidx + (1 - a.expAvgFactor) * adjust)
      else b.runningVariance }

/-- `miopenBNFwdTrainSpatialRunHost` of the `MIO_HEIRARCH_SEL == 0` build with `unsigned int`
indices. -/
def miopenBNFwdTrainSpatialRunHost32 (sqrt : α → α) (sh : Shape) (a : TrainArgs α)
    (b : TrainBufs α) : TrainBufs α :=
  Nat.fold (fwdTrainSpatialStep32 sqrt sh a) sh.channels b

section Fits

variable {sh : Shape} (hfit : sh.Fits)
include hfit

/-- Inside the image of channel `cidx`, the guarded batch loop of a spatial pass reads the
`unsigned int` indices as exact ones. -/
theorem Shape.Fits.guarded {σ : Type*} {cidx : ℕ} (hc : cidx < sh.channels)
    (body : ℕ → ℕ → σ → σ) :
    imageLoop sh (fun pos s =>
      if u32 pos < sh.inCstride32 then
        Nat.fold (fun bidx => body bidx
          (u32 (sh.inNstride32 * bidx + u32 (sh.inCstride32 * cidx + u32 pos)))) sh.nBatchs s
      else s) =
    imageLoop sh (fun imgIndex s =>
      if imgIndex < sh.inCstride then
        Nat.fold (fun bidx => body bidx
          (sh.inNstride * bidx + (sh.inCstride * cidx + imgIndex))) sh.nBatchs s
      else s) :=
  imageLoop_congr sh fun _ himg => funext fun s => by
    simp only [hfit.imgIndex himg, hfit.adjIndex hc himg]
    rw [hfit.inCstride32]
    exact if_congr Iff.rfl (fold_congr (fun bidx hb => by
      rw [hfit.index hb (sh.adjIndex_lt hc himg)]) s) rfl

/-- A pass over channel `cidx` with the `unsigned int` indices `xhat_index`, `index` and
`adjIndex` of its `row`/`column`/`bidx` loops is the pass with exact indices. -/
theorem Shape.Fits.channelPass {σ : Type*} {cidx : ℕ} (hc : cidx < sh.channels)
    (adjIndex : ℕ → ℕ)
    (hadj : ∀ imgIndex < sh.inCstride, adjIndex imgIndex = sh.inCstride * cidx + imgIndex)
    (body : ℕ → ℕ → σ → σ) :
    imageLoop sh (fun imgIndex => Nat.fold (fun bidx =>
      body (u32 (sh.inCstride32 * bidx + imgIndex))
        (u32 (sh.inNstride32 * bidx + adjIndex imgIndex))) sh.nBatchs) =
    imageLoop sh (fun imgIndex => Nat.fold (fun bidx =>
      body (sh.inCstride * bidx + imgIndex)
        (sh.inNstride * bidx + (sh.inCstride * cidx + imgIndex))) sh.nBatchs) :=
  imageLoop_congr sh fun _ himg => funext (fold_congr fun bidx hb => by
    rw [hadj _ himg, hfit.xhatIndex hb himg, hfit.index hb (sh.adjIndex_lt hc himg)])

theorem fwdTrainSpatialMeanAccum32_eq (x : ℕ → α) {cidx : ℕ} (hc : cidx < sh.channels) :
    fwdTrainSpatialMeanAccum32 sh x cidx = fwdTrainSpatialMeanAccum sh x cidx :=
  congrFun (hfit.guarded hc fun _ index acc => acc + x index) 0

theorem fwdTrainSpatialVarPass32_eq (x : ℕ → α) {cidx : ℕ} (hc : cidx < sh.channels) (mean : α)
    (out : ℕ → α) :
    fwdTrainSpatialVarPass32 sh x cidx mean out = fwdTrainSpatialVarPass sh x cidx mean out :=
  congrFun (hfit.guarded hc fun _ index st =>
    (Function.update st.1 index (x index - mean), st.2 + (x index - mean) * (x index - mean)))
    (out, 0)

theorem fwdTrainSpatialNormPass32_eq (scale bias : ℕ → α) {cidx : ℕ} (hc : cidx < sh.channels)
    (invertVar : α) (out : ℕ → α) :
    fwdTrainSpatialNormPass32 sh scale bias cidx invertVar out =
      fwdTrainSpatialNormPass sh scale bias cidx invertVar out :=
  congrFun (hfit.guarded hc fun _ index out =>
    Function.update out index (scale cidx * (invertVar * out index) + bias cidx)) out

theorem fwdTrainSpatialStep32_eq (sqrt : α → α) (a : TrainArgs α) {cidx : ℕ}
    (hc : cidx < sh.channels) :
    fwdTrainSpatialStep32 sqrt sh a cidx = fwdTrainSpatialStep false sqrt sh a cidx := by
  funext b
  simp only [fwdTrainSpatialStep32, fwdTrainSpatialStep, Bool.false_eq_true, ↓reduceIte,
    fwdTrainSpatialMeanAccum32_eq hfit _ hc, fwdTrainSpatialVarPass32_eq hfit _ hc,
    fwdTrainSpatialNormPass32_eq hfit _ _ hc, hfit.inCstride_mul_nBatchs,
    hfit.nBatchs_mul_inCstride]

theorem miopenBNFwdTrainSpatialRunHost32_eq (sqrt : α → α) (a : TrainArgs α) :
    miopenBNFwdTrainSpatialRunHost32 sqrt sh a = miopenBNFwdTrainSpatialRunHost false sqrt sh a :=
  funext (fold_congr fun _ hc => fwdTrainSpatialStep32_eq hfit sqrt a hc)

end Fits

/-! ## Inference, per-activation -/

/-- `miopenBNFwdInferPerActivationRunHost` with `unsigned int` indices. -/
def miopenBNFwdInferPerActivationRunHost32 (sqrt : α → α) (sh : Shape) (a : InferArgs α)
    (out : ℕ → α) : ℕ → α :=
  if a.estmeanvar then
    Nat.fold (fun cidx => imageLoop sh fun imgIndex out =>
      let adjIndex := u32 (sh.inCstride32 * cidx + imgIndex)
      let mean := a.estimatedMean adjIndex
      let variance := a.estimatedVariance adjIndex
      let elemInvVar := 1 / sqrt (variance + a.epsilon)
      perActivationNormPass32 sh a.inPtr a.scalePtr a.biasPtr adjIndex mean elemInvVar out)
      sh.channels out
  else
    Nat.fold (fun cidx => imageLoop sh fun imgIndex out =>
      let adjIndex := u32 (sh.inCstride32 * cidx + imgIndex)
      let meanAccum := perActivationMean32 sh a.inPtr adjIndex
      let varianceAccum := perActivationVariance32 sh a.inPtr adjIndex meanAccum
      let elemInvVar := 1 / sqrt (varianceAccum + a.epsilon)
      perActivationNormPass32 sh a.inPtr a.scalePtr a.biasPtr adjIndex meanAccum elemInvVar out)
      sh.channels out

/-- The body of the loops of `miopenBNFwdInferPerActivationRunHost32` at position `g`, whose
`adjIndex` is `g` in `unsigned int`, with the test of `estmeanvar` taken inside. -/
def fwdInferPerActivationBody32 (sqrt : α → α) (sh : Shape) (a : InferArgs α) (g : ℕ)
    (out : ℕ → α) : ℕ → α :=
  let adjIndex := u32 g
  if a.estmeanvar then
    let mean := a.estimatedMean adjIndex
    let variance := a.estimatedVariance adjIndex
    let elemInvVar := 1 / sqrt (variance + a.epsilon)
    perActivationNormPass32 sh a.inPtr a.scalePtr a.biasPtr adjIndex mean elemInvVar out
  else
    let meanAccum := perActivationMean32 sh a.inPtr adjIndex
    let varianceAccum := perActivationVariance32 sh a.inPtr adjIndex meanAccum
    let elemInvVar := 1 / sqrt (varianceAccum + a.epsilon)
    perActivationNormPass32 sh a.inPtr a.scalePtr a.biasPtr adjIndex meanAccum elemInvVar out

theorem miopenBNFwdInferPerActivationRunHost32_eq_fold (sqrt : α → α) (sh : Shape)
    (a : InferArgs α) (out : ℕ → α) :
    miopenBNFwdInferPerActivationRunHost32 sqrt sh a out =
      Nat.fold (fwdInferPerActivationBody32 sqrt sh a) sh.inNstride out := by
  rw [miopenBNFwdInferPerActivationRunHost32]
  unfold fwdInferPerActivationBody32
  cases a.estmeanvar
  · exact channelsLoop32_eq sh (fun adj _ out => perActivationNormPass32 sh a.inPtr a.scalePtr
      a.biasPtr adj (perActivationMean32 sh a.inPtr adj) (1 / sqrt (perActivationVariance32 sh
        a.inPtr adj (perActivationMean32 sh a.inPtr adj) + a.epsilon)) out) out
  · exact channelsLoop32_eq sh (fun adj _ out => perActivationNormPass32 sh a.inPtr a.scalePtr
      a.biasPtr adj (a.estimatedMean adj) (1 / sqrt (a.estimatedVariance adj + a.epsilon)) out) out

section Fits

variable {sh : Shape} (hfit : sh.Fits)
include hfit

theorem fwdInferPerActivationBody32_eq (sqrt : α → α) (a : InferArgs α) {g : ℕ}
    (hg : g < sh.inNstride) :
    fwdInferPerActivationBody32 sqrt sh a g = fwdInferPerActivationBody sqrt sh a g := by
  funext out
  simp only [fwdInferPerActivationBody32, fwdInferPerActivationBody,
    u32_of_lt (hg.trans hfit.inNstride_lt), perActivationNormPass32_eq hfit _ _ _ hg,
    perActivationMean32_eq hfit _ hg, perActivationVariance32_eq hfit _ hg]

theorem miopenBNFwdInferPerActivationRunHost32_eq (sqrt : α → α) (a : InferArgs α) :
    miopenBNFwdInferPerActivationRunHost32 sqrt sh a =
      miopenBNFwdInferPerActivationRunHost sqrt sh a := by
  funext out
  rw [miopenBNFwdInferPerActivationRunHost32_eq_fold, miopenBNFwdInferPerActivationRunHost_eq_fold]
  exact fold_congr (fun _ hg => fwdInferPerActivationBody32_eq hfit sqrt a hg) out

end Fits

/-! ## Inference, spatial -/

/-- The first pass over channel `cidx` of `miopenBNFwdInferSpatialRunHost32`:
`mean_accum += in_ptr[index]`, with no guard on the image position. -/
def spatialMeanAccum32 (sh : Shape) (x : ℕ → α) (cidx : ℕ) : α :=
  imageLoop sh (fun imgIndex =>
    let adjIndex := u32 (sh.inCstride32 * cidx + imgIndex)
    Nat.fold (fun bidx acc => acc + x (u32 (sh.inNstride32 * bidx + adjIndex))) sh.nBatchs) 0

/-- The second pass: `out_ptr[index] = elemStd = x - mean` as scratch and
`variance_accum += elemStd*elemStd`. -/
def fwdInferSpatialVarPass32 (sh : Shape) (x : ℕ → α) (cidx : ℕ) (mean : α) (out : ℕ → α) :
    (ℕ → α) × α :=
  imageLoop sh (fun imgIndex =>
    let adjIndex := u32 (sh.inCstride32 * cidx + imgIndex)
    Nat.fold (fun bidx st =>
      let index := u32 (sh.inNstride32 * bidx + adjIndex)
      let elemStd := x index - mean
      (Function.update st.1 index elemStd, st.2 + elemStd * elemStd)) sh.nBatchs) (out, 0)

/-- The normalization pass: `elemStd = out_ptr[index]`, reading back the scratch, and
`out_ptr[index] = scale*(elemStd*invertVar) + bias`. -/
def fwdInferSpatialNormPass32 (sh : Shape) (scale bias : ℕ → α) (cidx : ℕ) (invertVar : α)
    (out : ℕ → α) : ℕ → α :=
  imageLoop sh (fun imgIndex =>
    let adjIndex := u32 (sh.inCstride32 * cidx + imgIndex)
    Nat.fold (fun bidx out =>
      let index := u32 (sh.inNstride32 * bidx + adjIndex)
      let elemStd := out index
      let inhat := elemStd * invertVar
      Function.update out index (scale cidx * inhat + bias cidx)) sh.nBatchs) out

/-- The channel body of the estimated-statistics branch. -/
def fwdInferSpatialEstPass32 (sqrt : α → α) (sh : Shape) (a : InferArgs α) (cidx : ℕ)
    (out : ℕ → α) : ℕ → α :=
  let mean := a.estimatedMean cidx
  let variance := a.estimatedVariance cidx
  let invertVar := 1 / sqrt (variance + a.epsilon)
  imageLoop sh (fun imgIndex =>
    let adjIndex := u32 (sh.inCstride32 * cidx + imgIndex)
    Nat.fold (fun bidx out =>
      let index := u32 (sh.inNstride32 * bidx + adjIndex)
      let elemStd := a.inPtr index - mean
      let inhat := elemStd * invertVar
      Function.update out index (a.scalePtr cidx * inhat + a.biasPtr cidx)) sh.nBatchs) out

/-- The channel body of the batch-statistics branch, dividing by
`double(in_cstride*n_batchs)`. -/
def fwdInferSpatialStep32 (sqrt : α → α) (sh : Shape) (a : InferArgs α) (cidx : ℕ)
    (out : ℕ → α) : ℕ → α :=
  let NHW : α := (u32 (sh.inCstride32 * sh.nBatchs) : ℕ)
  let meanAccum := spatialMeanAccum32 sh a.inPtr cidx / NHW
  let varPass := fwdInferSpatialVarPass32 sh a.inPtr cidx meanAccum out
  let varianceAccum := varPass.2 / NHW
  let invertVar := 1 / sqrt (varianceAccum + a.epsilon)
  fwdInferSpatialNormPass32 sh a.scalePtr a.biasPtr cidx invertVar varPass.1

/-- `miopenBNFwdInferSpatialRunHost` of the `MIO_HEIRARCH_SEL == 0` build with `unsigned int`
indices. -/
def miopenBNFwdInferSpatialRunHost32 (sqrt : α → α) (sh : Shape) (a : InferArgs α)
    (out : ℕ → α) : ℕ → α :=
  if a.estmeanvar then Nat.fold (fwdInferSpatialEstPass32 sqrt sh a) sh.channels out
  else Nat.fold (fwdInferSpatialStep32 sqrt sh a) sh.channels out

/-- The body of the channel loop of `miopenBNFwdInferSpatialRunHost32`, with the test of
`estmeanvar` taken inside. -/
def fwdInferSpatialBody32 (sqrt : α → α) (sh : Shape) (a : InferArgs α) (cidx : ℕ)
    (out : ℕ → α) : ℕ → α :=
  if a.estmeanvar then fwdInferSpatialEstPass32 sqrt sh a cidx out
  else fwdInferSpatialStep32 sqrt sh a cidx out

theorem miopenBNFwdInferSpatialRunHost32_eq_fold (sqrt : α → α) (sh : Shape) (a : InferArgs α)
    (out : ℕ → α) :
    miopenBNFwdInferSpatialRunHost32 sqrt sh a out =
      Nat.fold (fwdInferSpatialBody32 sqrt sh a) sh.channels out := by
  rw [miopenBNFwdInferSpatialRunHost32]
  unfold fwdInferSpatialBody32
  cases a.estmeanvar <;> rfl

section Fits

variable {sh : Shape} (hfit : sh.Fits)
include hfit

theorem spatialMeanAccum32_eq (x : ℕ → α) {cidx : ℕ} (hc : cidx < sh.channels) :
    spatialMeanAccum32 sh x cidx = spatialMeanAccum sh x cidx :=
  congrFun (hfit.channelPass hc _ (fun _ himg => hfit.adjIndex hc himg)
    fun _ index acc => acc + x index) 0

theorem fwdInferSpatialVarPass32_eq (x : ℕ → α) {cidx : ℕ} (hc : cidx < sh.channels) (mean : α)
    (out : ℕ → α) :
    fwdInferSpatialVarPass32 sh x cidx mean out = fwdInferSpatialVarPass sh x cidx mean out :=
  congrFun (hfit.channelPass hc _ (fun _ himg => hfit.adjIndex hc himg) fun _ index st =>
    (Function.update st.1 index (x index - mean), st.2 + (x index - mean) * (x index - mean)))
    (out, 0)

theorem fwdInferSpatialNormPass32_eq (scale bias : ℕ → α) {cidx : ℕ} (hc : cidx < sh.channels)
    (invertVar : α) (out : ℕ → α) :
    fwdInferSpatialNormPass32 sh scale bias cidx invertVar out =
      fwdInferSpatialNormPass sh scale bias cidx invertVar out :=
  congrFun (hfit.channelPass hc _ (fun _ himg => hfit.adjIndex hc himg) fun _ index out =>
    Function.update out index (scale cidx * (out index * invertVar) + bias cidx)) out

theorem fwdInferSpatialEstPass32_eq (sqrt : α → α) (a : InferArgs α) {cidx : ℕ}
    (hc : cidx < sh.channels) :
    fwdInferSpatialEstPass32 sqrt sh a cidx = fwdInferSpatialEstPass sqrt sh a cidx :=
  funext (congrFun (hfit.channelPass hc _ (fun _ himg => hfit.adjIndex hc himg) fun _ index out =>
    Function.update out index (a.scalePtr cidx * ((a.inPtr index - a.estimatedMean cidx) *
      (1 / sqrt (a.estimatedVariance cidx + a.epsilon))) + a.biasPtr cidx)))

theorem fwdInferSpatialBody32_eq (sqrt : α → α) (a : InferArgs α) {cidx : ℕ}
    (hc : cidx < sh.channels) :
    fwdInferSpatialBody32 sqrt sh a cidx = fwdInferSpatialBody false sqrt sh a cidx := by
  funext out
  simp only [fwdInferSpatialBody32, fwdInferSpatialBody, fwdInferSpatialEstPass32_eq hfit _ _ hc,
    fwdInferSpatialStep32, fwdInferSpatialStep, Bool.false_eq_true, ↓reduceIte,
    spatialMeanAccum32_eq hfit _ hc, fwdInferSpatialVarPass32_eq hfit _ hc,
    fwdInferSpatialNormPass32_eq hfit _ _ hc, hfit.inCstride_mul_nBatchs]

theorem miopenBNFwdInferSpatialRunHost32_eq (sqrt : α → α) (a : InferArgs α) :
    miopenBNFwdInferSpatialRunHost32 sqrt sh a =
      miopenBNFwdInferSpatialRunHost false sqrt sh a := by
  funext out
  rw [miopenBNFwdInferSpatialRunHost32_eq_fold, miopenBNFwdInferSpatialRunHost_eq_fold]
  exact fold_congr (fun _ hc => fwdInferSpatialBody32_eq hfit sqrt a hc) out

end Fits

/-! ## Backward, per-activation -/

/-- The first pass of `miopenBNBwdPerActivationRunHost32` over the batch at `adjIndex`, with
`xhat_index = in_cstride*bidx + imgIndex`. -/
def bwdPerActivationPass1_32 (sh : Shape) (a : BwdArgs α) (adjIndex imgIndex : ℕ)
    (mean elemInvVar : α) (s : BwdPass α) : BwdPass α :=
  Nat.fold (fun bidx s =>
    let index := u32 (sh.inNstride32 * bidx + adjIndex)
    let xhatIndex := u32 (sh.inCstride32 * bidx + imgIndex)
    let elemStd := a.xPtr index - mean
    let xhat := Function.update s.xhat xhatIndex (elemStd * elemInvVar)
    let dyelem := a.dyPtr index
    let tmp1 := a.scalePtr adjIndex * dyelem
    { dbiasPtr := Function.update s.dbiasPtr adjIndex (s.dbiasPtr adjIndex + dyelem)
      dscalePtr := Function.update s.dscalePtr adjIndex
        (s.dscalePtr adjIndex + xhat xhatIndex * dyelem)
      xhat := xhat
      dxhat := s.dxhat + tmp1
      dxhathat := s.dxhathat + tmp1 * xhat xhatIndex }) sh.nBatchs s

/-- The second pass: `dx_ptr[index] = tmp3*tmp2`. -/
def bwdPerActivationPass2_32 (sh : Shape) (adjIndex imgIndex : ℕ) (elemInvVar : α)
    (xhat : ℕ → α) (dxhat dxhathat : α) (dx : ℕ → α) : ℕ → α :=
  Nat.fold (fun bidx dx =>
    let index := u32 (sh.inNstride32 * bidx + adjIndex)
    let xhatIndex := u32 (sh.inCstride32 * bidx + imgIndex)
    let tmp1 := xhat xhatIndex * dxhathat + dxhat
    let tmp2 := (sh.nBatchs : α) * dxhat - tmp1
    let tmp3 := elemInvVar / (sh.nBatchs : α)
    Function.update dx index (tmp3 * tmp2)) sh.nBatchs dx

/-- Both passes over the group at `adjIndex`, and `dscale_ptr[adjIndex] /= n_batchs` between
them. -/
def bwdPerActivationStep32 (sh : Shape) (a : BwdArgs α) (adjIndex imgIndex : ℕ)
    (mean elemInvVar : α) (st : BwdBufs α × (ℕ → α)) : BwdBufs α × (ℕ → α) :=
  let s := bwdPerActivationPass1_32 sh a adjIndex imgIndex mean elemInvVar
    { dbiasPtr := st.1.dbiasPtr, dscalePtr := st.1.dscalePtr, xhat := st.2, dxhat := 0,
      dxhathat := 0 }
  ({ dxPtr := bwdPerActivationPass2_32 sh adjIndex imgIndex elemInvVar s.xhat s.dxhat s.dxhathat
        st.1.dxPtr
     dscalePtr := Function.update s.dscalePtr adjIndex (s.dscalePtr adjIndex / sh.nBatchs)
     dbiasPtr := s.dbiasPtr }, s.xhat)

/-- `miopenBNBwdPerActivationRunHost` with `unsigned int` indices: `none` when its loops access
the zero-initialized `xhat` vector at or past its `n_batchs*in_cstride` entries. -/
def miopenBNBwdPerActivationRunHost32 (sqrt : α → α) (sh : Shape) (a : BwdArgs α)
    (b : BwdBufs α) : Option (BwdBufs α) :=
  let xhat : ℕ → α := fun _ => 0
  if sh.XhatFits32 then
    if a.savedmeanvar then
      some (Nat.fold (fun cidx => imageLoop sh fun imgIndex =>
        let adjIndex := u32 (sh.inCstride32 * cidx + imgIndex)
        let mean := a.savedMean adjIndex
        let elemInvVar := a.savedInvVariance adjIndex
        bwdPerActivationStep32 sh a adjIndex imgIndex mean elemInvVar) sh.channels (b, xhat)).1
    else
      some (Nat.fold (fun cidx => imageLoop sh fun imgIndex =>
        let adjIndex := u32 (sh.inCstride32 * cidx + imgIndex)
        let mean := perActivationMean32 sh a.xPtr adjIndex
        let variance := perActivationVariance32 sh a.xPtr adjIndex mean
        let elemInvVar := 1 / sqrt (variance + a.epsilon)
        bwdPerActivationStep32 sh a adjIndex imgIndex mean elemInvVar) sh.channels (b, xhat)).1
  else none

/-- The body of the loops of `miopenBNBwdPerActivationRunHost32` at position
`g = in_cstride*cidx + width*row + column`, whose `adjIndex` is `g` in `unsigned int` and whose
image position is `g % (height*width)`, with the test of `savedmeanvar` taken inside. -/
def bwdPerActivationBody32 (sqrt : α → α) (sh : Shape) (a : BwdArgs α) (g : ℕ)
    (st : BwdBufs α × (ℕ → α)) : BwdBufs α × (ℕ → α) :=
  let adjIndex := u32 g
  let imgIndex := g % sh.inCstride
  if a.savedmeanvar then
    let mean := a.savedMean adjIndex
    let elemInvVar := a.savedInvVariance adjIndex
    bwdPerActivationStep32 sh a adjIndex imgIndex mean elemInvVar st
  else
    let mean := perActivationMean32 sh a.xPtr adjIndex
    let variance := perActivationVariance32 sh a.xPtr adjIndex mean
    let elemInvVar := 1 / sqrt (variance + a.epsilon)
    bwdPerActivationStep32 sh a adjIndex imgIndex mean elemInvVar st

theorem miopenBNBwdPerActivationRunHost32_eq_fold (sqrt : α → α) (sh : Shape) (a : BwdArgs α)
    (b : BwdBufs α) :
    miopenBNBwdPerActivationRunHost32 sqrt sh a b = if sh.XhatFits32 then
      some (Nat.fold (bwdPerActivationBody32 sqrt sh a) sh.inNstride (b, fun _ => 0)).1
    else none := by
  unfold miopenBNBwdPerActivationRunHost32 bwdPerActivationBody32
  by_cases hx : sh.XhatFits32
  · simp only [if_pos hx]
    cases a.savedmeanvar
    · exact congrArg (some ∘ Prod.fst) (channelsLoop32_eq sh (fun adj img =>
        bwdPerActivationStep32 sh a adj img (perActivationMean32 sh a.xPtr adj)
          (1 / sqrt (perActivationVariance32 sh a.xPtr adj (perActivationMean32 sh a.xPtr adj) +
            a.epsilon))) _)
    · exact congrArg (some ∘ Prod.fst) (channelsLoop32_eq sh (fun adj img =>
        bwdPerActivationStep32 sh a adj img (a.savedMean adj) (a.savedInvVariance adj)) _)
  · simp only [if_neg hx]

section Fits

variable {sh : Shape} (hfit : sh.Fits)
include hfit

theorem bwdPerActivationStep32_eq (a : BwdArgs α) {adj imgIndex : ℕ} (hadj : adj < sh.inNstride)
    (himg : imgIndex < sh.inCstride) (mean elemInvVar : α) :
    bwdPerActivationStep32 sh a adj imgIndex mean elemInvVar =
      bwdPerActivationStep sh a adj imgIndex mean elemInvVar := by
  have hpass1 : bwdPerActivationPass1_32 sh a adj imgIndex mean elemInvVar =
      bwdPerActivationPass1 sh a adj imgIndex mean elemInvVar :=
    funext (fold_congr fun bidx hb => by
      simp only [hfit.index hb hadj, hfit.xhatIndex hb himg, Function.update_same])
  have hpass2 : bwdPerActivationPass2_32 sh (α := α) adj imgIndex elemInvVar =
      bwdPerActivationPass2 sh adj imgIndex elemInvVar :=
    funext fun _ => funext fun _ => funext fun _ => funext (fold_congr fun bidx hb => by
      simp only [hfit.index hb hadj, hfit.xhatIndex hb himg])
  funext st
  simp only [bwdPerActivationStep32, bwdPerActivationStep, hpass1, hpass2]

theorem bwdPerActivationBody32_eq (sqrt : α → α) (a : BwdArgs α) {g : ℕ}
    (hg : g < sh.inNstride) :
    bwdPerActivationBody32 sqrt sh a g = bwdPerActivationBody sqrt sh a g := by
  funext st
  simp only [bwdPerActivationBody32, bwdPerActivationBody, u32_of_lt (hg.trans hfit.inNstride_lt),
    bwdPerActivationStep32_eq hfit a hg (Nat.mod_lt _ sh.inCstride_pos),
    perActivationMean32_eq hfit _ hg, perActivationVariance32_eq hfit _ hg]

theorem miopenBNBwdPerActivationRunHost32_eq (sqrt : α → α) (a : BwdArgs α) (b : BwdBufs α) :
    miopenBNBwdPerActivationRunHost32 sqrt sh a b =
      some (miopenBNBwdPerActivationRunHost sqrt sh a b) := by
  rw [miopenBNBwdPerActivationRunHost32_eq_fold, if_pos hfit.xhatFits32,
    miopenBNBwdPerActivationRunHost_eq_fold,
    fold_congr (fun _ hg => bwdPerActivationBody32_eq hfit sqrt a hg)]

end Fits

/-! ## Backward, spatial

The backward spatial routine forms `adjIndex = Csubindex + width*row + column` from
`Csubindex = in_cstride*cidx`, and `NHW = double(n_batchs*in_cstride)`. -/

/-- `dbuf_ptr[cidx] += term(index)` over the elements of channel `cidx`. -/
def spatialAccum32 (sh : Shape) (cidx : ℕ) (term : ℕ → α) (buf : ℕ → α) : ℕ → α :=
  let Csubindex := u32 (sh.inCstride32 * cidx)
  imageLoop sh (fun imgIndex =>
    let adjIndex := u32 (Csubindex + imgIndex)
    Nat.fold (fun bidx buf =>
      let index := u32 (sh.inNstride32 * bidx + adjIndex)
      Function.update buf cidx (buf cidx + term index)) sh.nBatchs) buf

/-- The mean pass of the recompute path: `mean += x_ptr[index]`. -/
def bwdSpatialMeanAccum32 (sh : Shape) (x : ℕ → α) (cidx : ℕ) : α :=
  let Csubindex := u32 (sh.inCstride32 * cidx)
  imageLoop sh (fun imgIndex =>
    let adjIndex := u32 (Csubindex + imgIndex)
    Nat.fold (fun bidx acc => acc + x (u32 (sh.inNstride32 * bidx + adjIndex))) sh.nBatchs) 0

/-- The variance pass of the recompute path: `variance += elemStd*elemStd`. -/
def bwdSpatialVarianceAccum32 (sh : Shape) (x : ℕ → α) (cidx : ℕ) (mean : α) : α :=
  let Csubindex := u32 (sh.inCstride32 * cidx)
  imageLoop sh (fun imgIndex =>
    let adjIndex := u32 (Csubindex + imgIndex)
    Nat.fold (fun bidx acc =>
      let elemStd := x (u32 (sh.inNstride32 * bidx + adjIndex)) - mean
      acc + elemStd * elemStd) sh.nBatchs) 0

/-- The second pass of the saved-statistics path: `dx_ptr[index] = tmp3*(tmp2 + tmp1)`. -/
def bwdSpatialDxPass32 (sh : Shape) (a : BwdArgs α) (cidx : ℕ) (mean invVar dscale dbias : α)
    (dx : ℕ → α) : ℕ → α :=
  let NHW : α := (u32 (sh.nBatchs * sh.inCstride32) : ℕ)
  let Csubindex := u32 (sh.inCstride32 * cidx)
  imageLoop sh (fun imgIndex =>
    let adjIndex := u32 (Csubindex + imgIndex)
    Nat.fold (fun bidx dx =>
      let index := u32 (sh.inNstride32 * bidx + adjIndex)
      let elemStd := a.xPtr index - mean
      let tmp1 := NHW * a.dyPtr index - dbias
      let tmp2 := -elemStd * invVar * dscale
      let tmp3 := a.scalePtr cidx * invVar / NHW
      Function.update dx index (tmp3 * (tmp2 + tmp1))) sh.nBatchs) dx

/-- The channel body of the saved-statistics path of `miopenBNBwdSpatialRunHost32`. -/
def bwdSpatialSavedStep32 (sh : Shape) (a : BwdArgs α) (cidx : ℕ) (b : BwdBufs α) :
    BwdBufs α :=
  let NHW : α := (u32 (sh.nBatchs * sh.inCstride32) : ℕ)
  let mean := a.savedMean cidx
  let invVar := a.savedInvVariance cidx
  let dbiasPtr := spatialAccum32 sh cidx a.dyPtr b.dbiasPtr
  let dscaleAcc := spatialAccum32 sh cidx
    (fun index => (a.xPtr index - mean) * invVar * a.dyPtr index)
    b.dscalePtr
  let dscalePtr := Function.update dscaleAcc cidx (dscaleAcc cidx / NHW)
  { dxPtr := bwdSpatialDxPass32 sh a cidx mean invVar (dscalePtr cidx) (dbiasPtr cidx) b.dxPtr
    dscalePtr := dscalePtr
    dbiasPtr := dbiasPtr }

/-- The first pass of the recompute path: `xhat[xhat_index] = elemStd*invVar`,
`dbias_ptr[cidx] += dy` and `dscale_ptr[cidx] += xhat[xhat_index]*dy`. -/
def bwdSpatialXhatPass32 (sh : Shape) (a : BwdArgs α) (cidx : ℕ) (mean invVar : α)
    (st : BwdBufs α × (ℕ → α)) : BwdBufs α × (ℕ → α) :=
  let Csubindex := u32 (sh.inCstride32 * cidx)
  imageLoop sh (fun imgIndex =>
    let adjIndex := u32 (Csubindex + imgIndex)
    Nat.fold (fun bidx st =>
      let index := u32 (sh.inNstride32 * bidx + adjIndex)
      let xhatIndex := u32 (sh.inCstride32 * bidx + imgIndex)
      let elemStd := a.xPtr index - mean
      let xhat := Function.update st.2 xhatIndex (elemStd * invVar)
      let dyelem := a.dyPtr index
      ({ st.1 with
          dbiasPtr := Function.update st.1.dbiasPtr cidx (st.1.dbiasPtr cidx + dyelem)
          dscalePtr := Function.update st.1.dscalePtr cidx
            (st.1.dscalePtr cidx + xhat xhatIndex * dyelem) }, xhat)) sh.nBatchs) st

/-- The second pass of the recompute path, reading `tmp2 = -xhat[xhat_index]*dscale_ptr[cidx]`
back from the first. -/
def bwdSpatialXhatDxPass32 (sh : Shape) (a : BwdArgs α) (cidx : ℕ) (invVar dscale dbias : α)
    (xhat dx : ℕ → α) : ℕ → α :=
  let NHW : α := (u32 (sh.nBatchs * sh.inCstride32) : ℕ)
  let Csubindex := u32 (sh.inCstride32 * cidx)
  imageLoop sh (fun imgIndex =>
    let adjIndex := u32 (Csubindex + imgIndex)
    Nat.fold (fun bidx dx =>
      let index := u32 (sh.inNstride32 * bidx + adjIndex)
      let xhatIndex := u32 (sh.inCstride32 * bidx + imgIndex)
      let tmp1 := NHW * a.dyPtr index - dbias
      let tmp2 := -xhat xhatIndex * dscale
      let tmp3 := a.scalePtr cidx * invVar / NHW
      Function.update dx index (tmp3 * (tmp2 + tmp1))) sh.nBatchs) dx

/-- The channel body of the recompute path: the mean and variance passes,
`dscale_ptr[cidx] = dbias_ptr[cidx] = 0`, the first pass, `dscale_ptr[cidx] /= NHW` and the second
pass; the `xhat` vector is carried to the next channel. -/
def bwdSpatialStep32 (sqrt : α → α) (sh : Shape) (a : BwdArgs α) (cidx : ℕ)
    (st : BwdBufs α × (ℕ → α)) : BwdBufs α × (ℕ → α) :=
  let NHW : α := (u32 (sh.nBatchs * sh.inCstride32) : ℕ)
  let mean := bwdSpatialMeanAccum32 sh a.xPtr cidx / NHW
  let variance := bwdSpatialVarianceAccum32 sh a.xPtr cidx mean / NHW
  let invVar := 1 / sqrt (variance + a.epsilon)
  let st := bwdSpatialXhatPass32 sh a cidx mean invVar
    ({ st.1 with
        dscalePtr := Function.update st.1.dscalePtr cidx 0
        dbiasPtr := Function.update st.1.dbiasPtr cidx 0 }, st.2)
  let dscalePtr := Function.update st.1.dscalePtr cidx (st.1.dscalePtr cidx / NHW)
  ({ dxPtr := bwdSpatialXhatDxPass32 sh a cidx invVar (dscalePtr cidx) (st.1.dbiasPtr cidx) st.2
        st.1.dxPtr
     dscalePtr := dscalePtr
     dbiasPtr := st.1.dbiasPtr }, st.2)

/-- `miopenBNBwdSpatialRunHost` of the `MIO_HEIRARCH_SEL == 0` build with `unsigned int` indices:
the recompute path, which keeps a zero-initialized `xhat` vector of `n_batchs*in_cstride` entries,
is `none` when its loops access `xhat` at or past its size. -/
def miopenBNBwdSpatialRunHost32 (sqrt : α → α) (sh : Shape) (a : BwdArgs α) (b : BwdBufs α) :
    Option (BwdBufs α) :=
  if a.savedmeanvar then some (Nat.fold (bwdSpatialSavedStep32 sh a) sh.channels b)
  else if sh.XhatFits32 then
    some (Nat.fold (bwdSpatialStep32 sqrt sh a) sh.channels (b, fun _ => 0)).1
  else none

/-- The body of the channel loop of `miopenBNBwdSpatialRunHost32`, on the buffers and the `xhat`
vector, with the test of `savedmeanvar` taken inside. -/
def bwdSpatialBody32 (sqrt : α → α) (sh : Shape) (a : BwdArgs α) (cidx : ℕ)
    (st : BwdBufs α × (ℕ → α)) : BwdBufs α × (ℕ → α) :=
  if a.savedmeanvar then (bwdSpatialSavedStep32 sh a cidx st.1, st.2)
  else bwdSpatialStep32 sqrt sh a cidx st

theorem miopenBNBwdSpatialRunHost32_eq_fold (sqrt : α → α) (sh : Shape) (a : BwdArgs α)
    (b : BwdBufs α) :
    miopenBNBwdSpatialRunHost32 sqrt sh a b = if a.savedmeanvar ∨ sh.XhatFits32 then
      some (Nat.fold (bwdSpatialBody32 sqrt sh a) sh.channels (b, fun _ => 0)).1
    else none := by
  unfold miopenBNBwdSpatialRunHost32 bwdSpatialBody32
  cases a.savedmeanvar
  · simp only [Bool.false_eq_true, false_or, ↓reduceIte]
  · simp only [↓reduceIte, true_or]
    exact congrArg some
      (fold_map Prod.fst (g := bwdSpatialSavedStep32 sh a) (fun _ _ => rfl) _ (b, _)).symm

section Fits

variable {sh : Shape} (hfit : sh.Fits)
include hfit

theorem spatialAccum32_eq {cidx : ℕ} (hc : cidx < sh.channels) (term buf : ℕ → α) :
    spatialAccum32 sh cidx term buf = spatialAccum sh cidx term buf :=
  congrFun (hfit.channelPass hc _ (fun _ himg => hfit.csubIndex hc himg)
    fun _ index (buf : ℕ → α) => Function.update buf cidx (buf cidx + term index)) buf

theorem bwdSpatialMeanAccum32_eq (x : ℕ → α) {cidx : ℕ} (hc : cidx < sh.channels) :
    bwdSpatialMeanAccum32 sh x cidx = spatialMeanAccum sh x cidx :=
  congrFun (hfit.channelPass hc _ (fun _ himg => hfit.csubIndex hc himg)
    fun _ index acc => acc + x index) 0

theorem bwdSpatialVarianceAccum32_eq (x : ℕ → α) {cidx : ℕ} (hc : cidx < sh.channels)
    (mean : α) :
    bwdSpatialVarianceAccum32 sh x cidx mean = bwdSpatialVarianceAccum sh x cidx mean :=
  congrFun (hfit.channelPass hc _ (fun _ himg => hfit.csubIndex hc himg)
    fun _ index acc => acc + (x index - mean) * (x index - mean)) 0

theorem bwdSpatialDxPass32_eq (a : BwdArgs α) {cidx : ℕ} (hc : cidx < sh.channels)
    (mean invVar dscale dbias : α) :
    bwdSpatialDxPass32 sh a cidx mean invVar dscale dbias =
      bwdSpatialDxPass sh a cidx mean invVar dscale dbias := by
  unfold bwdSpatialDxPass32 bwdSpatialDxPass
  rw [hfit.nBatchs_mul_inCstride]
  exact funext (congrFun (hfit.channelPass hc _ (fun _ himg => hfit.csubIndex hc himg)
    fun _ index dx => Function.update dx index
      (a.scalePtr cidx * invVar / ((sh.nBatchs * sh.inCstride : ℕ) : α) *
        (-(a.xPtr index - mean) * invVar * dscale +
          (((sh.nBatchs * sh.inCstride : ℕ) : α) * a.dyPtr index - dbias)))))

theorem bwdSpatialSavedStep32_eq (a : BwdArgs α) {cidx : ℕ} (hc : cidx < sh.channels) :
    bwdSpatialSavedStep32 sh a cidx = bwdSpatialSavedStep sh a cidx := by
  funext b
  simp only [bwdSpatialSavedStep32, bwdSpatialSavedStep, spatialAccum32_eq hfit hc,
    bwdSpatialDxPass32_eq hfit a hc, hfit.nBatchs_mul_inCstride]

theorem bwdSpatialXhatPass32_eq (a : BwdArgs α) {cidx : ℕ} (hc : cidx < sh.channels)
    (mean invVar : α) :
    bwdSpatialXhatPass32 sh a cidx mean invVar = bwdSpatialXhatPass sh a cidx mean invVar :=
  funext (congrFun (hfit.channelPass hc _ (fun _ himg => hfit.csubIndex hc himg)
    fun xhatIndex index (st : BwdBufs α × (ℕ → α)) =>
      ({ st.1 with
          dbiasPtr := Function.update st.1.dbiasPtr cidx (st.1.dbiasPtr cidx + a.dyPtr index)
          dscalePtr := Function.update st.1.dscalePtr cidx (st.1.dscalePtr cidx +
            Function.update st.2 xhatIndex ((a.xPtr index - mean) * invVar) xhatIndex *
              a.dyPtr index) },
        Function.update st.2 xhatIndex ((a.xPtr index - mean) * invVar))))

theorem bwdSpatialXhatDxPass32_eq (a : BwdArgs α) {cidx : ℕ} (hc : cidx < sh.channels)
    (invVar dscale dbias : α) (xhat : ℕ → α) :
    bwdSpatialXhatDxPass32 sh a cidx invVar dscale dbias xhat =
      bwdSpatialXhatDxPass sh a cidx invVar dscale dbias xhat := by
  unfold bwdSpatialXhatDxPass32 bwdSpatialXhatDxPass
  rw [hfit.nBatchs_mul_inCstride]
  exact funext (congrFun (hfit.channelPass hc _ (fun _ himg => hfit.csubIndex hc himg)
    fun xhatIndex index dx => Function.update dx index
      (a.scalePtr cidx * invVar / ((sh.nBatchs * sh.inCstride : ℕ) : α) *
        (-xhat xhatIndex * dscale +
          (((sh.nBatchs * sh.inCstride : ℕ) : α) * a.dyPtr index - dbias)))))

theorem bwdSpatialBody32_eq (sqrt : α → α) (a : BwdArgs α) {cidx : ℕ} (hc : cidx < sh.channels) :
    bwdSpatialBody32 sqrt sh a cidx = bwdSpatialBody sqrt sh a cidx := by
  funext st
  simp only [bwdSpatialBody32, bwdSpatialBody, bwdSpatialSavedStep32_eq hfit a hc,
    bwdSpatialStep32, bwdSpatialStep, bwdSpatialMeanAccum32_eq hfit _ hc,
    bwdSpatialVarianceAccum32_eq hfit _ hc, bwdSpatialXhatPass32_eq hfit a hc,
    bwdSpatialXhatDxPass32_eq hfit a hc, hfit.nBatchs_mul_inCstride]

theorem miopenBNBwdSpatialRunHost32_eq (sqrt : α → α) (a : BwdArgs α) (b : BwdBufs α) :
    miopenBNBwdSpatialRunHost32 sqrt sh a b =
      some (miopenBNBwdSpatialRunHost false sqrt sh a b) := by
  rw [miopenBNBwdSpatialRunHost32_eq_fold, if_pos (Or.inr hfit.xhatFits32),
    miopenBNBwdSpatialRunHost_eq_fold,
    fold_congr (fun _ hc => bwdSpatialBody32_eq hfit sqrt a hc)]

end Fits

end MIOpen.BatchNorm
