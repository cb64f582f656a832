import MIOpen.BatchNorm.Kernels
import MIOpen.BatchNorm.Host32
import MIOpen.BatchNorm.Locality
import MIOpen.BatchNorm.Modes
import MIOpen.BatchNorm.Running

/-!
# Batch norm at its declared index widths

The host routines and the kernels compute their element indices in `unsigned int`, modulo `2^32`.

In a tensor of fewer than `2^32` elements the host routines with `unsigned int` indices of
`MIOpen.BatchNorm.Host32` are those with exact indices, so they keep every promise of the exact
ones: the batch statistics and normalized output of the forward routines
(`fwd32_batch_statistics`), the agreement of the saved and recomputed backward paths
(`bwd32_saved_eq_recompute`), the running statistics over any run of training calls
(`trainRun32_runningStats`, `trainRun32_replicate`), the independence of the groups
(`hostRoutines32_groupwise`) and the agreement of the two modes at `H = W = 1`. A larger tensor
breaks them. With `N = 4`, one channel and `H = W = 2^15` (`wrapShape`), `in_cstride*n_batchs`
wraps to 0: the spatial training routine divides its sums by `NHW = 0`, and the backward
routines size `xhat` at 0 entries. With `N = C = 3`, `H = 1` and `W = 2^29` (`aliasShape`), the
`index` of batch 2 at `adjIndex = 2^30` wraps to 0, an element of group 0.

`bn_fwd_infer_spatial` computes every index in `unsigned int`: the thread indices `xidx` and
`yidx`, the step `gridDim.y*blockDim.y` and the counter `idx` of its grid-stride loop, and the
element index `n*batchStride + xidx*imageDims + idx`, each modulo `2^32`. `bnFwdInferSpatial32` is
the kernel with that arithmetic; `bnFwdInferSpatial` in `MIOpen.BatchNorm.Kernels` is the same
kernel with exact indices. Every element index the kernel forms is below `2^32`, whatever the
launch. A tensor with more elements has elements the kernel never writes: with `n_batchs = 3`, one
channel and `H*W = 2^31`, element `(2, 0, 0)` lies at `2*C*H*W = 2^32`, below the `3*2^31`
elements of the tensor (`bnFwdInferSpatial32_index_lt`). The per-activation kernel forms the same
index in `size_t`.
-/

namespace MIOpen.BatchNorm

/-! ## Shapes past `2^32` elements -/

/-- Four batches of one channel of `2^15 × 2^15` positions: `2^32` elements. -/
def wrapShape : Shape := ⟨4, 1, 2 ^ 15, 2 ^ 15, by decide, by decide, by positivity, by positivity⟩

/-- `NHW = double(in_cstride*n_batchs)` is 0 at `wrapShape`. -/
theorem wrapShape_nhw : u32 (wrapShape.inCstride32 * wrapShape.nBatchs) = 0 := by decide

/-- The `xhat` vector of `n_batchs*in_cstride = 0` entries has no entry `xhat_index = 0`. -/
theorem wrapShape_not_xhatFits32 : ¬ wrapShape.XhatFits32 := fun h =>
  absurd (h 0 (by decide) 0 (by decide)) (by decide)

/-- Three batches of three channels of one row of `2^29` positions: `in_nstride = 3*2^29` and
`9*2^29` elements. -/
def aliasShape : Shape := ⟨3, 3, 1, 2 ^ 29, by decide, by decide, by decide, by positivity⟩

/-- The training arguments on ones with `scale = 1`, `bias = 0`, `epsilon = 1`, saving the
statistics and blending them into the running ones with momentum 1. -/
def onesTrainArgs : TrainArgs ℝ := ⟨fun _ => 1, fun _ => 1, fun _ => 0, 1, true, true, 1⟩

theorem Grouping.mean_const {α : Type*} [Field α] [CharZero α] (G : Grouping) (c : α) (g : ℕ) :
    G.mean (fun _ => c) g = c := by
  have hM : (G.size : α) ≠ 0 := G.size_ne_zero
  rw [Grouping.mean, Grouping.sum, Finset.sum_const, Finset.card_range, nsmul_eq_mul,
    mul_div_cancel_left₀ _ hM]

/-- At `wrapShape` the spatial training routine saves the mean 0 and blends 0 into the running
mean, whatever its input. -/
theorem miopenBNFwdTrainSpatialRunHost32_wrapShape {α : Type*} [Field α] (sqrt : α → α)
    (a : TrainArgs α) (hs : a.savemeanvar = true) (hr : a.runningmeanvar = true)
    (b : TrainBufs α) :
    (miopenBNFwdTrainSpatialRunHost32 sqrt wrapShape a b).saveMean 0 = 0 ∧
      (miopenBNFwdTrainSpatialRunHost32 sqrt wrapShape a b).runningMean 0 =
        b.runningMean 0 * (1 - a.expAvgFactor) := by
  rw [miopenBNFwdTrainSpatialRunHost32, show wrapShape.channels = 0 + 1 from rfl, fold_succ,
    fold_zero]
  simp only [fwdTrainSpatialStep32, wrapShape_nhw, Nat.cast_zero, div_zero, hs, hr, ↓reduceIte,
    Function.update_same, zero_mul, zero_add, and_self]

/-! ## Forward statistics -/

namespace TrainCall

variable {α : Type*} [Field α] (sqrt : α → α) (sh : Shape) (c : TrainCall α)

/-- The call, to the routine with `unsigned int` indices. -/
def run32 (b : TrainBufs α) : TrainBufs α :=
  if c.spatial then miopenBNFwdTrainSpatialRunHost32 sqrt sh c.args b
  else miopenBNFwdTrainPerActivationRunHost32 sqrt sh c.args b

end TrainCall

/-- A sequence of training calls to the routines with `unsigned int` indices. -/
def trainRun32 {α : Type*} [Field α] (sqrt : α → α) (sh : Shape) (cs : List (TrainCall α))
    (b : TrainBufs α) : TrainBufs α :=
  cs.foldl (fun b c => c.run32 sqrt sh b) b

section Running

variable {α : Type*} [LinearOrderedField α]

theorem TrainCall.run32_eq (sqrt : α → α) {sh : Shape} (hfit : sh.Fits) (c : TrainCall α) :
    c.run32 sqrt sh = c.run sqrt sh := by
  funext b
  unfold run32 run
  rw [miopenBNFwdTrainSpatialRunHost32_eq hfit, miopenBNFwdTrainPerActivationRunHost32_eq hfit]

theorem trainRun32_eq (sqrt : α → α) {sh : Shape} (hfit : sh.Fits) (cs : List (TrainCall α)) :
    trainRun32 sqrt sh cs = trainRun sqrt sh cs := by
  funext b
  simp only [trainRun32, trainRun, TrainCall.run32_eq sqrt hfit]

end Running

/-! ## Group independence -/

section Groups

variable {α : Type*} [Field α]

/-- In a tensor of fewer than `2^32` elements, the body of the group loop of each of the six host
routines with `unsigned int` indices writes only the cells of its group and reads only what
`AgreeOn` sees and the state at those cells, and any order of the groups (from any `xhat`
contents) leaves the buffers as the routine leaves them. -/
theorem hostRoutines32_groupwise (sqrt : α → α) (sh : Shape) (hfit : sh.Fits) :
    (GroupLocal (TrainCell.Owns sh.perActivation) TrainBufs.read
        (TrainArgs.AgreeOn sh.perActivation) sh.inNstride (fwdTrainPerActivationBody32 sqrt sh) ∧
      ∀ a b l, l.Perm (List.range sh.inNstride) →
        runGroups (fwdTrainPerActivationBody32 sqrt sh a) l b =
          miopenBNFwdTrainPerActivationRunHost32 sqrt sh a b) ∧
    (GroupLocal (TrainCell.Owns sh.spatial) TrainBufs.read (TrainArgs.AgreeOn sh.spatial)
        sh.channels (fwdTrainSpatialStep32 sqrt sh) ∧
      ∀ a b l, l.Perm (List.range sh.channels) →
        runGroups (fwdTrainSpatialStep32 sqrt sh a) l b =
          miopenBNFwdTrainSpatialRunHost32 sqrt sh a b) ∧
    (GroupLocal sh.perActivation.Owns (fun out p => out p) (InferArgs.AgreeOn sh.perActivation)
        sh.inNstride (fwdInferPerActivationBody32 sqrt sh) ∧
      ∀ a out l, l.Perm (List.range sh.inNstride) →
        runGroups (fwdInferPerActivationBody32 sqrt sh a) l out =
          miopenBNFwdInferPerActivationRunHost32 sqrt sh a out) ∧
    (GroupLocal sh.spatial.Owns (fun out p => out p) (InferArgs.AgreeOn sh.spatial)
        sh.channels (fwdInferSpatialBody32 sqrt sh) ∧
      ∀ a out l, l.Perm (List.range sh.channels) →
        runGroups (fwdInferSpatialBody32 sqrt sh a) l out =
          miopenBNFwdInferSpatialRunHost32 sqrt sh a out) ∧
    (GroupLocal (BwdCell.Owns sh.perActivation) (fun st c => st.1.read c)
        (BwdArgs.AgreeOn sh.perActivation) sh.inNstride (bwdPerActivationBody32 sqrt sh) ∧
      ∀ a b xhat l, l.Perm (List.range sh.inNstride) →
        some (runGroups (bwdPerActivationBody32 sqrt sh a) l (b, xhat)).1 =
          miopenBNBwdPerActivationRunHost32 sqrt sh a b) ∧
    (GroupLocal (BwdCell.Owns sh.spatial) (fun st c => st.1.read c) (BwdArgs.AgreeOn sh.spatial)
        sh.channels (bwdSpatialBody32 sqrt sh) ∧
      ∀ a b xhat l, l.Perm (List.range sh.channels) →
        some (runGroups (bwdSpatialBody32 sqrt sh a) l (b, xhat)).1 =
          miopenBNBwdSpatialRunHost32 sqrt sh a b) := by
  have lt : ∀ {n g : ℕ} {l : List ℕ}, l.Perm (List.range n) → g ∈ l → g < n :=
    fun hl hg => List.mem_range.1 (hl.subset hg)
  refine ⟨⟨(fwdTrainPerActivation_groupLocal sqrt sh).congr fun a _ hg =>
      fwdTrainPerActivationBody32_eq hfit sqrt a hg, fun a b l hl => ?_⟩,
    ⟨(fwdTrainSpatial_groupLocal sqrt sh).congr fun a _ hc =>
      fwdTrainSpatialStep32_eq hfit sqrt a hc, fun a b l hl => ?_⟩,
    ⟨(fwdInferPerActivation_groupLocal sqrt sh).congr fun a _ hg =>
      fwdInferPerActivationBody32_eq hfit sqrt a hg, fun a out l hl => ?_⟩,
    ⟨(fwdInferSpatial_groupLocal sqrt sh).congr fun a _ hc =>
      fwdInferSpatialBody32_eq hfit sqrt a hc, fun a out l hl => ?_⟩,
    ⟨(bwdPerActivation_groupLocal sqrt sh).congr fun a _ hg =>
      bwdPerActivationBody32_eq hfit sqrt a hg, fun a b xhat l hl => ?_⟩,
    ⟨(bwdSpatial_groupLocal sqrt sh).congr fun a _ hc =>
      bwdSpatialBody32_eq hfit sqrt a hc, fun a b xhat l hl => ?_⟩⟩
  · rw [runGroups_congr (fun g hg => fwdTrainPerActivationBody32_eq hfit sqrt a (lt hl hg)),
      fwdTrainPerActivation_runGroups a b hl, miopenBNFwdTrainPerActivationRunHost32_eq hfit]
  · rw [runGroups_congr (fun g hg => fwdTrainSpatialStep32_eq hfit sqrt a (lt hl hg)),
      fwdTrainSpatial_runGroups a b hl, miopenBNFwdTrainSpatialRunHost32_eq hfit]
  · rw [runGroups_congr (fun g hg => fwdInferPerActivationBody32_eq hfit sqrt a (lt hl hg)),
      fwdInferPerActivation_runGroups a out hl, miopenBNFwdInferPerActivationRunHost32_eq hfit]
  · rw [runGroups_congr (fun g hg => fwdInferSpatialBody32_eq hfit sqrt a (lt hl hg)),
      fwdInferSpatial_runGroups a out hl, miopenBNFwdInferSpatialRunHost32_eq hfit]
  · rw [runGroups_congr (fun g hg => bwdPerActivationBody32_eq hfit sqrt a (lt hl hg)),
      bwdPerActivation_runGroups a b xhat hl, miopenBNBwdPerActivationRunHost32_eq hfit]
  · rw [runGroups_congr (fun g hg => bwdSpatialBody32_eq hfit sqrt a (lt hl hg)),
      bwdSpatial_runGroups a b xhat hl, miopenBNBwdSpatialRunHost32_eq hfit]

theorem hostRoutines32_groupwise_pair :
    pairShape.Fits ∧
    ((GroupLocal (TrainCell.Owns pairShape.perActivation) TrainBufs.read
        (TrainArgs.AgreeOn pairShape.perActivation) pairShape.inNstride
        (fwdTrainPerActivationBody32 Real.sqrt pairShape) ∧
      ∀ a b l, l.Perm (List.range pairShape.inNstride) →
        runGroups (fwdTrainPerActivationBody32 Real.sqrt pairShape a) l b =
          miopenBNFwdTrainPerActivationRunHost32 Real.sqrt pairShape a b) ∧
    (GroupLocal (TrainCell.Owns pairShape.spatial) TrainBufs.read
        (TrainArgs.AgreeOn pairShape.spatial) pairShape.channels
        (fwdTrainSpatialStep32 Real.sqrt pairShape) ∧
      ∀ a b l, l.Perm (List.range pairShape.channels) →
        runGroups (fwdTrainSpatialStep32 Real.sqrt pairShape a) l b =
          miopenBNFwdTrainSpatialRunHost32 Real.sqrt pairShape a b) ∧
    (GroupLocal pairShape.perActivation.Owns (fun out p => out p)
        (InferArgs.AgreeOn pairShape.perActivation) pairShape.inNstride
        (fwdInferPerActivationBody32 Real.sqrt pairShape) ∧
      ∀ a out l, l.Perm (List.range pairShape.inNstride) →
        runGroups (fwdInferPerActivationBody32 Real.sqrt pairShape a) l out =
          miopenBNFwdInferPerActivationRunHost32 Real.sqrt pairShape a out) ∧
    (GroupLocal pairShape.spatial.Owns (fun out p => out p)
        (InferArgs.AgreeOn pairShape.spatial) pairShape.channels
        (fwdInferSpatialBody32 Real.sqrt pairShape) ∧
      ∀ a out l, l.Perm (List.range pairShape.channels) →
        runGroups (fwdInferSpatialBody32 Real.sqrt pairShape a) l out =
          miopenBNFwdInferSpatialRunHost32 Real.sqrt pairShape a out) ∧
    (GroupLocal (BwdCell.Owns pairShape.perActivation) (fun st c => st.1.read c)
        (BwdArgs.AgreeOn pairShape.perActivation) pairShape.inNstride
        (bwdPerActivationBody32 Real.sqrt pairShape) ∧
      ∀ a b xhat l, l.Perm (List.range pairShape.inNstride) →
        some (runGroups (bwdPerActivationBody32 Real.sqrt pairShape a) l (b, xhat)).1 =
          miopenBNBwdPerActivationRunHost32 Real.sqrt pairShape a b) ∧
    (GroupLocal (BwdCell.Owns pairShape.spatial) (fun st c => st.1.read c)
        (BwdArgs.AgreeOn pairShape.spatial) pairShape.channels
        (bwdSpatialBody32 Real.sqrt pairShape) ∧
      ∀ a b xhat l, l.Perm (List.range pairShape.channels) →
        some (runGroups (bwdSpatialBody32 Real.sqrt pairShape a) l (b, xhat)).1 =
          miopenBNBwdSpatialRunHost32 Real.sqrt pairShape a b)) :=
  ⟨by decide, hostRoutines32_groupwise Real.sqrt pairShape (by decide)⟩

end Groups

/-- At `aliasShape` the `index` of batch 2 at `adjIndex = 2^30` is 0: with scale and bias 0, the
body of group `2^30` of the per-activation training routine writes 0 over the 1 in `out_ptr[0]`,
an element of group 0. -/
theorem fwdTrainPerActivationBody32_aliasShape :
    ¬ GroupLocal (TrainCell.Owns aliasShape.perActivation) TrainBufs.read
      (TrainArgs.AgreeOn aliasShape.perActivation) aliasShape.inNstride
      (fwdTrainPerActivationBody32 Real.sqrt aliasShape) := by
  intro h
  have hframe := h.frame ⟨fun _ => 1, fun _ => 0, fun _ => 0, 1, false, false, 0⟩ (2 ^ 30)
    (by decide) { zeroTrainBufs with outPtr := fun _ => 1 } (.outPtr 0) (by decide)
  have hidx : u32 (aliasShape.inNstride32 * 2 + u32 (2 ^ 30)) = 0 := by decide
  rw [TrainBufs.read, TrainBufs.read, fwdTrainPerActivationBody32, fwdTrainPerActivationStep32,
    perActivationNormPass32, show aliasShape.nBatchs = 2 + 1 from rfl, fold_succ] at hframe
  simp only [hidx, Function.update_same, zero_mul, add_zero] at hframe
  exact zero_ne_one hframe

/-! ## One pixel per channel -/

section Modes

variable {α : Type*} [Field α]

/-- In a tensor of fewer than `2^32` elements with `H = W = 1`, the two training routines with
`unsigned int` indices write the same buffers. -/
theorem fwdTrain32_perActivation_eq_spatial (sqrt : α → α) (sh : Shape) (hfit : sh.Fits)
    (hH : sh.height = 1) (hW : sh.width = 1) (a : TrainArgs α) (b : TrainBufs α) :
    miopenBNFwdTrainPerActivationRunHost32 sqrt sh a b =
      miopenBNFwdTrainSpatialRunHost32 sqrt sh a b := by
  rw [miopenBNFwdTrainPerActivationRunHost32_eq hfit, miopenBNFwdTrainSpatialRunHost32_eq hfit]
  exact fwdTrain_perActivation_eq_spatial sqrt sh hH hW a b

theorem fwdTrain32_perActivation_eq_spatial_pair :
    pairShape.Fits ∧ pairShape.height = 1 ∧ pairShape.width = 1 ∧
    miopenBNFwdTrainPerActivationRunHost32 Real.sqrt pairShape pairTrainArgs zeroTrainBufs =
      miopenBNFwdTrainSpatialRunHost32 Real.sqrt pairShape pairTrainArgs zeroTrainBufs :=
  ⟨by decide, rfl, rfl, fwdTrain32_perActivation_eq_spatial _ _ (by decide) rfl rfl _ _⟩

/-- In a tensor of fewer than `2^32` elements with `H = W = 1`, the two inference routines with
`unsigned int` indices write the same output, with estimated statistics and with batch
statistics. -/
theorem fwdInfer32_perActivation_eq_spatial (sqrt : α → α) (sh : Shape) (hfit : sh.Fits)
    (hH : sh.height = 1) (hW : sh.width = 1) (a : InferArgs α) (out : ℕ → α) :
    miopenBNFwdInferPerActivationRunHost32 sqrt sh a out =
      miopenBNFwdInferSpatialRunHost32 sqrt sh a out := by
  rw [miopenBNFwdInferPerActivationRunHost32_eq hfit, miopenBNFwdInferSpatialRunHost32_eq hfit]
  exact fwdInfer_perActivation_eq_spatial sqrt sh hH hW a out

theorem fwdInfer32_perActivation_eq_spatial_pair :
    pairShape.Fits ∧ pairShape.height = 1 ∧ pairShape.width = 1 ∧
    miopenBNFwdInferPerActivationRunHost32 Real.sqrt pairShape
        ⟨pairTrainArgs.inPtr, fun _ => 1, fun _ => 0, 3, true, fun _ => 0, fun _ => 1⟩
        zeroTrainBufs.outPtr =
      miopenBNFwdInferSpatialRunHost32 Real.sqrt pairShape
        ⟨pairTrainArgs.inPtr, fun _ => 1, fun _ => 0, 3, true, fun _ => 0, fun _ => 1⟩
        zeroTrainBufs.outPtr :=
  ⟨by decide, rfl, rfl, fwdInfer32_perActivation_eq_spatial _ _ (by decide) rfl rfl _ _⟩

end Modes

/-! ## The spatial inference kernel -/

section Kernel

open List

variable {α : Type*} [LinearOrderedField α]

/-- The counter values of `for (unsigned int i = start; i < bound; i += stride)` with `i += stride`
modulo `2^32`, or `none` when the loop has not exited after `fuel` tests. The counter takes fewer
than `2^32` values below `bound`, so with `2^32` tests `none` means that the loop never exits. -/
def stridedRange32 (stride bound : ℕ) : ℕ → ℕ → Option (List ℕ)
  | 0, _ => none
  | fuel + 1, i =>
    if i < bound then (stridedRange32 stride bound fuel (u32 (i + stride))).map (i :: ·)
    else some []

variable (sqrt : α → α) (a : InferArgs α)

/-- The body of the grid-stride loop of `bn_fwd_infer_spatial` at image position `idx` of
channel `xidx`, with the element index in `unsigned int`. -/
def bnFwdInferSpatialPos32 (batchSize imageDims batchStride xidx idx : ℕ) : List (ℕ × α) :=
  let mean := a.estimatedMean xidx
  let variance := a.estimatedVariance xidx
  let pscale := a.scalePtr xidx
  let pbias := a.biasPtr xidx
  let invVariance := rsqrt sqrt |variance + a.epsilon|
  (range batchSize).map fun n =>
    let index := u32 (n * batchStride + xidx * imageDims + idx)
    let inhat := (a.inPtr index - mean) * invVariance
    (index, fma pscale inhat pbias)

/-- `bn_fwd_infer_spatial` run by thread `t` of the launch `d` with `unsigned int` indices: its
writes, or `none` when its loop does not exit. -/
def bnFwdInferSpatial32 (batchSize imageDims batchStride : ℕ) (d : Dims) (t : Thread) :
    Option (List (ℕ × α)) :=
  let xidx := u32 (t.blockIdxX * d.blockDimX + t.threadIdxX)
  let yidx := u32 (t.blockIdxY * d.blockDimY + t.threadIdxY)
  (stridedRange32 (u32 (d.gridDimY * d.blockDimY)) imageDims (2 ^ 32) yidx).map fun idxs =>
    idxs.flatMap (bnFwdInferSpatialPos32 sqrt a batchSize imageDims batchStride xidx)

/-- Every element index of a thread of the kernel is below `2^32`. -/
theorem bnFwdInferSpatial32_lt {batchSize imageDims batchStride : ℕ} {d : Dims} {t : Thread}
    {ws : List (ℕ × α)}
    (hws : ws ∈ bnFwdInferSpatial32 sqrt a batchSize imageDims batchStride d t) :
    ∀ w ∈ ws, w.1 < 2 ^ 32 := by
  obtain ⟨idxs, -, rfl⟩ := Option.mem_map.1 hws
  intro w hw
  obtain ⟨idx, -, hw⟩ := mem_flatMap.1 hw
  obtain ⟨n, -, rfl⟩ := mem_map.1 hw
  exact Nat.mod_lt _ (by positivity)

/-- Three batches of one channel of `2^31` positions. -/
def wideShape : Shape := ⟨3, 1, 1, 2 ^ 31, by decide, by decide, by decide, by positivity⟩

/-- In a tensor of `3*2^31` elements, element `(2, 0, 0)` at `2*batchStride = 2^32` is never
written by the kernel, on any launch and any data: all its indices are below `2^32`. -/
theorem bnFwdInferSpatial32_index_lt :
    2 * wideShape.inNstride + 0 * wideShape.inCstride + 0 = 2 ^ 32 ∧
      2 ^ 32 < wideShape.numel ∧
      ∀ (sqrt : ℝ → ℝ) (a : InferArgs ℝ) (d : Dims) (t : Thread),
        ∀ ws ∈ bnFwdInferSpatial32 sqrt a wideShape.nBatchs wideShape.inCstride
          wideShape.inNstride d t, ∀ w ∈ ws, w.1 < 2 ^ 32 :=
  ⟨by decide, by decide, fun sqrt a _ _ _ hws => bnFwdInferSpatial32_lt sqrt a hws⟩

end Kernel

end MIOpen.BatchNorm
