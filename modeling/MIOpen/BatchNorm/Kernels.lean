import MIOpen.BatchNorm.FwdInfer
import MIOpen.Launch

/-!
# The HIP inference kernels

`bn_fwd_infer_per_activation` and `bn_fwd_infer_spatial` normalize with the estimated statistics.
`BatchNormForwardInferencGPU` launches them with one thread along x per channel
(`xlocalsize = 1`, `xgridsize = c`) and passes `batchSize = n`, `imageDims = H*W` and
`batchStride = C*H*W`; along y any number `S` of threads step through the image positions by `S`.
The kernels' `rsqrt(fabs(variance + epsilon))` and `fma` are taken exactly, and so is their
index arithmetic.

`bnFwdInfer_launch`: with `variance + epsilon ≥ 0`, each launch writes every element of the
tensor exactly once, with the value the host routine's estimated-statistics branch computes there,
and writes nothing else. The writes of both launches are the elements of their grouping, group by
group (`Grouping.elems`), which is a listing of the whole tensor (`Grouping.elems_perm`).
-/

namespace MIOpen.BatchNorm

open List

variable {α : Type*} [LinearOrderedField α]

namespace Grouping

variable (G : Grouping)

/-- The elements of every group, group by group. -/
def elems : List ℕ := (range G.count).flatMap fun g => (range G.size).map (G.elem g)

/-- The groups list every index below `numel` exactly once. -/
theorem elems_perm : G.elems ~ range G.numel := by
  refine perm_range_of_nodup (nodup_flatMap_of_key G.groupOf (nodup_range _) (fun g hg => ?_)
    fun g hg p hp => ?_) fun p => ?_
  · exact (nodup_range _).map_on fun k hk k' hk' =>
      G.elem_inj (mem_range.1 hg) (mem_range.1 hk) (mem_range.1 hk')
  · obtain ⟨k, hk, rfl⟩ := mem_map.1 hp
    exact G.groupOf_elem (mem_range.1 hg) (mem_range.1 hk)
  · simp only [elems, mem_flatMap, mem_map, mem_range]
    constructor
    · rintro ⟨g, hg, k, hk, rfl⟩
      exact G.elem_lt hg hk
    · intro hp
      obtain ⟨k, hk, he⟩ := G.exists_elem hp
      exact ⟨_, G.groupOf_lt hp, k, hk, he⟩

end Grouping

/-- `rsqrt`, the reciprocal of `sqrt`. -/
def rsqrt (sqrt : α → α) (v : α) : α := 1 / sqrt v

/-- `fma(a, b, c) = a*b + c`. -/
def fma (a b c : α) : α := a * b + c

/-- The kernels' inverse deviation agrees with the host's where `variance + epsilon ≥ 0`. -/
theorem rsqrt_abs {sqrt : α → α} {variance epsilon : α} (h : 0 ≤ variance + epsilon) :
    rsqrt sqrt |variance + epsilon| = invVariance sqrt variance epsilon := by
  rw [rsqrt, abs_of_nonneg h, invVariance]

variable (sqrt : α → α) (a : InferArgs α)

/-! ## Kernels -/

/-- The body of the grid-stride loop of `bn_fwd_infer_per_activation` at image position
`imgOffset` of channel `grpid`: the writes of its loop over the batch. -/
def bnFwdInferPerActivationPos (batchSize imageDims batchStride grpid imgOffset : ℕ) :
    List (ℕ × α) :=
  let adjIndex := grpid * imageDims + imgOffset
  let mean := a.estimatedMean adjIndex
  let variance := a.estimatedVariance adjIndex
  let invVariance := rsqrt sqrt |variance + a.epsilon|
  let pvtScale := a.scalePtr adjIndex
  let pvtBias := a.biasPtr adjIndex
  (range batchSize).map fun n =>
    let index := batchStride * n + adjIndex
    let inhat := (a.inPtr index - mean) * invVariance
    (index, fma pvtScale inhat pvtBias)

/-- `bn_fwd_infer_per_activation` run by thread `t` of the launch `d`: its grid-stride loop from
`yidx` over the image positions of channel `grpid = blockIdx.x`. -/
def bnFwdInferPerActivation (batchSize imageDims batchStride : ℕ) (d : Dims) (t : Thread) :
    List (ℕ × α) :=
  (stridedRange (d.globalY t) d.strideY imageDims).flatMap
    (bnFwdInferPerActivationPos sqrt a batchSize imageDims batchStride t.blockIdxX)

/-- The body of the grid-stride loop of `bn_fwd_infer_spatial` at image position `idx` of
channel `xidx`, whose statistics the thread read before the loop. -/
def bnFwdInferSpatialPos (batchSize imageDims batchStride xidx idx : ℕ) : List (ℕ × α) :=
  let mean := a.estimatedMean xidx
  let variance := a.estimatedVariance xidx
  let pscale := a.scalePtr xidx
  let pbias := a.biasPtr xidx
  let invVariance := rsqrt sqrt |variance + a.epsilon|
  (range batchSize).map fun n =>
    let index := n * batchStride + xidx * imageDims + idx
    let inhat := (a.inPtr index - mean) * invVariance
    (index, fma pscale inhat pbias)

/-- `bn_fwd_infer_spatial` run by thread `t` of the launch `d`: its grid-stride loop from `yidx`
over the image positions of channel `xidx`. -/
def bnFwdInferSpatial (batchSize imageDims batchStride : ℕ) (d : Dims) (t : Thread) :
    List (ℕ × α) :=
  (stridedRange (d.globalY t) d.strideY imageDims).flatMap
    (bnFwdInferSpatialPos sqrt a batchSize imageDims batchStride (d.globalX t))

/-- The per-activation launch of `BatchNormForwardInferencGPU` on the launch `d`. -/
def bnFwdInferPerActivationLaunch (sh : Shape) (d : Dims) : List (ℕ × α) :=
  launch d (bnFwdInferPerActivation sqrt a sh.nBatchs sh.inCstride sh.inNstride d)

/-- The spatial launch of `BatchNormForwardInferencGPU` on the launch `d`. -/
def bnFwdInferSpatialLaunch (sh : Shape) (d : Dims) : List (ℕ × α) :=
  launch d (bnFwdInferSpatial sqrt a sh.nBatchs sh.inCstride sh.inNstride d)

/-! ## Coverage -/

theorem globalX_eq_blockIdxX {d : Dims} (hbx : d.blockDimX = 1) {t : Thread}
    (ht : t ∈ d.threads) : d.globalX t = t.blockIdxX := by
  have htx := (d.mem_threads.1 ht).2.2.1
  rw [hbx, PNat.one_coe, Nat.lt_one_iff] at htx
  simp [Dims.globalX, hbx, htx]

/-- With one thread along x per channel, a kernel that runs a grid-stride loop over the image
positions of channel `globalX` runs the loop body once for every channel and position. -/
theorem launch_channels_perm {β : Type*} (sh : Shape) {d : Dims} (hbx : d.blockDimX = 1)
    (hgx : (d.gridDimX : ℕ) = sh.channels) (kernel : Thread → List β) (body : ℕ → ℕ → List β)
    (hK : ∀ t ∈ d.threads, kernel t =
      (stridedRange (d.globalY t) d.strideY sh.inCstride).flatMap (body (d.globalX t))) :
    launch d kernel ~
      (range sh.channels).flatMap fun c => (range sh.inCstride).flatMap (body c) := by
  have hX : (d.strideX : ℕ) = sh.channels := by simp [Dims.strideX, hbx, hgx]
  refine (launch_perm d kernel
    (fun x y => (stridedRange y d.strideY sh.inCstride).flatMap (body x)) hK).trans ?_
  rw [hX]
  refine Perm.flatMap_left _ fun c _ => ?_
  rw [← flatMap_assoc]
  exact (flatMap_stridedRange_perm _ _).flatMap_right _

/-! ## Values -/

/-- The inference forward with estimated statistics at the `k`-th element of group `g`. -/
theorem Grouping.fwdInfer_est_elem (G : Grouping) (hest : a.estmeanvar = true) (out : ℕ → α)
    {g k : ℕ} (hg : g < G.count) (hk : k < G.size) :
    G.fwdInfer sqrt a out (G.elem g k) = a.scalePtr g * ((a.inPtr (G.elem g k) -
      a.estimatedMean g) * invVariance sqrt (a.estimatedVariance g) a.epsilon) + a.biasPtr g := by
  simp [Grouping.fwdInfer, G.elem_lt hg hk, hest, Grouping.normalize, G.groupOf_elem hg hk]

section Values

variable {sqrt a} (sh : Shape) (hest : a.estmeanvar = true)
  (hvar : ∀ g, 0 ≤ a.estimatedVariance g + a.epsilon) (out : ℕ → α)
include hest hvar

theorem bnFwdInferPerActivationPos_eq {c i : ℕ} (hc : c < sh.channels) (hi : i < sh.inCstride) :
    bnFwdInferPerActivationPos sqrt a sh.nBatchs sh.inCstride sh.inNstride c i =
      (range sh.nBatchs).map ((fun p => (p, miopenBNFwdInferPerActivationRunHost sqrt sh a out p)) ∘
        sh.perActivation.elem (sh.inCstride * c + i)) := by
  have hg : sh.inCstride * c + i < sh.perActivation.count := by
    rw [Shape.perActivation_count, sh.inNstride_eq]
    exact mul_add_lt hc hi
  refine map_congr_left fun n hn => ?_
  rw [Function.comp_apply, miopenBNFwdInferPerActivationRunHost_eq,
    Grouping.fwdInfer_est_elem sqrt a _ hest out hg (mem_range.1 hn), ← rsqrt_abs (hvar _)]
  simp [fma, Nat.mul_comm c]

theorem bnFwdInferSpatialPos_eq {c i : ℕ} (hc : c < sh.channels) (hi : i < sh.inCstride) :
    bnFwdInferSpatialPos sqrt a sh.nBatchs sh.inCstride sh.inNstride c i =
      (range sh.nBatchs).map fun n =>
        ((fun p => (p, miopenBNFwdInferSpatialRunHost false sqrt sh a out p)) ∘
          sh.spatial.elem c) (sh.nBatchs * i + n) := by
  refine map_congr_left fun n hn => ?_
  have hn' := mem_range.1 hn
  have hk : sh.nBatchs * i + n < sh.spatial.size := by
    rw [Shape.spatial_size]; exact mul_add_lt hi hn'
  have he : sh.spatial.elem c (sh.nBatchs * i + n) = n * sh.inNstride + c * sh.inCstride + i := by
    rw [Shape.spatial_elem, (mul_add_div_mod hn').1, (mul_add_div_mod hn').2]
    ring
  rw [Function.comp_apply, miopenBNFwdInferSpatialRunHost_eq,
    Grouping.fwdInfer_est_elem sqrt a _ hest out hc hk, ← rsqrt_abs (hvar _), he]
  rfl

end Values

/-- Both inference kernels, launched as `BatchNormForwardInferencGPU` launches them with any
number of threads along y, write every element of the tensor exactly once, with the value of the
host routine's estimated-statistics branch. -/
theorem bnFwdInfer_launch (sh : Shape) (hest : a.estmeanvar = true)
    (hvar : ∀ g, 0 ≤ a.estimatedVariance g + a.epsilon) (out : ℕ → α) (d : Dims)
    (hbx : d.blockDimX = 1) (hgx : (d.gridDimX : ℕ) = sh.channels) :
    bnFwdInferPerActivationLaunch sqrt a sh d ~
      (range sh.numel).map (fun p => (p, miopenBNFwdInferPerActivationRunHost sqrt sh a out p)) ∧
    bnFwdInferSpatialLaunch sqrt a sh d ~
      (range sh.numel).map
        (fun p => (p, miopenBNFwdInferSpatialRunHost false sqrt sh a out p)) := by
  constructor
  · refine (launch_channels_perm sh hbx hgx _ _ fun t ht => by
      rw [bnFwdInferPerActivation, globalX_eq_blockIdxX hbx ht]).trans
      ((Perm.of_eq ?_).trans (sh.perActivation.elems_perm.map _))
    have hC : sh.perActivation.count = sh.inCstride * sh.channels := by
      rw [Shape.perActivation_count, sh.inNstride_eq, Nat.mul_comm]
    rw [Grouping.elems, map_flatMap, hC, flatMap_range_mul]
    exact flatMap_congr fun c hc => flatMap_congr fun i hi => by
      rw [map_map, bnFwdInferPerActivationPos_eq sh hest hvar out (mem_range.1 hc) (mem_range.1 hi)]
      rfl
  · refine (launch_channels_perm sh hbx hgx _ _ fun t _ => rfl).trans
      ((Perm.of_eq ?_).trans (sh.spatial.elems_perm.map _))
    rw [Grouping.elems, map_flatMap]
    refine flatMap_congr fun c hc => ?_
    rw [map_map, Shape.spatial_size, Nat.mul_comm, map_range_mul]
    exact flatMap_congr fun i hi =>
      bnFwdInferSpatialPos_eq sh hest hvar out (mem_range.1 hc) (mem_range.1 hi)

/-- Two channels of `2×3` images, launched as the test launches them: one thread per channel along
x and one block of 256 threads along y. -/
theorem bnFwdInfer_launch_twoChannels :
    (⟨fun p => p, fun _ => 2, fun _ => 1, 1, true, fun _ => 0, fun _ => 3⟩ :
      InferArgs ℝ).estmeanvar = true ∧
    (∀ g, 0 ≤ (⟨fun p => p, fun _ => 2, fun _ => 1, 1, true, fun _ => 0, fun _ => 3⟩ :
      InferArgs ℝ).estimatedVariance g + 1) ∧
    (⟨1, 256, 2, 1⟩ : Dims).blockDimX = 1 ∧
    ((⟨1, 256, 2, 1⟩ : Dims).gridDimX : ℕ) = (⟨1, 2, 2, 3, by decide, by decide, by decide,
      by decide⟩ : Shape).channels ∧
    bnFwdInferPerActivationLaunch Real.sqrt ⟨fun p => p, fun _ => 2, fun _ => 1, 1, true,
        fun _ => 0, fun _ => 3⟩ ⟨1, 2, 2, 3, by decide, by decide, by decide, by decide⟩
        ⟨1, 256, 2, 1⟩ ~
      (range 12).map (fun p => (p, miopenBNFwdInferPerActivationRunHost Real.sqrt
        ⟨1, 2, 2, 3, by decide, by decide, by decide, by decide⟩
        ⟨fun p => p, fun _ => 2, fun _ => 1, 1, true, fun _ => 0, fun _ => 3⟩ (fun _ => 0) p)) ∧
    bnFwdInferSpatialLaunch Real.sqrt ⟨fun p => p, fun _ => 2, fun _ => 1, 1, true,
        fun _ => 0, fun _ => 3⟩ ⟨1, 2, 2, 3, by decide, by decide, by decide, by decide⟩
        ⟨1, 256, 2, 1⟩ ~
      (range 12).map (fun p => (p, miopenBNFwdInferSpatialRunHost false Real.sqrt
        ⟨1, 2, 2, 3, by decide, by decide, by decide, by decide⟩
        ⟨fun p => p, fun _ => 2, fun _ => 1, 1, true, fun _ => 0, fun _ => 3⟩ (fun _ => 0) p)) :=
  ⟨rfl, fun _ => by norm_num, rfl, rfl,
    bnFwdInfer_launch Real.sqrt _ _ rfl (fun _ => by norm_num) _ _ rfl rfl⟩

end MIOpen.BatchNorm
