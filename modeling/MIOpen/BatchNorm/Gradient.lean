import MIOpen.BatchNorm.Bwd

/-!
# The backward routines against the closed-form gradient

The per-activation routine computes `dx` as `(invVar/M)*(M*dxhat - (xhat*dxhathat + dxhat))` from
the group sums `dxhat = Σ scale*dy`: the term `M*dxhat` stands where the gradient has
`M*scale*dyᵢ`, so its `dx` is the gradient plus `invVar*scale*(Σdy - dyᵢ)`
(`perActivationDx_eq`). The spatial routine uses `dscale` after its division by `M` where the
gradient has the undivided sum, so its `dx` is the gradient plus
`scale*invVar*xhatᵢ*(Σ xhat*dy)*(M - 1)/M²` (`spatialDx_eq`). Both agree with the gradient for
groups of one element only.

Run on the statistics a training forward saved, either backward routine writes what it writes when
it recomputes them, provided the spatial routine's `dscale`/`dbias` buffers start at zero.
-/

namespace MIOpen.BatchNorm

open Finset

/-! ## Against the closed form -/

section ClosedForm

variable {α : Type*} [Field α] [CharZero α] (G : Grouping) (a : BwdArgs α) (mean invVar : ℕ → α)

theorem Grouping.size_ne_zero : (G.size : α) ≠ 0 := Nat.cast_ne_zero.2 G.size_pos.ne'

/-- The per-activation `dx` is the closed-form gradient plus `invVar*scale*(Σdy - dyᵢ)`. -/
theorem perActivationDx_eq (p : ℕ) :
    G.perActivationDx a mean invVar p = G.bwdGrad a.xPtr a.dyPtr a.scalePtr mean invVar p +
      invVar (G.groupOf p) * a.scalePtr (G.groupOf p) *
        (G.sum a.dyPtr (G.groupOf p) - a.dyPtr p) := by
  have hM : (G.size : α) ≠ 0 := G.size_ne_zero
  set g := G.groupOf p
  have hdxhat : G.sum (fun q => a.scalePtr g * a.dyPtr q) g = a.scalePtr g * G.sum a.dyPtr g :=
    G.sum_mul_left _ _ _
  have hdxhathat : G.sum (fun q => a.scalePtr g * a.dyPtr q * ((a.xPtr q - mean g) * invVar g)) g =
      a.scalePtr g * G.sum (fun q => (a.xPtr q - mean g) * invVar g * a.dyPtr q) g := by
    rw [← G.sum_mul_left]
    exact congrArg₂ _ (funext fun q => by ring) rfl
  simp only [Grouping.perActivationDx, Grouping.bwdGrad, hdxhat, hdxhathat]
  linear_combination (a.scalePtr g * (G.sum a.dyPtr g - a.dyPtr p)) * div_mul_cancel₀ (invVar g) hM

/-- With `dscale`/`dbias` accumulated from zero, the spatial `dx` is the closed-form gradient plus
`scale*invVar*xhatᵢ*(Σ xhat*dy)*(M - 1)/M²`. -/
theorem spatialDx_eq (p : ℕ) :
    let g := G.groupOf p
    let xhat := fun q => (a.xPtr q - mean g) * invVar g
    G.spatialDx a mean invVar (G.dscaleSum a mean invVar 0) (G.dbiasSum a 0) p =
      G.bwdGrad a.xPtr a.dyPtr a.scalePtr mean invVar p + a.scalePtr g * invVar g * xhat p *
        G.sum (fun q => xhat q * a.dyPtr q) g * (G.size - 1) / G.size ^ 2 := by
  intro g xhat
  have hM : (G.size : α) ≠ 0 := G.size_ne_zero
  simp only [Grouping.spatialDx, Grouping.bwdGrad, Grouping.dscaleSum, Grouping.dbiasSum, zero_add]
  linear_combination (-(a.scalePtr g * invVar g * xhat p *
    G.sum (fun q => xhat q * a.dyPtr q) g / G.size)) * mul_inv_cancel₀ hM

end ClosedForm

/-! ## A group of two elements

`N = 2`, `C = H = W = 1`, `x = (0, 2)`, `dy = (1, 0)`, `scale = 1`, `epsilon = 3`: the group has
mean 1, variance 1 and `invVar = 1/2`, and the closed-form gradient at the second element is
`-3/16`. -/

/-- `N = 2`, `C = H = W = 1`. -/
def pairShape : Shape := ⟨2, 1, 1, 1, by decide, by decide, by decide, by decide⟩

/-- `x = (0, 2)`, `dy = (1, 0)`, `scale = 1`, `epsilon = 3`, statistics recomputed. -/
def pairBwdArgs : BwdArgs ℝ :=
  ⟨fun i => if i = 1 then 2 else 0, fun i => if i = 0 then 1 else 0, fun _ => 1, 3, false,
    fun _ => 0, fun _ => 0⟩

/-- Gradient buffers holding zero. -/
def zeroBwdBufs : BwdBufs ℝ := ⟨fun _ => 0, fun _ => 0, fun _ => 0⟩

/-- The training forward on the same `x` with `scale = 1`, `bias = 0`, `epsilon = 3`, saving its
statistics. -/
def pairTrainArgs : TrainArgs ℝ :=
  ⟨fun i => if i = 1 then 2 else 0, fun _ => 1, fun _ => 0, 3, true, false, 0⟩

/-- Forward buffers holding zero. -/
def zeroTrainBufs : TrainBufs ℝ := ⟨fun _ => 0, fun _ => 0, fun _ => 0, fun _ => 0, fun _ => 0⟩

theorem sqrt_four : Real.sqrt 4 = 2 := by
  rw [show (4 : ℝ) = 2 ^ 2 by norm_num, Real.sqrt_sq (by norm_num)]

/-! Both groupings of `pairShape` have the one group `{0, 1}`: its statistics and the closed-form
gradient follow from that alone, and the two routines' `dx` at element `1` is that gradient plus
the excess term of `perActivationDx_eq` or `spatialDx_eq`. -/

section PairGroup

variable {G : Grouping} (hsize : G.size = 2) (hsum : ∀ f : ℕ → ℝ, G.sum f 0 = f 0 + f 1)
  (hg : G.groupOf 1 = 0)
include hsize hsum

/-- The group's mean of `x = (0, 2)`. -/
theorem pair_mean : G.mean (fun i => if i = 1 then (2 : ℝ) else 0) 0 = 1 := by
  simp only [Grouping.mean, hsum, hsize]
  norm_num

theorem pair_variance : G.variance (fun i => if i = 1 then (2 : ℝ) else 0) 0 = 1 := by
  simp only [Grouping.variance, pair_mean hsize hsum, hsum, hsize]
  norm_num

theorem pair_bwdMean : G.bwdMean pairBwdArgs 0 = 1 := pair_mean hsize hsum

theorem pair_bwdInvVar : G.bwdInvVar Real.sqrt pairBwdArgs 0 = 1 / 2 := by
  simp only [Grouping.bwdInvVar, pairBwdArgs, Bool.false_eq_true, ↓reduceIte,
    pair_variance hsize hsum, invVariance]
  norm_num [sqrt_four]

include hg

theorem pair_bwdGrad : G.bwdGrad pairBwdArgs.xPtr pairBwdArgs.dyPtr pairBwdArgs.scalePtr
    (G.bwdMean pairBwdArgs) (G.bwdInvVar Real.sqrt pairBwdArgs) 1 = -3 / 16 := by
  simp only [Grouping.bwdGrad, hg, hsum, hsize, pair_bwdMean hsize hsum, pair_bwdInvVar hsize hsum]
  norm_num [pairBwdArgs]

theorem pair_perActivationDx : G.perActivationDx pairBwdArgs (G.bwdMean pairBwdArgs)
    (G.bwdInvVar Real.sqrt pairBwdArgs) 1 = 5 / 16 := by
  rw [perActivationDx_eq, pair_bwdGrad hsize hsum hg, hg, pair_bwdInvVar hsize hsum, hsum]
  norm_num [pairBwdArgs]

theorem pair_spatialDx : G.spatialDx pairBwdArgs (G.bwdMean pairBwdArgs)
    (G.bwdInvVar Real.sqrt pairBwdArgs)
    (G.dscaleSum pairBwdArgs (G.bwdMean pairBwdArgs) (G.bwdInvVar Real.sqrt pairBwdArgs) 0)
    (G.dbiasSum pairBwdArgs 0) 1 = -7 / 32 := by
  refine (spatialDx_eq G pairBwdArgs _ _ 1).trans ?_
  simp only [pair_bwdGrad hsize hsum hg, hg, hsum, hsize, pair_bwdMean hsize hsum,
    pair_bwdInvVar hsize hsum]
  norm_num [pairBwdArgs]

end PairGroup

theorem pair_perActivation_sum (f : ℕ → ℝ) : pairShape.perActivation.sum f 0 = f 0 + f 1 := by
  simp [Grouping.sum, sum_range_succ, pairShape, Shape.inNstride]

theorem pair_spatial_sum (f : ℕ → ℝ) : pairShape.spatial.sum f 0 = f 0 + f 1 := by
  simp [Grouping.sum, sum_range_succ, pairShape, Shape.inNstride, Shape.inCstride]

theorem pair_perActivation_dx :
    (miopenBNBwdPerActivationRunHost Real.sqrt pairShape pairBwdArgs zeroBwdBufs).dxPtr 1 =
      5 / 16 := by
  rw [miopenBNBwdPerActivationRunHost_eq, Grouping.perActivationBwd]
  dsimp only
  rw [if_pos (show 1 < pairShape.perActivation.numel by decide)]
  exact pair_perActivationDx (rfl : pairShape.perActivation.size = 2) pair_perActivation_sum rfl

theorem pair_spatial_dx :
    (miopenBNBwdSpatialRunHost false Real.sqrt pairShape pairBwdArgs zeroBwdBufs).dxPtr 1 =
      -7 / 32 := by
  rw [miopenBNBwdSpatialRunHost_eq, Grouping.spatialBwd]
  dsimp only
  rw [if_pos (show 1 < pairShape.spatial.numel by decide)]
  exact pair_spatialDx (rfl : pairShape.spatial.size = 2) pair_spatial_sum rfl

/-- Both backward routines miss the closed-form gradient `-3/16` at the second element. -/
theorem bwd_dx_ne_closedForm :
    (miopenBNBwdPerActivationRunHost Real.sqrt pairShape pairBwdArgs zeroBwdBufs).dxPtr 1 = 5 / 16 ∧
    (miopenBNBwdSpatialRunHost false Real.sqrt pairShape pairBwdArgs zeroBwdBufs).dxPtr 1 =
      -7 / 32 ∧
    pairShape.perActivation.bwdGrad pairBwdArgs.xPtr pairBwdArgs.dyPtr pairBwdArgs.scalePtr
      (pairShape.perActivation.bwdMean pairBwdArgs)
      (pairShape.perActivation.bwdInvVar Real.sqrt pairBwdArgs) 1 = -3 / 16 ∧
    pairShape.spatial.bwdGrad pairBwdArgs.xPtr pairBwdArgs.dyPtr pairBwdArgs.scalePtr
      (pairShape.spatial.bwdMean pairBwdArgs)
      (pairShape.spatial.bwdInvVar Real.sqrt pairBwdArgs) 1 =
      -3 / 16 :=
  ⟨pair_perActivation_dx, pair_spatial_dx, pair_bwdGrad (rfl : pairShape.perActivation.size = 2)
    pair_perActivation_sum rfl,
    pair_bwdGrad (rfl : pairShape.spatial.size = 2) pair_spatial_sum rfl⟩

/-- The two backward routines write different `dx` on a shape with `H = W = 1`. -/
theorem bwd_perActivation_ne_spatial :
    (miopenBNBwdPerActivationRunHost Real.sqrt pairShape pairBwdArgs zeroBwdBufs).dxPtr 1 ≠
      (miopenBNBwdSpatialRunHost false Real.sqrt pairShape pairBwdArgs zeroBwdBufs).dxPtr 1 := by
  rw [pair_perActivation_dx, pair_spatial_dx]
  norm_num

/-- The per-activation routine adds `dbias` onto what the buffer held: entries `0` and `1` on
entry give `1` and `2`. -/
theorem bwdPerActivation_dbias_reads_entry :
    (miopenBNBwdPerActivationRunHost Real.sqrt pairShape pairBwdArgs zeroBwdBufs).dbiasPtr 0 = 1 ∧
    (miopenBNBwdPerActivationRunHost Real.sqrt pairShape pairBwdArgs
      { zeroBwdBufs with dbiasPtr := fun _ => 1 }).dbiasPtr 0 = 2 := by
  simp only [miopenBNBwdPerActivationRunHost_eq]
  simp [Grouping.perActivationBwd, Grouping.dbiasSum, Grouping.sum, sum_range_succ, pairShape,
    pairBwdArgs, zeroBwdBufs, Shape.inNstride]
  norm_num

/-! ## Saved statistics against recomputed ones -/

section Saved

variable {α : Type*} [Field α] (G : Grouping)

/-- The per-activation description reads the statistics of the groups below `count` only. -/
theorem perActivationBwd_congr (a : BwdArgs α) {M M' I I' : ℕ → α}
    (hM : ∀ g < G.count, M g = M' g) (hI : ∀ g < G.count, I g = I' g) (b : BwdBufs α) :
    G.perActivationBwd a M I b = G.perActivationBwd a M' I' b := by
  ext p
  · simp only [Grouping.perActivationBwd]
    split_ifs with hp
    · simp only [Grouping.perActivationDx, hM _ (G.groupOf_lt hp), hI _ (G.groupOf_lt hp)]
    · rfl
  · simp only [Grouping.perActivationBwd]
    split_ifs with hg
    · simp only [Grouping.dscaleSum, hM _ hg, hI _ hg]
    · rfl
  · rfl

/-- The spatial description reads the statistics of the groups below `count` only, and when the
gradient buffers hold zero it does not matter whether they are zeroed first. -/
theorem spatialBwd_congr (a : BwdArgs α) {M M' I I' : ℕ → α}
    (hM : ∀ g < G.count, M g = M' g) (hI : ∀ g < G.count, I g = I' g) (z z' : Bool)
    (b : BwdBufs α) (hdscale : b.dscalePtr = 0) (hdbias : b.dbiasPtr = 0) :
    G.spatialBwd a M I z b = G.spatialBwd a M' I' z' b := by
  obtain ⟨dx, ds, db⟩ := b
  obtain rfl : ds = 0 := hdscale
  obtain rfl : db = 0 := hdbias
  ext p
  · simp only [Grouping.spatialBwd, Pi.zero_apply, ite_self]
    split_ifs with hp
    · simp only [Grouping.spatialDx, Grouping.dscaleSum, Grouping.dbiasSum, hM _ (G.groupOf_lt hp),
        hI _ (G.groupOf_lt hp)]
    · rfl
  · simp only [Grouping.spatialBwd, Pi.zero_apply, ite_self]
    split_ifs with hg
    · simp only [Grouping.dscaleSum, hM _ hg, hI _ hg]
    · rfl
  · simp only [Grouping.spatialBwd, Pi.zero_apply, ite_self]

/-- The backward arguments for `x = in_ptr`, `dy`, `scale` and `epsilon` of a training forward,
with the statistics that forward left in `f`. -/
def bwdArgsOf (a : TrainArgs α) (dy scale : ℕ → α) (savedmeanvar : Bool) (f : TrainBufs α) :
    BwdArgs α :=
  ⟨a.inPtr, dy, scale, a.epsilon, savedmeanvar, f.saveMean, f.saveInvVariance⟩

/-- The statistics a training forward saved are those the backward recomputes. -/
theorem fwdTrain_saved_stats (sqrt : α → α) (a : TrainArgs α) (hsave : a.savemeanvar = true)
    (dy scale : ℕ → α) (fb : TrainBufs α) :
    (∀ g < G.count, G.bwdMean (bwdArgsOf a dy scale true (G.fwdTrain sqrt a fb)) g =
      G.bwdMean (bwdArgsOf a dy scale false (G.fwdTrain sqrt a fb)) g) ∧
    (∀ g < G.count, G.bwdInvVar sqrt (bwdArgsOf a dy scale true (G.fwdTrain sqrt a fb)) g =
      G.bwdInvVar sqrt (bwdArgsOf a dy scale false (G.fwdTrain sqrt a fb)) g) :=
  ⟨fun g hg => by simp [Grouping.bwdMean, bwdArgsOf, Grouping.fwdTrain, hsave, hg],
    fun g hg => by simp [Grouping.bwdInvVar, bwdArgsOf, Grouping.fwdTrain, hsave, hg]⟩

end Saved

/-- With exact indices, run on the statistics the matching training forward saved, each backward
routine writes what it writes when it recomputes them, the gradient buffers zero on entry. -/
theorem bwd_saved_eq_recompute {α : Type*} [Field α] (sqrt : α → α) (sh : Shape) (a : TrainArgs α)
    (hsave : a.savemeanvar = true) (dy scale : ℕ → α) (fb : TrainBufs α) (b : BwdBufs α)
    (hdscale : b.dscalePtr = 0) (hdbias : b.dbiasPtr = 0) :
    miopenBNBwdPerActivationRunHost sqrt sh
        (bwdArgsOf a dy scale true (miopenBNFwdTrainPerActivationRunHost sqrt sh a fb)) b =
      miopenBNBwdPerActivationRunHost sqrt sh
        (bwdArgsOf a dy scale false (miopenBNFwdTrainPerActivationRunHost sqrt sh a fb)) b ∧
    miopenBNBwdSpatialRunHost false sqrt sh
        (bwdArgsOf a dy scale true (miopenBNFwdTrainSpatialRunHost false sqrt sh a fb)) b =
      miopenBNBwdSpatialRunHost false sqrt sh
        (bwdArgsOf a dy scale false (miopenBNFwdTrainSpatialRunHost false sqrt sh a fb)) b := by
  simp only [miopenBNFwdTrainPerActivationRunHost_eq, miopenBNFwdTrainSpatialRunHost_eq,
    miopenBNBwdPerActivationRunHost_eq, miopenBNBwdSpatialRunHost_eq]
  obtain ⟨hMp, hIp⟩ := fwdTrain_saved_stats sh.perActivation sqrt a hsave dy scale fb
  obtain ⟨hMs, hIs⟩ := fwdTrain_saved_stats sh.spatial sqrt a hsave dy scale fb
  exact ⟨perActivationBwd_congr _ _ hMp hIp b,
    spatialBwd_congr _ _ hMs hIs _ _ b hdscale hdbias⟩

end MIOpen.BatchNorm
