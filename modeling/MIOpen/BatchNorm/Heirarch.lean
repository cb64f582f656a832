import MIOpen.BatchNorm.Gradient

/-!
# The `MIO_HEIRARCH_SEL == 1` builds of the spatial routines

The blocked variance pass of `miopenBNFwdTrainSpatialRunHost` accumulates `(x - mean)²` into its
partial sums but, unlike the plain pass, never writes `x - mean` into the `out` scratchpad, while
the normalization pass that follows reads `out` back as `x - mean`. Its statistics are the plain
ones (`blockedAccum_guarded`), so the blocked build writes
`out = scale*(invVar*out₀) + bias` from whatever `out₀` held on entry
(`miopenBNFwdTrainSpatialRunHost_heirarch_outPtr`), and differs from the plain build as soon as
`out₀` is not `x - mean`.

The blocked inference and backward builds keep the plain passes' data flow; only their loops run
over the positions below `blockedBound`. The inference build guards nothing and the backward
build's `dx` pass guards only `index < in_nstride*n_batchs`, so both read and write past a channel
whenever `MIO_BN_DIST` does not divide `H*W`. When it does, the blocks tile the channel and each
build writes what its plain build writes (`miopenBNFwdInferSpatialRunHost_heirarch`,
`miopenBNBwdSpatialRunHost_heirarch`); the backward build's `dscale` and `dbias` accumulations are
guarded by `imgIndex < in_cstride` and agree with the plain build on every shape.
-/

namespace MIOpen.BatchNorm

open Finset

variable {α : Type*} [Field α] (sqrt : α → α) (sh : Shape) (a : TrainArgs α)

theorem fwdTrainSpatialStep_heirarch_outPtr (b : TrainBufs α) {c : ℕ} (hc : c < sh.channels)
    (p : ℕ) :
    (fwdTrainSpatialStep true sqrt sh a c b).outPtr p =
      if p < sh.spatial.numel ∧ sh.spatial.groupOf p = c then
        a.scalePtr (sh.spatial.groupOf p) * (invVariance sqrt
          (sh.spatial.variance a.inPtr (sh.spatial.groupOf p)) a.epsilon * b.outPtr p) +
            a.biasPtr (sh.spatial.groupOf p)
      else b.outPtr p := by
  have hmean : blockedAccum sh true (fun imgIndex bidx =>
      a.inPtr (sh.inNstride * bidx + (sh.inCstride * c + imgIndex))) =
        sh.spatial.sum a.inPtr c := by
    rw [blockedAccum_guarded, Shape.spatial_sum]
  have hvar : ∀ m : α, blockedAccum sh true (fun imgIndex bidx =>
      (a.inPtr (sh.inNstride * bidx + (sh.inCstride * c + imgIndex)) - m) *
        (a.inPtr (sh.inNstride * bidx + (sh.inCstride * c + imgIndex)) - m)) =
      sh.spatial.sum (fun q => (a.inPtr q - m) * (a.inPtr q - m)) c := fun m => by
    rw [blockedAccum_guarded, Shape.spatial_sum]
  simp only [fwdTrainSpatialStep, ↓reduceIte, hmean, hvar, fwdTrainSpatialNormPass_apply sh _ _ hc]
  split_ifs with h
  · rw [h.2]
    rfl
  · rfl

/-- The blocked training build normalizes what `out` held on entry instead of `x - mean`. -/
theorem miopenBNFwdTrainSpatialRunHost_heirarch_outPtr (b : TrainBufs α) (p : ℕ) :
    (miopenBNFwdTrainSpatialRunHost true sqrt sh a b).outPtr p =
      if p < sh.spatial.numel then
        a.scalePtr (sh.spatial.groupOf p) * (invVariance sqrt
          (sh.spatial.variance a.inPtr (sh.spatial.groupOf p)) a.epsilon * b.outPtr p) +
            a.biasPtr (sh.spatial.groupOf p)
      else b.outPtr p :=
  sh.spatial.fold_groups (fun p (b : TrainBufs α) => b.outPtr p)
    (fun p v => a.scalePtr (sh.spatial.groupOf p) * (invVariance sqrt
      (sh.spatial.variance a.inPtr (sh.spatial.groupOf p)) a.epsilon * v) +
        a.biasPtr (sh.spatial.groupOf p)) _
    (fun _ hg p s => fwdTrainSpatialStep_heirarch_outPtr sqrt sh a s hg p) p b

/-- With `out` zero on entry, the blocked build writes `bias = 0` where the plain build writes
`1/2`. -/
theorem fwdTrainSpatial_heirarch_ne :
    (miopenBNFwdTrainSpatialRunHost true Real.sqrt pairShape pairTrainArgs zeroTrainBufs).outPtr 1 =
      0 ∧
    (miopenBNFwdTrainSpatialRunHost false Real.sqrt pairShape pairTrainArgs
      zeroTrainBufs).outPtr 1 =
      1 / 2 := by
  rw [miopenBNFwdTrainSpatialRunHost_heirarch_outPtr, miopenBNFwdTrainSpatialRunHost_eq]
  constructor
  · simp [pairShape, pairTrainArgs, zeroTrainBufs, Shape.numel, Shape.inNstride]
  · have hx := pair_variance (rfl : pairShape.spatial.size = 2) pair_spatial_sum
    simp only [Grouping.fwdTrain, Grouping.batchNormalize, Grouping.normalize, invVariance,
      pairTrainArgs, if_pos (show 1 < pairShape.spatial.numel by decide),
      show pairShape.spatial.groupOf 1 = 0 from rfl, hx,
      pair_mean (rfl : pairShape.spatial.size = 2) pair_spatial_sum]
    norm_num [sqrt_four]

/-! ## The inference build -/

section InferBlocked

variable (x : ℕ → α) (c : ℕ) (mean : α) (out : ℕ → α)

/-- The blocked variance pass sums the squares of every position below `blockedBound`. -/
theorem fwdInferSpatialBlockedVarPass_snd :
    (fwdInferSpatialBlockedVarPass sh x c mean out).2 = ∑ j ∈ range (blockedBound sh),
      ∑ b ∈ range sh.nBatchs, (x (sh.inNstride * b + (sh.inCstride * c + j)) - mean) *
        (x (sh.inNstride * b + (sh.inCstride * c + j)) - mean) := by
  rw [fwdInferSpatialBlockedVarPass, fold_add_eq_sum, zero_add, blockedLoop_eq]
  refine (fold_acc (fun st : (ℕ → α) × (ℕ → α) => ∑ i ∈ range mioBnDist, st.2 i) _
    (fun j _ st => fold_acc (fun st : (ℕ → α) × (ℕ → α) => ∑ i ∈ range mioBnDist, st.2 i) _
      (fun b _ st => sum_update_add (mem_range.2 (Nat.mod_lt j mioBnDist.pos)) st.2 _) st)
    _).trans (by simp only [sum_const_zero, zero_add])

/-- The blocked variance pass writes its scratch at every position below `blockedBound`. -/
theorem fwdInferSpatialBlockedVarPass_fst :
    (fwdInferSpatialBlockedVarPass sh x c mean out).1 = Nat.fold (fun j => Nat.fold (fun b out =>
      Function.update out (sh.inNstride * b + (sh.inCstride * c + j))
        (x (sh.inNstride * b + (sh.inCstride * c + j)) - mean)) sh.nBatchs)
      (blockedBound sh) out := by
  rw [fwdInferSpatialBlockedVarPass, blockedLoop_eq]
  exact fold_map Prod.fst (fun j st => fold_map Prod.fst (fun b st => rfl) _ st) _ _

theorem fwdInferSpatialVarPass_fst_eq :
    (fwdInferSpatialVarPass sh x c mean out).1 = Nat.fold (fun j => Nat.fold (fun b out =>
      Function.update out (sh.inNstride * b + (sh.inCstride * c + j))
        (x (sh.inNstride * b + (sh.inCstride * c + j)) - mean)) sh.nBatchs) sh.inCstride out := by
  rw [fwdInferSpatialVarPass, imageLoop_eq]
  exact fold_map Prod.fst (fun j st => fold_map Prod.fst (fun b st => rfl) _ st) _ _

/-- When `MIO_BN_DIST` divides `H*W` the blocked variance pass is the plain one. -/
theorem fwdInferSpatialBlockedVarPass_eq (h : (mioBnDist : ℕ) ∣ sh.inCstride) :
    fwdInferSpatialBlockedVarPass sh x c mean out = fwdInferSpatialVarPass sh x c mean out := by
  refine Prod.ext ?_ ?_
  · rw [fwdInferSpatialBlockedVarPass_fst, fwdInferSpatialVarPass_fst_eq, blockedBound_of_dvd h]
  · rw [fwdInferSpatialBlockedVarPass_snd, fwdInferSpatialVarPass_snd, blockedBound_of_dvd h,
      Shape.spatial_sum]

end InferBlocked

theorem fwdInferSpatialStep_heirarch (a : InferArgs α) (h : (mioBnDist : ℕ) ∣ sh.inCstride)
    (c : ℕ) (out : ℕ → α) :
    fwdInferSpatialStep true sqrt sh a c out = fwdInferSpatialStep false sqrt sh a c out := by
  have hmean : blockedAccum sh false (fun j b =>
      a.inPtr (sh.inNstride * b + (sh.inCstride * c + j))) = spatialMeanAccum sh a.inPtr c := by
    rw [blockedAccum_eq, blockedBound_of_dvd h, spatialMeanAccum_eq, Shape.spatial_sum]
    simp
  simp only [fwdInferSpatialStep, ↓reduceIte, Bool.false_eq_true, hmean,
    fwdInferSpatialBlockedVarPass_eq sh _ _ _ _ h]

/-- When `MIO_BN_DIST` divides `H*W`, the blocked inference build writes what the plain build
writes. -/
theorem miopenBNFwdInferSpatialRunHost_heirarch (a : InferArgs α) (out : ℕ → α)
    (h : (mioBnDist : ℕ) ∣ sh.inCstride) :
    miopenBNFwdInferSpatialRunHost true sqrt sh a out =
      miopenBNFwdInferSpatialRunHost false sqrt sh a out := by
  unfold miopenBNFwdInferSpatialRunHost
  split_ifs
  · rfl
  · exact fold_congr (fun c _ => funext (fwdInferSpatialStep_heirarch sqrt sh a h c)) out

/-- Two batches of two channels of `4×8` positions: one block of `MIO_BN_DIST` per channel. -/
def blockShape : Shape := ⟨2, 2, 4, 8, by decide, by decide, by decide, by decide⟩

theorem miopenBNFwdInferSpatialRunHost_heirarch_block :
    (mioBnDist : ℕ) ∣ blockShape.inCstride ∧
      miopenBNFwdInferSpatialRunHost true (id : ℚ → ℚ) blockShape
          (⟨fun i => i, fun _ => 1, fun _ => 0, 1, false, fun _ => 0, fun _ => 1⟩ : InferArgs ℚ)
          (fun _ => 0) =
        miopenBNFwdInferSpatialRunHost false (id : ℚ → ℚ) blockShape
          ⟨fun i => i, fun _ => 1, fun _ => 0, 1, false, fun _ => 0, fun _ => 1⟩ (fun _ => 0) :=
  ⟨by decide, miopenBNFwdInferSpatialRunHost_heirarch id blockShape _ _ (by decide)⟩

/-! ## The backward build -/

section BwdBlocked

variable (a : BwdArgs α)

/-- The backward routine's blocked accumulation, guarded inside the batch loop, is the plain sum
over the channel. -/
theorem blockedAccumInner_eq (term : ℕ → ℕ → α) :
    blockedAccumInner sh term = ∑ j ∈ range sh.inCstride, ∑ b ∈ range sh.nBatchs, term j b := by
  rw [blockedAccumInner, fold_add_eq_sum, zero_add, blockedLoop_eq]
  refine (fold_acc (fun arr : ℕ → α => ∑ i ∈ range mioBnDist, arr i) (fun j =>
    if j < sh.inCstride then ∑ b ∈ range sh.nBatchs, term j b else 0)
    (fun j _ arr => ?_) _).trans ?_
  · dsimp only
    split_ifs with hj
    · exact fold_acc (fun arr : ℕ → α => ∑ i ∈ range mioBnDist, arr i) (term j)
        (fun b _ arr => sum_update_add (mem_range.2 (Nat.mod_lt j mioBnDist.pos)) arr _) arr
    · exact (fold_frame (fun arr : ℕ → α => ∑ i ∈ range mioBnDist, arr i)
        (fun b _ arr => rfl) arr).trans (add_zero _).symm
  · rw [sum_range_ite_lt (le_blockedBound sh), sum_const_zero, zero_add]

theorem bwdSpatialBlockedStep_dbiasPtr (c : ℕ) (b : BwdBufs α) (j : ℕ) :
    (bwdSpatialBlockedStep sqrt sh a c b).dbiasPtr j =
      if j = c then sh.spatial.dbiasSum a 0 j else b.dbiasPtr j := by
  simp only [bwdSpatialBlockedStep, Function.update_apply, blockedAccumInner_eq]
  split_ifs with h
  · subst h
    simp only [Grouping.dbiasSum, zero_add, Shape.spatial_sum]
  · rfl

theorem bwdSpatialBlockedStep_dscalePtr (c : ℕ) (b : BwdBufs α) (j : ℕ) :
    (bwdSpatialBlockedStep sqrt sh a c b).dscalePtr j =
      if j = c then sh.spatial.dscaleSum a (sh.spatial.mean a.xPtr)
        (fun g => 1 / sqrt (sh.spatial.variance a.xPtr g + a.epsilon)) 0 j
      else b.dscalePtr j := by
  rcases eq_or_ne j c with rfl | h
  · simp only [bwdSpatialBlockedStep, Function.update_same, if_true, blockedAccumInner_eq,
      blockedAccum_guarded, Grouping.dscaleSum, Grouping.variance, Grouping.mean, zero_add,
      Shape.spatial_sum, spatial_NHW]
  · rw [if_neg h]
    exact Function.update_noteq h _ _

/-- When `MIO_BN_DIST` divides `H*W`, every index the blocked `dx` pass forms lies in the tensor and
the pass is the plain one. -/
theorem bwdSpatialBlockedDxPass_eq (h : (mioBnDist : ℕ) ∣ sh.inCstride) {c : ℕ}
    (hc : c < sh.channels) (mean invVar dscale dbias : α) (dx : ℕ → α) :
    bwdSpatialBlockedDxPass sh a c mean invVar dscale dbias dx =
      bwdSpatialDxPass sh a c mean invVar dscale dbias dx := by
  simp only [bwdSpatialBlockedDxPass, bwdSpatialDxPass]
  rw [blockedLoop_eq, blockedBound_of_dvd h, imageLoop_eq]
  refine fold_congr (fun j hj => funext fun dx => fold_congr (fun b hb => funext fun dx =>
    if_pos ?_) dx) dx
  have hr : sh.inCstride * c + j < sh.inNstride := by
    rw [sh.inNstride_eq]; exact mul_add_lt hc hj
  exact (mul_add_lt hb hr).trans_eq (Nat.mul_comm _ _)

theorem bwdSpatialBlockedStep_dxPtr (h : (mioBnDist : ℕ) ∣ sh.inCstride) {c : ℕ}
    (hc : c < sh.channels) (b : BwdBufs α) (p : ℕ) :
    (bwdSpatialBlockedStep sqrt sh a c b).dxPtr p =
      if p < sh.spatial.numel ∧ sh.spatial.groupOf p = c then
        let M := sh.spatial.mean a.xPtr
        let I := fun g => 1 / sqrt (sh.spatial.variance a.xPtr g + a.epsilon)
        sh.spatial.spatialDx a M I (sh.spatial.dscaleSum a M I 0) (sh.spatial.dbiasSum a 0) p
      else b.dxPtr p := by
  simp only [bwdSpatialBlockedStep]
  rw [bwdSpatialBlockedDxPass_eq sh a h hc, bwdSpatialDxPass_apply sh a hc]
  split_ifs with hp
  · simp only [Grouping.spatialDx, hp.2, blockedAccumInner_eq, blockedAccum_guarded,
      Grouping.dscaleSum, Grouping.dbiasSum, Grouping.variance, Grouping.mean, Shape.spatial_sum,
      spatial_NHW, zero_add, neg_mul]
  · rfl

section Run

variable (b : BwdBufs α)

/-! The blocked build, recomputing the statistics, writes the closed form of the plain build:
`dscale` and `dbias` always, `dx` when `MIO_BN_DIST` divides `H*W`. -/

theorem bwdSpatialBlockedRun_dscalePtr :
    (Nat.fold (bwdSpatialBlockedStep sqrt sh a) sh.channels b).dscalePtr =
      (sh.spatial.spatialBwd a (sh.spatial.mean a.xPtr)
        (fun g => 1 / sqrt (sh.spatial.variance a.xPtr g + a.epsilon)) true b).dscalePtr :=
  funext fun j => fold_update (fun j (s : BwdBufs α) => s.dscalePtr j)
    (fun j _ => sh.spatial.dscaleSum a (sh.spatial.mean a.xPtr)
      (fun g => 1 / sqrt (sh.spatial.variance a.xPtr g + a.epsilon)) 0 j)
    (fun i _ j s => bwdSpatialBlockedStep_dscalePtr sqrt sh a i s j) j b

theorem bwdSpatialBlockedRun_dbiasPtr :
    (Nat.fold (bwdSpatialBlockedStep sqrt sh a) sh.channels b).dbiasPtr =
      (sh.spatial.spatialBwd a (sh.spatial.mean a.xPtr)
        (fun g => 1 / sqrt (sh.spatial.variance a.xPtr g + a.epsilon)) true b).dbiasPtr :=
  funext fun j => fold_update (fun j (s : BwdBufs α) => s.dbiasPtr j)
    (fun j _ => sh.spatial.dbiasSum a 0 j)
    (fun i _ j s => bwdSpatialBlockedStep_dbiasPtr sqrt sh a i s j) j b

theorem bwdSpatialBlockedRun_dxPtr (h : (mioBnDist : ℕ) ∣ sh.inCstride) :
    (Nat.fold (bwdSpatialBlockedStep sqrt sh a) sh.channels b).dxPtr =
      (sh.spatial.spatialBwd a (sh.spatial.mean a.xPtr)
        (fun g => 1 / sqrt (sh.spatial.variance a.xPtr g + a.epsilon)) true b).dxPtr :=
  let M := sh.spatial.mean a.xPtr
  let I := fun g => 1 / sqrt (sh.spatial.variance a.xPtr g + a.epsilon)
  funext fun p => sh.spatial.fold_groups (fun p (s : BwdBufs α) => s.dxPtr p)
    (fun p _ => sh.spatial.spatialDx a M I (sh.spatial.dscaleSum a M I 0) (sh.spatial.dbiasSum a 0)
      p) _ (fun _ hg p s => bwdSpatialBlockedStep_dxPtr sqrt sh a h hg s p) p b

/-- The blocked backward build writes the plain build's `dscale` and `dbias` for every shape, and
its `dx` as well when `MIO_BN_DIST` divides `H*W`. -/
theorem miopenBNBwdSpatialRunHost_heirarch :
    (miopenBNBwdSpatialRunHost true sqrt sh a b).dscalePtr =
      (miopenBNBwdSpatialRunHost false sqrt sh a b).dscalePtr ∧
    (miopenBNBwdSpatialRunHost true sqrt sh a b).dbiasPtr =
      (miopenBNBwdSpatialRunHost false sqrt sh a b).dbiasPtr ∧
    ((mioBnDist : ℕ) ∣ sh.inCstride →
      miopenBNBwdSpatialRunHost true sqrt sh a b =
        miopenBNBwdSpatialRunHost false sqrt sh a b) := by
  cases hs : a.savedmeanvar
  · rw [miopenBNBwdSpatialRunHost_eq, Grouping.bwdMean, Grouping.bwdInvVar, hs]
    simp only [miopenBNBwdSpatialRunHost, hs, Bool.false_eq_true, ↓reduceIte, Bool.not_false]
    exact ⟨bwdSpatialBlockedRun_dscalePtr sqrt sh a b, bwdSpatialBlockedRun_dbiasPtr sqrt sh a b,
      fun h => BwdBufs.ext (bwdSpatialBlockedRun_dxPtr sqrt sh a b h)
        (bwdSpatialBlockedRun_dscalePtr sqrt sh a b) (bwdSpatialBlockedRun_dbiasPtr sqrt sh a b)⟩
  · simp only [miopenBNBwdSpatialRunHost, hs, ↓reduceIte, and_self, implies_true]

end Run

end BwdBlocked

theorem miopenBNBwdSpatialRunHost_heirarch_block :
    (mioBnDist : ℕ) ∣ blockShape.inCstride ∧
      miopenBNBwdSpatialRunHost true (id : ℚ → ℚ) blockShape
          (⟨fun i => i, fun _ => 1, fun _ => 1, 1, false, fun _ => 0, fun _ => 1⟩ : BwdArgs ℚ)
          ⟨fun _ => 0, fun _ => 0, fun _ => 0⟩ =
        miopenBNBwdSpatialRunHost false (id : ℚ → ℚ) blockShape
          ⟨fun i => i, fun _ => 1, fun _ => 1, 1, false, fun _ => 0, fun _ => 1⟩
          ⟨fun _ => 0, fun _ => 0, fun _ => 0⟩ :=
  ⟨by decide, (miopenBNBwdSpatialRunHost_heirarch id blockShape _ _).2.2 (by decide)⟩

end MIOpen.BatchNorm
