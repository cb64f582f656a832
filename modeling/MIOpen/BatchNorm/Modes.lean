import MIOpen.BatchNorm.Gradient

/-!
# Per-activation and spatial at `H = W = 1`

With one image position the per-activation group `(c, 0, 0)` and the spatial group `c` hold the
same `N` elements `n*C + c`, so the two groupings have the same sums, statistics and group of
every element, and the forward routines of the two modes write the same buffers.
-/

namespace MIOpen.BatchNorm

open Finset

variable {α : Type*} [Field α]

namespace Grouping

variable {G G' : Grouping}

/-- Two groupings with the same groups, element for element. -/
structure SameGroups (G G' : Grouping) : Prop where
  numel_eq : G.numel = G'.numel
  count_eq : G.count = G'.count
  size_eq : G.size = G'.size
  groupOf_eq : ∀ p, G.groupOf p = G'.groupOf p
  elem_eq : ∀ g k, k < G.size → G.elem g k = G'.elem g k

theorem SameGroups.sum_eq (h : SameGroups G G') (f : ℕ → α) (g : ℕ) : G.sum f g = G'.sum f g := by
  rw [sum, sum, ← h.size_eq]
  exact sum_congr rfl fun k hk => by rw [h.elem_eq g k (mem_range.1 hk)]

theorem SameGroups.mean_eq (h : SameGroups G G') (x : ℕ → α) : G.mean x = G'.mean x :=
  funext fun g => by rw [mean, mean, h.sum_eq, h.size_eq]

theorem SameGroups.variance_eq (h : SameGroups G G') (x : ℕ → α) :
    G.variance x = G'.variance x :=
  funext fun g => by rw [variance, variance, h.sum_eq, h.size_eq, h.mean_eq]

theorem SameGroups.batchNormalize_eq (h : SameGroups G G') (sqrt : α → α) (x scale bias : ℕ → α)
    (epsilon : α) :
    G.batchNormalize sqrt x scale bias epsilon = G'.batchNormalize sqrt x scale bias epsilon :=
  funext fun p => by rw [batchNormalize, batchNormalize, normalize, normalize, h.groupOf_eq,
    h.mean_eq, h.variance_eq]

theorem SameGroups.fwdTrain_eq (h : SameGroups G G') (sqrt : α → α) (a : TrainArgs α)
    (b : TrainBufs α) : G.fwdTrain sqrt a b = G'.fwdTrain sqrt a b := by
  simp only [fwdTrain, h.numel_eq, h.count_eq, h.mean_eq, h.variance_eq, h.batchNormalize_eq,
    adjust, h.size_eq]

theorem SameGroups.fwdInfer_eq (h : SameGroups G G') (sqrt : α → α) (a : InferArgs α)
    (out : ℕ → α) : G.fwdInfer sqrt a out = G'.fwdInfer sqrt a out :=
  funext fun p => by
    simp only [fwdInfer, normalize, h.numel_eq, h.groupOf_eq, h.batchNormalize_eq]

end Grouping

theorem Shape.sameGroups_of_pixel (sh : Shape) (hH : sh.height = 1) (hW : sh.width = 1) :
    sh.perActivation.SameGroups sh.spatial := by
  have hc : sh.inCstride = 1 := by rw [Shape.inCstride, hH, hW]
  have hn : sh.inNstride = sh.channels := by rw [sh.inNstride_eq, hc, Nat.mul_one]
  refine ⟨rfl, hn, by simp [hc], fun p => by simp [hc, hn], fun g k hk => ?_⟩
  have hk' : k < sh.nBatchs := hk
  simp only [Shape.perActivation_elem, Shape.spatial_elem, hc, Nat.one_mul]
  rw [Nat.mod_eq_of_lt hk', Nat.div_eq_of_lt hk', Nat.add_zero]

/-- With exact indices, at `H = W = 1` the two training routines write the same buffers. -/
theorem fwdTrain_perActivation_eq_spatial (sqrt : α → α) (sh : Shape) (hH : sh.height = 1)
    (hW : sh.width = 1) (a : TrainArgs α) (b : TrainBufs α) :
    miopenBNFwdTrainPerActivationRunHost sqrt sh a b =
      miopenBNFwdTrainSpatialRunHost false sqrt sh a b := by
  rw [miopenBNFwdTrainPerActivationRunHost_eq, miopenBNFwdTrainSpatialRunHost_eq]
  exact (sh.sameGroups_of_pixel hH hW).fwdTrain_eq sqrt a b

/-- With exact indices, at `H = W = 1` the two inference routines write the same output, with
estimated statistics and with batch statistics. -/
theorem fwdInfer_perActivation_eq_spatial (sqrt : α → α) (sh : Shape) (hH : sh.height = 1)
    (hW : sh.width = 1) (a : InferArgs α) (out : ℕ → α) :
    miopenBNFwdInferPerActivationRunHost sqrt sh a out =
      miopenBNFwdInferSpatialRunHost false sqrt sh a out := by
  rw [miopenBNFwdInferPerActivationRunHost_eq, miopenBNFwdInferSpatialRunHost_eq]
  exact (sh.sameGroups_of_pixel hH hW).fwdInfer_eq sqrt a out

end MIOpen.BatchNorm
