import MIOpen.Loops

/-!
# Batch-norm host routines: shapes and arguments

The six host routines of `miopen_BatchNormHost.hpp` take the extents `n_batchs`, `channels`,
`height`, `width` of an `N×C×H×W` tensor stored row-major, element `(n, c, h, w)` at
`n * in_nstride + c * in_cstride + h * width + w`. Buffers are modelled as total maps from an
exact index to a value of the scalar field `α`, in which the routines' `double` arithmetic is
taken exactly.

The arguments of each routine are split into the read-only inputs and the buffers it writes.
-/

namespace MIOpen.BatchNorm

/-- The extents passed as `n_batchs`, `channels`, `height`, `width`; callers pass positive ones. -/
structure Shape where
  nBatchs : ℕ
  channels : ℕ
  height : ℕ
  width : ℕ
  nBatchs_pos : 0 < nBatchs
  channels_pos : 0 < channels
  height_pos : 0 < height
  width_pos : 0 < width

namespace Shape

variable (sh : Shape)

/-- `in_nstride = channels*height*width`. -/
def inNstride : ℕ := sh.channels * sh.height * sh.width

/-- `in_cstride = height*width`. -/
def inCstride : ℕ := sh.height * sh.width

/-- The number of elements of the tensor. -/
def numel : ℕ := sh.nBatchs * sh.inNstride

theorem inNstride_eq : sh.inNstride = sh.channels * sh.inCstride := by
  simp only [inNstride, inCstride, Nat.mul_assoc]

theorem inCstride_pos : 0 < sh.inCstride := Nat.mul_pos sh.height_pos sh.width_pos

theorem inNstride_pos : 0 < sh.inNstride := by
  rw [inNstride_eq]; exact Nat.mul_pos sh.channels_pos sh.inCstride_pos

end Shape

/-- The `row`/`column` loops of the host routines, running the body at `width*row + column`. -/
def imageLoop {σ : Type*} (sh : Shape) (body : ℕ → σ → σ) (s : σ) : σ :=
  Nat.fold (fun row => Nat.fold (fun column => body (sh.width * row + column)) sh.width) sh.height s

/-- The `row`/`column` loops visit the image positions `0, …, H*W - 1` in increasing order. -/
theorem imageLoop_eq {σ : Type*} (sh : Shape) (body : ℕ → σ → σ) :
    imageLoop sh body = Nat.fold body sh.inCstride := by
  funext s
  rw [imageLoop, fold_fold]
  exact fold_congr (fun k _ => by rw [Nat.div_add_mod]) s

/-- The `cidx`/`row`/`column` loops of the per-activation routines visit `adjIndex` in increasing
order; the body also receives the image position. -/
theorem channelsLoop_eq {σ : Type*} (sh : Shape) (step : ℕ → ℕ → σ → σ) (s : σ) :
    Nat.fold (fun cidx => imageLoop sh fun imgIndex =>
        step (sh.inCstride * cidx + imgIndex) imgIndex) sh.channels s =
      Nat.fold (fun adj => step adj (adj % sh.inCstride)) sh.inNstride s := by
  simp only [imageLoop_eq]
  rw [fold_fold, ← sh.inNstride_eq]
  exact fold_congr (fun k _ => by rw [Nat.div_add_mod]) s

/-! ## Arguments -/

variable (α : Type*)

/-- The read-only arguments of the training forward routines. -/
structure TrainArgs where
  inPtr : ℕ → α
  scalePtr : ℕ → α
  biasPtr : ℕ → α
  epsilon : α
  savemeanvar : Bool
  runningmeanvar : Bool
  expAvgFactor : α

/-- The buffers the training forward routines write. -/
@[ext] structure TrainBufs where
  outPtr : ℕ → α
  saveMean : ℕ → α
  saveInvVariance : ℕ → α
  runningMean : ℕ → α
  runningVariance : ℕ → α

/-- The read-only arguments of the inference forward routines. -/
structure InferArgs where
  inPtr : ℕ → α
  scalePtr : ℕ → α
  biasPtr : ℕ → α
  epsilon : α
  estmeanvar : Bool
  estimatedMean : ℕ → α
  estimatedVariance : ℕ → α

/-- The read-only arguments of the backward routines. -/
structure BwdArgs where
  xPtr : ℕ → α
  dyPtr : ℕ → α
  scalePtr : ℕ → α
  epsilon : α
  savedmeanvar : Bool
  savedMean : ℕ → α
  savedInvVariance : ℕ → α

/-- The buffers the backward routines write. -/
@[ext] structure BwdBufs where
  dxPtr : ℕ → α
  dscalePtr : ℕ → α
  dbiasPtr : ℕ → α

end MIOpen.BatchNorm
