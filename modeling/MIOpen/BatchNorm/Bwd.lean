import MIOpen.BatchNorm.FwdInfer

/-!
# Backward host routines

`miopenBNBwdPerActivationRunHost` and `miopenBNBwdSpatialRunHost` take the statistics of each group
from `savedMean`/`savedInvVariance` when `savedmeanvar` is set and recompute them with the two
forward passes otherwise. A first pass over the group accumulates `dbias`, `dscale` and the
normalized values `xhat`; a second pass writes `dx`.

The results are described group by group: `Grouping.perActivationBwd` and `Grouping.spatialBwd`
say what each routine writes, in terms of the group sums of its first pass. The per-activation
routine adds into `dscale`/`dbias` as it finds them, as does the spatial saved path; the spatial
recompute path zeroes them first.
-/

namespace MIOpen.BatchNorm

open Finset

variable {α : Type*} [Field α]

/-! ## Group-level descriptions -/

namespace Grouping

variable (G : Grouping)

/-- The statistics the backward routines use: the saved mean, or the recomputed batch mean. -/
def bwdMean (a : BwdArgs α) : ℕ → α := if a.savedmeanvar then a.savedMean else G.mean a.xPtr

/-- The saved inverse standard deviation, or the recomputed one. -/
def bwdInvVar (sqrt : α → α) (a : BwdArgs α) : ℕ → α :=
  if a.savedmeanvar then a.savedInvVariance
  else fun g => invVariance sqrt (G.variance a.xPtr g) a.epsilon

/-- `dbias` of group `g` after its first pass, from `start`: `start + Σ dy`. -/
def dbiasSum (a : BwdArgs α) (start : α) (g : ℕ) : α := start + G.sum a.dyPtr g

/-- `dscale` of group `g` after its first pass and the division by the group size, from `start`:
`(start + Σ xhat*dy)/M` with `xhat = (x - mean)*invVar`. -/
def dscaleSum (a : BwdArgs α) (mean invVar : ℕ → α) (start : α) (g : ℕ) : α :=
  (start + G.sum (fun q => (a.xPtr q - mean g) * invVar g * a.dyPtr q) g) / G.size

/-- The per-activation `dx` of element `p`: `(invVar/M)*(M*dxhat - (xhat*dxhathat + dxhat))` with
the group sums `dxhat = Σ scale*dy` and `dxhathat = Σ scale*dy*xhat`. -/
def perActivationDx (a : BwdArgs α) (mean invVar : ℕ → α) (p : ℕ) : α :=
  let g := G.groupOf p
  let xhat := fun q => (a.xPtr q - mean g) * invVar g
  let dxhat := G.sum (fun q => a.scalePtr g * a.dyPtr q) g
  let dxhathat := G.sum (fun q => a.scalePtr g * a.dyPtr q * xhat q) g
  invVar g / G.size * (G.size * dxhat - (xhat p * dxhathat + dxhat))

/-- The spatial `dx` of element `p` from its group's final `dscale` and `dbias`:
`(scale*invVar/M)*(-(x - mean)*invVar*dscale + (M*dy - dbias))`. -/
def spatialDx (a : BwdArgs α) (mean invVar dscale dbias : ℕ → α) (p : ℕ) : α :=
  let g := G.groupOf p
  a.scalePtr g * invVar g / G.size *
    (-(a.xPtr p - mean g) * invVar g * dscale g + (G.size * a.dyPtr p - dbias g))

/-- What the per-activation backward writes with statistics `mean` and `invVar`. -/
def perActivationBwd (a : BwdArgs α) (mean invVar : ℕ → α) (b : BwdBufs α) : BwdBufs α where
  dxPtr p := if p < G.numel then G.perActivationDx a mean invVar p else b.dxPtr p
  dscalePtr g := if g < G.count then G.dscaleSum a mean invVar (b.dscalePtr g) g else b.dscalePtr g
  dbiasPtr g := if g < G.count then G.dbiasSum a (b.dbiasPtr g) g else b.dbiasPtr g

/-- What the spatial backward writes with statistics `mean` and `invVar`, accumulating from zero
when `zeroed` and from the buffers' contents otherwise. -/
def spatialBwd (a : BwdArgs α) (mean invVar : ℕ → α) (zeroed : Bool) (b : BwdBufs α) :
    BwdBufs α :=
  let dscale := fun g => G.dscaleSum a mean invVar (if zeroed then 0 else b.dscalePtr g) g
  let dbias := fun g => G.dbiasSum a (if zeroed then 0 else b.dbiasPtr g) g
  { dxPtr := fun p => if p < G.numel then G.spatialDx a mean invVar dscale dbias p else b.dxPtr p
    dscalePtr := fun g => if g < G.count then dscale g else b.dscalePtr g
    dbiasPtr := fun g => if g < G.count then dbias g else b.dbiasPtr g }

end Grouping

/-! ## Per-activation -/

/-- The state of the first backward pass over one group: the two gradient buffers, the `xhat`
vector and the group sums `dxhat`, `dxhathat`. -/
structure BwdPass (α : Type*) where
  dbiasPtr : ℕ → α
  dscalePtr : ℕ → α
  xhat : ℕ → α
  dxhat : α
  dxhathat : α

/-- The first pass of `miopenBNBwdPerActivationRunHost` over the batch at `adjIndex`. -/
def bwdPerActivationPass1 (sh : Shape) (a : BwdArgs α) (adjIndex imgIndex : ℕ)
    (mean elemInvVar : α) (s : BwdPass α) : BwdPass α :=
  Nat.fold (fun bidx s =>
    let index := sh.inNstride * bidx + adjIndex
    let xhatIndex := sh.inCstride * bidx + imgIndex
    let elemStd := a.xPtr index - mean
    let xhat := Function.update s.xhat xhatIndex (elemStd * elemInvVar)
    let dyelem := a.dyPtr index
    let tmp1 := a.scalePtr adjIndex * dyelem
    { dbiasPtr := Function.update s.dbiasPtr adjIndex (s.dbiasPtr adjIndex + dyelem)
      dscalePtr := Function.update s.dscalePtr adjIndex
        (s.dscalePtr adjIndex + xhat xhatIndex * dyelem)
      xhat := xhat
      dxhat := s.dxhat + tmp1
      dxhathat := s.dxhathat + tmp1 * xhat xhatIndex }) sh.nBatchs s

/-- The second pass: `dx_ptr[index] = tmp3*tmp2` with `tmp1 = xhat*dxhathat + dxhat`,
`tmp2 = n_batchs*dxhat - tmp1` and `tmp3 = elemInvVar/n_batchs`. -/
def bwdPerActivationPass2 (sh : Shape) (adjIndex imgIndex : ℕ) (elemInvVar : α) (xhat : ℕ → α)
    (dxhat dxhathat : α) (dx : ℕ → α) : ℕ → α :=
  Nat.fold (fun bidx dx =>
    let index := sh.inNstride * bidx + adjIndex
    let xhatIndex := sh.inCstride * bidx + imgIndex
    let tmp1 := xhat xhatIndex * dxhathat + dxhat
    let tmp2 := (sh.nBatchs : α) * dxhat - tmp1
    let tmp3 := elemInvVar / (sh.nBatchs : α)
    Function.update dx index (tmp3 * tmp2)) sh.nBatchs dx

/-- Both passes over the group at `adjIndex` with its statistics `mean` and `elemInvVar`, and
`dscale_ptr[adjIndex] /= n_batchs` between them; the `xhat` vector is carried to the next group. -/
def bwdPerActivationStep (sh : Shape) (a : BwdArgs α) (adjIndex imgIndex : ℕ)
    (mean elemInvVar : α) (st : BwdBufs α × (ℕ → α)) : BwdBufs α × (ℕ → α) :=
  let s := bwdPerActivationPass1 sh a adjIndex imgIndex mean elemInvVar
    { dbiasPtr := st.1.dbiasPtr, dscalePtr := st.1.dscalePtr, xhat := st.2, dxhat := 0,
      dxhathat := 0 }
  ({ dxPtr := bwdPerActivationPass2 sh adjIndex imgIndex elemInvVar s.xhat s.dxhat s.dxhathat
        st.1.dxPtr
     dscalePtr := Function.update s.dscalePtr adjIndex (s.dscalePtr adjIndex / sh.nBatchs)
     dbiasPtr := s.dbiasPtr }, s.xhat)

/-- `miopenBNBwdPerActivationRunHost`; `xhat` is the zero-initialized vector of
`n_batchs*in_cstride` entries shared by all groups. -/
def miopenBNBwdPerActivationRunHost (sqrt : α → α) (sh : Shape) (a : BwdArgs α) (b : BwdBufs α) :
    BwdBufs α :=
  let xhat : ℕ → α := fun _ => 0
  if a.savedmeanvar then
    (Nat.fold (fun cidx => imageLoop sh fun imgIndex =>
      let adjIndex := sh.inCstride * cidx + imgIndex
      let mean := a.savedMean adjIndex
      let elemInvVar := a.savedInvVariance adjIndex
      bwdPerActivationStep sh a adjIndex imgIndex mean elemInvVar) sh.channels (b, xhat)).1
  else
    (Nat.fold (fun cidx => imageLoop sh fun imgIndex =>
      let adjIndex := sh.inCstride * cidx + imgIndex
      let mean := perActivationMean sh a.xPtr adjIndex
      let variance := perActivationVariance sh a.xPtr adjIndex mean
      let elemInvVar := 1 / sqrt (variance + a.epsilon)
      bwdPerActivationStep sh a adjIndex imgIndex mean elemInvVar) sh.channels (b, xhat)).1

/-- The body of the `cidx`/`row`/`column` loops of `miopenBNBwdPerActivationRunHost` for the group
at `adjIndex`, with the test of `savedmeanvar` taken inside. -/
def bwdPerActivationBody (sqrt : α → α) (sh : Shape) (a : BwdArgs α) (adjIndex : ℕ)
    (st : BwdBufs α × (ℕ → α)) : BwdBufs α × (ℕ → α) :=
  let imgIndex := adjIndex % sh.inCstride
  if a.savedmeanvar then
    let mean := a.savedMean adjIndex
    let elemInvVar := a.savedInvVariance adjIndex
    bwdPerActivationStep sh a adjIndex imgIndex mean elemInvVar st
  else
    let mean := perActivationMean sh a.xPtr adjIndex
    let variance := perActivationVariance sh a.xPtr adjIndex mean
    let elemInvVar := 1 / sqrt (variance + a.epsilon)
    bwdPerActivationStep sh a adjIndex imgIndex mean elemInvVar st

theorem miopenBNBwdPerActivationRunHost_eq_fold (sqrt : α → α) (sh : Shape) (a : BwdArgs α)
    (b : BwdBufs α) :
    miopenBNBwdPerActivationRunHost sqrt sh a b =
      (Nat.fold (bwdPerActivationBody sqrt sh a) sh.inNstride (b, fun _ => 0)).1 := by
  unfold miopenBNBwdPerActivationRunHost bwdPerActivationBody
  cases a.savedmeanvar
  · exact congrArg Prod.fst (channelsLoop_eq sh (fun adj img => bwdPerActivationStep sh a adj img
      (perActivationMean sh a.xPtr adj) (1 / sqrt (perActivationVariance sh a.xPtr adj
        (perActivationMean sh a.xPtr adj) + a.epsilon))) _)
  · exact congrArg Prod.fst (channelsLoop_eq sh (fun adj img =>
      bwdPerActivationStep sh a adj img (a.savedMean adj) (a.savedInvVariance adj)) _)

section PerActivation

variable (sh : Shape) (a : BwdArgs α) (mean iv : α)

theorem bwdPerActivationPass1_dbiasPtr (adj img : ℕ) (s : BwdPass α) (j : ℕ) :
    (bwdPerActivationPass1 sh a adj img mean iv s).dbiasPtr j =
      if j = adj then s.dbiasPtr j + sh.perActivation.sum a.dyPtr j else s.dbiasPtr j := by
  split_ifs with h
  · subst h
    exact fold_acc (fun s : BwdPass α => s.dbiasPtr j) _
      (fun k _ t => Function.update_same _ _ _) s
  · exact fold_frame (fun s : BwdPass α => s.dbiasPtr j)
      (fun k _ t => Function.update_noteq h _ _) s

theorem bwdPerActivationPass1_dscalePtr (adj img : ℕ) (s : BwdPass α) (j : ℕ) :
    (bwdPerActivationPass1 sh a adj img mean iv s).dscalePtr j =
      if j = adj then
        s.dscalePtr j + sh.perActivation.sum (fun q => (a.xPtr q - mean) * iv * a.dyPtr q) j
      else s.dscalePtr j := by
  split_ifs with h
  · subst h
    exact fold_acc (fun s : BwdPass α => s.dscalePtr j) _
      (fun k _ t => by simp only [Function.update_same, Shape.perActivation_elem]) s
  · exact fold_frame (fun s : BwdPass α => s.dscalePtr j)
      (fun k _ t => Function.update_noteq h _ _) s

theorem bwdPerActivationPass1_xhat (adj : ℕ) {img : ℕ} (himg : img < sh.inCstride)
    (s : BwdPass α) {k : ℕ} (hk : k < sh.nBatchs) :
    (bwdPerActivationPass1 sh a adj img mean iv s).xhat (sh.inCstride * k + img) =
      (a.xPtr (sh.inNstride * k + adj) - mean) * iv :=
  fold_once (fun s : BwdPass α => s.xhat (sh.inCstride * k + img)) k hk
    (fun _ => (a.xPtr (sh.inNstride * k + adj) - mean) * iv)
    (fun _ _ hik _ => Function.update_noteq (fun h => hik (mul_add_inj himg himg h).1.symm) _ _)
    (fun _ => Function.update_same _ _ _) s

theorem bwdPerActivationPass1_dxhat (adj img : ℕ) (s : BwdPass α) :
    (bwdPerActivationPass1 sh a adj img mean iv s).dxhat =
      s.dxhat + sh.perActivation.sum (fun q => a.scalePtr adj * a.dyPtr q) adj :=
  fold_acc (fun s : BwdPass α => s.dxhat) _ (fun _ _ _ => rfl) s

theorem bwdPerActivationPass1_dxhathat (adj img : ℕ) (s : BwdPass α) :
    (bwdPerActivationPass1 sh a adj img mean iv s).dxhathat = s.dxhathat +
      sh.perActivation.sum (fun q => a.scalePtr adj * a.dyPtr q * ((a.xPtr q - mean) * iv)) adj :=
  fold_acc (fun s : BwdPass α => s.dxhathat) _
    (fun _ _ _ => by simp only [Function.update_same, Shape.perActivation_elem]) s

theorem bwdPerActivationPass2_apply {adj : ℕ} (hadj : adj < sh.inNstride) (img : ℕ)
    (X xhat : ℕ → α)
    (hX : ∀ k < sh.nBatchs, xhat (sh.inCstride * k + img) = X (sh.inNstride * k + adj))
    (dxhat dxhathat : α) (dx : ℕ → α) (p : ℕ) :
    bwdPerActivationPass2 sh adj img iv xhat dxhat dxhathat dx p =
      if p < sh.perActivation.numel ∧ sh.perActivation.groupOf p = adj then
        iv / sh.nBatchs * (sh.nBatchs * dxhat - (X p * dxhathat + dxhat))
      else dx p := by
  refine sh.perActivation.fold_group hadj (fun p (o : ℕ → α) => o p)
    (fun p _ => iv / sh.nBatchs * (sh.nBatchs * dxhat - (X p * dxhathat + dxhat))) _
    (fun k hk q s => ?_) p dx
  simp only [Function.update_apply, Shape.perActivation_elem, hX k hk]
  split_ifs with h
  · subst h; rfl
  · rfl

variable (M I : ℕ → α)

theorem bwdPerActivationStep_dxPtr {adj : ℕ} (hadj : adj < sh.inNstride)
    (st : BwdBufs α × (ℕ → α)) (p : ℕ) :
    (bwdPerActivationStep sh a adj (adj % sh.inCstride) (M adj) (I adj) st).1.dxPtr p =
      if p < sh.perActivation.numel ∧ sh.perActivation.groupOf p = adj then
        sh.perActivation.perActivationDx a M I p
      else st.1.dxPtr p := by
  have himg := Nat.mod_lt adj sh.inCstride_pos
  simp only [bwdPerActivationStep]
  rw [bwdPerActivationPass2_apply sh _ hadj _ (fun q => (a.xPtr q - M adj) * I adj) _
    (fun k hk => bwdPerActivationPass1_xhat sh a _ _ _ himg _ hk)]
  split_ifs with h
  · simp only [Grouping.perActivationDx, h.2, Shape.perActivation_size, bwdPerActivationPass1_dxhat,
      bwdPerActivationPass1_dxhathat, zero_add]
  · rfl

theorem bwdPerActivationStep_dscalePtr (adj : ℕ) (st : BwdBufs α × (ℕ → α)) (j : ℕ) :
    (bwdPerActivationStep sh a adj (adj % sh.inCstride) (M adj) (I adj) st).1.dscalePtr j =
      if j = adj then sh.perActivation.dscaleSum a M I (st.1.dscalePtr j) j
      else st.1.dscalePtr j := by
  simp only [bwdPerActivationStep, Function.update_apply, bwdPerActivationPass1_dscalePtr]
  split_ifs with h
  · subst h
    simp [Grouping.dscaleSum]
  · rfl

theorem bwdPerActivationStep_dbiasPtr (adj : ℕ) (st : BwdBufs α × (ℕ → α)) (j : ℕ) :
    (bwdPerActivationStep sh a adj (adj % sh.inCstride) (M adj) (I adj) st).1.dbiasPtr j =
      if j = adj then sh.perActivation.dbiasSum a (st.1.dbiasPtr j) j else st.1.dbiasPtr j := by
  simp only [bwdPerActivationStep, bwdPerActivationPass1_dbiasPtr]
  rfl

/-- The loop over all groups of the per-activation backward, with per-group statistics. -/
theorem bwdPerActivationRun_eq (b : BwdBufs α) (xhat : ℕ → α) :
    (Nat.fold (fun adj => bwdPerActivationStep sh a adj (adj % sh.inCstride) (M adj) (I adj))
      sh.inNstride (b, xhat)).1 = sh.perActivation.perActivationBwd a M I b := by
  ext p
  · exact sh.perActivation.fold_groups (fun p (st : BwdBufs α × (ℕ → α)) => st.1.dxPtr p)
      (fun p _ => sh.perActivation.perActivationDx a M I p) _
      (fun g hg p st => bwdPerActivationStep_dxPtr sh a M I hg st p) p (b, xhat)
  · exact fold_update (fun j (st : BwdBufs α × (ℕ → α)) => st.1.dscalePtr j)
      (fun j v => sh.perActivation.dscaleSum a M I v j)
      (fun i _ j st => bwdPerActivationStep_dscalePtr sh a M I i st j) p (b, xhat)
  · exact fold_update (fun j (st : BwdBufs α × (ℕ → α)) => st.1.dbiasPtr j)
      (fun j v => sh.perActivation.dbiasSum a v j)
      (fun i _ j st => bwdPerActivationStep_dbiasPtr sh a M I i st j) p (b, xhat)

end PerActivation

theorem bwdPerActivationBody_eq (sqrt : α → α) (sh : Shape) (a : BwdArgs α) (adj : ℕ) :
    bwdPerActivationBody sqrt sh a adj = bwdPerActivationStep sh a adj (adj % sh.inCstride)
      (sh.perActivation.bwdMean a adj) (sh.perActivation.bwdInvVar sqrt a adj) := by
  funext st
  cases h : a.savedmeanvar <;>
    simp only [bwdPerActivationBody, Grouping.bwdMean, Grouping.bwdInvVar, h, Bool.false_eq_true,
      ↓reduceIte, perActivationMean_eq, perActivationVariance_eq, invVariance]

/-- The per-activation backward routine writes `Grouping.perActivationBwd` with the saved or the
recomputed statistics. -/
theorem miopenBNBwdPerActivationRunHost_eq (sqrt : α → α) (sh : Shape) (a : BwdArgs α)
    (b : BwdBufs α) :
    miopenBNBwdPerActivationRunHost sqrt sh a b = sh.perActivation.perActivationBwd a
      (sh.perActivation.bwdMean a) (sh.perActivation.bwdInvVar sqrt a) b := by
  rw [miopenBNBwdPerActivationRunHost_eq_fold, funext (bwdPerActivationBody_eq sqrt sh a)]
  exact bwdPerActivationRun_eq sh a _ _ b _

/-! ## Spatial -/

/-- `dbuf_ptr[cidx] += term(index)` over the elements of channel `cidx`. -/
def spatialAccum (sh : Shape) (cidx : ℕ) (term : ℕ → α) (buf : ℕ → α) : ℕ → α :=
  imageLoop sh (fun imgIndex =>
    let adjIndex := sh.inCstride * cidx + imgIndex
    Nat.fold (fun bidx buf =>
      let index := sh.inNstride * bidx + adjIndex
      Function.update buf cidx (buf cidx + term index)) sh.nBatchs) buf

/-- The variance pass of the backward recompute path: `variance += elemStd*elemStd`. -/
def bwdSpatialVarianceAccum (sh : Shape) (x : ℕ → α) (cidx : ℕ) (mean : α) : α :=
  imageLoop sh (fun imgIndex =>
    let adjIndex := sh.inCstride * cidx + imgIndex
    Nat.fold (fun bidx acc =>
      let elemStd := x (sh.inNstride * bidx + adjIndex) - mean
      acc + elemStd * elemStd) sh.nBatchs) 0

/-- The second pass over channel `cidx`: `dx_ptr[index] = tmp3*(tmp2 + tmp1)` with
`tmp1 = NHW*dy - dbias_ptr[cidx]`, `tmp2 = -elemStd*invVar*dscale_ptr[cidx]` and
`tmp3 = (scale_ptr[cidx]*invVar)/NHW`. -/
def bwdSpatialDxPass (sh : Shape) (a : BwdArgs α) (cidx : ℕ) (mean invVar dscale dbias : α)
    (dx : ℕ → α) : ℕ → α :=
  let NHW : α := ((sh.nBatchs * sh.inCstride : ℕ) : α)
  imageLoop sh (fun imgIndex =>
    let adjIndex := sh.inCstride * cidx + imgIndex
    Nat.fold (fun bidx dx =>
      let index := sh.inNstride * bidx + adjIndex
      let elemStd := a.xPtr index - mean
      let tmp1 := NHW * a.dyPtr index - dbias
      let tmp2 := -elemStd * invVar * dscale
      let tmp3 := a.scalePtr cidx * invVar / NHW
      Function.update dx index (tmp3 * (tmp2 + tmp1))) sh.nBatchs) dx

/-- The channel body of the saved-statistics path of `miopenBNBwdSpatialRunHost`, buffer by
buffer: `dbias_ptr[cidx] += dy` and `dscale_ptr[cidx] += elemStd*invVar*dy` onto the buffers'
contents, `dscale_ptr[cidx] /= NHW`, then the `dx` pass. -/
def bwdSpatialSavedStep (sh : Shape) (a : BwdArgs α) (cidx : ℕ) (b : BwdBufs α) : BwdBufs α :=
  let NHW : α := ((sh.nBatchs * sh.inCstride : ℕ) : α)
  let mean := a.savedMean cidx
  let invVar := a.savedInvVariance cidx
  let dbiasPtr := spatialAccum sh cidx a.dyPtr b.dbiasPtr
  let dscaleAcc := spatialAccum sh cidx
    (fun index => (a.xPtr index - mean) * invVar * a.dyPtr index)
    b.dscalePtr
  let dscalePtr := Function.update dscaleAcc cidx (dscaleAcc cidx / NHW)
  { dxPtr := bwdSpatialDxPass sh a cidx mean invVar (dscalePtr cidx) (dbiasPtr cidx) b.dxPtr
    dscalePtr := dscalePtr
    dbiasPtr := dbiasPtr }

/-- The first pass of the recompute path of the `MIO_HEIRARCH_SEL == 0` build:
`xhat[xhat_index] = elemStd*invVar`, `dbias_ptr[cidx] += dy` and
`dscale_ptr[cidx] += xhat[xhat_index]*dy`. -/
def bwdSpatialXhatPass (sh : Shape) (a : BwdArgs α) (cidx : ℕ) (mean invVar : α)
    (st : BwdBufs α × (ℕ → α)) : BwdBufs α × (ℕ → α) :=
  imageLoop sh (fun imgIndex =>
    let adjIndex := sh.inCstride * cidx + imgIndex
    Nat.fold (fun bidx st =>
      let index := sh.inNstride * bidx + adjIndex
      let xhatIndex := sh.inCstride * bidx + imgIndex
      let elemStd := a.xPtr index - mean
      let xhat := Function.update st.2 xhatIndex (elemStd * invVar)
      let dyelem := a.dyPtr index
      ({ st.1 with
          dbiasPtr := Function.update st.1.dbiasPtr cidx (st.1.dbiasPtr cidx + dyelem)
          dscalePtr := Function.update st.1.dscalePtr cidx
            (st.1.dscalePtr cidx + xhat xhatIndex * dyelem) }, xhat)) sh.nBatchs) st

/-- The second pass of the recompute path of the `MIO_HEIRARCH_SEL == 0` build, reading
`tmp2 = -xhat[xhat_index]*dscale_ptr[cidx]` back from the first. -/
def bwdSpatialXhatDxPass (sh : Shape) (a : BwdArgs α) (cidx : ℕ) (invVar dscale dbias : α)
    (xhat dx : ℕ → α) : ℕ → α :=
  let NHW : α := ((sh.nBatchs * sh.inCstride : ℕ) : α)
  imageLoop sh (fun imgIndex =>
    let adjIndex := sh.inCstride * cidx + imgIndex
    Nat.fold (fun bidx dx =>
      let index := sh.inNstride * bidx + adjIndex
      let xhatIndex := sh.inCstride * bidx + imgIndex
      let tmp1 := NHW * a.dyPtr index - dbias
      let tmp2 := -xhat xhatIndex * dscale
      let tmp3 := a.scalePtr cidx * invVar / NHW
      Function.update dx index (tmp3 * (tmp2 + tmp1))) sh.nBatchs) dx

/-- The channel body of the recompute path of the `MIO_HEIRARCH_SEL == 0` build: the mean and
variance passes, `dscale_ptr[cidx] = dbias_ptr[cidx] = 0`, the first pass, `dscale_ptr[cidx] /= NHW`
and the second pass; the `xhat` vector is carried to the next channel. -/
def bwdSpatialStep (sqrt : α → α) (sh : Shape) (a : BwdArgs α) (cidx : ℕ)
    (st : BwdBufs α × (ℕ → α)) : BwdBufs α × (ℕ → α) :=
  let NHW : α := ((sh.nBatchs * sh.inCstride : ℕ) : α)
  let mean := spatialMeanAccum sh a.xPtr cidx / NHW
  let variance := bwdSpatialVarianceAccum sh a.xPtr cidx mean / NHW
  let invVar := 1 / sqrt (variance + a.epsilon)
  let st := bwdSpatialXhatPass sh a cidx mean invVar
    ({ st.1 with
        dscalePtr := Function.update st.1.dscalePtr cidx 0
        dbiasPtr := Function.update st.1.dbiasPtr cidx 0 }, st.2)
  let dscalePtr := Function.update st.1.dscalePtr cidx (st.1.dscalePtr cidx / NHW)
  ({ dxPtr := bwdSpatialXhatDxPass sh a cidx invVar (dscalePtr cidx) (st.1.dbiasPtr cidx) st.2
        st.1.dxPtr
     dscalePtr := dscalePtr
     dbiasPtr := st.1.dbiasPtr }, st.2)

/-- A blocked accumulation with the guard `imgIndex < in_cstride` tested inside the batch loop, as
the backward routine has it. -/
def blockedAccumInner (sh : Shape) (term : ℕ → ℕ → α) : α :=
  let arr := blockedLoop sh (fun i imgIndex => Nat.fold (fun bidx arr =>
      if imgIndex < sh.inCstride then Function.update arr i (arr i + term imgIndex bidx) else arr)
      sh.nBatchs) (fun _ => 0)
  Nat.fold (fun i acc => acc + arr i) mioBnDist 0

/-- The blocked second pass of the recompute path, guarded by `index < in_nstride*n_batchs`. -/
def bwdSpatialBlockedDxPass (sh : Shape) (a : BwdArgs α) (cidx : ℕ) (mean invVar dscale dbias : α)
    (dx : ℕ → α) : ℕ → α :=
  let NHW : α := ((sh.nBatchs * sh.inCstride : ℕ) : α)
  blockedLoop sh (fun _ imgIndex =>
    let adjIndex := sh.inCstride * cidx + imgIndex
    Nat.fold (fun bidx dx =>
      let index := sh.inNstride * bidx + adjIndex
      if index < sh.inNstride * sh.nBatchs then
        let elemStd := a.xPtr index - mean
        let tmp1 := NHW * a.dyPtr index - dbias
        let tmp2 := -elemStd * invVar * dscale
        let tmp3 := a.scalePtr cidx * invVar / NHW
        Function.update dx index (tmp3 * (tmp2 + tmp1))
      else dx) sh.nBatchs) dx

/-- The channel body of the recompute path of the `MIO_HEIRARCH_SEL == 1` build, buffer by buffer:
blocked mean, variance, `dbias` and `dscale` accumulations, then the blocked `dx` pass. -/
def bwdSpatialBlockedStep (sqrt : α → α) (sh : Shape) (a : BwdArgs α) (cidx : ℕ) (b : BwdBufs α) :
    BwdBufs α :=
  let NHW : α := ((sh.nBatchs * sh.inCstride : ℕ) : α)
  let index := fun imgIndex bidx => sh.inNstride * bidx + (sh.inCstride * cidx + imgIndex)
  let mean := blockedAccum sh true (fun imgIndex bidx => a.xPtr (index imgIndex bidx)) / NHW
  let variance := blockedAccumInner sh (fun imgIndex bidx =>
    let elemStd := a.xPtr (index imgIndex bidx) - mean
    elemStd * elemStd) / NHW
  let invVar := 1 / sqrt (variance + a.epsilon)
  let dbias := blockedAccumInner sh fun imgIndex bidx => a.dyPtr (index imgIndex bidx)
  let dscale := blockedAccumInner sh (fun imgIndex bidx =>
    (a.xPtr (index imgIndex bidx) - mean) * invVar * a.dyPtr (index imgIndex bidx)) / NHW
  { dxPtr := bwdSpatialBlockedDxPass sh a cidx mean invVar dscale dbias b.dxPtr
    dscalePtr := Function.update b.dscalePtr cidx dscale
    dbiasPtr := Function.update b.dbiasPtr cidx dbias }

/-- `miopenBNBwdSpatialRunHost`, built with `MIO_HEIRARCH_SEL` equal to `heirarchSel`; the build
with 0 keeps a zero-initialized `xhat` vector of `n_batchs*in_cstride` entries. -/
def miopenBNBwdSpatialRunHost (heirarchSel : Bool) (sqrt : α → α) (sh : Shape) (a : BwdArgs α)
    (b : BwdBufs α) : BwdBufs α :=
  if a.savedmeanvar then Nat.fold (bwdSpatialSavedStep sh a) sh.channels b
  else if heirarchSel then Nat.fold (bwdSpatialBlockedStep sqrt sh a) sh.channels b
  else (Nat.fold (bwdSpatialStep sqrt sh a) sh.channels (b, fun _ => 0)).1

section Spatial

variable (sh : Shape) (a : BwdArgs α)

theorem spatial_NHW : ((sh.nBatchs * sh.inCstride : ℕ) : α) = sh.spatial.size := by
  rw [Shape.spatial_size, Nat.mul_comm]

theorem spatialAccum_apply (c : ℕ) (term buf : ℕ → α) (j : ℕ) :
    spatialAccum sh c term buf j = if j = c then buf j + sh.spatial.sum term c else buf j := by
  simp only [spatialAccum]
  rw [sh.spatialLoop_eq]
  split_ifs with h
  · subst h
    exact fold_acc (fun buf : ℕ → α => buf j) _ (fun k _ t => Function.update_same _ _ _) buf
  · exact fold_frame (fun buf : ℕ → α => buf j) (fun k _ t => Function.update_noteq h _ _) buf

theorem bwdSpatialVarianceAccum_eq (x : ℕ → α) (c : ℕ) (mean : α) :
    bwdSpatialVarianceAccum sh x c mean =
      sh.spatial.sum (fun p => (x p - mean) * (x p - mean)) c := by
  simp only [bwdSpatialVarianceAccum]
  rw [sh.spatialLoop_eq, fold_add_eq_sum, zero_add]
  rfl

theorem spatialMean_eq (x : ℕ → α) (c : ℕ) :
    spatialMeanAccum sh x c / (sh.spatial.size : α) = sh.spatial.mean x c := by
  rw [spatialMeanAccum_eq]
  rfl

theorem bwdSpatialVariance_eq (x : ℕ → α) (c : ℕ) :
    bwdSpatialVarianceAccum sh x c (sh.spatial.mean x c) / (sh.spatial.size : α) =
      sh.spatial.variance x c := by
  rw [bwdSpatialVarianceAccum_eq]
  rfl

theorem bwdSpatialDxPass_apply {c : ℕ} (hc : c < sh.channels) (mean invVar dscale dbias : α)
    (dx : ℕ → α) (p : ℕ) :
    bwdSpatialDxPass sh a c mean invVar dscale dbias dx p =
      if p < sh.spatial.numel ∧ sh.spatial.groupOf p = c then
        a.scalePtr c * invVar / sh.spatial.size *
          (-(a.xPtr p - mean) * invVar * dscale + (sh.spatial.size * a.dyPtr p - dbias))
      else dx p := by
  simp only [bwdSpatialDxPass, spatial_NHW]
  rw [sh.spatialLoop_eq]
  refine sh.spatial.fold_group hc (fun p (o : ℕ → α) => o p) (fun p _ =>
    a.scalePtr c * invVar / sh.spatial.size *
      (-(a.xPtr p - mean) * invVar * dscale + (sh.spatial.size * a.dyPtr p - dbias))) _
    (fun k _ q s => ?_) p dx
  simp only [Function.update_apply, Shape.spatial_elem]
  split_ifs with h
  · subst h; rfl
  · rfl

theorem bwdSpatialSavedStep_dbiasPtr (c : ℕ) (b : BwdBufs α) (j : ℕ) :
    (bwdSpatialSavedStep sh a c b).dbiasPtr j =
      if j = c then sh.spatial.dbiasSum a (b.dbiasPtr j) j else b.dbiasPtr j := by
  simp only [bwdSpatialSavedStep, spatialAccum_apply]
  split_ifs with h
  · subst h; rfl
  · rfl

theorem bwdSpatialSavedStep_dscalePtr (c : ℕ) (b : BwdBufs α) (j : ℕ) :
    (bwdSpatialSavedStep sh a c b).dscalePtr j =
      if j = c then sh.spatial.dscaleSum a a.savedMean a.savedInvVariance (b.dscalePtr j) j
      else b.dscalePtr j := by
  simp only [bwdSpatialSavedStep, Function.update_apply, spatialAccum_apply, spatial_NHW]
  split_ifs with h
  · subst h; simp [Grouping.dscaleSum]
  · rfl

theorem bwdSpatialSavedStep_dxPtr {c : ℕ} (hc : c < sh.channels) (b : BwdBufs α) (p : ℕ) :
    (bwdSpatialSavedStep sh a c b).dxPtr p =
      if p < sh.spatial.numel ∧ sh.spatial.groupOf p = c then
        sh.spatial.spatialDx a a.savedMean a.savedInvVariance
          (sh.spatial.dscaleSum a a.savedMean a.savedInvVariance (b.dscalePtr c))
          (sh.spatial.dbiasSum a (b.dbiasPtr c)) p
      else b.dxPtr p := by
  have hs := bwdSpatialSavedStep_dscalePtr sh a c b c
  have hb := bwdSpatialSavedStep_dbiasPtr sh a c b c
  simp only [if_pos rfl] at hs hb
  simp only [bwdSpatialSavedStep] at hs hb ⊢
  rw [bwdSpatialDxPass_apply sh a hc, hs, hb]
  split_ifs with h
  · simp only [Grouping.spatialDx, h.2]
  · rfl

theorem bwdSpatialXhatPass_dxPtr (c : ℕ) (mean iv : α) (st : BwdBufs α × (ℕ → α)) :
    (bwdSpatialXhatPass sh a c mean iv st).1.dxPtr = st.1.dxPtr := by
  simp only [bwdSpatialXhatPass]
  rw [sh.spatialLoop_eq]
  exact fold_frame (fun st : BwdBufs α × (ℕ → α) => st.1.dxPtr) (fun _ _ _ => by rfl) st

theorem bwdSpatialXhatPass_dbiasPtr (c : ℕ) (mean iv : α) (st : BwdBufs α × (ℕ → α)) (j : ℕ) :
    (bwdSpatialXhatPass sh a c mean iv st).1.dbiasPtr j =
      if j = c then st.1.dbiasPtr j + sh.spatial.sum a.dyPtr c else st.1.dbiasPtr j := by
  simp only [bwdSpatialXhatPass]
  rw [sh.spatialLoop_eq]
  split_ifs with h
  · subst h
    exact fold_acc (fun st : BwdBufs α × (ℕ → α) => st.1.dbiasPtr j) _
      (fun k _ t => Function.update_same _ _ _) st
  · exact fold_frame (fun st : BwdBufs α × (ℕ → α) => st.1.dbiasPtr j)
      (fun k _ t => Function.update_noteq h _ _) st

theorem bwdSpatialXhatPass_dscalePtr (c : ℕ) (mean iv : α) (st : BwdBufs α × (ℕ → α)) (j : ℕ) :
    (bwdSpatialXhatPass sh a c mean iv st).1.dscalePtr j =
      if j = c then
        st.1.dscalePtr j + sh.spatial.sum (fun q => (a.xPtr q - mean) * iv * a.dyPtr q) c
      else st.1.dscalePtr j := by
  simp only [bwdSpatialXhatPass]
  rw [sh.spatialLoop_eq]
  split_ifs with h
  · subst h
    exact fold_acc (fun st : BwdBufs α × (ℕ → α) => st.1.dscalePtr j) _
      (fun k _ t => by simp only [Function.update_same, Shape.spatial_elem]) st
  · exact fold_frame (fun st : BwdBufs α × (ℕ → α) => st.1.dscalePtr j)
      (fun k _ t => Function.update_noteq h _ _) st

theorem bwdSpatialXhatPass_xhat (c : ℕ) (mean iv : α) (st : BwdBufs α × (ℕ → α)) {b j : ℕ}
    (hb : b < sh.nBatchs) (hj : j < sh.inCstride) :
    (bwdSpatialXhatPass sh a c mean iv st).2 (sh.inCstride * b + j) =
      (a.xPtr (sh.inNstride * b + (sh.inCstride * c + j)) - mean) * iv := by
  simp only [bwdSpatialXhatPass]
  rw [imageLoop_eq]
  let obs := fun st : BwdBufs α × (ℕ → α) => st.2 (sh.inCstride * b + j)
  let v := (a.xPtr (sh.inNstride * b + (sh.inCstride * c + j)) - mean) * iv
  refine fold_once obs j hj (fun _ => v) (fun i hi hij t => fold_frame obs (fun _ _ u => ?_) t)
    (fun t => fold_once obs b hb (fun _ => v) (fun _ _ hne u => ?_)
      (fun u => Function.update_same _ _ _) t) st
  · exact Function.update_noteq (fun h => hij (mul_add_inj hj hi h).2.symm) _ _
  · exact Function.update_noteq (fun h => hne (mul_add_inj hj hj h).1.symm) _ _

theorem bwdSpatialXhatDxPass_apply {c : ℕ} (hc : c < sh.channels) (invVar dscale dbias : α)
    (X xhat : ℕ → α) (hX : ∀ b < sh.nBatchs, ∀ j < sh.inCstride,
      xhat (sh.inCstride * b + j) = X (sh.inNstride * b + (sh.inCstride * c + j)))
    (dx : ℕ → α) (p : ℕ) :
    bwdSpatialXhatDxPass sh a c invVar dscale dbias xhat dx p =
      if p < sh.spatial.numel ∧ sh.spatial.groupOf p = c then
        a.scalePtr c * invVar / sh.spatial.size *
          (-X p * dscale + (sh.spatial.size * a.dyPtr p - dbias))
      else dx p := by
  simp only [bwdSpatialXhatDxPass, spatial_NHW]
  rw [sh.spatialLoop_eq]
  refine sh.spatial.fold_group hc (fun p (o : ℕ → α) => o p) (fun p _ =>
    a.scalePtr c * invVar / sh.spatial.size *
      (-X p * dscale + (sh.spatial.size * a.dyPtr p - dbias))) _ (fun k hk q s => ?_) p dx
  have hj : k / sh.nBatchs < sh.inCstride := Nat.div_lt_of_lt_mul (by rw [Nat.mul_comm]; exact hk)
  simp only [Function.update_apply, Shape.spatial_elem,
    hX _ (Nat.mod_lt k sh.nBatchs_pos) _ hj]
  split_ifs with h
  · subst h; rfl
  · rfl

end Spatial

section SpatialRecompute

variable (sqrt : α → α) (sh : Shape) (a : BwdArgs α)

theorem bwdSpatialStep_dbiasPtr (c : ℕ) (st : BwdBufs α × (ℕ → α)) (j : ℕ) :
    (bwdSpatialStep sqrt sh a c st).1.dbiasPtr j =
      if j = c then sh.spatial.dbiasSum a 0 j else st.1.dbiasPtr j := by
  simp only [bwdSpatialStep, bwdSpatialXhatPass_dbiasPtr, Function.update_apply]
  split_ifs with h
  · subst h; simp [Grouping.dbiasSum]
  · rfl

theorem bwdSpatialStep_dscalePtr (c : ℕ) (st : BwdBufs α × (ℕ → α)) (j : ℕ) :
    (bwdSpatialStep sqrt sh a c st).1.dscalePtr j =
      if j = c then sh.spatial.dscaleSum a (sh.spatial.mean a.xPtr)
        (fun g => 1 / sqrt (sh.spatial.variance a.xPtr g + a.epsilon)) 0 j
      else st.1.dscalePtr j := by
  simp only [bwdSpatialStep, bwdSpatialXhatPass_dscalePtr, Function.update_apply, spatialMean_eq,
    bwdSpatialVariance_eq, spatial_NHW]
  split_ifs with h
  · subst h; simp [Grouping.dscaleSum]
  · rfl

theorem bwdSpatialStep_dxPtr {c : ℕ} (hc : c < sh.channels) (st : BwdBufs α × (ℕ → α)) (p : ℕ) :
    (bwdSpatialStep sqrt sh a c st).1.dxPtr p =
      if p < sh.spatial.numel ∧ sh.spatial.groupOf p = c then
        let M := sh.spatial.mean a.xPtr
        let I := fun g => 1 / sqrt (sh.spatial.variance a.xPtr g + a.epsilon)
        sh.spatial.spatialDx a M I (sh.spatial.dscaleSum a M I 0) (sh.spatial.dbiasSum a 0) p
      else st.1.dxPtr p := by
  have hs := bwdSpatialStep_dscalePtr sqrt sh a c st c
  have hb := bwdSpatialStep_dbiasPtr sqrt sh a c st c
  simp only [if_pos rfl] at hs hb
  simp only [bwdSpatialStep, spatialMean_eq, bwdSpatialVariance_eq, spatial_NHW] at hs hb ⊢
  rw [bwdSpatialXhatDxPass_apply sh a hc _ _ _ (fun q => (a.xPtr q - sh.spatial.mean a.xPtr c) *
      (1 / sqrt (sh.spatial.variance a.xPtr c + a.epsilon))) _
      (fun b hb j hj => bwdSpatialXhatPass_xhat sh a c _ _ _ hb hj), hs, hb,
    bwdSpatialXhatPass_dxPtr]
  split_ifs with h
  · simp only [Grouping.spatialDx, h.2, neg_mul]
  · rfl

end SpatialRecompute

/-- The spatial backward routine of the `MIO_HEIRARCH_SEL == 0` build writes `Grouping.spatialBwd`
with the saved or the recomputed statistics, accumulating from zero on the recompute path. -/
theorem miopenBNBwdSpatialRunHost_eq (sqrt : α → α) (sh : Shape) (a : BwdArgs α) (b : BwdBufs α) :
    miopenBNBwdSpatialRunHost false sqrt sh a b = sh.spatial.spatialBwd a (sh.spatial.bwdMean a)
      (sh.spatial.bwdInvVar sqrt a) (!a.savedmeanvar) b := by
  unfold miopenBNBwdSpatialRunHost Grouping.bwdMean Grouping.bwdInvVar
  cases h : a.savedmeanvar
  · simp only [Bool.false_eq_true, ↓reduceIte, Bool.not_false]
    let M := sh.spatial.mean a.xPtr
    let I := fun g => 1 / sqrt (sh.spatial.variance a.xPtr g + a.epsilon)
    ext p
    · exact sh.spatial.fold_groups (fun p (st : BwdBufs α × (ℕ → α)) => st.1.dxPtr p)
        (fun p _ => sh.spatial.spatialDx a M I (sh.spatial.dscaleSum a M I 0)
          (sh.spatial.dbiasSum a 0) p) _
        (fun g hg p st => bwdSpatialStep_dxPtr sqrt sh a hg st p) p (b, fun _ => 0)
    · exact fold_update (fun j (st : BwdBufs α × (ℕ → α)) => st.1.dscalePtr j)
        (fun j _ => sh.spatial.dscaleSum a M I 0 j)
        (fun i _ j st => bwdSpatialStep_dscalePtr sqrt sh a i st j) p (b, fun _ => 0)
    · exact fold_update (fun j (st : BwdBufs α × (ℕ → α)) => st.1.dbiasPtr j)
        (fun j _ => sh.spatial.dbiasSum a 0 j)
        (fun i _ j st => bwdSpatialStep_dbiasPtr sqrt sh a i st j) p (b, fun _ => 0)
  · simp only [↓reduceIte, Bool.not_true]
    ext p
    · exact sh.spatial.fold_groups_with (fun p (s : BwdBufs α) => s.dxPtr p)
        (fun g s => (s.dscalePtr g, s.dbiasPtr g))
        (fun p d _ => sh.spatial.spatialDx a a.savedMean a.savedInvVariance
          (sh.spatial.dscaleSum a a.savedMean a.savedInvVariance d.1) (sh.spatial.dbiasSum a d.2) p)
        (fun g d => (sh.spatial.dscaleSum a a.savedMean a.savedInvVariance d.1 g,
          sh.spatial.dbiasSum a d.2 g)) _
        (fun g hg p s => bwdSpatialSavedStep_dxPtr sh a hg s p)
        (fun g _ j s => by
          dsimp only
          rw [bwdSpatialSavedStep_dscalePtr, bwdSpatialSavedStep_dbiasPtr]
          split_ifs <;> rfl) p b
    · exact fold_update (fun j (s : BwdBufs α) => s.dscalePtr j)
        (fun j v => sh.spatial.dscaleSum a a.savedMean a.savedInvVariance v j)
        (fun i _ j s => bwdSpatialSavedStep_dscalePtr sh a i s j) p b
    · exact fold_update (fun j (s : BwdBufs α) => s.dbiasPtr j)
        (fun j v => sh.spatial.dbiasSum a v j)
        (fun i _ j s => bwdSpatialSavedStep_dbiasPtr sh a i s j) p b

/-- The body of the channel loop of `miopenBNBwdSpatialRunHost` in the `MIO_HEIRARCH_SEL == 0`
build, on the buffers and the `xhat` vector, with the test of `savedmeanvar` taken inside. -/
def bwdSpatialBody (sqrt : α → α) (sh : Shape) (a : BwdArgs α) (cidx : ℕ)
    (st : BwdBufs α × (ℕ → α)) : BwdBufs α × (ℕ → α) :=
  if a.savedmeanvar then (bwdSpatialSavedStep sh a cidx st.1, st.2)
  else bwdSpatialStep sqrt sh a cidx st

theorem miopenBNBwdSpatialRunHost_eq_fold (sqrt : α → α) (sh : Shape) (a : BwdArgs α)
    (b : BwdBufs α) :
    miopenBNBwdSpatialRunHost false sqrt sh a b =
      (Nat.fold (bwdSpatialBody sqrt sh a) sh.channels (b, fun _ => 0)).1 := by
  unfold miopenBNBwdSpatialRunHost bwdSpatialBody
  cases a.savedmeanvar
  · rfl
  · simp only [↓reduceIte]
    exact (fold_map Prod.fst (g := bwdSpatialSavedStep sh a) (fun _ _ => rfl) _ (b, _)).symm

end MIOpen.BatchNorm
