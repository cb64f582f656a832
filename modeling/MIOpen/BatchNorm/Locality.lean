import MIOpen.BatchNorm.Bwd

/-!
# Group independence of the host routines

Each of the six host routines of the `MIO_HEIRARCH_SEL == 0` build is a loop over its groups (the
`adjIndex` of the per-activation routines, the channel of the spatial ones). The body of group `g`
writes only the cells `g` owns: its elements of `out_ptr` or `dx_ptr` and entry `g` of each
per-group buffer. On those cells it writes what the whole call writes there (`Grouping.fwdTrain`,
`Grouping.fwdInfer`, `Grouping.perActivationBwd`, `Grouping.spatialBwd`), and that reads the
arguments only at the elements of `g` and at entry `g`, and the buffers only at the cells of `g`.
The `xhat` vector the backward routines share between groups, and the output the spatial forward
routines use as scratch, are written by a group before it reads them, so no value crosses from one
group to another.

So every body is `GroupLocal`, and running the group bodies in any order leaves every buffer as
the routine leaves it (`hostRoutines_groupwise`).
-/

namespace MIOpen.BatchNorm

open Finset

variable {α : Type*}

/-! ## Elements and cells of a group -/

namespace Grouping

variable (G : Grouping)

/-- Element `p` of the tensor belongs to group `g`. -/
def Owns (g p : ℕ) : Prop := p < G.numel ∧ G.groupOf p = g

instance (g p : ℕ) : Decidable (G.Owns g p) := inferInstanceAs (Decidable (_ ∧ _))

variable {G}

theorem owns_elem {g k : ℕ} (hg : g < G.count) (hk : k < G.size) : G.Owns g (G.elem g k) :=
  ⟨G.elem_lt hg hk, G.groupOf_elem hg hk⟩

theorem Owns.unique {g g' p : ℕ} (h : G.Owns g p) (h' : G.Owns g' p) : g = g' :=
  h.2.symm.trans h'.2

end Grouping

/-- A cell of the buffers the training routines write. -/
inductive TrainCell
  | outPtr (p : ℕ)
  | saveMean (g : ℕ)
  | saveInvVariance (g : ℕ)
  | runningMean (g : ℕ)
  | runningVariance (g : ℕ)

/-- The value of a cell. -/
def TrainBufs.read (b : TrainBufs α) : TrainCell → α
  | .outPtr p => b.outPtr p
  | .saveMean g => b.saveMean g
  | .saveInvVariance g => b.saveInvVariance g
  | .runningMean g => b.runningMean g
  | .runningVariance g => b.runningVariance g

/-- The cells of group `g`: its elements of `out_ptr` and entry `g` of the statistics buffers. -/
def TrainCell.Owns (G : Grouping) (g : ℕ) : TrainCell → Prop
  | .outPtr p => G.Owns g p
  | .saveMean j | .saveInvVariance j | .runningMean j | .runningVariance j => j = g

instance (G : Grouping) (g : ℕ) : ∀ c, Decidable (TrainCell.Owns G g c)
  | .outPtr p => inferInstanceAs (Decidable (G.Owns g p))
  | .saveMean j | .saveInvVariance j | .runningMean j | .runningVariance j =>
    inferInstanceAs (Decidable (j = g))

theorem TrainCell.Owns.unique {G : Grouping} {g g' : ℕ} :
    ∀ {c : TrainCell}, c.Owns G g → c.Owns G g' → g = g'
  | .outPtr _, h, h' => Grouping.Owns.unique h h'
  | .saveMean _, h, h' | .saveInvVariance _, h, h' | .runningMean _, h, h'
  | .runningVariance _, h, h' => h.symm.trans h'

theorem TrainBufs.ext_read {b b' : TrainBufs α} (h : ∀ c, b.read c = b'.read c) : b = b' :=
  TrainBufs.ext (funext fun p => h (.outPtr p)) (funext fun g => h (.saveMean g))
    (funext fun g => h (.saveInvVariance g)) (funext fun g => h (.runningMean g))
    (funext fun g => h (.runningVariance g))

/-- A cell of the buffers the backward routines write. -/
inductive BwdCell
  | dxPtr (p : ℕ)
  | dscalePtr (g : ℕ)
  | dbiasPtr (g : ℕ)

/-- The value of a cell. -/
def BwdBufs.read (b : BwdBufs α) : BwdCell → α
  | .dxPtr p => b.dxPtr p
  | .dscalePtr g => b.dscalePtr g
  | .dbiasPtr g => b.dbiasPtr g

/-- The cells of group `g`: its elements of `dx_ptr` and entry `g` of `dscale_ptr` and
`dbias_ptr`. -/
def BwdCell.Owns (G : Grouping) (g : ℕ) : BwdCell → Prop
  | .dxPtr p => G.Owns g p
  | .dscalePtr j | .dbiasPtr j => j = g

instance (G : Grouping) (g : ℕ) : ∀ c, Decidable (BwdCell.Owns G g c)
  | .dxPtr p => inferInstanceAs (Decidable (G.Owns g p))
  | .dscalePtr j | .dbiasPtr j => inferInstanceAs (Decidable (j = g))

theorem BwdCell.Owns.unique {G : Grouping} {g g' : ℕ} :
    ∀ {c : BwdCell}, c.Owns G g → c.Owns G g' → g = g'
  | .dxPtr _, h, h' => Grouping.Owns.unique h h'
  | .dscalePtr _, h, h' | .dbiasPtr _, h, h' => h.symm.trans h'

theorem BwdBufs.ext_read {b b' : BwdBufs α} (h : ∀ c, b.read c = b'.read c) : b = b' :=
  BwdBufs.ext (funext fun p => h (.dxPtr p)) (funext fun g => h (.dscalePtr g))
    (funext fun g => h (.dbiasPtr g))

/-! ## What the body of a group reads -/

/-- Training arguments that agree on what group `g` reads: its elements of `in_ptr`, entry `g` of
`scale_ptr` and `bias_ptr`, and the scalars. -/
structure TrainArgs.AgreeOn (G : Grouping) (g : ℕ) (a a' : TrainArgs α) : Prop where
  inPtr : ∀ p, G.Owns g p → a.inPtr p = a'.inPtr p
  scalePtr : a.scalePtr g = a'.scalePtr g
  biasPtr : a.biasPtr g = a'.biasPtr g
  epsilon : a.epsilon = a'.epsilon
  savemeanvar : a.savemeanvar = a'.savemeanvar
  runningmeanvar : a.runningmeanvar = a'.runningmeanvar
  expAvgFactor : a.expAvgFactor = a'.expAvgFactor

/-- Inference arguments that agree on what group `g` reads: its elements of `in_ptr`, entry `g` of
`scale_ptr`, `bias_ptr` and the estimates, and the scalars. -/
structure InferArgs.AgreeOn (G : Grouping) (g : ℕ) (a a' : InferArgs α) : Prop where
  inPtr : ∀ p, G.Owns g p → a.inPtr p = a'.inPtr p
  scalePtr : a.scalePtr g = a'.scalePtr g
  biasPtr : a.biasPtr g = a'.biasPtr g
  epsilon : a.epsilon = a'.epsilon
  estmeanvar : a.estmeanvar = a'.estmeanvar
  estimatedMean : a.estimatedMean g = a'.estimatedMean g
  estimatedVariance : a.estimatedVariance g = a'.estimatedVariance g

/-- Backward arguments that agree on what group `g` reads: its elements of `x_ptr` and `dy_ptr`,
entry `g` of `scale_ptr` and the saved statistics, and the scalars. -/
structure BwdArgs.AgreeOn (G : Grouping) (g : ℕ) (a a' : BwdArgs α) : Prop where
  xPtr : ∀ p, G.Owns g p → a.xPtr p = a'.xPtr p
  dyPtr : ∀ p, G.Owns g p → a.dyPtr p = a'.dyPtr p
  scalePtr : a.scalePtr g = a'.scalePtr g
  epsilon : a.epsilon = a'.epsilon
  savedmeanvar : a.savedmeanvar = a'.savedmeanvar
  savedMean : a.savedMean g = a'.savedMean g
  savedInvVariance : a.savedInvVariance g = a'.savedInvVariance g

theorem TrainArgs.AgreeOn.refl (G : Grouping) (g : ℕ) (a : TrainArgs α) : a.AgreeOn G g a :=
  ⟨fun _ _ => rfl, rfl, rfl, rfl, rfl, rfl, rfl⟩

theorem InferArgs.AgreeOn.refl (G : Grouping) (g : ℕ) (a : InferArgs α) : a.AgreeOn G g a :=
  ⟨fun _ _ => rfl, rfl, rfl, rfl, rfl, rfl, rfl⟩

theorem BwdArgs.AgreeOn.refl (G : Grouping) (g : ℕ) (a : BwdArgs α) : a.AgreeOn G g a :=
  ⟨fun _ _ => rfl, fun _ _ => rfl, rfl, rfl, rfl, rfl, rfl⟩

theorem BwdArgs.AgreeOn.xPtr_elem {G : Grouping} {g : ℕ} {a a' : BwdArgs α}
    (ha : a.AgreeOn G g a') (hg : g < G.count) :
    ∀ k ∈ range G.size, a.xPtr (G.elem g k) = a'.xPtr (G.elem g k) :=
  fun _ hk => ha.xPtr _ (Grouping.owns_elem hg (mem_range.1 hk))

theorem BwdArgs.AgreeOn.dyPtr_elem {G : Grouping} {g : ℕ} {a a' : BwdArgs α}
    (ha : a.AgreeOn G g a') (hg : g < G.count) :
    ∀ k ∈ range G.size, a.dyPtr (G.elem g k) = a'.dyPtr (G.elem g k) :=
  fun _ hk => ha.dyPtr _ (Grouping.owns_elem hg (mem_range.1 hk))

variable [Field α]

namespace Grouping

variable {G : Grouping} {g : ℕ}

theorem sum_congr_owns (hg : g < G.count) {f f' : ℕ → α} (h : ∀ p, G.Owns g p → f p = f' p) :
    G.sum f g = G.sum f' g :=
  Finset.sum_congr rfl fun _ hk => h _ (owns_elem hg (mem_range.1 hk))

theorem mean_congr_owns (hg : g < G.count) {x x' : ℕ → α} (h : ∀ p, G.Owns g p → x p = x' p) :
    G.mean x g = G.mean x' g := by
  rw [mean, mean, sum_congr_owns hg h]

theorem variance_congr_owns (hg : g < G.count) {x x' : ℕ → α} (h : ∀ p, G.Owns g p → x p = x' p) :
    G.variance x g = G.variance x' g := by
  rw [variance, variance, mean_congr_owns hg h]
  congr 1
  exact sum_congr_owns hg fun p hp => by rw [h p hp]

theorem normalize_congr (sqrt : α → α) {p : ℕ} (hp : G.Owns g p) {x x' scale scale' bias bias'
    mean mean' var var' : ℕ → α} {epsilon epsilon' : α} (hx : x p = x' p)
    (hs : scale g = scale' g) (hb : bias g = bias' g) (he : epsilon = epsilon')
    (hm : mean g = mean' g) (hv : var g = var' g) :
    G.normalize sqrt x scale bias epsilon mean var p =
      G.normalize sqrt x' scale' bias' epsilon' mean' var' p := by
  simp only [normalize, hp.2, hx, hs, hb, he, hm, hv]

/-- On a cell of group `g` the training forward reads the arguments as `AgreeOn` sees them and the
buffers at the cells of `g`. -/
theorem fwdTrain_read_congr (sqrt : α → α) (hg : g < G.count) {a a' : TrainArgs α}
    (ha : a.AgreeOn G g a') {b b' : TrainBufs α} (hb : ∀ c, c.Owns G g → b.read c = b'.read c)
    {c : TrainCell} (hc : c.Owns G g) :
    (G.fwdTrain sqrt a b).read c = (G.fwdTrain sqrt a' b').read c := by
  have hm := mean_congr_owns hg ha.inPtr
  have hv := variance_congr_owns hg ha.inPtr
  have hbc := hb c hc
  cases c with
  | outPtr p =>
    simp only [TrainBufs.read, fwdTrain, if_pos hc.1]
    exact normalize_congr sqrt hc (ha.inPtr p hc) ha.scalePtr ha.biasPtr ha.epsilon hm hv
  | saveMean j | saveInvVariance j | runningMean j | runningVariance j =>
    obtain rfl : j = g := hc
    simp only [TrainBufs.read] at hbc ⊢
    simp only [fwdTrain, ha.savemeanvar, ha.runningmeanvar, ha.epsilon, ha.expAvgFactor, hm, hv,
      hbc]

/-- On an element of group `g` the inference forward reads the arguments as `AgreeOn` sees
them. -/
theorem fwdInfer_congr (sqrt : α → α) (hg : g < G.count) {a a' : InferArgs α}
    (ha : a.AgreeOn G g a') (out out' : ℕ → α) {p : ℕ} (hp : G.Owns g p) :
    G.fwdInfer sqrt a out p = G.fwdInfer sqrt a' out' p := by
  simp only [fwdInfer, if_pos hp.1, ha.estmeanvar]
  split_ifs
  · exact normalize_congr sqrt hp (ha.inPtr p hp) ha.scalePtr ha.biasPtr ha.epsilon
      ha.estimatedMean ha.estimatedVariance
  · exact normalize_congr sqrt hp (ha.inPtr p hp) ha.scalePtr ha.biasPtr ha.epsilon
      (mean_congr_owns hg ha.inPtr) (variance_congr_owns hg ha.inPtr)

section Bwd

variable {a a' : BwdArgs α} (ha : a.AgreeOn G g a') (hg : g < G.count)
include ha hg

theorem bwdMean_congr : G.bwdMean a g = G.bwdMean a' g := by
  unfold bwdMean
  rw [ha.savedmeanvar]
  split
  · exact ha.savedMean
  · exact mean_congr_owns hg ha.xPtr

theorem bwdInvVar_congr (sqrt : α → α) : G.bwdInvVar sqrt a g = G.bwdInvVar sqrt a' g := by
  unfold bwdInvVar
  rw [ha.savedmeanvar]
  split
  · exact ha.savedInvVariance
  · show invVariance sqrt (G.variance a.xPtr g) a.epsilon = _
    rw [variance_congr_owns hg ha.xPtr, ha.epsilon]

theorem dbiasSum_congr (start : α) : G.dbiasSum a start g = G.dbiasSum a' start g := by
  rw [dbiasSum, dbiasSum, sum_congr_owns hg ha.dyPtr]

theorem dscaleSum_congr (sqrt : α → α) (start : α) :
    G.dscaleSum a (G.bwdMean a) (G.bwdInvVar sqrt a) start g =
      G.dscaleSum a' (G.bwdMean a') (G.bwdInvVar sqrt a') start g := by
  rw [dscaleSum, dscaleSum, bwdMean_congr ha hg, bwdInvVar_congr ha hg sqrt]
  congr 2
  exact sum_congr_owns hg fun p hp => by rw [ha.xPtr p hp, ha.dyPtr p hp]

theorem perActivationDx_congr (sqrt : α → α) {p : ℕ} (hp : G.Owns g p) :
    G.perActivationDx a (G.bwdMean a) (G.bwdInvVar sqrt a) p =
      G.perActivationDx a' (G.bwdMean a') (G.bwdInvVar sqrt a') p := by
  simp +contextual only [perActivationDx, hp.2, bwdMean_congr ha hg, bwdInvVar_congr ha hg sqrt,
    ha.scalePtr, ha.xPtr p hp, sum, ha.xPtr_elem hg, ha.dyPtr_elem hg]

/-- On a cell of group `g` the per-activation backward reads the arguments as `AgreeOn` sees them
and the buffers at that cell. -/
theorem perActivationBwd_read_congr (sqrt : α → α) {b b' : BwdBufs α}
    (hb : ∀ c, c.Owns G g → b.read c = b'.read c) {c : BwdCell} (hc : c.Owns G g) :
    (G.perActivationBwd a (G.bwdMean a) (G.bwdInvVar sqrt a) b).read c =
      (G.perActivationBwd a' (G.bwdMean a') (G.bwdInvVar sqrt a') b').read c := by
  have hbc := hb c hc
  cases c with
  | dxPtr p =>
    simp only [BwdBufs.read, perActivationBwd, if_pos hc.1, perActivationDx_congr ha hg sqrt hc]
  | dscalePtr j | dbiasPtr j =>
    obtain rfl : j = g := hc
    simp only [BwdBufs.read] at hbc ⊢
    simp only [perActivationBwd, if_pos hg, hbc, dscaleSum_congr ha hg sqrt, dbiasSum_congr ha hg]

/-- On a cell of group `g` the spatial backward reads the arguments as `AgreeOn` sees them and the
buffers at the cells of `g`. -/
theorem spatialBwd_read_congr (sqrt : α → α) (zeroed : Bool) {b b' : BwdBufs α}
    (hb : ∀ c, c.Owns G g → b.read c = b'.read c) {c : BwdCell} (hc : c.Owns G g) :
    (G.spatialBwd a (G.bwdMean a) (G.bwdInvVar sqrt a) zeroed b).read c =
      (G.spatialBwd a' (G.bwdMean a') (G.bwdInvVar sqrt a') zeroed b').read c := by
  have hs : b.dscalePtr g = b'.dscalePtr g := hb (.dscalePtr g) rfl
  have hd : b.dbiasPtr g = b'.dbiasPtr g := hb (.dbiasPtr g) rfl
  cases c with
  | dxPtr p =>
    simp only [BwdBufs.read, spatialBwd, if_pos hc.1, spatialDx, hc.2, bwdMean_congr ha hg,
      bwdInvVar_congr ha hg sqrt, ha.scalePtr, ha.xPtr p hc, ha.dyPtr p hc, hs, hd,
      dscaleSum_congr ha hg sqrt, dbiasSum_congr ha hg]
  | dscalePtr j | dbiasPtr j =>
    obtain rfl : j = g := hc
    simp only [BwdBufs.read, spatialBwd, if_pos hg, hs, hd, dscaleSum_congr ha hg sqrt,
      dbiasSum_congr ha hg]

end Bwd

end Grouping

/-! ## Each body writes the whole call's values on its own cells -/

/-- A step that writes group `g` of the training forward as `fold_fwdTrain` asks writes, on each
cell of `g`, what the whole call writes there, and leaves every other cell. -/
theorem Grouping.read_of_fwdTrain_step (G : Grouping) (sqrt : α → α) (a : TrainArgs α) {g : ℕ}
    (hg : g < G.count) {step : TrainBufs α → TrainBufs α}
    (hout : ∀ p s, (step s).outPtr p = if p < G.numel ∧ G.groupOf p = g then
        G.batchNormalize sqrt a.inPtr a.scalePtr a.biasPtr a.epsilon p else s.outPtr p)
    (hmean : ∀ j s, (step s).saveMean j =
      if j = g then (if a.savemeanvar then G.mean a.inPtr j else s.saveMean j) else s.saveMean j)
    (hinv : ∀ j s, (step s).saveInvVariance j =
      if j = g then (if a.savemeanvar then
        invVariance sqrt (G.variance a.inPtr j) a.epsilon else s.saveInvVariance j)
      else s.saveInvVariance j)
    (hrmean : ∀ j s, (step s).runningMean j =
      if j = g then (if a.runningmeanvar then
        G.mean a.inPtr j * a.expAvgFactor + s.runningMean j * (1 - a.expAvgFactor)
        else s.runningMean j)
      else s.runningMean j)
    (hrvar : ∀ j s, (step s).runningVariance j =
      if j = g then (if a.runningmeanvar then a.expAvgFactor * s.runningVariance j +
        (1 - a.expAvgFactor) * G.adjust (G.variance a.inPtr j)
        else s.runningVariance j)
      else s.runningVariance j)
    (s : TrainBufs α) (c : TrainCell) :
    (step s).read c = if c.Owns G g then (G.fwdTrain sqrt a s).read c else s.read c := by
  cases c <;> simp +contextual only [TrainBufs.read, TrainCell.Owns, Grouping.Owns,
    Grouping.fwdTrain, hout, hmean, hinv, hrmean, hrvar, hg, ↓reduceIte, and_true]

section Bodies

variable (sqrt : α → α) (sh : Shape)

theorem fwdTrainPerActivation_groupLocal :
    GroupLocal (TrainCell.Owns sh.perActivation) TrainBufs.read
      (TrainArgs.AgreeOn sh.perActivation) sh.inNstride (fwdTrainPerActivationStep sqrt sh) :=
  .of_step (fun a b => sh.perActivation.fwdTrain sqrt a b)
    (fun a g hg => sh.perActivation.read_of_fwdTrain_step sqrt a hg
      (fun p s => fwdTrainPerActivationStep_outPtr sqrt sh a s hg p)
      (fun j s => fwdTrainPerActivationStep_saveMean sqrt sh a s g j)
      (fun j s => fwdTrainPerActivationStep_saveInvVariance sqrt sh a s g j)
      (fun j s => fwdTrainPerActivationStep_runningMean sqrt sh a s g j)
      (fun j s => fwdTrainPerActivationStep_runningVariance sqrt sh a s g j))
    (fun _ hg _ _ ha _ _ hb _ hc => Grouping.fwdTrain_read_congr sqrt hg ha hb hc)

theorem fwdTrainSpatial_groupLocal :
    GroupLocal (TrainCell.Owns sh.spatial) TrainBufs.read (TrainArgs.AgreeOn sh.spatial)
      sh.channels (fwdTrainSpatialStep false sqrt sh) :=
  .of_step (fun a b => sh.spatial.fwdTrain sqrt a b)
    (fun a g hg => sh.spatial.read_of_fwdTrain_step sqrt a hg
      (fun p s => fwdTrainSpatialStep_outPtr sqrt sh a s hg p)
      (fun j s => fwdTrainSpatialStep_saveMean sqrt sh a s g j)
      (fun j s => fwdTrainSpatialStep_saveInvVariance sqrt sh a s g j)
      (fun j s => fwdTrainSpatialStep_runningMean sqrt sh a s g j)
      (fun j s => fwdTrainSpatialStep_runningVariance sqrt sh a s g j))
    (fun _ hg _ _ ha _ _ hb _ hc => Grouping.fwdTrain_read_congr sqrt hg ha hb hc)

theorem fwdInferPerActivation_groupLocal :
    GroupLocal sh.perActivation.Owns (fun out p => out p) (InferArgs.AgreeOn sh.perActivation)
      sh.inNstride (fwdInferPerActivationBody sqrt sh) :=
  .of_step (fun a out => sh.perActivation.fwdInfer sqrt a out)
    (fun a _ hg out p => by
      rw [fwdInferPerActivationBody_apply sqrt sh a hg]
      simp +contextual [Grouping.Owns, Grouping.fwdInfer])
    (fun _ hg _ _ ha out out' _ _ hp => Grouping.fwdInfer_congr sqrt hg ha out out' hp)

theorem fwdInferSpatial_groupLocal :
    GroupLocal sh.spatial.Owns (fun out p => out p) (InferArgs.AgreeOn sh.spatial)
      sh.channels (fwdInferSpatialBody false sqrt sh) :=
  .of_step (fun a out => sh.spatial.fwdInfer sqrt a out)
    (fun a _ hg out p => by
      rw [fwdInferSpatialBody_apply sqrt sh a hg]
      simp +contextual [Grouping.Owns, Grouping.fwdInfer])
    (fun _ hg _ _ ha out out' _ _ hp => Grouping.fwdInfer_congr sqrt hg ha out out' hp)

theorem bwdPerActivation_groupLocal :
    GroupLocal (BwdCell.Owns sh.perActivation) (fun st c => st.1.read c)
      (BwdArgs.AgreeOn sh.perActivation) sh.inNstride (bwdPerActivationBody sqrt sh) :=
  .of_step (fun a st => (sh.perActivation.perActivationBwd a (sh.perActivation.bwdMean a)
      (sh.perActivation.bwdInvVar sqrt a) st.1, st.2))
    (fun a _ hg st c => by
      rw [bwdPerActivationBody_eq]
      cases c <;> simp +contextual only [BwdBufs.read, BwdCell.Owns, Grouping.Owns,
        Grouping.perActivationBwd, bwdPerActivationStep_dxPtr sh a _ _ hg,
        bwdPerActivationStep_dscalePtr, bwdPerActivationStep_dbiasPtr, Shape.perActivation_count,
        hg, ↓reduceIte])
    (fun _ hg _ _ ha _ _ hst _ hc => Grouping.perActivationBwd_read_congr ha hg sqrt hst hc)

theorem bwdSpatial_groupLocal :
    GroupLocal (BwdCell.Owns sh.spatial) (fun st c => st.1.read c) (BwdArgs.AgreeOn sh.spatial)
      sh.channels (bwdSpatialBody sqrt sh) :=
  .of_step (fun a st => (sh.spatial.spatialBwd a (sh.spatial.bwdMean a)
      (sh.spatial.bwdInvVar sqrt a) (!a.savedmeanvar) st.1, st.2))
    (fun a _ hg st c => by
      cases h : a.savedmeanvar <;> cases c <;>
        simp +contextual only [bwdSpatialBody, h, BwdBufs.read, BwdCell.Owns, Grouping.Owns,
          Grouping.spatialBwd, Grouping.spatialDx, Grouping.bwdMean, Grouping.bwdInvVar,
          invVariance, bwdSpatialSavedStep_dxPtr sh a hg, bwdSpatialSavedStep_dscalePtr,
          bwdSpatialSavedStep_dbiasPtr, bwdSpatialStep_dxPtr sqrt sh a hg,
          bwdSpatialStep_dscalePtr, bwdSpatialStep_dbiasPtr, Shape.spatial_count, hg, ↓reduceIte,
          Bool.not_false, Bool.not_true, Bool.false_eq_true])
    (fun _ hg _ _ ha _ _ hst _ hc => by
      dsimp only
      rw [ha.savedmeanvar]
      exact Grouping.spatialBwd_read_congr ha hg sqrt _ hst hc)

/-! ## Any order of the groups -/

variable {sqrt sh} {l : List ℕ}

theorem fwdTrainPerActivation_runGroups (a : TrainArgs α) (b : TrainBufs α)
    (hp : l.Perm (List.range sh.inNstride)) :
    runGroups (fwdTrainPerActivationStep sqrt sh a) l b =
      miopenBNFwdTrainPerActivationRunHost sqrt sh a b := by
  rw [miopenBNFwdTrainPerActivationRunHost_eq_fold]
  exact TrainBufs.ext_read (((fwdTrainPerActivation_groupLocal sqrt sh).localBody
    (TrainArgs.AgreeOn.refl _) a).runGroups_perm (fun _ _ _ => TrainCell.Owns.unique) hp b)

theorem fwdTrainSpatial_runGroups (a : TrainArgs α) (b : TrainBufs α)
    (hp : l.Perm (List.range sh.channels)) :
    runGroups (fwdTrainSpatialStep false sqrt sh a) l b =
      miopenBNFwdTrainSpatialRunHost false sqrt sh a b :=
  TrainBufs.ext_read (((fwdTrainSpatial_groupLocal sqrt sh).localBody
    (TrainArgs.AgreeOn.refl _) a).runGroups_perm (fun _ _ _ => TrainCell.Owns.unique) hp b)

theorem fwdInferPerActivation_runGroups (a : InferArgs α) (out : ℕ → α)
    (hp : l.Perm (List.range sh.inNstride)) :
    runGroups (fwdInferPerActivationBody sqrt sh a) l out =
      miopenBNFwdInferPerActivationRunHost sqrt sh a out := by
  rw [miopenBNFwdInferPerActivationRunHost_eq_fold]
  exact funext (((fwdInferPerActivation_groupLocal sqrt sh).localBody
    (InferArgs.AgreeOn.refl _) a).runGroups_perm (fun _ _ _ => Grouping.Owns.unique) hp out)

theorem fwdInferSpatial_runGroups (a : InferArgs α) (out : ℕ → α)
    (hp : l.Perm (List.range sh.channels)) :
    runGroups (fwdInferSpatialBody false sqrt sh a) l out =
      miopenBNFwdInferSpatialRunHost false sqrt sh a out := by
  rw [miopenBNFwdInferSpatialRunHost_eq_fold]
  exact funext (((fwdInferSpatial_groupLocal sqrt sh).localBody
    (InferArgs.AgreeOn.refl _) a).runGroups_perm (fun _ _ _ => Grouping.Owns.unique) hp out)

theorem bwdPerActivation_runGroups (a : BwdArgs α) (b : BwdBufs α) (xhat : ℕ → α)
    (hp : l.Perm (List.range sh.inNstride)) :
    (runGroups (bwdPerActivationBody sqrt sh a) l (b, xhat)).1 =
      miopenBNBwdPerActivationRunHost sqrt sh a b := by
  have hl := (bwdPerActivation_groupLocal sqrt sh).localBody (BwdArgs.AgreeOn.refl _) a
  rw [miopenBNBwdPerActivationRunHost_eq_fold]
  exact BwdBufs.ext_read fun c =>
    (hl.runGroups_perm (fun _ _ _ => BwdCell.Owns.unique) hp _ c).trans
    (hl.fold_congr (b, xhat) (b, fun _ => 0) (fun _ => rfl) c)

theorem bwdSpatial_runGroups (a : BwdArgs α) (b : BwdBufs α) (xhat : ℕ → α)
    (hp : l.Perm (List.range sh.channels)) :
    (runGroups (bwdSpatialBody sqrt sh a) l (b, xhat)).1 =
      miopenBNBwdSpatialRunHost false sqrt sh a b := by
  have hl := (bwdSpatial_groupLocal sqrt sh).localBody (BwdArgs.AgreeOn.refl _) a
  rw [miopenBNBwdSpatialRunHost_eq_fold]
  exact BwdBufs.ext_read fun c =>
    (hl.runGroups_perm (fun _ _ _ => BwdCell.Owns.unique) hp _ c).trans
    (hl.fold_congr (b, xhat) (b, fun _ => 0) (fun _ => rfl) c)

end Bodies

/-- The six host routines of the `MIO_HEIRARCH_SEL == 0` build with exact indices: each loop body
writes only the cells of its group and reads only what `AgreeOn` sees and the state at those cells,
and any order of the groups (from any `xhat` contents) leaves the buffers as the routine leaves
them. -/
theorem hostRoutines_groupwise (sqrt : α → α) (sh : Shape) :
    (GroupLocal (TrainCell.Owns sh.perActivation) TrainBufs.read
        (TrainArgs.AgreeOn sh.perActivation) sh.inNstride (fwdTrainPerActivationStep sqrt sh) ∧
      ∀ a b l, l.Perm (List.range sh.inNstride) →
        runGroups (fwdTrainPerActivationStep sqrt sh a) l b =
          miopenBNFwdTrainPerActivationRunHost sqrt sh a b) ∧
    (GroupLocal (TrainCell.Owns sh.spatial) TrainBufs.read (TrainArgs.AgreeOn sh.spatial)
        sh.channels (fwdTrainSpatialStep false sqrt sh) ∧
      ∀ a b l, l.Perm (List.range sh.channels) →
        runGroups (fwdTrainSpatialStep false sqrt sh a) l b =
          miopenBNFwdTrainSpatialRunHost false sqrt sh a b) ∧
    (GroupLocal sh.perActivation.Owns (fun out p => out p) (InferArgs.AgreeOn sh.perActivation)
        sh.inNstride (fwdInferPerActivationBody sqrt sh) ∧
      ∀ a out l, l.Perm (List.range sh.inNstride) →
        runGroups (fwdInferPerActivationBody sqrt sh a) l out =
          miopenBNFwdInferPerActivationRunHost sqrt sh a out) ∧
    (GroupLocal sh.spatial.Owns (fun out p => out p) (InferArgs.AgreeOn sh.spatial)
        sh.channels (fwdInferSpatialBody false sqrt sh) ∧
      ∀ a out l, l.Perm (List.range sh.channels) →
        runGroups (fwdInferSpatialBody false sqrt sh a) l out =
          miopenBNFwdInferSpatialRunHost false sqrt sh a out) ∧
    (GroupLocal (BwdCell.Owns sh.perActivation) (fun st c => st.1.read c)
        (BwdArgs.AgreeOn sh.perActivation) sh.inNstride (bwdPerActivationBody sqrt sh) ∧
      ∀ a b xhat l, l.Perm (List.range sh.inNstride) →
        (runGroups (bwdPerActivationBody sqrt sh a) l (b, xhat)).1 =
          miopenBNBwdPerActivationRunHost sqrt sh a b) ∧
    (GroupLocal (BwdCell.Owns sh.spatial) (fun st c => st.1.read c) (BwdArgs.AgreeOn sh.spatial)
        sh.channels (bwdSpatialBody sqrt sh) ∧
      ∀ a b xhat l, l.Perm (List.range sh.channels) →
        (runGroups (bwdSpatialBody sqrt sh a) l (b, xhat)).1 =
          miopenBNBwdSpatialRunHost false sqrt sh a b) :=
  ⟨⟨fwdTrainPerActivation_groupLocal sqrt sh, fun a b _ => fwdTrainPerActivation_runGroups a b⟩,
    ⟨fwdTrainSpatial_groupLocal sqrt sh, fun a b _ => fwdTrainSpatial_runGroups a b⟩,
    ⟨fwdInferPerActivation_groupLocal sqrt sh,
      fun a out _ => fwdInferPerActivation_runGroups a out⟩,
    ⟨fwdInferSpatial_groupLocal sqrt sh, fun a out _ => fwdInferSpatial_runGroups a out⟩,
    ⟨bwdPerActivation_groupLocal sqrt sh, fun a b xhat _ => bwdPerActivation_runGroups a b xhat⟩,
    ⟨bwdSpatial_groupLocal sqrt sh, fun a b xhat _ => bwdSpatial_runGroups a b xhat⟩⟩

end MIOpen.BatchNorm
