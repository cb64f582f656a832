import MIOpen.BatchNorm.Grouping

/-!
# The batch-normalization engine

What the routines are for, stated once over a `Grouping`: the two-pass statistics of each group,
the normalization `scale*(x - mean)*invVar + bias` of each element with its group's statistics,
the running-statistics blend, and the closed-form input gradient of the backward pass. The host
routines are shown to refine these definitions in the modules that model them.

The loop lemmas at the end, `fold_group`, `fold_groups` and `fold_groups_with`, are how a pass over
one group and the loop over all groups are matched with these pointwise definitions.
-/

namespace MIOpen.BatchNorm

open Finset

variable {α : Type*} [Field α]

/-- `1.0/sqrt(variance + epsilon)`. -/
def invVariance (sqrt : α → α) (variance epsilon : α) : α := 1 / sqrt (variance + epsilon)

namespace Grouping

variable (G : Grouping)

/-- The sum of `f` over the elements of group `g`. -/
def sum (f : ℕ → α) (g : ℕ) : α := ∑ k ∈ range G.size, f (G.elem g k)

theorem sum_mul_left (c : α) (f : ℕ → α) (g : ℕ) : G.sum (fun q => c * f q) g = c * G.sum f g :=
  (mul_sum _ _ _).symm

/-- The batch mean of group `g`. -/
def mean (x : ℕ → α) (g : ℕ) : α := G.sum x g / G.size

/-- The biased variance of group `g`, as the second pass computes it from the mean. -/
def variance (x : ℕ → α) (g : ℕ) : α :=
  G.sum (fun p => (x p - G.mean x g) * (x p - G.mean x g)) g / G.size

/-- The Bessel correction applied before blending into the running variance. -/
def adjust (v : α) : α := if G.size = 1 then v else (G.size : α) / ((G.size : α) - 1) * v

/-- The normalized element `p` with per-group statistics `mean`, `var`. -/
def normalize (sqrt : α → α) (x scale bias : ℕ → α) (epsilon : α) (mean var : ℕ → α) (p : ℕ) : α :=
  scale (G.groupOf p) * ((x p - mean (G.groupOf p)) *
    invVariance sqrt (var (G.groupOf p)) epsilon) + bias (G.groupOf p)

/-- The normalized element `p` with the batch statistics of its group. -/
def batchNormalize (sqrt : α → α) (x scale bias : ℕ → α) (epsilon : α) : ℕ → α :=
  G.normalize sqrt x scale bias epsilon (G.mean x) (G.variance x)

/-- A training forward call: fresh statistics for every group, saved and blended into the running
statistics on request, and every element normalized with them. -/
def fwdTrain (sqrt : α → α) (a : TrainArgs α) (b : TrainBufs α) : TrainBufs α where
  outPtr p := if p < G.numel then G.batchNormalize sqrt a.inPtr a.scalePtr a.biasPtr a.epsilon p
    else b.outPtr p
  saveMean g := if a.savemeanvar ∧ g < G.count then G.mean a.inPtr g else b.saveMean g
  saveInvVariance g := if a.savemeanvar ∧ g < G.count then
      invVariance sqrt (G.variance a.inPtr g) a.epsilon else b.saveInvVariance g
  runningMean g := if a.runningmeanvar ∧ g < G.count then
      G.mean a.inPtr g * a.expAvgFactor + b.runningMean g * (1 - a.expAvgFactor)
    else b.runningMean g
  runningVariance g := if a.runningmeanvar ∧ g < G.count then
      a.expAvgFactor * b.runningVariance g + (1 - a.expAvgFactor) * G.adjust (G.variance a.inPtr g)
    else b.runningVariance g

/-- An inference forward call: every element normalized with the supplied estimates, or with
fresh batch statistics when none are supplied. -/
def fwdInfer (sqrt : α → α) (a : InferArgs α) (out : ℕ → α) (p : ℕ) : α :=
  if p < G.numel then
    if a.estmeanvar then
      G.normalize sqrt a.inPtr a.scalePtr a.biasPtr a.epsilon a.estimatedMean a.estimatedVariance p
    else G.batchNormalize sqrt a.inPtr a.scalePtr a.biasPtr a.epsilon p
  else out p

/-- The input gradient of the training forward `y = scale*xhat + bias` contracted with `dy`,
`xhat = (x - mean)*invVar`: `(invVar/M)*(M*scale*dyᵢ - scale*Σdy - xhatᵢ*scale*Σ xhat*dy)`. -/
def bwdGrad (x dy scale mean invVar : ℕ → α) (p : ℕ) : α :=
  let g := G.groupOf p
  let xhat := fun q => (x q - mean g) * invVar g
  invVar g / G.size * (G.size * scale g * dy p - scale g * G.sum dy g -
    xhat p * scale g * G.sum (fun q => xhat q * dy q) g)

/-! ## Passes over a group and over all groups -/

variable {σ β : Type*}

theorem mem_group_iff {g p : ℕ} (hg : g < G.count) :
    (p < G.numel ∧ G.groupOf p = g) ↔ ∃ k < G.size, p = G.elem g k := by
  constructor
  · rintro ⟨hp, rfl⟩
    obtain ⟨k, hk, he⟩ := G.exists_elem hp
    exact ⟨k, hk, he.symm⟩
  · rintro ⟨k, hk, rfl⟩
    exact ⟨G.elem_lt hg hk, G.groupOf_elem hg hk⟩

/-- A pass over the elements of group `g` whose iteration `k` changes the observation at `p` only
when `p` is the `k`-th element. -/
theorem fold_group {g : ℕ} (hg : g < G.count) (obs : ℕ → σ → β) (F : ℕ → β → β)
    (body : ℕ → σ → σ)
    (h : ∀ k < G.size, ∀ p s, obs p (body k s) = if p = G.elem g k then F p (obs p s) else obs p s)
    (p : ℕ) (s : σ) :
    obs p (Nat.fold body G.size s) =
      if p < G.numel ∧ G.groupOf p = g then F p (obs p s) else obs p s := by
  split_ifs with hp
  · obtain ⟨k₀, hk₀, rfl⟩ := (G.mem_group_iff hg).1 hp
    refine fold_once (obs _) k₀ hk₀ (F _) (fun k hk hne t => ?_) (fun t => ?_) s
    · rw [h k hk, if_neg (G.elem_ne hg hg hk₀ hk (.inr (Ne.symm hne)))]
    · rw [h k₀ hk₀, if_pos rfl]
  · refine fold_frame (obs p) (fun k hk t => ?_) s
    rw [h k hk, if_neg fun he => hp ((G.mem_group_iff hg).2 ⟨k, hk, he⟩)]

/-- The loop over all groups whose iteration `g` changes the observation at `p` only when `p` is
an element of `g`. -/
theorem fold_groups (obs : ℕ → σ → β) (F : ℕ → β → β) (step : ℕ → σ → σ)
    (h : ∀ g < G.count, ∀ p s, obs p (step g s) =
      if p < G.numel ∧ G.groupOf p = g then F p (obs p s) else obs p s)
    (p : ℕ) (s : σ) :
    obs p (Nat.fold step G.count s) = if p < G.numel then F p (obs p s) else obs p s := by
  split_ifs with hp
  · refine fold_once (obs p) (G.groupOf p) (G.groupOf_lt hp) (F p) (fun g hg hne t => ?_)
      (fun t => ?_) s
    · rw [h g hg, if_neg fun h' => hne h'.2.symm]
    · rw [h _ (G.groupOf_lt hp), if_pos ⟨hp, rfl⟩]
  · exact fold_frame (obs p) (fun g hg t => by rw [h g hg, if_neg fun h' => hp h'.1]) s

/-- The loop over all groups when iteration `g` writes the elements of `g` from an accumulator
`acc g` that only iteration `g` changes: each element sees its group's accumulator as it was
before the loop. -/
theorem fold_groups_with {γ : Type*} (obs : ℕ → σ → β) (acc : ℕ → σ → γ) (F : ℕ → γ → β → β)
    (A : ℕ → γ → γ) (step : ℕ → σ → σ)
    (hobs : ∀ g < G.count, ∀ p s, obs p (step g s) =
      if p < G.numel ∧ G.groupOf p = g then F p (acc g s) (obs p s) else obs p s)
    (hacc : ∀ g < G.count, ∀ j s, acc j (step g s) = if j = g then A j (acc j s) else acc j s)
    (p : ℕ) (s : σ) :
    obs p (Nat.fold step G.count s) =
      if p < G.numel then F p (acc (G.groupOf p) s) (obs p s) else obs p s := by
  split_ifs with hp
  · have hg := G.groupOf_lt hp
    refine congrArg Prod.fst (fold_once (fun s => (obs p s, acc (G.groupOf p) s)) (G.groupOf p) hg
      (fun v => (F p v.2 v.1, A (G.groupOf p) v.2)) (fun g hg' hne t => ?_) (fun t => ?_) s)
    · dsimp only
      rw [hobs g hg', hacc g hg', if_neg fun h => hne h.2.symm, if_neg (Ne.symm hne)]
    · dsimp only
      rw [hobs _ hg, hacc _ hg, if_pos ⟨hp, rfl⟩, if_pos rfl]
  · exact fold_frame (obs p) (fun g hg t => by rw [hobs g hg, if_neg fun h' => hp h'.1]) s

/-- A loop over the groups whose iteration `g` normalizes the elements of `g` and writes the
statistics buffers at `g` as the training forward does computes the training forward. -/
theorem fold_fwdTrain (sqrt : α → α) (a : TrainArgs α) (step : ℕ → TrainBufs α → TrainBufs α)
    (hout : ∀ g < G.count, ∀ p s, (step g s).outPtr p =
      if p < G.numel ∧ G.groupOf p = g then
        G.batchNormalize sqrt a.inPtr a.scalePtr a.biasPtr a.epsilon p
      else s.outPtr p)
    (hmean : ∀ g < G.count, ∀ j s, (step g s).saveMean j =
      if j = g then (if a.savemeanvar then G.mean a.inPtr j else s.saveMean j) else s.saveMean j)
    (hinv : ∀ g < G.count, ∀ j s, (step g s).saveInvVariance j =
      if j = g then (if a.savemeanvar then
        invVariance sqrt (G.variance a.inPtr j) a.epsilon else s.saveInvVariance j)
      else s.saveInvVariance j)
    (hrmean : ∀ g < G.count, ∀ j s, (step g s).runningMean j =
      if j = g then (if a.runningmeanvar then
        G.mean a.inPtr j * a.expAvgFactor + s.runningMean j * (1 - a.expAvgFactor)
        else s.runningMean j)
      else s.runningMean j)
    (hrvar : ∀ g < G.count, ∀ j s, (step g s).runningVariance j =
      if j = g then (if a.runningmeanvar then a.expAvgFactor * s.runningVariance j +
        (1 - a.expAvgFactor) * G.adjust (G.variance a.inPtr j)
        else s.runningVariance j)
      else s.runningVariance j)
    (b : TrainBufs α) : Nat.fold step G.count b = G.fwdTrain sqrt a b := by
  ext p
  · exact G.fold_groups (fun p (b : TrainBufs α) => b.outPtr p)
      (fun p _ => G.batchNormalize sqrt a.inPtr a.scalePtr a.biasPtr a.epsilon p) step hout p b
  · rw [fold_update (fun j (b : TrainBufs α) => b.saveMean j)
      (fun j v => if a.savemeanvar then G.mean a.inPtr j else v) hmean]
    cases h : a.savemeanvar <;>
      simp only [fwdTrain, h, Bool.false_eq_true, false_and, true_and, ↓reduceIte, ite_self]
  · rw [fold_update (fun j (b : TrainBufs α) => b.saveInvVariance j)
      (fun j v => if a.savemeanvar then invVariance sqrt (G.variance a.inPtr j) a.epsilon else v)
      hinv]
    cases h : a.savemeanvar <;>
      simp only [fwdTrain, h, Bool.false_eq_true, false_and, true_and, ↓reduceIte, ite_self]
  · rw [fold_update (fun j (b : TrainBufs α) => b.runningMean j)
      (fun j v => if a.runningmeanvar then
        G.mean a.inPtr j * a.expAvgFactor + v * (1 - a.expAvgFactor) else v) hrmean]
    cases h : a.runningmeanvar <;>
      simp only [fwdTrain, h, Bool.false_eq_true, false_and, true_and, ↓reduceIte, ite_self]
  · rw [fold_update (fun j (b : TrainBufs α) => b.runningVariance j)
      (fun j v => if a.runningmeanvar then a.expAvgFactor * v +
        (1 - a.expAvgFactor) * G.adjust (G.variance a.inPtr j) else v) hrvar]
    cases h : a.runningmeanvar <;>
      simp only [fwdTrain, h, Bool.false_eq_true, false_and, true_and, ↓reduceIte, ite_self]

end Grouping

/-- A sum over a spatial group, by image position and batch. -/
theorem Shape.spatial_sum (sh : Shape) (f : ℕ → α) (c : ℕ) :
    sh.spatial.sum f c = ∑ j ∈ range sh.inCstride, ∑ b ∈ range sh.nBatchs,
      f (sh.inNstride * b + (sh.inCstride * c + j)) := by
  rw [Grouping.sum, Shape.spatial_size, sum_range_mul]
  refine sum_congr rfl fun j _ => sum_congr rfl fun b hb => ?_
  rw [Shape.spatial_elem, (mul_add_div_mod (mem_range.1 hb)).1,
    (mul_add_div_mod (mem_range.1 hb)).2]

end MIOpen.BatchNorm
