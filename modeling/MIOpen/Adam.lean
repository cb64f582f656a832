import MIOpen.Loops

/-!
# The Adam reference of the tests

`cpu_adam` (`test/cpu_adam.hpp`) is the host reference the Adam tests compare against. For every
element `i` it runs `step_count` steps of Adam from the element's parameter and moment buffers,
with the gradient `grads[i]` at every step, and writes back only the parameter; an AMP call that
found an infinite gradient changes nothing.

A step divides by `grad_scale` under `is_amp`, by `sqrt` of the bias correction
`1 - beta2^step`, by the bias correction `1 - beta1^step` and by `denom`. Where a divisor is zero
the float code computes an infinity or a NaN, for which exact arithmetic has no value:
`checkedDiv` fails there, and so do the step (`adamStep`), the loop (`adamRun`) and the element of
the result (`cpuAdam`).

`adamStep` is one iteration of the step loop: the moments from the rescaled gradient
(`AdamArgs.moments`), then the parameter update (`AdamArgs.paramUpdate`). Over every run with
`beta2 ∈ [0, 1]`, every state the loop reaches has a non-negative second moment, below its running
maximum under `amsgrad`, so both numbers the loop takes `sqrt` of are non-negative
(`adamRun_valid`). With a constant gradient from zero moments, `eps > 0` and `beta1`, `beta2` in
`[0, 1)`, every division has a nonzero divisor and the bias corrections cancel exactly: every step
moves the parameter by `lr * g / (|g| + eps)` (`cpuAdam_constGrad`).
-/

namespace MIOpen.Adam

/-- The scalar arguments of `cpu_adam`. -/
structure AdamArgs (α : Type*) where
  lr : α
  beta1 : α
  beta2 : α
  weightDecay : α
  eps : α
  amsgrad : Bool
  maximize : Bool
  isAmp : Bool
  gradScale : ℤ
  foundInf : Bool
  stepCount : ℤ

/-- The variables of the step loop at one element. -/
@[ext] structure AdamState (α : Type*) where
  param : α
  expAvg : α
  expAvgSq : α
  maxExpAvgSq : α

variable {α : Type*} [LinearOrderedField α]

/-- `num / den`, with no value for a zero divisor. -/
def checkedDiv (num den : α) : Option α := if den = 0 then none else some (num / den)

theorem checkedDiv_of_ne {num den : α} (h : den ≠ 0) : checkedDiv num den = some (num / den) :=
  if_neg h

theorem checkedDiv_eq_some {num den v : α} :
    checkedDiv num den = some v ↔ den ≠ 0 ∧ num / den = v := by
  unfold checkedDiv
  split_ifs with h <;> simp [h]

/-- `grads[i]` as a step first reads it: negated under `maximize`, divided by `grad_scale` under
`is_amp`. -/
def AdamArgs.scaleGrad (a : AdamArgs α) (grad : α) : Option α :=
  let grad := if a.maximize then grad * -1 else grad
  if a.isAmp then checkedDiv grad (a.gradScale : α) else some grad

/-- The moments after one step from the rescaled gradient `grad`: weight decay, `exp_avg`,
`exp_avg_sq` and, under `amsgrad`, `max_exp_avg_sq`. The parameter is left as it was. -/
def AdamArgs.moments (a : AdamArgs α) (grad : α) (s : AdamState α) : AdamState α :=
  let grad := if a.weightDecay ≠ 0 then grad + s.param * a.weightDecay else grad
  let expAvg := s.expAvg * a.beta1 + grad * (1 - a.beta1)
  let expAvgSq := s.expAvgSq * a.beta2 + grad * grad * (1 - a.beta2)
  let maxExpAvgSq :=
    if a.amsgrad then (if expAvgSq > s.maxExpAvgSq then expAvgSq else s.maxExpAvgSq)
    else s.maxExpAvgSq
  ⟨s.param, expAvg, expAvgSq, maxExpAvgSq⟩

/-- `denom` and `param - (lr / bias_correction1) * exp_avg / denom` at `step`, from the new
moments `m`. -/
def AdamArgs.paramUpdate (sqrt : α → α) (a : AdamArgs α) (step : ℕ) (m : AdamState α) :
    Option α := do
  let biasCorrection1 := 1 - a.beta1 ^ step
  let biasCorrection2 := 1 - a.beta2 ^ step
  let denom ← if a.amsgrad then
      (checkedDiv (sqrt m.maxExpAvgSq) (sqrt biasCorrection2)).map (· + a.eps)
    else (checkedDiv (sqrt m.expAvgSq) (sqrt biasCorrection2)).map (· + a.eps)
  let lrCorrected ← checkedDiv a.lr biasCorrection1
  let update ← checkedDiv (lrCorrected * m.expAvg) denom
  pure (m.param - update)

/-- One iteration of the step loop of `cpu_adam`, at `step` (counted from `1`), where
`grads[i] = g`. -/
def adamStep (sqrt : α → α) (a : AdamArgs α) (g : α) (step : ℕ) (s : AdamState α) :
    Option (AdamState α) := do
  let grad ← a.scaleGrad g
  let m := a.moments grad s
  let param ← a.paramUpdate sqrt step m
  pure { m with param := param }

/-- The step loop `for (step = 1; step <= n; step++)` from the state `s`. -/
def adamRun (sqrt : α → α) (a : AdamArgs α) (g : α) (n : ℕ) (s : AdamState α) :
    Option (AdamState α) :=
  Nat.fold (fun k st => st.bind (adamStep sqrt a g (k + 1))) n (some s)

/-- The loop's variables as `cpu_adam` sets them up for element `i`. -/
def AdamArgs.init (a : AdamArgs α) (params expAvgs expAvgSqs maxExpAvgSqs : ℕ → α) (i : ℕ) :
    AdamState α :=
  ⟨params i, expAvgs i, expAvgSqs i, if a.amsgrad then maxExpAvgSqs i else 0⟩

/-- `cpu_adam`: element `i` of the parameter tensor of `size` elements after the call. The
iterations of `par_ford` write disjoint elements, so the result is taken element by element. -/
def cpuAdam (sqrt : α → α) (a : AdamArgs α) (size : ℕ)
    (params grads expAvgs expAvgSqs maxExpAvgSqs : ℕ → α) (i : ℕ) : Option α :=
  if a.isAmp && a.foundInf then some (params i)
  else if i < size then
    (adamRun sqrt a (grads i) a.stepCount.toNat
      (a.init params expAvgs expAvgSqs maxExpAvgSqs i)).map AdamState.param
  else some (params i)

/-! ## One step -/

section Step

variable (sqrt : α → α) (a : AdamArgs α) (g : α) (step : ℕ) (s : AdamState α)

/-- The rescaled gradient has a value unless an AMP call has `grad_scale = 0`. -/
theorem scaleGrad_isSome_iff : (a.scaleGrad g).isSome ↔ (a.isAmp = true → a.gradScale ≠ 0) := by
  unfold AdamArgs.scaleGrad checkedDiv
  cases a.isAmp <;> simp

/-- The gradient a step applies, weight decay included, from the rescaled gradient `x`. -/
def AdamArgs.stepGrad (a : AdamArgs α) (x param : α) : α :=
  if a.weightDecay ≠ 0 then x + param * a.weightDecay else x

@[simp] theorem moments_param (x : α) : (a.moments x s).param = s.param := rfl

@[simp] theorem moments_expAvg (x : α) :
    (a.moments x s).expAvg = s.expAvg * a.beta1 + a.stepGrad x s.param * (1 - a.beta1) :=
  rfl

@[simp] theorem moments_expAvgSq (x : α) :
    (a.moments x s).expAvgSq =
      s.expAvgSq * a.beta2 + a.stepGrad x s.param * a.stepGrad x s.param * (1 - a.beta2) :=
  rfl

theorem moments_maxExpAvgSq (x : α) :
    (a.moments x s).maxExpAvgSq =
      if a.amsgrad then max s.maxExpAvgSq (a.moments x s).expAvgSq else s.maxExpAvgSq := by
  simp only [AdamArgs.moments, max_def_lt, gt_iff_lt]

/-- With the three divisors nonzero, the parameter update has its exact value. -/
theorem paramUpdate_eq (m : AdamState α) (h1 : 1 - a.beta1 ^ step ≠ 0)
    (h2 : sqrt (1 - a.beta2 ^ step) ≠ 0)
    (hd : sqrt (if a.amsgrad then m.maxExpAvgSq else m.expAvgSq) / sqrt (1 - a.beta2 ^ step) +
      a.eps ≠ 0) :
    a.paramUpdate sqrt step m = some (m.param - a.lr / (1 - a.beta1 ^ step) * m.expAvg /
      (sqrt (if a.amsgrad then m.maxExpAvgSq else m.expAvgSq) / sqrt (1 - a.beta2 ^ step) +
        a.eps)) := by
  cases hams : a.amsgrad <;> simp only [hams, Bool.false_eq_true, ↓reduceIte] at hd ⊢ <;>
    simp [AdamArgs.paramUpdate, hams, checkedDiv_of_ne h1, checkedDiv_of_ne h2,
      checkedDiv_of_ne hd]

/-- A step that has a value rescales the gradient, updates the moments and then the
parameter. -/
theorem adamStep_eq_some {t : AdamState α} :
    adamStep sqrt a g step s = some t ↔ ∃ x, a.scaleGrad g = some x ∧
      ∃ p, a.paramUpdate sqrt step (a.moments x s) = some p ∧
        t = { a.moments x s with param := p } := by
  simp only [adamStep, Option.bind_eq_bind, Option.bind_eq_some, Option.pure_def,
    Option.some.injEq, @eq_comm _ t]

theorem adamRun_succ (n : ℕ) :
    adamRun sqrt a g (n + 1) s = (adamRun sqrt a g n s).bind (adamStep sqrt a g (n + 1)) :=
  rfl

/-- The arguments of a call that reads its gradients as they are. -/
def AdamArgs.plain (a : AdamArgs α) : AdamArgs α := { a with maximize := false, isAmp := false }

/-- A step reads `grads[i]` only through its rescaling. -/
theorem adamStep_scaleGrad {x : α} (hx : a.scaleGrad g = some x) :
    adamStep sqrt a g step = adamStep sqrt a.plain x step := by
  funext s
  simp only [adamStep, hx]
  rfl

end Step

/-! ## The loop invariant -/

/-- The invariant of the step loop after its first step: the second moment is not negative and,
under `amsgrad`, not above its running maximum. Both numbers a step takes `sqrt` of are then
non-negative. -/
structure AdamState.Valid (a : AdamArgs α) (s : AdamState α) : Prop where
  expAvgSq_nonneg : 0 ≤ s.expAvgSq
  expAvgSq_le_max : a.amsgrad = true → s.expAvgSq ≤ s.maxExpAvgSq

section Invariant

variable {sqrt : α → α} {a : AdamArgs α} {g : α} {s : AdamState α}
  (hβ0 : 0 ≤ a.beta2) (hβ1 : a.beta2 ≤ 1)
include hβ0 hβ1

theorem adamStep_valid {step : ℕ} (hs : 0 ≤ s.expAvgSq) {t : AdamState α}
    (ht : adamStep sqrt a g step s = some t) : t.Valid a := by
  obtain ⟨x, -, p, -, rfl⟩ := (adamStep_eq_some sqrt a g step s).1 ht
  refine ⟨?_, fun h => ?_⟩
  · rw [moments_expAvgSq]
    exact add_nonneg (mul_nonneg hs hβ0) (mul_nonneg (mul_self_nonneg _) (sub_nonneg.2 hβ1))
  · show (a.moments x s).expAvgSq ≤ (a.moments x s).maxExpAvgSq
    rw [moments_maxExpAvgSq, if_pos h]
    exact le_max_right _ _

theorem adamRun_expAvgSq_nonneg (hs : 0 ≤ s.expAvgSq) (n : ℕ) :
    ∀ t ∈ adamRun sqrt a g n s, 0 ≤ t.expAvgSq := by
  induction n with
  | zero => rintro t ⟨⟩; exact hs
  | succ n ih =>
    intro t ht
    obtain ⟨u, hu, ht⟩ := Option.bind_eq_some.1 ht
    exact (adamStep_valid hβ0 hβ1 (ih u hu) ht).expAvgSq_nonneg

/-- Every state the loop reaches after at least one step is valid. -/
theorem adamRun_valid (hs : 0 ≤ s.expAvgSq) {n : ℕ} (hn : 0 < n) {t : AdamState α}
    (ht : adamRun sqrt a g n s = some t) : t.Valid a := by
  obtain ⟨n, rfl⟩ := Nat.exists_eq_succ_of_ne_zero hn.ne'
  obtain ⟨u, hu, ht⟩ := Option.bind_eq_some.1 ht
  exact adamStep_valid hβ0 hβ1 (adamRun_expAvgSq_nonneg hβ0 hβ1 hs n u hu) ht

end Invariant

/-- Two steps with `beta2 = 1/2` from zero moments reach a valid state. -/
theorem adamRun_valid_half :
    (0 : ℚ) ≤ 1 / 2 ∧ (1 / 2 : ℚ) ≤ 1 ∧ (0 : ℚ) ≤ 0 ∧ 0 < 2 ∧
      adamRun id (⟨1, 1 / 2, 1 / 2, 0, 1, true, false, false, 1, false, 2⟩ : AdamArgs ℚ) 3 2
        ⟨5, 0, 0, 0⟩ = some ⟨22 / 5, 9 / 4, 27 / 4, 27 / 4⟩ ∧
      (⟨22 / 5, 9 / 4, 27 / 4, 27 / 4⟩ : AdamState ℚ).Valid
        ⟨1, 1 / 2, 1 / 2, 0, 1, true, false, false, 1, false, 2⟩ := by
  have hrun : adamRun id (⟨1, 1 / 2, 1 / 2, 0, 1, true, false, false, 1, false, 2⟩ : AdamArgs ℚ) 3
      2 ⟨5, 0, 0, 0⟩ = some ⟨22 / 5, 9 / 4, 27 / 4, 27 / 4⟩ := by
    rw [show (2 : ℕ) = 0 + 1 + 1 from rfl, adamRun_succ, adamRun_succ]
    simp only [adamRun, fold_zero, Option.some_bind, adamStep, AdamArgs.scaleGrad,
      Bool.false_eq_true, ↓reduceIte, Option.bind_eq_bind, AdamArgs.moments, AdamArgs.paramUpdate,
      checkedDiv, id]
    norm_num
  exact ⟨by norm_num, by norm_num, le_rfl, by decide, hrun,
    adamRun_valid (by norm_num) (by norm_num) le_rfl (by decide) hrun⟩

/-- The running maximum of the second moment never decreases along a run. -/
theorem adamRun_maxExpAvgSq_mono (sqrt : α → α) (a : AdamArgs α) (g : α) (s : AdamState α)
    {m n : ℕ} (hmn : m ≤ n) {t : AdamState α} (ht : adamRun sqrt a g n s = some t) :
    ∃ u, adamRun sqrt a g m s = some u ∧ u.maxExpAvgSq ≤ t.maxExpAvgSq := by
  induction n, hmn using Nat.le_induction generalizing t with
  | base => exact ⟨t, ht, le_rfl⟩
  | succ n _ ih =>
    obtain ⟨v, hv, ht⟩ := Option.bind_eq_some.1 ht
    obtain ⟨x, -, p, -, rfl⟩ := (adamStep_eq_some sqrt a g (n + 1) v).1 ht
    obtain ⟨u, hu, hle⟩ := ih hv
    refine ⟨u, hu, hle.trans ?_⟩
    show v.maxExpAvgSq ≤ (a.moments x v).maxExpAvgSq
    rw [moments_maxExpAvgSq]
    split
    · exact le_max_left _ _
    · exact le_rfl

/-! ## Constant gradient from zero moments -/

section ConstGrad

variable (a : AdamArgs ℝ) (hwd : a.weightDecay = 0)
  (hβ1 : a.beta1 ∈ Set.Ico 0 1) (hβ2 : a.beta2 ∈ Set.Ico 0 1) (heps : 0 < a.eps)
include hwd hβ1 hβ2 heps

/-- One step with a constant rescaled gradient `x` and no weight decay takes the closed form after
`n` steps to the closed form after `n + 1`. -/
theorem adamStep_constGrad {g x : ℝ} (hx : a.scaleGrad g = some x) (p : ℝ) (n : ℕ) :
    adamStep Real.sqrt a g (n + 1) ⟨p - n * (a.lr * x / (|x| + a.eps)), x * (1 - a.beta1 ^ n),
        x * x * (1 - a.beta2 ^ n), if a.amsgrad then x * x * (1 - a.beta2 ^ n) else 0⟩ =
      some ⟨p - ((n + 1 : ℕ) : ℝ) * (a.lr * x / (|x| + a.eps)), x * (1 - a.beta1 ^ (n + 1)),
        x * x * (1 - a.beta2 ^ (n + 1)),
        if a.amsgrad then x * x * (1 - a.beta2 ^ (n + 1)) else 0⟩ := by
  have hgrad : a.stepGrad x = fun _ => x := by
    funext; simp [AdamArgs.stepGrad, hwd]
  have hpow1 : a.beta1 ^ (n + 1) < 1 := pow_lt_one₀ hβ1.1 hβ1.2 n.succ_ne_zero
  have hpow2 : a.beta2 ^ (n + 1) < 1 := pow_lt_one₀ hβ2.1 hβ2.2 n.succ_ne_zero
  have hsqrt2 : Real.sqrt (1 - a.beta2 ^ (n + 1)) ≠ 0 := (Real.sqrt_pos.2 (sub_pos.2 hpow2)).ne'
  have hmono : x * x * (1 - a.beta2 ^ n) ≤ x * x * (1 - a.beta2 ^ (n + 1)) :=
    mul_le_mul_of_nonneg_left (sub_le_sub_left (pow_le_pow_of_le_one hβ2.1 hβ2.2.le
      n.le_succ) 1) (mul_self_nonneg x)
  set m := a.moments x ⟨p - n * (a.lr * x / (|x| + a.eps)), x * (1 - a.beta1 ^ n),
    x * x * (1 - a.beta2 ^ n), if a.amsgrad then x * x * (1 - a.beta2 ^ n) else 0⟩ with hm
  have hexpAvg : m.expAvg = x * (1 - a.beta1 ^ (n + 1)) := by
    rw [hm, moments_expAvg, hgrad]; ring
  have hexpAvgSq : m.expAvgSq = x * x * (1 - a.beta2 ^ (n + 1)) := by
    rw [hm, moments_expAvgSq, hgrad]; ring
  have hmax : m.maxExpAvgSq = if a.amsgrad then x * x * (1 - a.beta2 ^ (n + 1)) else 0 := by
    rw [hm, moments_maxExpAvgSq, ← hm, hexpAvgSq]
    cases a.amsgrad
    · rfl
    · exact max_eq_right hmono
  have hread : Real.sqrt (if a.amsgrad then m.maxExpAvgSq else m.expAvgSq) /
      Real.sqrt (1 - a.beta2 ^ (n + 1)) = |x| := by
    have : (if a.amsgrad then m.maxExpAvgSq else m.expAvgSq) =
        x * x * (1 - a.beta2 ^ (n + 1)) := by
      rw [hmax, hexpAvgSq]; cases a.amsgrad <;> rfl
    rw [this, Real.sqrt_mul (mul_self_nonneg x), Real.sqrt_mul_self_eq_abs,
      mul_div_cancel_right₀ _ hsqrt2]
  have hd : Real.sqrt (if a.amsgrad then m.maxExpAvgSq else m.expAvgSq) /
      Real.sqrt (1 - a.beta2 ^ (n + 1)) + a.eps ≠ 0 := by
    rw [hread]; exact (add_pos_of_nonneg_of_pos (abs_nonneg x) heps).ne'
  have hcancel : a.lr / (1 - a.beta1 ^ (n + 1)) * (x * (1 - a.beta1 ^ (n + 1))) = a.lr * x := by
    rw [mul_comm x, ← mul_assoc, div_mul_cancel₀ _ (sub_pos.2 hpow1).ne']
  rw [(adamStep_eq_some _ _ _ _ _).2
    ⟨x, hx, _, paramUpdate_eq Real.sqrt a _ m (sub_pos.2 hpow1).ne' hsqrt2 hd, rfl⟩]
  congr 1
  ext
  · show m.param - _ = _
    rw [hread, hexpAvg, hcancel]
    simp only [hm, moments_param]
    push_cast; ring
  · exact hexpAvg
  · exact hexpAvgSq
  · exact hmax

/-- From zero moments, with a constant rescaled gradient `x` and no weight decay, every step has
a value: the moments after `n` steps are the gradient's bias-corrected averages and the parameter
has moved `n` equal steps. -/
theorem adamRun_constGrad {g x : ℝ} (hx : a.scaleGrad g = some x) (p : ℝ) (n : ℕ) :
    adamRun Real.sqrt a g n ⟨p, 0, 0, 0⟩ =
      some ⟨p - n * (a.lr * x / (|x| + a.eps)), x * (1 - a.beta1 ^ n),
        x * x * (1 - a.beta2 ^ n), if a.amsgrad then x * x * (1 - a.beta2 ^ n) else 0⟩ := by
  induction n with
  | zero => simp [adamRun]
  | succ n ih => rw [adamRun_succ, ih, Option.some_bind, adamStep_constGrad a hwd hβ1 hβ2 heps hx]

theorem cpuAdam_constGrad (size : ℕ) (params grads expAvgs expAvgSqs maxExpAvgSqs : ℕ → ℝ)
    (i : ℕ) (hamp : (a.isAmp && a.foundInf) = false) (hi : i < size)
    (hm : expAvgs i = 0) (hv : expAvgSqs i = 0) (hmax : a.amsgrad = true → maxExpAvgSqs i = 0)
    {x : ℝ} (hx : a.scaleGrad (grads i) = some x) :
    cpuAdam Real.sqrt a size params grads expAvgs expAvgSqs maxExpAvgSqs i =
      some (params i - a.stepCount.toNat * (a.lr * x / (|x| + a.eps))) := by
  have hinit : a.init params expAvgs expAvgSqs maxExpAvgSqs i = ⟨params i, 0, 0, 0⟩ := by
    cases h : a.amsgrad <;> simp [AdamArgs.init, h, hm, hv, hmax]
  simp only [cpuAdam, hamp, Bool.false_eq_true, ↓reduceIte, if_pos hi, hinit,
    adamRun_constGrad a hwd hβ1 hβ2 heps hx, Option.map_some']

end ConstGrad

/-- The parameter after three steps of a constant gradient `2` from zero moments. -/
theorem cpuAdam_constGrad_three :
    (⟨1, 1 / 2, 1 / 2, 0, 1, true, false, false, 1, false, 3⟩ : AdamArgs ℝ).weightDecay = 0 ∧
      (1 / 2 : ℝ) ∈ Set.Ico 0 1 ∧ (1 / 2 : ℝ) ∈ Set.Ico 0 1 ∧ (0 : ℝ) < 1 ∧
      (false && false) = false ∧ 0 < 1 ∧
      (⟨1, 1 / 2, 1 / 2, 0, 1, true, false, false, 1, false, 3⟩ : AdamArgs ℝ).scaleGrad 2 =
        some 2 ∧
      cpuAdam Real.sqrt ⟨1, 1 / 2, 1 / 2, 0, 1, true, false, false, 1, false, 3⟩ 1
        (fun _ => 5) (fun _ => 2) (fun _ => 0) (fun _ => 0) (fun _ => 0) 0 =
        some ((5 : ℝ) - (3 : ℤ).toNat * (1 * 2 / (|2| + 1))) :=
  have h : (1 / 2 : ℝ) ∈ Set.Ico 0 1 := ⟨by norm_num, by norm_num⟩
  ⟨rfl, h, h, one_pos, rfl, by decide, rfl, cpuAdam_constGrad
    ⟨1, 1 / 2, 1 / 2, 0, 1, true, false, false, 1, false, 3⟩ rfl h h one_pos 1 (fun _ => 5)
    (fun _ => 2) (fun _ => 0) (fun _ => 0) (fun _ => 0) 0 rfl (by decide) rfl rfl (fun _ => rfl)
    rfl⟩

end MIOpen.Adam
