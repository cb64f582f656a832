import MIOpen.Where.Basic

/-!
# Where host routines

Both routines compute every index as `o % size` on `size_t`, which traps for a block size of `0`
(`check_broadcasted_contiguous` returns `0` for a layout it does not handle): the routines are
`none` there (`checkedMod`). With every block size positive, `mloWhereForwardRunHost` writes every
output position `o < output_numel` once, with the element `where` selects there
(`mloWhereForwardRunHost_apply`).

`mloWhereBackwardRunHost` assigns, for each output position `o` in turn,
`inputGrad[o % input_size] = outputGrad[o]*cond` and
`otherGrad[o % other_size] = outputGrad[o]*(1 - cond)`. Each gradient buffer is one loop of
assignments (`assignLoop`), and an element that several positions read is overwritten by each of
them: when the block size divides the number of positions, element `j` keeps the value of the
last position `n - size + j` only (`assignLoop_last`). A null gradient pointer is `none`.
-/

namespace MIOpen.Where

variable {α : Type*}

/-! ## Assignment loops -/

/-- The assignments `grad[o % contigSize] = value o`, `o < n`, of the backward routine to one
gradient buffer. -/
def assignLoop (contigSize : ℕ) (value : ℕ → α) (n : ℕ) (grad : ℕ → α) : ℕ → α :=
  Nat.fold (fun o grad => Function.update grad (o % contigSize) (value o)) n grad

/-- When the block size `m` divides the number `n` of assignments, element `j` of the block
keeps the value of the last position that reads it, `n - m + j`. -/
theorem assignLoop_last {m n : ℕ} (value : ℕ → α) (grad : ℕ → α) (hn : 0 < n) (hdvd : m ∣ n)
    {j : ℕ} (hj : j < m) : assignLoop m value n grad j = value (n - m + j) := by
  obtain ⟨k, rfl⟩ : ∃ k, n = k + m := ⟨n - m, by have := Nat.le_of_dvd hn hdvd; omega⟩
  have hk : k % m = 0 := Nat.mod_eq_zero_of_dvd (by simpa using Nat.dvd_sub' hdvd (dvd_refl m))
  rw [assignLoop, fold_add, Nat.add_sub_cancel]
  refine (fold_update (fun j (s : ℕ → α) => s j) (fun j _ => value (k + j)) (fun i hi j s => ?_)
    j _).trans (if_pos hj)
  dsimp only
  rw [Nat.add_mod, hk, Nat.zero_add, Nat.mod_mod, Nat.mod_eq_of_lt hi]
  rcases eq_or_ne j i with rfl | h
  · rw [Function.update_same, if_pos rfl]
  · rw [Function.update_noteq h, if_neg h]

/-! ## Routines -/

/-- `o % n` on `size_t`: the division traps for `n = 0`. -/
def checkedMod (o n : ℕ) : Option ℕ := if n = 0 then none else some (o % n)

theorem checkedMod_of_pos {n : ℕ} (o : ℕ) (h : 0 < n) : checkedMod o n = some (o % n) :=
  if_neg h.ne'

/-- A loop over `o < n` whose body has a value at every iteration runs as the total loop. -/
theorem fold_bind_some {σ : Type*} (f : ℕ → σ → Option σ) (g : ℕ → σ → σ)
    (h : ∀ o s, f o s = some (g o s)) (n : ℕ) (s : σ) :
    Nat.fold (fun o st => st.bind (f o)) n (some s) = some (Nat.fold g n s) :=
  (fold_map some (fun o s => (h o s).symm) n s).symm

variable [Ring α]

section Forward

variable [DecidableEq α]

/-- `mloWhereForwardRunHost`, `none` where a `%` traps on a block size of `0`; its status result,
always `0`, is not modelled. -/
def mloWhereForwardRunHost (inputDesc : TensorDesc) (input : ℕ → α) (otherDesc : TensorDesc)
    (other : ℕ → α) (conditionDesc : TensorDesc) (condition : ℕ → α) (outputDesc : TensorDesc)
    (outputHost : ℕ → α) : Option (ℕ → α) :=
  let inputContigSize := checkBroadcastedContiguous inputDesc
  let otherContigSize := checkBroadcastedContiguous otherDesc
  let condContigSize := checkBroadcastedContiguous conditionDesc
  let outputNumel := outputDesc.elementSize
  Nat.fold (fun o st => st.bind fun outputHost =>
    (checkedMod o condContigSize).bind fun c =>
      if condition c ≠ 0 then
        (checkedMod o inputContigSize).map fun i => Function.update outputHost o (input i)
      else
        (checkedMod o otherContigSize).map fun i => Function.update outputHost o (other i))
    outputNumel (some outputHost)

/-- With every block size positive, the forward host routine does not trap: it writes `where`
at every output position and nothing else. -/
theorem mloWhereForwardRunHost_apply (inputDesc otherDesc conditionDesc outputDesc : TensorDesc)
    (hcond : 0 < checkBroadcastedContiguous conditionDesc)
    (hinput : 0 < checkBroadcastedContiguous inputDesc)
    (hother : 0 < checkBroadcastedContiguous otherDesc)
    (input other condition outputHost : ℕ → α) :
    mloWhereForwardRunHost inputDesc input otherDesc other conditionDesc condition outputDesc
        outputHost = some fun o =>
      if o < outputDesc.elementSize then
        whereOutput condition input other (checkBroadcastedContiguous conditionDesc)
          (checkBroadcastedContiguous inputDesc) (checkBroadcastedContiguous otherDesc) o
      else outputHost o := by
  let w := whereOutput condition input other (checkBroadcastedContiguous conditionDesc)
    (checkBroadcastedContiguous inputDesc) (checkBroadcastedContiguous otherDesc)
  rw [mloWhereForwardRunHost, fold_bind_some _ (fun o h => Function.update h o (w o)) (fun o h => by
    simp only [checkedMod_of_pos o hcond, checkedMod_of_pos o hinput, checkedMod_of_pos o hother,
      Option.bind_eq_bind, Option.some_bind, Option.pure_def, w, whereOutput]
    split_ifs <;> rfl)]
  congr 1
  funext o
  refine fold_update (fun j (s : ℕ → α) => s j) (fun j _ => w j) (fun i _ j s => ?_) o outputHost
  dsimp only
  rcases eq_or_ne j i with rfl | h
  · rw [Function.update_same, if_pos rfl]
  · rw [Function.update_noteq h, if_neg h]

end Forward

/-- `mloWhereBackwardRunHost`, `none` where a `%` traps on a block size of `0`; a null gradient
pointer is `none` in the pair. -/
def mloWhereBackwardRunHost (outputGradDesc : TensorDesc) (outputGrad : ℕ → α)
    (conditionDesc : TensorDesc) (condition : ℕ → α) (inputGradDesc : TensorDesc)
    (inputGrad : Option (ℕ → α)) (otherGradDesc : TensorDesc) (otherGrad : Option (ℕ → α)) :
    Option (Option (ℕ → α) × Option (ℕ → α)) :=
  let inputGradContigSize := checkBroadcastedContiguous inputGradDesc
  let otherGradContigSize := checkBroadcastedContiguous otherGradDesc
  let condContigSize := checkBroadcastedContiguous conditionDesc
  let outputGradNumel := outputGradDesc.elementSize
  Nat.fold (fun o st => st.bind fun grads =>
    (checkedMod o condContigSize).bind fun c =>
      let cond := condition c
      (grads.1.mapM fun inputGrad => (checkedMod o inputGradContigSize).map fun j =>
        Function.update inputGrad j (outputGrad o * cond)).bind fun inputGrad =>
      (grads.2.mapM fun otherGrad => (checkedMod o otherGradContigSize).map fun j =>
        Function.update otherGrad j (outputGrad o * (1 - cond))).map fun otherGrad =>
      (inputGrad, otherGrad)) outputGradNumel (some (inputGrad, otherGrad))

/-- With every block size positive, the backward host routine does not trap and runs one
assignment loop per gradient buffer. -/
theorem mloWhereBackwardRunHost_eq (outputGradDesc conditionDesc inputGradDesc otherGradDesc :
    TensorDesc) (hcond : 0 < checkBroadcastedContiguous conditionDesc)
    (hinput : 0 < checkBroadcastedContiguous inputGradDesc)
    (hother : 0 < checkBroadcastedContiguous otherGradDesc) (outputGrad condition : ℕ → α)
    (inputGrad otherGrad : Option (ℕ → α)) :
    mloWhereBackwardRunHost outputGradDesc outputGrad conditionDesc condition inputGradDesc
        inputGrad otherGradDesc otherGrad =
      some (inputGrad.map (assignLoop (checkBroadcastedContiguous inputGradDesc)
        (fun o => outputGrad o * condition (o % checkBroadcastedContiguous conditionDesc))
        outputGradDesc.elementSize),
       otherGrad.map (assignLoop (checkBroadcastedContiguous otherGradDesc)
        (fun o => outputGrad o * (1 - condition (o % checkBroadcastedContiguous conditionDesc)))
        outputGradDesc.elementSize)) := by
  rw [mloWhereBackwardRunHost, fold_bind_some _ (fun o grads =>
    (grads.1.map fun g => Function.update g (o % checkBroadcastedContiguous inputGradDesc)
      (outputGrad o * condition (o % checkBroadcastedContiguous conditionDesc)),
     grads.2.map fun g => Function.update g (o % checkBroadcastedContiguous otherGradDesc)
      (outputGrad o * (1 - condition (o % checkBroadcastedContiguous conditionDesc)))))
    (fun o grads => by
      rcases grads with ⟨_ | _, _ | _⟩ <;>
        simp [Option.mapM, checkedMod_of_pos o hcond, checkedMod_of_pos o hinput,
          checkedMod_of_pos o hother])]
  congr 1
  induction outputGradDesc.elementSize with
  | zero => cases inputGrad <;> cases otherGrad <;> rfl
  | succ n ih => rw [fold_succ, ih]; cases inputGrad <;> cases otherGrad <;> rfl

/-- When the block sizes divide the number `n` of output positions, the backward host routine
does not trap and leaves in every element `j` of each gradient block the contribution of the last
position that reads it, `n - size + j`, and of no other. -/
theorem mloWhereBackwardRunHost_last (outputGradDesc conditionDesc inputGradDesc otherGradDesc :
    TensorDesc) (outputGrad condition inputGrad otherGrad : ℕ → α) {n inputSize otherSize : ℕ}
    (hn : outputGradDesc.elementSize = n) (hcond : 0 < checkBroadcastedContiguous conditionDesc)
    (hinput : checkBroadcastedContiguous inputGradDesc = inputSize)
    (hother : checkBroadcastedContiguous otherGradDesc = otherSize) (hpos : 0 < n)
    (hinputDvd : inputSize ∣ n) (hotherDvd : otherSize ∣ n) :
    (∀ j < inputSize, ((mloWhereBackwardRunHost outputGradDesc outputGrad conditionDesc condition
        inputGradDesc (some inputGrad) otherGradDesc (some otherGrad)).bind Prod.fst).map
          (fun g => g j) =
      some (outputGrad (n - inputSize + j) *
        condition ((n - inputSize + j) % checkBroadcastedContiguous conditionDesc))) ∧
    ∀ j < otherSize, ((mloWhereBackwardRunHost outputGradDesc outputGrad conditionDesc condition
        inputGradDesc (some inputGrad) otherGradDesc (some otherGrad)).bind Prod.snd).map
          (fun g => g j) =
      some (outputGrad (n - otherSize + j) *
        (1 - condition ((n - otherSize + j) % checkBroadcastedContiguous conditionDesc))) := by
  rw [mloWhereBackwardRunHost_eq _ _ _ _ hcond (hinput ▸ Nat.pos_of_dvd_of_pos hinputDvd hpos)
    (hother ▸ Nat.pos_of_dvd_of_pos hotherDvd hpos), hn, hinput, hother]
  exact ⟨fun j hj => congrArg some (assignLoop_last _ _ hpos hinputDvd hj),
    fun j hj => congrArg some (assignLoop_last _ _ hpos hotherDvd hj)⟩

/-- The driver's default shapes: input and other gradients of `1×4×2×2` elements against an
output gradient of `2×4×2×2`. -/
theorem mloWhereBackwardRunHost_last_default :
    TensorDesc.elementSize ⟨[2, 4, 2, 2], [16, 4, 2, 1]⟩ = 32 ∧
    0 < checkBroadcastedContiguous ⟨[2, 4, 2, 2], [16, 4, 2, 1]⟩ ∧
    checkBroadcastedContiguous ⟨[1, 4, 2, 2], [16, 4, 2, 1]⟩ = 16 ∧
    checkBroadcastedContiguous ⟨[1, 4, 2, 2], [16, 4, 2, 1]⟩ = 16 ∧ 0 < 32 ∧ 16 ∣ 32 ∧ 16 ∣ 32 ∧
    ((∀ j < 16, ((mloWhereBackwardRunHost ⟨[2, 4, 2, 2], [16, 4, 2, 1]⟩ (fun o => (o : ℤ))
        ⟨[2, 4, 2, 2], [16, 4, 2, 1]⟩ (fun _ => 1) ⟨[1, 4, 2, 2], [16, 4, 2, 1]⟩
        (some fun _ => 0) ⟨[1, 4, 2, 2], [16, 4, 2, 1]⟩ (some fun _ => 0)).bind Prod.fst).map
          (fun g => g j) =
      some (((32 - 16 + j : ℕ) : ℤ) * 1)) ∧
    ∀ j < 16, ((mloWhereBackwardRunHost ⟨[2, 4, 2, 2], [16, 4, 2, 1]⟩ (fun o => (o : ℤ))
        ⟨[2, 4, 2, 2], [16, 4, 2, 1]⟩ (fun _ => 1) ⟨[1, 4, 2, 2], [16, 4, 2, 1]⟩
        (some fun _ => 0) ⟨[1, 4, 2, 2], [16, 4, 2, 1]⟩ (some fun _ => 0)).bind Prod.snd).map
          (fun g => g j) =
      some (((32 - 16 + j : ℕ) : ℤ) * (1 - 1))) :=
  ⟨by decide, by decide, by decide, by decide, by decide, by decide, by decide,
    mloWhereBackwardRunHost_last _ _ _ _ _ _ _ _ (by decide) (by decide) (by decide) (by decide)
      (by decide) (by decide) (by decide)⟩

end MIOpen.Where
