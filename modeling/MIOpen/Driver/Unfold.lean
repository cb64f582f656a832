import MIOpen.Loops

/-!
# The output shape of the unfold driver

`UnfoldDriver::GetandSetData` gives the output of `unfold` the lengths `{N, C * P, L}`: `P` is the
product of the kernel sizes and `L` the product over the spatial dimensions of
`(input_length + 2 * padding - dilation * (kernel_size - 1) - 1) / stride + 1` (`unfoldBlocks`).
The loop computes in `int64_t`, whose division rounds toward zero and traps on a zero stride, and
the three lengths are then narrowed into a `std::vector<int>`: the driver gives the exact
lengths, each taken modulo `2^32` (`unfoldOutputLength_eq`), and a length of `2^31` or more comes
out negative.

Along one dimension the sliding block starts at `j * stride` in the padded input and ends
`dilation * (kernel_size - 1)` further on; `blockCount` counts the starts from which it ends
inside. When the block fits in the padded input the driver's count is that number, and on lengths
below `2^31` the driver's output is the unfolded shape (`unfoldOutputLength_eq_blocks`). When it
does not fit there is no position, but the numerator is negative and rounds toward zero: the
driver counts `1 - overhang / stride` blocks (`unfoldBlocks_of_not_fits`), which is right only
when the overhang is at least the stride and below twice the stride
(`unfoldBlocks_eq_blockCount_iff`).
-/

namespace MIOpen.Driver

open Finset

/-! ## Signed machine integers -/

/-- `int64_t` arithmetic: the value modulo `2^64`, in `[-2^63, 2^63)`. Signed overflow, undefined
in C++, wraps here as on the hardware. -/
def int64 (x : ℤ) : ℤ := x.bmod (2 ^ 64)

/-- The conversion of an `int64_t` into an `int`: the value modulo `2^32`, in `[-2^31, 2^31)`. -/
def int32 (x : ℤ) : ℤ := x.bmod (2 ^ 32)

theorem int64_one : int64 1 = 1 := by decide

theorem int64_mul_int64 (x y : ℤ) : int64 (int64 x * y) = int64 (x * y) := Int.bmod_mul_bmod

/-- Narrowing an `int64_t` into an `int` forgets the upper 32 bits only. -/
theorem int32_int64 (x : ℤ) : int32 (int64 x) = int32 x := by
  obtain ⟨k, hk⟩ := Int.dvd_bmod_sub_self (x := x) (m := 2 ^ 64)
  rw [int32, int64, show x.bmod (2 ^ 64) = x + ((2 ^ 32 : ℕ) : ℤ) * (2 ^ 32 * k) by
    push_cast at hk ⊢; linarith]
  exact Int.bmod_add_mul_cancel _ _ _

theorem int32_mul_int64 (x y : ℤ) : int32 (x * int64 y) = int32 (x * y) := by
  rw [← int32_int64, ← int32_int64 (x * y)]
  simp only [int64, Int.mul_bmod_bmod]

theorem int32_of_lt {x : ℤ} (h0 : -2 ^ 31 ≤ x) (h1 : x < 2 ^ 31) : int32 x = x := by
  rw [int32, Int.bmod_def]
  push_cast
  split <;> omega

theorem int32_natCast {n : ℕ} (h : n < 2 ^ 31) : int32 n = n :=
  int32_of_lt (by omega) (by exact_mod_cast h)

/-! ## The driver -/

/-- The blocks along one spatial dimension in `UnfoldDriver::GetandSetData`, in `int64_t`:
`Int.tdiv` rounds toward zero, and a zero stride traps (`none`). On `int` operands the numerator
cannot overflow. -/
def unfoldBlocks (inputLength kernelSize stride padding dilation : ℤ) : Option ℤ :=
  if stride = 0 then none
  else some ((inputLength + 2 * padding - dilation * (kernelSize - 1) - 1).tdiv stride + 1)

/-- Pass `i` of the loop over the spatial dimensions: `P *= kernel_size[i]` and `L *= l`, in
`int64_t`. A read past the end of a vector, undefined in the source, is `none`. -/
def unfoldStep (inputLength kernelSize stride padding dilation : List ℤ) (i : ℕ) (PL : ℤ × ℤ) :
    Option (ℤ × ℤ) := do
  let k ← kernelSize[i]?
  let l ← unfoldBlocks (← inputLength[i + 2]?) k (← stride[i]?) (← padding[i]?) (← dilation[i]?)
  pure (int64 (PL.1 * k), int64 (PL.2 * l))

/-- `UnfoldDriver::GetandSetData`: the output lengths `{N, C * P, L}` narrowed into `int`s, from the
input lengths and the kernel sizes, strides, paddings and dilations of the spatial dimensions.
It is `none` where the source traps or is undefined: a zero stride, fewer than two input lengths,
or fewer kernel sizes, strides, paddings or dilations than spatial dimensions. -/
def unfoldOutputLength (inputLength kernelSize stride padding dilation : List ℤ) :
    Option (List ℤ) := do
  let N ← inputLength[0]?
  let C ← inputLength[1]?
  let spatialDimSize := inputLength.length - 2
  let PL ← Nat.fold
    (fun i st => st.bind (unfoldStep inputLength kernelSize stride padding dilation i))
    spatialDimSize (some (1, 1))
  pure [int32 N, int32 (int64 (C * PL.1)), int32 PL.2]

/-- The positions of a block spanning `span + 1` elements that slides by `stride` inside `n`
elements: the starts `j * stride` with `j * stride + span < n`. -/
def blockCount (n span stride : ℕ) : ℕ := ((range n).filter fun j => j * stride + span < n).card

theorem blockCount_of_fits {n span stride : ℕ} (hs : 0 < stride) (h : span < n) :
    blockCount n span stride = (n - span - 1) / stride + 1 := by
  rw [blockCount, ← card_range ((n - span - 1) / stride + 1)]
  congr 1
  ext j
  simp only [mem_filter, mem_range, Nat.lt_succ_iff, Nat.le_div_iff_mul_le hs]
  have : j ≤ j * stride := Nat.le_mul_of_pos_right j hs
  omega

theorem blockCount_of_not_fits {n span : ℕ} (stride : ℕ) (h : n ≤ span) :
    blockCount n span stride = 0 := by
  rw [blockCount, card_eq_zero, filter_eq_empty_iff]
  intro j _
  omega

section Blocks

variable (inputLength kernelSize stride padding dilation : ℕ)

/-- The numerator of `unfoldBlocks`: the padded length less the span of the block. -/
theorem unfoldBlocks_eq_tdiv (hs : 0 < stride) (hk : 0 < kernelSize) :
    unfoldBlocks inputLength kernelSize stride padding dilation =
      some ((((inputLength + 2 * padding : ℕ) : ℤ) -
        ((dilation * (kernelSize - 1) + 1 : ℕ) : ℤ)).tdiv stride + 1) := by
  obtain ⟨k, rfl⟩ : ∃ k, kernelSize = k + 1 := ⟨kernelSize - 1, by omega⟩
  rw [unfoldBlocks, if_neg (by exact_mod_cast hs.ne'), Nat.cast_succ, add_sub_cancel_right,
    Nat.add_sub_cancel]
  push_cast
  ring_nf

/-- When the dilated kernel fits in the padded input, the driver counts the block's
positions. -/
theorem unfoldBlocks_of_fits (hs : 0 < stride) (hk : 0 < kernelSize)
    (h : dilation * (kernelSize - 1) < inputLength + 2 * padding) :
    unfoldBlocks inputLength kernelSize stride padding dilation =
      some (blockCount (inputLength + 2 * padding) (dilation * (kernelSize - 1)) stride : ℤ) := by
  rw [blockCount_of_fits hs h, unfoldBlocks_eq_tdiv _ _ _ _ _ hs hk, ← Nat.cast_sub h, Nat.sub_sub]
  rfl

/-- When the dilated kernel does not fit in the padded input, no block position exists, yet the
driver counts `1 - overhang / stride` blocks, the overhang being how far the block reaches past
the padded input. -/
theorem unfoldBlocks_of_not_fits (hs : 0 < stride) (hk : 0 < kernelSize)
    (h : inputLength + 2 * padding ≤ dilation * (kernelSize - 1)) :
    blockCount (inputLength + 2 * padding) (dilation * (kernelSize - 1)) stride = 0 ∧
      unfoldBlocks inputLength kernelSize stride padding dilation =
        some (1 - ((dilation * (kernelSize - 1) + 1 - (inputLength + 2 * padding)) / stride : ℕ) :
          ℤ) := by
  refine ⟨blockCount_of_not_fits stride h, ?_⟩
  rw [unfoldBlocks_eq_tdiv _ _ _ _ _ hs hk, ← neg_sub, ← Nat.cast_sub (Nat.le_succ_of_le h),
    Int.neg_tdiv, add_comm, ← sub_eq_add_neg]
  rfl

/-- For a positive stride and kernel size, the driver's block count is the number of positions of
the dilated kernel in the padded input exactly when the kernel fits, or when it overhangs the
padded input by at least the stride and by less than twice the stride. -/
theorem unfoldBlocks_eq_blockCount_iff (hs : 0 < stride) (hk : 0 < kernelSize) :
    unfoldBlocks inputLength kernelSize stride padding dilation =
        some (blockCount (inputLength + 2 * padding) (dilation * (kernelSize - 1)) stride : ℤ) ↔
      dilation * (kernelSize - 1) < inputLength + 2 * padding ∨
        stride ≤ dilation * (kernelSize - 1) + 1 - (inputLength + 2 * padding) ∧
          dilation * (kernelSize - 1) + 1 - (inputLength + 2 * padding) < 2 * stride := by
  by_cases h : dilation * (kernelSize - 1) < inputLength + 2 * padding
  · simp only [unfoldBlocks_of_fits _ _ _ _ _ hs hk h, h, true_or]
  · obtain ⟨h0, h1⟩ := unfoldBlocks_of_not_fits _ _ _ _ _ hs hk (Nat.le_of_not_lt h)
    rw [h0, h1, Option.some.injEq, Nat.cast_zero, sub_eq_zero, eq_comm, Nat.cast_eq_one]
    simp only [h, false_or]
    generalize dilation * (kernelSize - 1) + 1 - (inputLength + 2 * padding) = o
    constructor
    · intro hq
      have := Nat.div_add_mod o stride
      have := Nat.mod_lt o hs
      rw [hq] at *
      omega
    · exact fun ⟨h1, h2⟩ => Nat.div_eq_of_lt_le (by omega) (by omega)

end Blocks

/-- A kernel of 3 over an input of 2, stride 2: no position, but the driver counts one block. -/
theorem unfoldBlocks_eq_blockCount_iff_overhang :
    0 < 2 ∧ 0 < 3 ∧
      (unfoldBlocks (2 : ℕ) (3 : ℕ) (2 : ℕ) (0 : ℕ) (1 : ℕ) =
          some (blockCount (2 + 2 * 0) (1 * (3 - 1)) 2 : ℤ) ↔
        1 * (3 - 1) < 2 + 2 * 0 ∨
          2 ≤ 1 * (3 - 1) + 1 - (2 + 2 * 0) ∧ 1 * (3 - 1) + 1 - (2 + 2 * 0) < 2 * 2) :=
  ⟨by decide, by decide, unfoldBlocks_eq_blockCount_iff 2 3 2 0 1 (by decide) (by decide)⟩

theorem getElem?_eq_some_getD {l : List ℤ} {i : ℕ} (h : i < l.length) :
    l[i]? = some (l.getD i 0) := by
  rw [List.getD_eq_getElem?_getD, List.getElem?_eq_getElem h, Option.getD_some]

/-- The loop over the spatial dimensions, each pass reading its operands, computes the products of
the kernel sizes and of the block counts, taken in `int64_t`. -/
theorem fold_unfoldStep {inputLength kernelSize stride padding dilation : List ℤ} {n : ℕ}
    (k l : ℕ → ℤ) (h : ∀ i < n, ∀ PL : ℤ × ℤ,
      unfoldStep inputLength kernelSize stride padding dilation i PL =
        some (int64 (PL.1 * k i), int64 (PL.2 * l i))) :
    Nat.fold (fun i st => st.bind (unfoldStep inputLength kernelSize stride padding dilation i)) n
        (some (1, 1)) = some (int64 (∏ i ∈ range n, k i), int64 (∏ i ∈ range n, l i)) := by
  induction n with
  | zero => rw [prod_range_zero, prod_range_zero, int64_one]; rfl
  | succ n ih =>
    rw [fold_succ, ih fun i hi => h i (by omega), Option.some_bind, h n (by omega),
      prod_range_succ, prod_range_succ, int64_mul_int64, int64_mul_int64]

/-- When every operand a pass reads exists and every stride is nonzero, the driver's output lengths
are `N`, `C * P` and `L` computed exactly and narrowed into `int`s. -/
theorem unfoldOutputLength_eq (N C : ℤ) (ds ks ss ps dls : List ℤ) (l : ℕ → ℤ)
    (hlen : ∀ i < ds.length, i < ks.length ∧ i < ss.length ∧ i < ps.length ∧ i < dls.length)
    (hl : ∀ i < ds.length, unfoldBlocks (ds.getD i 0) (ks.getD i 0) (ss.getD i 0) (ps.getD i 0)
      (dls.getD i 0) = some (l i)) :
    unfoldOutputLength (N :: C :: ds) ks ss ps dls =
      some [int32 N, int32 (C * ∏ i ∈ range ds.length, ks.getD i 0),
        int32 (∏ i ∈ range ds.length, l i)] := by
  have hstep : ∀ i < ds.length, ∀ PL : ℤ × ℤ, unfoldStep (N :: C :: ds) ks ss ps dls i PL =
      some (int64 (PL.1 * ks.getD i 0), int64 (PL.2 * l i)) := fun i hi PL => by
    obtain ⟨hk, hs, hp, hd⟩ := hlen i hi
    have hx : (N :: C :: ds)[i + 2]? = some (ds.getD i 0) := by
      rw [List.getElem?_cons_succ, List.getElem?_cons_succ]; exact getElem?_eq_some_getD hi
    simp only [unfoldStep, Option.bind_eq_bind, getElem?_eq_some_getD hk, getElem?_eq_some_getD hs,
      getElem?_eq_some_getD hp, getElem?_eq_some_getD hd, hx, Option.some_bind, hl i hi,
      Option.pure_def]
  simp only [unfoldOutputLength, Option.bind_eq_bind, List.getElem?_cons_zero,
    List.getElem?_cons_succ, List.length_cons, Nat.add_sub_cancel, Option.some_bind,
    fold_unfoldStep _ _ hstep, Option.pure_def, int32_int64, int64_mul_int64]
  rw [show ds.length + 1 + 1 - 2 = ds.length from rfl, fold_unfoldStep _ _ hstep, Option.some_bind,
    int32_int64, int32_mul_int64]

/-- When the dilated kernel fits in the padded input along every spatial dimension and the
lengths are below `2^31`, the driver gives the output `{N, C * P, L}`: `P` is the number of kernel
elements and `L` the number of positions of the sliding block. -/
theorem unfoldOutputLength_eq_blocks (N C : ℕ) (ds ks ss ps dls : List ℕ)
    (hfit : ∀ i < ds.length, 0 < ss.getD i 0 ∧ 0 < ks.getD i 0 ∧
      dls.getD i 0 * (ks.getD i 0 - 1) < ds.getD i 0 + 2 * ps.getD i 0)
    (hps : ds.length ≤ ps.length) (hdls : ds.length ≤ dls.length) (hN : N < 2 ^ 31)
    (hP : C * ∏ i ∈ range ds.length, ks.getD i 0 < 2 ^ 31)
    (hL : ∏ i ∈ range ds.length, blockCount (ds.getD i 0 + 2 * ps.getD i 0)
      (dls.getD i 0 * (ks.getD i 0 - 1)) (ss.getD i 0) < 2 ^ 31) :
    unfoldOutputLength (N :: C :: ds.map (↑)) (ks.map (↑)) (ss.map (↑)) (ps.map (↑))
        (dls.map (↑)) =
      some [(N : ℤ), ((C * ∏ i ∈ range ds.length, ks.getD i 0 : ℕ) : ℤ),
        ((∏ i ∈ range ds.length, blockCount (ds.getD i 0 + 2 * ps.getD i 0)
          (dls.getD i 0 * (ks.getD i 0 - 1)) (ss.getD i 0) : ℕ) : ℤ)] := by
  have hget : ∀ (l : List ℕ) (i : ℕ), (l.map (↑)).getD i (0 : ℤ) = l.getD i 0 := fun l i => by
    rw [← Nat.cast_zero, List.getD_map]
  have hlt : ∀ {l : List ℕ} {i : ℕ}, 0 < l.getD i 0 → i < l.length := fun {l i} h =>
    Nat.lt_of_not_le fun hle => by rw [List.getD_eq_default _ _ hle] at h; exact lt_irrefl 0 h
  rw [unfoldOutputLength_eq _ _ _ _ _ _ _ (fun i => (blockCount (ds.getD i 0 + 2 * ps.getD i 0)
      (dls.getD i 0 * (ks.getD i 0 - 1)) (ss.getD i 0) : ℤ)) (fun i hi => ?_) (fun i hi => ?_)]
  · simp only [List.length_map, hget, ← Nat.cast_prod, ← Nat.cast_mul, int32_natCast hN,
      int32_natCast hP, int32_natCast hL]
  · simp only [List.length_map] at hi ⊢
    exact ⟨hlt (hfit i hi).2.1, hlt (hfit i hi).1, by omega, by omega⟩
  · simp only [List.length_map] at hi
    obtain ⟨hs, hk, h⟩ := hfit i hi
    rw [hget, hget, hget, hget, hget, unfoldBlocks_of_fits _ _ _ _ _ hs hk h]

/-- The driver's default: a `2×5×3×4` input, a `2×3` kernel, strides and dilations `1`, no
padding. -/
theorem unfoldOutputLength_eq_blocks_default :
    (∀ i < [3, 4].length, 0 < [1, 1].getD i 0 ∧ 0 < [2, 3].getD i 0 ∧
      [1, 1].getD i 0 * ([2, 3].getD i 0 - 1) < [3, 4].getD i 0 + 2 * [0, 0].getD i 0) ∧
    [3, 4].length ≤ [0, 0].length ∧ [3, 4].length ≤ [1, 1].length ∧ 2 < 2 ^ 31 ∧
    5 * ∏ i ∈ range [3, 4].length, [2, 3].getD i 0 < 2 ^ 31 ∧
    ∏ i ∈ range [3, 4].length, blockCount ([3, 4].getD i 0 + 2 * [0, 0].getD i 0)
      ([1, 1].getD i 0 * ([2, 3].getD i 0 - 1)) ([1, 1].getD i 0) < 2 ^ 31 ∧
    unfoldOutputLength [2, 5, 3, 4] [2, 3] [1, 1] [0, 0] [1, 1] =
      some [(2 : ℤ), ((5 * ∏ i ∈ range [3, 4].length, [2, 3].getD i 0 : ℕ) : ℤ),
        ((∏ i ∈ range [3, 4].length, blockCount ([3, 4].getD i 0 + 2 * [0, 0].getD i 0)
          ([1, 1].getD i 0 * ([2, 3].getD i 0 - 1)) ([1, 1].getD i 0) : ℕ) : ℤ)] :=
  have hfit : ∀ i < [3, 4].length, 0 < [1, 1].getD i 0 ∧ 0 < [2, 3].getD i 0 ∧
      [1, 1].getD i 0 * ([2, 3].getD i 0 - 1) < [3, 4].getD i 0 + 2 * [0, 0].getD i 0 := by
    decide
  have hP : 5 * ∏ i ∈ range [3, 4].length, [2, 3].getD i 0 < 2 ^ 31 := by decide
  have hL : ∏ i ∈ range [3, 4].length, blockCount ([3, 4].getD i 0 + 2 * [0, 0].getD i 0)
      ([1, 1].getD i 0 * ([2, 3].getD i 0 - 1)) ([1, 1].getD i 0) < 2 ^ 31 := by decide
  ⟨hfit, by decide, by decide, by decide, hP, hL,
    unfoldOutputLength_eq_blocks 2 5 [3, 4] [2, 3] [1, 1] [0, 0] [1, 1] hfit (by decide)
      (by decide) (by decide) hP hL⟩

end MIOpen.Driver
