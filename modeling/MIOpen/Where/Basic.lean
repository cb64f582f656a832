import MIOpen.Launch

/-!
# Where: operands broadcast by contiguous blocks

`where(condition, input, other)` takes, at every output position, the input element where the
condition is nonzero and the other element elsewhere. The host routines of `where_driver.hpp` and
the kernels of `MIOpenWhere.cpp` handle operands broadcast by repeating one contiguous block:
output position `o` reads element `o % size` of an operand whose block holds `size` elements, the
size `check_broadcasted_contiguous` reads off the operand's descriptor (and `0` for a layout it
does not handle).

`whereOutput` is the forward as the operation is specified, and `whereInputGrad`,
`whereOtherGrad` its gradients: an element of an operand receives the sum of the output
gradients at all the positions that read it and selected its operand.
-/

namespace MIOpen.Where

open Finset

/-- A tensor descriptor: lengths and strides, outermost dimension first. -/
structure TensorDesc where
  lengths : List ℕ
  strides : List ℕ
deriving DecidableEq, Repr

/-- Modelled from the spec: `GetElementSize` is not in the sources; it is the number of elements,
the product of the lengths. -/
def TensorDesc.elementSize (desc : TensorDesc) : ℕ := desc.lengths.prod

/-- The loop of `check_broadcasted_contiguous` over the pairs `(len[i], strides[i])`, innermost
dimension first, with `numElems` the number of elements of the dimensions already passed. -/
def checkBroadcastedContiguousLoop : List (ℕ × ℕ) → ℕ → ℕ
  | [], numElems => numElems
  | (len, stride) :: dims, numElems =>
    if stride ≠ 0 ∧ stride ≠ numElems then 0
    else if stride = 0 then
      if ((len, stride) :: dims).all (fun dim => dim.2 = 0) then numElems else 0
    else checkBroadcastedContiguousLoop dims (numElems * len)

/-- `check_broadcasted_contiguous`: the number of elements of the contiguous block the tensor
repeats, or `0`. -/
def checkBroadcastedContiguous (desc : TensorDesc) : ℕ :=
  checkBroadcastedContiguousLoop (desc.lengths.zip desc.strides).reverse 1

/-! ## Offsets of the views `check_broadcasted_contiguous` accepts -/

/-- The offset `Σ m[j]*strides[j]` of the multi-index `m` in the view. -/
def TensorDesc.offset (desc : TensorDesc) (m : List ℕ) : ℕ :=
  (List.zipWith (· * ·) m desc.strides).sum

/-- The row-major linear index of the multi-index `m` in a tensor of the given lengths. -/
def rowMajorIndex (lengths m : List ℕ) : ℕ :=
  (lengths.zip m).foldl (fun acc d => acc * d.1 + d.2) 0

theorem sum_zipWith_mul_of_zero {is ss : List ℕ} (h : ∀ s ∈ ss, s = 0) :
    (List.zipWith (· * ·) is ss).sum = 0 := by
  induction is generalizing ss with
  | nil => rfl
  | cons i is ih =>
    cases ss with
    | nil => rfl
    | cons s ss =>
      simp only [List.zipWith_cons_cons, List.sum_cons, h s (.head _), Nat.mul_zero,
        ih fun s' hs' => h s' (.tail _ hs'), Nat.add_zero]

/-- One packed dimension `(len, numElems)` in front of a view accepted with block `k`. -/
theorem mul_add_mod_of_dvd {n len i R k : ℕ} (hi : i < len) (hk : 0 < k) (hd : n * len ∣ k) :
    i * n + n * len * R % k = n * (R * len + i) % k := by
  obtain ⟨t, rfl⟩ := hd
  have hn : 0 < n * len := Nat.pos_of_mul_pos_right hk
  have ht : 0 < t := Nat.pos_of_mul_pos_left hk
  have hlt : n * len * (R % t) + n * i < n * len * t := by
    have h1 : n * i < n * len := Nat.mul_lt_mul_of_pos_left hi (Nat.pos_of_mul_pos_right hn)
    have h2 : n * len * (R % t + 1) ≤ n * len * t := Nat.mul_le_mul_left _ (Nat.mod_lt R ht)
    rw [Nat.mul_add_one] at h2
    omega
  calc i * n + n * len * R % (n * len * t) = n * len * (R % t) + n * i := by
        rw [Nat.mul_mod_mul_left, Nat.mul_comm i n, Nat.add_comm]
    _ = (n * len * (R % t) + n * i + n * len * t * (R / t)) % (n * len * t) := by
        rw [Nat.add_mul_mod_self_left, Nat.mod_eq_of_lt hlt]
    _ = n * (R * len + i) % (n * len * t) := by
        congr 1
        calc n * len * (R % t) + n * i + n * len * t * (R / t)
            = n * len * (t * (R / t) + R % t) + n * i := by ring
          _ = n * (R * len + i) := by rw [Nat.div_add_mod]; ring

/-- The loop, innermost dimension first: a view it accepts from `numElems = n` addresses the
index digits `is` at `n` times their row-major index, modulo the block it returns. -/
theorem checkBroadcastedContiguousLoop_offset :
    ∀ (ls ss is : List ℕ) (n : ℕ), ss.length = ls.length → List.Forall₂ (· < ·) is ls →
      0 < checkBroadcastedContiguousLoop (ls.zip ss) n →
      n ∣ checkBroadcastedContiguousLoop (ls.zip ss) n ∧
        (List.zipWith (· * ·) is ss).sum =
          n * (ls.zip is).foldr (fun d acc => acc * d.1 + d.2) 0 %
            checkBroadcastedContiguousLoop (ls.zip ss) n
  | [], [], [], n, _, _, _ => by simp [checkBroadcastedContiguousLoop]
  | len :: ls, s :: ss, i :: is, n, hss, .cons hi his, hk => by
    have hss' : ss.length = ls.length := Nat.succ.inj hss
    rw [List.zip_cons_cons, checkBroadcastedContiguousLoop] at hk ⊢
    split_ifs at hk ⊢ with h1 h0 hall
    · exact absurd hk (lt_irrefl 0)
    · have hall' := List.all_eq_true.1 hall
      have hz : ∀ s' ∈ s :: ss, s' = 0 := by
        intro s' hs'
        rcases List.mem_cons.1 hs' with rfl | hs'
        · exact of_decide_eq_true (hall' _ (.head _))
        · rw [← List.map_snd_zip ls ss hss'.le] at hs'
          obtain ⟨d, hd, rfl⟩ := List.mem_map.1 hs'
          exact of_decide_eq_true (hall' d (.tail _ hd))
      exact ⟨dvd_rfl, by rw [sum_zipWith_mul_of_zero hz, Nat.mul_mod_right]⟩
    · exact absurd hk (lt_irrefl 0)
    · have hs : s = n := by omega
      obtain ⟨hd, he⟩ := checkBroadcastedContiguousLoop_offset ls ss is (n * len) hss' his hk
      refine ⟨(Nat.dvd_mul_right n len).trans hd, ?_⟩
      rw [List.zipWith_cons_cons, List.sum_cons, he, hs, List.zip_cons_cons, List.foldr_cons]
      exact mul_add_mod_of_dvd hi hk hd
  | [], _ :: _, _, _, hss, _, _ => absurd hss (by simp)
  | _ :: _, [], _, _, hss, _, _ => absurd hss (by simp)

/-- A view that `check_broadcasted_contiguous` accepts with block `k > 0` places the element at
multi-index `m` at offset `rowMajorIndex m % k`, where the Where routines read it. -/
theorem checkBroadcastedContiguous_offset (desc : TensorDesc)
    (hlen : desc.strides.length = desc.lengths.length) (hk : 0 < checkBroadcastedContiguous desc)
    {m : List ℕ} (hm : List.Forall₂ (· < ·) m desc.lengths) :
    desc.offset m = rowMajorIndex desc.lengths m % checkBroadcastedContiguous desc := by
  have hml : m.length = desc.lengths.length := hm.length_eq
  have hzip : (desc.lengths.zip desc.strides).reverse =
      desc.lengths.reverse.zip desc.strides.reverse := by
    rw [List.zip_eq_zipWith, List.reverse_zipWith hlen.symm, ← List.zip_eq_zipWith]
  have hoff : desc.offset m = (List.zipWith (· * ·) m.reverse desc.strides.reverse).sum := by
    rw [TensorDesc.offset, ← List.reverse_zipWith (hml.trans hlen.symm), List.sum_reverse]
  have hidx : rowMajorIndex desc.lengths m =
      (desc.lengths.reverse.zip m.reverse).foldr (fun d acc => acc * d.1 + d.2) 0 := by
    rw [rowMajorIndex, List.zip_eq_zipWith, List.zip_eq_zipWith,
      ← List.reverse_zipWith hml.symm, List.foldr_reverse]
  unfold checkBroadcastedContiguous at hk ⊢
  rw [hzip] at hk ⊢
  rw [hoff, hidx, (checkBroadcastedContiguousLoop_offset _ _ _ 1 (by simp [hlen])
    (List.forall₂_reverse_iff.2 hm) hk).2, Nat.one_mul]

/-- A `2×3×4` view of a `3×4` block repeated along its outer dimension. -/
def repeatedView : TensorDesc := ⟨[2, 3, 4], [0, 4, 1]⟩

/-- Element `(1, 2, 3)` of the view, row-major index `23`, sits at offset `23 % 12 = 11`. -/
theorem checkBroadcastedContiguous_offset_repeated :
    repeatedView.strides.length = repeatedView.lengths.length ∧
      0 < checkBroadcastedContiguous repeatedView ∧
      List.Forall₂ (· < ·) [1, 2, 3] repeatedView.lengths ∧
      repeatedView.offset [1, 2, 3] =
        rowMajorIndex repeatedView.lengths [1, 2, 3] % checkBroadcastedContiguous repeatedView :=
  have hm : List.Forall₂ (· < ·) [1, 2, 3] repeatedView.lengths := by decide
  ⟨rfl, by decide, hm, checkBroadcastedContiguous_offset repeatedView rfl (by decide) hm⟩

variable {α : Type*} [Ring α] [DecidableEq α]

/-- The output of `where` at position `o`, with operands broadcast by blocks of `conditionSize`,
`inputSize` and `otherSize` elements. -/
def whereOutput (condition input other : ℕ → α) (conditionSize inputSize otherSize o : ℕ) : α :=
  if condition (o % conditionSize) ≠ 0 then input (o % inputSize) else other (o % otherSize)

/-- The gradient of `where` at element `j` of the input: the output gradients of the `size`
positions that read `j`, weighted by the condition they read. -/
def whereInputGrad (outputGrad condition : ℕ → α) (size conditionSize inputSize j : ℕ) : α :=
  ∑ o ∈ (range size).filter (fun o => o % inputSize = j),
    outputGrad o * condition (o % conditionSize)

/-- The gradient of `where` at element `j` of the other operand. -/
def whereOtherGrad (outputGrad condition : ℕ → α) (size conditionSize otherSize j : ℕ) : α :=
  ∑ o ∈ (range size).filter (fun o => o % otherSize = j),
    outputGrad o * (1 - condition (o % conditionSize))

theorem filter_mod_eq_self {n j : ℕ} (hj : j < n) :
    (range n).filter (fun o => o % n = j) = {j} := by
  ext o
  simp only [mem_filter, mem_range, mem_singleton]
  exact ⟨fun ⟨ho, h⟩ => (Nat.mod_eq_of_lt ho).symm.trans h,
    fun h => by subst h; exact ⟨hj, Nat.mod_eq_of_lt hj⟩⟩

omit [DecidableEq α] in
/-- An input as large as the output is read at one position per element: the gradient of an
element is that position's contribution. -/
theorem whereInputGrad_self (outputGrad condition : ℕ → α) (conditionSize : ℕ) {n j : ℕ}
    (hj : j < n) : whereInputGrad outputGrad condition n conditionSize n j =
      outputGrad j * condition (j % conditionSize) := by
  rw [whereInputGrad, filter_mod_eq_self hj, sum_singleton]

omit [DecidableEq α] in
theorem whereOtherGrad_self (outputGrad condition : ℕ → α) (conditionSize : ℕ) {n j : ℕ}
    (hj : j < n) : whereOtherGrad outputGrad condition n conditionSize n j =
      outputGrad j * (1 - condition (j % conditionSize)) := by
  rw [whereOtherGrad, filter_mod_eq_self hj, sum_singleton]

end MIOpen.Where
