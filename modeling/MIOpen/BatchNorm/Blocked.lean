import MIOpen.BatchNorm.Basic

/-!
# The blocked accumulation of the `MIO_HEIRARCH_SEL == 1` build

With `MIO_HEIRARCH_SEL` set to 1 the spatial routines accumulate a channel into `MIO_BN_DIST`
partial sums: `im` steps by `MIO_BN_DIST` below `in_cstride`, the partial sum `i` collects image
position `im + i`, and the partial sums are added at the end. The header defines
`MIO_HEIRARCH_SEL` as 0, so this build is never compiled.

When every image position is guarded by `imgIndex < in_cstride`, the blocked accumulation visits
each position of the channel exactly once and, in exact arithmetic, equals the plain sum
(`blockedAccum_guarded`). Without the guard the last block runs past the channel whenever
`in_cstride` is not a multiple of `MIO_BN_DIST`.

The blocks tile the positions below `in_cstride` rounded up to a multiple of `MIO_BN_DIST`
(`blockedBound`), so the blocked loops are the plain loop over that range (`blockedLoop_eq`), and
an accumulation sums the terms of every position it visits (`blockedAccum_eq`).
-/

namespace MIOpen.BatchNorm

open Finset

variable {σ α : Type*}

/-- `MIO_BN_DIST`. -/
def mioBnDist : ℕ+ := 32

/-- The `im`/`i` loops of the blocked build: the body at `i` and `imgIndex = im + i`, with `im`
stepping by `MIO_BN_DIST` below `in_cstride`. -/
def blockedLoop (sh : Shape) (body : ℕ → ℕ → σ → σ) (s : σ) : σ :=
  (stridedRange 0 mioBnDist sh.inCstride).foldl
    (fun s im => Nat.fold (fun i => body i (im + i)) mioBnDist s) s

/-- A blocked accumulation: `arr[i] += term imgIndex bidx` over the batch at each visited image
position (only below `in_cstride` when `guarded`), then `arr[0] + … + arr[MIO_BN_DIST - 1]`. -/
def blockedAccum [AddCommMonoid α] (sh : Shape) (guarded : Bool) (term : ℕ → ℕ → α) : α :=
  let arr := blockedLoop sh (fun i imgIndex arr =>
      if ¬guarded ∨ imgIndex < sh.inCstride then
        Nat.fold (fun bidx arr => Function.update arr i (arr i + term imgIndex bidx)) sh.nBatchs arr
      else arr) (fun _ => 0)
  Nat.fold (fun i acc => acc + arr i) mioBnDist 0

variable [AddCommMonoid α]

/-- Blocks of `stride` positions starting at `start`, each cut at `bound`, tile `[start, bound)`. -/
theorem sum_stridedRange (T : ℕ → α) (start : ℕ) (stride : ℕ+) (bound : ℕ) :
    ((stridedRange start stride bound).map fun im =>
        ∑ i ∈ range stride, if im + i < bound then T (im + i) else 0).sum =
      ∑ j ∈ Ico start bound, T j := by
  induction start, stride, bound using stridedRange.induct with
  | case1 start stride bound h ih =>
    rw [stridedRange, if_pos h, List.map_cons, List.sum_cons, ih]
    have hblock : ∑ i ∈ range stride, (if start + i < bound then T (start + i) else 0) =
        ∑ j ∈ Ico start (min (start + stride) bound), T j := by
      rw [← Ico_filter_lt, sum_filter, sum_Ico_eq_sum_range, Nat.add_sub_cancel_left]
    rw [hblock]
    rcases le_or_lt (start + stride) bound with hle | hlt
    · rw [min_eq_left hle, sum_Ico_consecutive _ (by omega) hle]
    · rw [min_eq_right hlt.le, Ico_eq_empty_of_le hlt.le, sum_empty, add_zero]
  | case2 start stride bound h =>
    rw [stridedRange, if_neg h, Ico_eq_empty_of_le (by omega)]
    simp

theorem sum_list_comm {γ : Type*} (l : List γ) (n : ℕ) (G : ℕ → γ → α) :
    ∑ i ∈ range n, (l.map (G i)).sum = (l.map fun x => ∑ i ∈ range n, G i x).sum := by
  induction l with
  | nil => simp
  | cons x l ih => simp [sum_add_distrib, ih]

/-- The partial sum `i` of a blocked accumulation collects the image positions `im + i`. -/
theorem blockedAccum_arr (sh : Shape) (guarded : Bool) (term : ℕ → ℕ → α) {i : ℕ}
    (hi : i < mioBnDist) :
    blockedLoop sh (fun i imgIndex arr =>
      if ¬guarded ∨ imgIndex < sh.inCstride then
        Nat.fold (fun bidx arr => Function.update arr i (arr i + term imgIndex bidx)) sh.nBatchs arr
      else arr) (fun _ => 0) i =
      ((stridedRange 0 mioBnDist sh.inCstride).map fun im =>
        if ¬guarded ∨ im + i < sh.inCstride then ∑ b ∈ range sh.nBatchs, term (im + i) b
        else 0).sum := by
  refine (foldl_acc (fun arr : ℕ → α => arr i) _ _ (fun im arr => ?_) _ _).trans (zero_add _)
  refine fold_once (fun arr : ℕ → α => arr i) i hi (· + if ¬guarded ∨ im + i < sh.inCstride then
    ∑ b ∈ range sh.nBatchs, term (im + i) b else 0) (fun j _ hj t => ?_) (fun t => ?_) arr
  · dsimp only
    split_ifs
    · exact fold_frame (fun arr : ℕ → α => arr i)
        (fun b _ u => Function.update_noteq (Ne.symm hj) _ _) t
    · rfl
  · dsimp only
    split_ifs
    · exact fold_acc (fun arr : ℕ → α => arr i) _ (fun b _ u => Function.update_same _ _ _) t
    · exact (add_zero _).symm

/-- Guarded, the blocked accumulation is the plain sum over the channel's image positions. -/
theorem blockedAccum_guarded (sh : Shape) (term : ℕ → ℕ → α) :
    blockedAccum sh true term = ∑ j ∈ range sh.inCstride, ∑ b ∈ range sh.nBatchs, term j b := by
  rw [blockedAccum, fold_add_eq_sum, zero_add,
    sum_congr rfl fun i hi => blockedAccum_arr sh true term (mem_range.1 hi), sum_list_comm,
    range_eq_Ico, ← sum_stridedRange _ 0 mioBnDist]
  simp

/-! ## The positions the blocks visit -/

/-- The image positions the blocked loops visit: `im + i` for `im` below `in_cstride` in steps of
`MIO_BN_DIST` and `i < MIO_BN_DIST`, that is, all positions below `in_cstride` rounded up to a
multiple of `MIO_BN_DIST`. -/
def blockedBound (sh : Shape) : ℕ :=
  mioBnDist * ((sh.inCstride + (mioBnDist - 1)) / mioBnDist)

theorem lt_ceilDiv_iff {k : ℕ} (hk : 0 < k) {j n : ℕ} : j < (n + (k - 1)) / k ↔ k * j < n := by
  rw [← Nat.succ_le, Nat.le_div_iff_mul_le hk, Nat.succ_mul, Nat.mul_comm]
  omega

/-- A strided loop from a multiple of its stride visits the following multiples below its
bound. -/
theorem stridedRange_mul (k : ℕ+) (n j : ℕ) : stridedRange ((k : ℕ) * j) k n =
    (List.range' j ((n + (k - 1)) / k - j)).map ((k : ℕ) * ·) := by
  obtain ⟨m, hm⟩ : ∃ m, (n + (k - 1)) / k - j = m := ⟨_, rfl⟩
  induction m generalizing j with
  | zero =>
    have : ¬ (k : ℕ) * j < n := fun h => by have := (lt_ceilDiv_iff k.pos).2 h; omega
    rw [hm, stridedRange, if_neg this]
    rfl
  | succ m ih =>
    have hj : (k : ℕ) * j < n := (lt_ceilDiv_iff k.pos).1 (by omega)
    rw [hm, stridedRange, if_pos hj, List.range'_succ, List.map_cons, ← Nat.mul_succ,
      ih (j + 1) (by omega), show (n + (k - 1)) / k - (j + 1) = m by omega]

/-- The blocked loops run the body at every position below `blockedBound`, in increasing order,
with the partial sum `imgIndex % MIO_BN_DIST`. -/
theorem blockedLoop_eq (sh : Shape) (body : ℕ → ℕ → σ → σ) (s : σ) :
    blockedLoop sh body s =
      Nat.fold (fun imgIndex => body (imgIndex % mioBnDist) imgIndex) (blockedBound sh) s := by
  have h0 := stridedRange_mul mioBnDist sh.inCstride 0
  rw [Nat.mul_zero, Nat.sub_zero, ← List.range_eq_range'] at h0
  rw [blockedLoop, h0, List.foldl_map, ← fold_eq_foldl, fold_fold, blockedBound, Nat.mul_comm]
  exact fold_congr (fun m _ => by rw [Nat.div_add_mod]) s

theorem blockedBound_of_dvd {sh : Shape} (h : (mioBnDist : ℕ) ∣ sh.inCstride) :
    blockedBound sh = sh.inCstride := by
  obtain ⟨q, hq⟩ := h
  rw [blockedBound, hq, show (mioBnDist : ℕ) = 32 from rfl]
  omega

theorem le_blockedBound (sh : Shape) : sh.inCstride ≤ blockedBound sh := by
  rw [blockedBound, show (mioBnDist : ℕ) = 32 from rfl]
  omega

theorem sum_range_ite_lt {m n : ℕ} (h : m ≤ n) (X : ℕ → α) :
    ∑ j ∈ range n, (if j < m then X j else 0) = ∑ j ∈ range m, X j := by
  rw [← sum_filter]
  congr 1
  ext j
  simp only [mem_filter, mem_range]
  omega

/-- A blocked accumulation sums the terms of every position below `blockedBound`, or only of
those below `in_cstride` when it is guarded. -/
theorem blockedAccum_eq (sh : Shape) (guarded : Bool) (term : ℕ → ℕ → α) :
    blockedAccum sh guarded term = ∑ j ∈ range (blockedBound sh),
      if ¬guarded ∨ j < sh.inCstride then ∑ b ∈ range sh.nBatchs, term j b else 0 := by
  rw [blockedAccum, fold_add_eq_sum, zero_add, blockedLoop_eq]
  refine (fold_acc (fun arr : ℕ → α => ∑ i ∈ range mioBnDist, arr i) (fun j =>
    if ¬guarded ∨ j < sh.inCstride then ∑ b ∈ range sh.nBatchs, term j b else 0)
    (fun j _ arr => ?_) _).trans (by simp)
  dsimp only
  split_ifs
  · exact fold_acc (fun arr : ℕ → α => ∑ i ∈ range mioBnDist, arr i) (term j)
      (fun b _ arr => sum_update_add (mem_range.2 (Nat.mod_lt j mioBnDist.pos)) arr _) arr
  · exact (add_zero _).symm

end MIOpen.BatchNorm
