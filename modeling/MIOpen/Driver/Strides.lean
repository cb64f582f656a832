import MIOpen.Where.Packed
import MIOpen.Driver.Lengths

/-!
# The strides of the NLLLoss driver and of the KLDivLoss test

`NLLLossDriver` and the KLDivLoss test give each tensor the strides `GetStrides` computes from its
lengths. Contiguous, the loop fills in the packed strides, each the product of the lengths inside
it (`stridesOf_true`). Not contiguous, it swaps the first and last lengths, computes the packed
strides of that shape and swaps the first and last strides back: the tensor is laid out as the
packed tensor with its outermost and innermost dimensions transposed.

Either way the strides address the tensor one-to-one: the offsets of the in-bounds multi-indices
are exactly `0, …, numel - 1`. The packed layout is so (`packedDesc_bijOn`), and the transposed
layout is the packed one composed with the swap of the first and last indices.
-/

namespace MIOpen.Driver

open MIOpen.Where

/-! ## Swapping the first and last entries -/

section Swap

variable {α β γ : Type*}

/-- `std::swap(v.front(), v.back())`. -/
def swapFrontBack : List α → List α
  | [] => []
  | a :: l => ((a :: l).set 0 ((a :: l).getLast (List.cons_ne_nil a l))).set l.length a

@[simp]
theorem swapFrontBack_nil : swapFrontBack ([] : List α) = [] := rfl

@[simp]
theorem swapFrontBack_singleton (a : α) : swapFrontBack [a] = [a] := rfl

@[simp]
theorem swapFrontBack_cons_concat (a b : α) (l : List α) :
    swapFrontBack (a :: (l ++ [b])) = b :: (l ++ [a]) := by
  simp [swapFrontBack]

/-- Every list is empty, a singleton, or a first entry, a middle and a last entry. -/
theorem eq_nil_or_singleton_or_cons_concat (l : List α) :
    l = [] ∨ (∃ a, l = [a]) ∨ ∃ a b m, l = a :: (m ++ [b]) := by
  rcases l with _ | ⟨a, l⟩
  · exact .inl rfl
  · rcases List.eq_nil_or_concat l with rfl | ⟨m, b, rfl⟩
    · exact .inr (.inl ⟨a, rfl⟩)
    · exact .inr (.inr ⟨a, b, m, by rw [List.concat_eq_append]⟩)

@[simp]
theorem length_swapFrontBack (l : List α) : (swapFrontBack l).length = l.length := by
  rcases eq_nil_or_singleton_or_cons_concat l with rfl | ⟨a, rfl⟩ | ⟨a, b, m, rfl⟩ <;> simp

@[simp]
theorem swapFrontBack_swapFrontBack (l : List α) : swapFrontBack (swapFrontBack l) = l := by
  rcases eq_nil_or_singleton_or_cons_concat l with rfl | ⟨a, rfl⟩ | ⟨a, b, m, rfl⟩ <;> simp

open List in
theorem swapFrontBack_perm (l : List α) : swapFrontBack l ~ l := by
  rcases eq_nil_or_singleton_or_cons_concat l with rfl | ⟨a, rfl⟩ | ⟨a, b, m, rfl⟩
  · exact .nil
  · exact .refl _
  · rw [swapFrontBack_cons_concat]
    calc b :: (m ++ [a]) ~ b :: a :: m := .cons b (perm_append_singleton a m)
      _ = [b, a] ++ m := rfl
      _ ~ [a, b] ++ m := .append_right m (.swap a b [])
      _ ~ a :: (m ++ [b]) := .cons a (perm_append_singleton b m).symm

theorem map_swapFrontBack (f : α → β) (l : List α) :
    (swapFrontBack l).map f = swapFrontBack (l.map f) := by
  rcases eq_nil_or_singleton_or_cons_concat l with rfl | ⟨a, rfl⟩ | ⟨a, b, m, rfl⟩ <;> simp

theorem zipWith_swapFrontBack (f : α → β → γ) {l : List α} {l' : List β}
    (h : l.length = l'.length) :
    List.zipWith f (swapFrontBack l) (swapFrontBack l') = swapFrontBack (List.zipWith f l l') := by
  rcases eq_nil_or_singleton_or_cons_concat l with rfl | ⟨a, rfl⟩ | ⟨a, b, m, rfl⟩ <;>
    rcases eq_nil_or_singleton_or_cons_concat l' with rfl | ⟨a', rfl⟩ | ⟨a', b', m', rfl⟩ <;>
    simp_all [List.zipWith_append]

/-- Swapping the first and last entries of both lists keeps them related entry by entry. -/
theorem forall₂_swapFrontBack {R : α → β → Prop} {l : List α} {l' : List β} :
    List.Forall₂ R (swapFrontBack l) (swapFrontBack l') ↔ List.Forall₂ R l l' := by
  simp only [List.forall₂_iff_zip, length_swapFrontBack]
  refine and_congr_right fun h => ?_
  rw [List.zip_eq_zipWith, List.zip_eq_zipWith, zipWith_swapFrontBack _ h]
  exact forall₂_congr fun a b => imp_congr_left (swapFrontBack_perm _).mem_iff

end Swap

/-! ## `GetStrides` -/

section GetStrides

variable {α β : Type*} [Zero α] [One α] [Mul α] [Zero β] [One β] [Mul β]

/-- The strides `GetStrides` starts from: `strides(lengths.size())` zeroed, with
`strides.back() = 1`. -/
def stridesInit (lengths : List α) : List α :=
  (List.replicate lengths.length 0).set (lengths.length - 1) 1

/-- Pass `k` of the loop of `GetStrides`, at `i = lengths.size() - 2 - k`:
`strides[i] = strides[i + 1] * lengths[i + 1]`. -/
def stridesStep (lengths : List α) (k : ℕ) (strides : List α) : List α :=
  let i := lengths.length - 2 - k
  strides.set i (strides.getD (i + 1) 0 * lengths.getD (i + 1) 0)

/-- `GetStrides` of a tensor that is `contiguous` or not. -/
def stridesOf (contiguous : Bool) (lengths : List α) : List α :=
  let lengths := if contiguous then lengths else swapFrontBack lengths
  let strides := Nat.fold (stridesStep lengths) (lengths.length - 1) (stridesInit lengths)
  if contiguous then strides else swapFrontBack strides

omit [One α] in
theorem length_stridesStep (lengths : List α) (k : ℕ) (strides : List α) :
    (stridesStep lengths k strides).length = strides.length :=
  List.length_set _ _ _

/-- The loop multiplies and copies entries only, so a map that keeps `0`, `1` and products
commutes with it. -/
theorem stridesOf_map (f : α → β) (h0 : f 0 = 0) (h1 : f 1 = 1)
    (hmul : ∀ a b, f (a * b) = f a * f b) (contiguous : Bool) (lengths : List α) :
    stridesOf contiguous (lengths.map f) = (stridesOf contiguous lengths).map f := by
  have hinit : ∀ l : List α, stridesInit (l.map f) = (stridesInit l).map f := fun l => by
    rw [stridesInit, stridesInit, List.map_set, List.map_replicate, h0, h1, List.length_map]
  have hloop : ∀ l : List α, Nat.fold (stridesStep (l.map f)) ((l.map f).length - 1)
      (stridesInit (l.map f)) = (Nat.fold (stridesStep l) (l.length - 1) (stridesInit l)).map f :=
    fun l => by
      rw [hinit, List.length_map]
      refine (fold_map (List.map f) (fun k s => ?_) _ _).symm
      rw [stridesStep, stridesStep, List.map_set, hmul, List.length_map, ← h0, List.getD_map,
        List.getD_map]
  cases contiguous
  · simp only [stridesOf, Bool.false_eq_true, ↓reduceIte, ← map_swapFrontBack, hloop]
  · simp only [stridesOf, ↓reduceIte, hloop]

theorem getElem?_packedStrides (lens : List ℕ) (j : ℕ) :
    (packedStrides lens)[j]? = if j < lens.length then some (lens.drop (j + 1)).prod else none := by
  induction lens generalizing j with
  | nil => rfl
  | cons len lens ih =>
    cases j with
    | zero =>
      simp only [packedStrides, List.getElem?_cons_zero, List.length_cons, Nat.zero_lt_succ,
        if_true, List.drop_succ_cons, List.drop_zero]
    | succ j =>
      simp only [packedStrides, List.getElem?_cons_succ, List.length_cons,
        Nat.add_lt_add_iff_right, List.drop_succ_cons, ih]

/-- After `k` passes the loop holds the packed strides from position `size - 1 - k` on, and
zeros before it. -/
theorem getElem?_fold_stridesStep (lens : List ℕ) {k : ℕ} (hk : k ≤ lens.length - 1) (j : ℕ) :
    (Nat.fold (stridesStep lens) k (stridesInit lens))[j]? = if j < lens.length then
      some (if lens.length - 1 - k ≤ j then (lens.drop (j + 1)).prod else 0) else none := by
  induction k generalizing j with
  | zero =>
    rw [Nat.fold, stridesInit, List.getElem?_set, List.length_replicate, List.getElem?_replicate]
    by_cases hj : j < lens.length
    · by_cases h : lens.length - 1 = j
      · rw [if_pos h, if_pos (by omega), if_pos hj, if_pos (by omega),
          List.drop_eq_nil_of_le (by omega), List.prod_nil]
      · rw [if_neg h, if_pos hj, if_pos hj, if_neg (by omega)]
    · rw [if_neg hj, if_neg hj, ite_eq_right_iff]
      exact fun _ => if_neg (by omega)
  | succ k ih =>
    have hlen : (Nat.fold (stridesStep lens) k (stridesInit lens)).length = lens.length :=
      (fold_frame List.length (fun i _ s => length_stridesStep lens i s) _).trans
        ((List.length_set _ _ _).trans (List.length_replicate _ _))
    have hnext := ih (by omega) (lens.length - 2 - k + 1)
    rw [if_pos (by omega), if_pos (by omega)] at hnext
    rw [fold_succ, stridesStep, List.getElem?_set, hlen]
    generalize hi : lens.length - 2 - k = i at hnext ⊢
    by_cases h : i = j
    · subst h
      have hi' : i + 1 < lens.length := by omega
      have hk' : lens.length - 1 - (k + 1) ≤ i := by omega
      simp only [List.getD_eq_getElem?_getD, hnext, List.getElem?_eq_getElem hi', Option.getD_some,
        Nat.lt_of_succ_lt hi', hk', if_true]
      rw [List.drop_eq_getElem_cons hi', List.prod_cons, Nat.mul_comm]
    · have hc : lens.length - 1 - k ≤ j ↔ lens.length - 1 - (k + 1) ≤ j := by omega
      rw [if_neg h, ih (by omega)]
      simp only [hc]

/-- The loop of `GetStrides` computes the packed strides. -/
theorem fold_stridesStep (lens : List ℕ) :
    Nat.fold (stridesStep lens) (lens.length - 1) (stridesInit lens) = packedStrides lens := by
  ext j
  rw [getElem?_fold_stridesStep lens le_rfl, getElem?_packedStrides, Nat.sub_self]
  simp only [zero_le, ↓reduceIte]

theorem stridesOf_true (lens : List ℕ) : stridesOf true lens = packedStrides lens :=
  fold_stridesStep lens

theorem stridesOf_false (lens : List ℕ) :
    stridesOf false lens = swapFrontBack (packedStrides (swapFrontBack lens)) :=
  congrArg swapFrontBack (fold_stridesStep _)

end GetStrides

/-! ## The layouts `GetStrides` gives -/

/-- Swapping the first and last strides of a view is swapping the first and last indices. -/
theorem offset_swapFrontBack (lens lens' m strides : List ℕ) (h : m.length = strides.length) :
    TensorDesc.offset ⟨lens, swapFrontBack strides⟩ m =
      TensorDesc.offset ⟨lens', strides⟩ (swapFrontBack m) := by
  unfold TensorDesc.offset
  conv_lhs => rw [← swapFrontBack_swapFrontBack m]
  rw [zipWith_swapFrontBack _ (by rw [length_swapFrontBack, h]), (swapFrontBack_perm _).sum_eq]

/-- The strides `GetStrides` gives, contiguous or not, put the in-bounds multi-indices of the
tensor one-to-one onto `0, …, numel - 1`. -/
theorem stridesOf_bijOn (contiguous : Bool) (lens : List ℕ) :
    Set.BijOn (TensorDesc.offset ⟨lens, stridesOf contiguous lens⟩)
      {m | List.Forall₂ (· < ·) m lens} (Set.Iio lens.prod) := by
  cases contiguous
  · have hswap : Set.BijOn swapFrontBack {m | List.Forall₂ (· < ·) m lens}
        {m | List.Forall₂ (· < ·) m (swapFrontBack lens)} :=
      Set.InvOn.bijOn ⟨fun m _ => swapFrontBack_swapFrontBack m,
          fun m _ => swapFrontBack_swapFrontBack m⟩
        (fun _ hm => forall₂_swapFrontBack.2 hm)
        (fun m hm => forall₂_swapFrontBack.1 ((swapFrontBack_swapFrontBack m).symm ▸ hm))
    rw [stridesOf_false, ← (swapFrontBack_perm lens).prod_eq]
    refine ((packedDesc_bijOn (swapFrontBack lens)).comp hswap).congr fun m hm => ?_
    refine (offset_swapFrontBack _ _ _ _ ?_).symm
    rw [List.Forall₂.length_eq hm, length_packedStrides, length_swapFrontBack]
  · exact stridesOf_true lens ▸ packedDesc_bijOn lens

/-- Each packed stride is at most the number of elements, on positive lengths. -/
theorem le_prod_of_mem_packedStrides {lens : List ℕ} (hpos : ∀ l ∈ lens, 0 < l) {s : ℕ}
    (hs : s ∈ packedStrides lens) : s ≤ lens.prod := by
  induction lens with
  | nil => exact absurd hs (List.not_mem_nil s)
  | cons len lens ih =>
    have hlen : 1 ≤ len := hpos len (List.mem_cons_self len lens)
    rw [List.prod_cons]
    rcases List.mem_cons.1 hs with rfl | hs
    · exact Nat.le_mul_of_pos_left _ hlen
    · exact (ih (fun l hl => hpos l (List.mem_cons_of_mem len hl)) hs).trans
        (Nat.le_mul_of_pos_left _ hlen)

/-- Each stride `GetStrides` gives, contiguous or not, is at most the number of elements, on
positive lengths. -/
theorem le_prod_of_mem_stridesOf (contiguous : Bool) {lens : List ℕ} (hpos : ∀ l ∈ lens, 0 < l)
    {s : ℕ} (hs : s ∈ stridesOf contiguous lens) : s ≤ lens.prod := by
  cases contiguous
  · rw [stridesOf_false, (swapFrontBack_perm _).mem_iff] at hs
    rw [← (swapFrontBack_perm lens).prod_eq]
    exact le_prod_of_mem_packedStrides (fun l hl => hpos l ((swapFrontBack_perm lens).subset hl)) hs
  · exact le_prod_of_mem_packedStrides hpos (stridesOf_true lens ▸ hs)

/-- `GetStrides` of `nllloss_driver.hpp`: `int` lengths and strides, each product taken on 32-bit
words, so that its overflow, undefined in C++, wraps as on the hardware. Every `contiguous` but
`0` is contiguous; values other than `0` and `1` are reported on `std::cerr` first. Empty lengths,
whose `strides.back()` is undefined, give `none`. -/
def getStrides (lengths : List ℤ) (contiguous : ℤ) : Option (List ℤ) :=
  if lengths = [] then none
  else some ((stridesOf (contiguous != 0) (lengths.map (BitVec.ofInt 32))).map BitVec.toInt)

/-- On non-empty lengths the `int` strides are the exact ones taken modulo `2^32`. -/
theorem getStrides_eq_bmod {lengths : List ℤ} (hne : lengths ≠ []) (contiguous : ℤ) :
    getStrides lengths contiguous =
      some ((stridesOf (contiguous != 0) lengths).map fun s => s.bmod (2 ^ 32)) := by
  rw [getStrides, if_neg hne, stridesOf_map _ (by decide) (by decide) BitVec.ofInt_mul,
    List.map_map]
  exact congrArg some (List.map_congr_left fun s _ => BitVec.toInt_ofInt s)

/-- On non-empty positive natural lengths with fewer than `2^31` elements in all, no product
overflows: the `int` strides are the natural ones. -/
theorem getStrides_map_natCast {lens : List ℕ} (contiguous : ℤ) (hne : lens ≠ [])
    (hpos : ∀ l ∈ lens, 0 < l) (hprod : lens.prod < 2 ^ 31) :
    getStrides (lens.map (↑)) contiguous = some ((stridesOf (contiguous != 0) lens).map (↑)) := by
  rw [getStrides_eq_bmod (by simpa using hne), stridesOf_map _ Nat.cast_zero Nat.cast_one
    Nat.cast_mul, List.map_map]
  refine congrArg some (List.map_congr_left fun s hs => ?_)
  have hs : s < 2 ^ 31 := (le_prod_of_mem_stridesOf _ hpos hs).trans_lt hprod
  rw [Function.comp_apply, Int.bmod_def]
  push_cast
  split <;> omega

/-- On non-empty positive natural lengths with fewer than `2^31` elements in all, no product
overflows: the `int` strides of the NLLLoss driver are natural, put the tensor's in-bounds
multi-indices one-to-one onto `0, …, numel - 1` whatever the flag, and are the packed strides for
every flag but `0`, the values the driver reports as errors included. -/
theorem getStrides_natCast (lens : List ℕ) (contiguous : ℤ) (hne : lens ≠ [])
    (hpos : ∀ l ∈ lens, 0 < l) (hprod : lens.prod < 2 ^ 31) :
    ∃ strides : List ℕ, getStrides (lens.map (↑)) contiguous = some (strides.map (↑)) ∧
      Set.BijOn (TensorDesc.offset ⟨lens, strides⟩) {m | List.Forall₂ (· < ·) m lens}
        (Set.Iio lens.prod) ∧
      (contiguous ≠ 0 → strides = packedStrides lens) :=
  ⟨stridesOf (contiguous != 0) lens, getStrides_map_natCast contiguous hne hpos hprod,
    stridesOf_bijOn _ lens, fun h => by rw [bne_iff_ne.2 h, stridesOf_true]⟩

/-- A `2×3×4` target that is not contiguous. -/
theorem getStrides_natCast_transposed :
    ([2, 3, 4] : List ℕ) ≠ [] ∧ (∀ l ∈ ([2, 3, 4] : List ℕ), 0 < l) ∧
      ([2, 3, 4] : List ℕ).prod < 2 ^ 31 ∧
      ∃ strides : List ℕ, getStrides (([2, 3, 4] : List ℕ).map (↑)) 0 = some (strides.map (↑)) ∧
        Set.BijOn (TensorDesc.offset ⟨[2, 3, 4], strides⟩) {m | List.Forall₂ (· < ·) m [2, 3, 4]}
          (Set.Iio ([2, 3, 4] : List ℕ).prod) ∧
        ((0 : ℤ) ≠ 0 → strides = packedStrides [2, 3, 4]) :=
  ⟨by decide, by decide, by decide, getStrides_natCast [2, 3, 4] 0 (by decide) (by decide)
    (by decide)⟩

end MIOpen.Driver

namespace MIOpen.KLDivLoss

open MIOpen.Where

/-- `GetStrides` of the KLDivLoss test: `size_t` lengths and strides. Empty lengths, whose
`strides.back()` is undefined, give `none`. -/
def getStrides (input : List ℕ) (contiguous : Bool) : Option (List ℕ) :=
  if input = [] then none else some (Driver.stridesOf contiguous input)

/-- On non-empty lengths the strides of the KLDivLoss test put the tensor's in-bounds
multi-indices one-to-one onto `0, …, numel - 1`, contiguous or not. -/
theorem getStrides_bijOn (input : List ℕ) (hne : input ≠ []) (contiguous : Bool) :
    ∃ strides, getStrides input contiguous = some strides ∧
      Set.BijOn (TensorDesc.offset ⟨input, strides⟩) {m | List.Forall₂ (· < ·) m input}
        (Set.Iio input.prod) :=
  ⟨_, if_neg hne, Driver.stridesOf_bijOn contiguous input⟩

/-- A `2×3×4` tensor that is not contiguous: its outermost dimension is the innermost in memory. -/
theorem getStrides_bijOn_transposed :
    ([2, 3, 4] : List ℕ) ≠ [] ∧ getStrides [2, 3, 4] false = some [1, 2, 6] ∧
      ∃ strides, getStrides [2, 3, 4] false = some strides ∧
        Set.BijOn (TensorDesc.offset ⟨[2, 3, 4], strides⟩) {m | List.Forall₂ (· < ·) m [2, 3, 4]}
          (Set.Iio ([2, 3, 4] : List ℕ).prod) :=
  ⟨by decide, by decide, getStrides_bijOn [2, 3, 4] (by decide) false⟩

end MIOpen.KLDivLoss
