import MIOpen.BatchNorm.Basic

/-!
# Reduction groups

Batch normalization reduces over groups of elements that share one statistics pair. A `Grouping`
is the group-indexing strategy of the two parameterizations: `count` groups of `size` elements
each, the `k`-th element of group `g` at `elem g k`, and `groupOf` sending every index of the
tensor back to its group. Its fields make `elem g` a bijection from `k < size` onto the indices
of group `g`.

* per-activation: one group per `(c, h, w)`, the `N` elements `n * C*H*W + g`;
* spatial: one group per channel `c`, the `N*H*W` elements `n * C*H*W + c * H*W + i`, listed with
  the image position `i` outer and `n` inner as the host loops visit them.
-/

namespace MIOpen.BatchNorm

/-- A partition of the indices below `numel` into `count` groups of `size` elements. -/
structure Grouping where
  numel : ℕ
  count : ℕ
  size : ℕ
  elem : ℕ → ℕ → ℕ
  groupOf : ℕ → ℕ
  size_pos : 0 < size
  elem_lt : ∀ {g k}, g < count → k < size → elem g k < numel
  groupOf_elem : ∀ {g k}, g < count → k < size → groupOf (elem g k) = g
  groupOf_lt : ∀ {p}, p < numel → groupOf p < count
  exists_elem : ∀ {p}, p < numel → ∃ k < size, elem (groupOf p) k = p
  elem_inj : ∀ {g k k'}, g < count → k < size → k' < size → elem g k = elem g k' → k = k'

namespace Grouping

variable (G : Grouping)

/-- An element of group `g` belongs to no other group. -/
theorem elem_ne {g g' k k' : ℕ} (hg : g < G.count) (hg' : g' < G.count) (hk : k < G.size)
    (hk' : k' < G.size) (h : g ≠ g' ∨ k ≠ k') : G.elem g k ≠ G.elem g' k' := by
  intro he
  have hgg : g = g' := by rw [← G.groupOf_elem hg hk, he, G.groupOf_elem hg' hk']
  subst hgg
  exact h.elim (· rfl) (· (G.elem_inj hg hk hk' he))

end Grouping

namespace Shape

variable (sh : Shape)

/-- One group per `(c, h, w)`: the batch of `N` values at `adjIndex = c*H*W + h*W + w`. -/
def perActivation : Grouping where
  numel := sh.numel
  count := sh.inNstride
  size := sh.nBatchs
  elem g k := sh.inNstride * k + g
  groupOf p := p % sh.inNstride
  size_pos := sh.nBatchs_pos
  elem_lt hg hk := mul_add_lt hk hg
  groupOf_elem hg _ := (mul_add_div_mod hg).2
  groupOf_lt _ := Nat.mod_lt _ sh.inNstride_pos
  exists_elem {p} hp := ⟨p / sh.inNstride, by
    rw [Nat.div_lt_iff_lt_mul sh.inNstride_pos]; exact hp, Nat.div_add_mod p _⟩
  elem_inj hg _ _ h := (mul_add_inj hg hg h).1

@[simp] theorem perActivation_numel : sh.perActivation.numel = sh.numel := rfl
@[simp] theorem perActivation_count : sh.perActivation.count = sh.inNstride := rfl
@[simp] theorem perActivation_size : sh.perActivation.size = sh.nBatchs := rfl
@[simp] theorem perActivation_elem (g k : ℕ) : sh.perActivation.elem g k = sh.inNstride * k + g :=
  rfl
@[simp] theorem perActivation_groupOf (p : ℕ) : sh.perActivation.groupOf p = p % sh.inNstride := rfl

theorem spatial_elem_lt {c k : ℕ} (hc : c < sh.channels) (hk : k < sh.inCstride * sh.nBatchs) :
    sh.inCstride * c + k / sh.nBatchs < sh.inNstride := by
  have hi : k / sh.nBatchs < sh.inCstride := (Nat.div_lt_iff_lt_mul sh.nBatchs_pos).2 hk
  rw [sh.inNstride_eq]
  exact mul_add_lt hc hi

theorem spatial_groupOf_index {b c i : ℕ} (hc : c < sh.channels) (hi : i < sh.inCstride) :
    (sh.inNstride * b + (sh.inCstride * c + i)) / sh.inCstride % sh.channels = c := by
  have : sh.inNstride * b + (sh.inCstride * c + i) = sh.inCstride * (sh.channels * b + c) + i := by
    rw [sh.inNstride_eq, Nat.mul_add, ← Nat.add_assoc, Nat.mul_comm sh.channels, Nat.mul_assoc]
  rw [this, (mul_add_div_mod hi).1, (mul_add_div_mod hc).2]

/-- One group per channel: the `N*H*W` values of channel `c`, the `k`-th at image position
`k / N` of batch `k % N`. -/
def spatial : Grouping where
  numel := sh.numel
  count := sh.channels
  size := sh.inCstride * sh.nBatchs
  elem c k := sh.inNstride * (k % sh.nBatchs) + (sh.inCstride * c + k / sh.nBatchs)
  groupOf p := p / sh.inCstride % sh.channels
  size_pos := Nat.mul_pos sh.inCstride_pos sh.nBatchs_pos
  elem_lt hc hk := mul_add_lt (Nat.mod_lt _ sh.nBatchs_pos) (sh.spatial_elem_lt hc hk)
  groupOf_elem hc hk := sh.spatial_groupOf_index hc ((Nat.div_lt_iff_lt_mul sh.nBatchs_pos).2 hk)
  groupOf_lt _ := Nat.mod_lt _ sh.channels_pos
  exists_elem {p} hp := by
    set r := p % sh.inNstride
    have hr : r < sh.inNstride := Nat.mod_lt _ sh.inNstride_pos
    have hb : p / sh.inNstride < sh.nBatchs := by
      rw [Nat.div_lt_iff_lt_mul sh.inNstride_pos]; exact hp
    have hc : r / sh.inCstride < sh.channels := by
      rw [Nat.div_lt_iff_lt_mul sh.inCstride_pos, ← sh.inNstride_eq]; exact hr
    have hi : r % sh.inCstride < sh.inCstride := Nat.mod_lt _ sh.inCstride_pos
    have hp' : p = sh.inNstride * (p / sh.inNstride) + (sh.inCstride * (r / sh.inCstride) +
        r % sh.inCstride) := by rw [Nat.div_add_mod, Nat.div_add_mod]
    have hk := mul_add_div_mod (q := r % sh.inCstride) hb
    refine ⟨sh.nBatchs * (r % sh.inCstride) + p / sh.inNstride, ?_, ?_⟩
    · exact mul_add_lt hi hb
    · have hg : p / sh.inCstride % sh.channels = r / sh.inCstride := by
        conv_lhs => rw [hp']
        exact sh.spatial_groupOf_index hc hi
      dsimp only
      rw [hk.1, hk.2, hg]
      exact hp'.symm
  elem_inj {c k k'} hc hk hk' h := by
    obtain ⟨h1, h2⟩ := mul_add_inj (sh.spatial_elem_lt hc hk) (sh.spatial_elem_lt hc hk') h
    rw [← Nat.div_add_mod k sh.nBatchs, ← Nat.div_add_mod k' sh.nBatchs, h1,
      show k / sh.nBatchs = k' / sh.nBatchs by omega]

@[simp] theorem spatial_numel : sh.spatial.numel = sh.numel := rfl
@[simp] theorem spatial_count : sh.spatial.count = sh.channels := rfl
@[simp] theorem spatial_size : sh.spatial.size = sh.inCstride * sh.nBatchs := rfl
@[simp] theorem spatial_elem (c k : ℕ) : sh.spatial.elem c k =
    sh.inNstride * (k % sh.nBatchs) + (sh.inCstride * c + k / sh.nBatchs) := rfl
@[simp] theorem spatial_groupOf (p : ℕ) : sh.spatial.groupOf p = p / sh.inCstride % sh.channels :=
  rfl

/-! ## Loops over one channel -/

variable {σ : Type*}

/-- The guard `imgIndex < in_cstride` of the spatial training routine always holds. -/
theorem imageLoop_guard (f : ℕ → σ → σ) :
    imageLoop sh (fun i s => if i < sh.inCstride then f i s else s) = imageLoop sh f := by
  rw [imageLoop_eq, imageLoop_eq]
  funext s
  exact fold_congr (fun i hi => funext fun t => if_pos hi) s

/-- The `row`/`column`/`bidx` loops over one channel visit its elements in the order of the
spatial grouping. -/
theorem spatialLoop_eq (body : ℕ → ℕ → σ → σ) (s : σ) :
    imageLoop sh (fun i => Nat.fold (body i) sh.nBatchs) s =
      Nat.fold (fun k => body (k / sh.nBatchs) (k % sh.nBatchs)) sh.spatial.size s := by
  rw [imageLoop_eq, fold_fold]
  rfl

end Shape

end MIOpen.BatchNorm
