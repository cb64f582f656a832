import MIOpen.Loops

/-!
# Kernel launches

A HIP kernel runs its body once for every thread of a launch. A thread of a two-dimensional
launch is told its `blockIdx` and `threadIdx` along x and y; the launch fixes `blockDim` (threads
per block) and `gridDim` (blocks per grid) along each axis. The kernels modelled here only write
their output buffers, so a thread is modelled as the list of the `(index, value)` writes it
performs, and a launch as the union of the writes of all its threads, `launch`.

`Dims.global_perm`: the global indices `(blockIdx.x*blockDim.x + threadIdx.x,
blockIdx.y*blockDim.y + threadIdx.y)` of the threads are the pairs below
`(gridDim.x*blockDim.x, gridDim.y*blockDim.y)`, each once. A kernel that reads only its global
indices is then one loop over those pairs (`launch_perm`). `flatMap_stridedRange_perm`: the
grid-stride loops `for (i = y; i < n; i += S)` of `S` threads visit every `i < n` once.
-/

namespace MIOpen

open List

variable {α β : Type*}

/-! ## Lists of writes -/

/-- A `flatMap` over distinct keys whose lists are labelled by their key has no duplicates. -/
theorem nodup_flatMap_of_key {l : List α} {f : α → List β} (key : β → α) (hl : l.Nodup)
    (hf : ∀ a ∈ l, (f a).Nodup) (hkey : ∀ a ∈ l, ∀ b ∈ f a, key b = a) : (l.flatMap f).Nodup :=
  nodup_flatMap.2 ⟨hf, Pairwise.imp_of_mem (fun ha ha' hne b hb hb' =>
    hne ((hkey _ ha b hb).symm.trans (hkey _ ha' b hb'))) hl⟩

theorem perm_range_of_nodup {l : List ℕ} {n : ℕ} (hl : l.Nodup) (hmem : ∀ i, i ∈ l ↔ i < n) :
    l ~ range n :=
  (perm_ext_iff_of_nodup hl (nodup_range n)).2 fun i => by rw [hmem, mem_range]

/-- Two nested loops over `i < a` and `j < b` are one loop over `b * i + j < b * a`. -/
theorem flatMap_range_mul (b a : ℕ) (F : ℕ → List β) :
    (range (b * a)).flatMap F =
      (range a).flatMap fun i => (range b).flatMap fun j => F (b * i + j) := by
  induction a with
  | zero => simp
  | succ a ih => simp [Nat.mul_succ, range_add, ih, range_succ, flatMap_map]

theorem map_range_mul (b a : ℕ) (f : ℕ → β) :
    (range (b * a)).map f = (range a).flatMap fun i => (range b).map fun j => f (b * i + j) := by
  simp only [map_eq_flatMap, flatMap_range_mul]

/-- The grid-stride loops of the `stride` threads `y < stride` visit every `i < n` once. -/
theorem flatMap_stridedRange_perm (stride : ℕ+) (n : ℕ) :
    (range stride).flatMap (fun y => stridedRange y stride n) ~ range n := by
  refine perm_range_of_nodup (nodup_flatMap_of_key (· % stride) (nodup_range _)
    (fun y _ => nodup_stridedRange _ _ _) fun y hy i hi => ?_) fun i => ?_
  · obtain ⟨-, j, rfl⟩ := mem_stridedRange.1 hi
    show (y + stride * j) % stride = y
    rw [Nat.add_mul_mod_self_left, Nat.mod_eq_of_lt (mem_range.1 hy)]
  · simp only [mem_flatMap, mem_range, mem_stridedRange]
    refine ⟨fun ⟨_, _, hi, _⟩ => hi, fun hi => ⟨i % stride, Nat.mod_lt _ stride.pos, hi,
      i / stride, (Nat.mod_add_div i stride).symm⟩⟩

/-! ## Threads -/

/-- The built-in indices of one thread. -/
structure Thread where
  blockIdxX : ℕ
  blockIdxY : ℕ
  threadIdxX : ℕ
  threadIdxY : ℕ
deriving DecidableEq, Repr

/-- The extents of a two-dimensional launch. -/
structure Dims where
  blockDimX : ℕ+
  blockDimY : ℕ+
  gridDimX : ℕ+
  gridDimY : ℕ+
deriving DecidableEq, Repr

namespace Dims

variable (d : Dims)

/-- Every thread of the launch. -/
def threads : List Thread :=
  (range d.gridDimX).flatMap fun bx => (range d.gridDimY).flatMap fun bY =>
    (range d.blockDimX).flatMap fun tx => (range d.blockDimY).map fun ty => ⟨bx, bY, tx, ty⟩

/-- `blockIdx.x * blockDim.x + threadIdx.x`. -/
def globalX (t : Thread) : ℕ := t.blockIdxX * d.blockDimX + t.threadIdxX

/-- `blockIdx.y * blockDim.y + threadIdx.y`. -/
def globalY (t : Thread) : ℕ := t.blockIdxY * d.blockDimY + t.threadIdxY

/-- The number of threads along x, `gridDim.x * blockDim.x`. -/
def strideX : ℕ+ := d.gridDimX * d.blockDimX

/-- The number of threads along y, `gridDim.y * blockDim.y`: the step of the kernels'
grid-stride loops. -/
def strideY : ℕ+ := d.gridDimY * d.blockDimY

theorem mem_threads {t : Thread} : t ∈ d.threads ↔ t.blockIdxX < d.gridDimX ∧
    t.blockIdxY < d.gridDimY ∧ t.threadIdxX < d.blockDimX ∧ t.threadIdxY < d.blockDimY := by
  obtain ⟨bx, bY, tx, ty⟩ := t
  simp only [threads, mem_flatMap, mem_map, mem_range, Thread.mk.injEq]
  constructor
  · rintro ⟨_, h1, _, h2, _, h3, _, h4, rfl, rfl, rfl, rfl⟩
    exact ⟨h1, h2, h3, h4⟩
  · rintro ⟨h1, h2, h3, h4⟩
    exact ⟨_, h1, _, h2, _, h3, _, h4, rfl, rfl, rfl, rfl⟩

theorem nodup_threads : d.threads.Nodup := by
  refine nodup_flatMap_of_key Thread.blockIdxX (nodup_range _) (fun bx _ => ?_) fun bx _ t => ?_
  · refine nodup_flatMap_of_key Thread.blockIdxY (nodup_range _) (fun bY _ => ?_) fun bY _ t => ?_
    · refine nodup_flatMap_of_key Thread.threadIdxX (nodup_range _)
        (fun tx _ => (nodup_range _).map fun _ _ h => by cases h; rfl) fun tx _ t => ?_
      simp only [mem_map]
      rintro ⟨ty, -, rfl⟩
      rfl
    · simp only [mem_flatMap, mem_map]
      rintro ⟨tx, -, ty, -, rfl⟩
      rfl
  · simp only [mem_flatMap, mem_map]
    rintro ⟨bY, -, tx, -, ty, -, rfl⟩
    rfl

theorem global_lt {t : Thread} (ht : t ∈ d.threads) :
    d.globalX t < d.strideX ∧ d.globalY t < d.strideY := by
  obtain ⟨hbx, hby, htx, hty⟩ := d.mem_threads.1 ht
  constructor
  · simpa only [globalX, strideX, PNat.mul_coe, Nat.mul_comm _ (d.blockDimX : ℕ)] using
      mul_add_lt hbx htx
  · simpa only [globalY, strideY, PNat.mul_coe, Nat.mul_comm _ (d.blockDimY : ℕ)] using
      mul_add_lt hby hty

theorem global_inj {t t' : Thread} (ht : t ∈ d.threads) (ht' : t' ∈ d.threads)
    (h : d.globalX t = d.globalX t' ∧ d.globalY t = d.globalY t') : t = t' := by
  obtain ⟨-, -, htx, hty⟩ := d.mem_threads.1 ht
  obtain ⟨-, -, htx', hty'⟩ := d.mem_threads.1 ht'
  simp only [globalX, globalY, Nat.mul_comm _ (d.blockDimX : ℕ),
    Nat.mul_comm _ (d.blockDimY : ℕ)] at h
  obtain ⟨hx, hx'⟩ := mul_add_inj htx htx' h.1
  obtain ⟨hy, hy'⟩ := mul_add_inj hty hty' h.2
  cases t
  cases t'
  simp_all

/-- Every pair of global indices below the launch's extent belongs to exactly one thread. -/
theorem global_perm : d.threads.map (fun t => (d.globalX t, d.globalY t)) ~
    (range d.strideX).flatMap fun x => (range d.strideY).map fun y => (x, y) := by
  refine (perm_ext_iff_of_nodup (d.nodup_threads.map_on fun t ht t' ht' h =>
    d.global_inj ht ht' (Prod.mk.inj h))
    (nodup_flatMap_of_key Prod.fst (nodup_range _)
      (fun x _ => (nodup_range _).map fun _ _ h => (Prod.mk.inj h).2) fun x _ p hp => ?_)).2 ?_
  · obtain ⟨y, -, rfl⟩ := mem_map.1 hp
    rfl
  · rintro ⟨x, y⟩
    simp only [mem_map, mem_flatMap, mem_range, Prod.mk.injEq]
    constructor
    · rintro ⟨t, ht, rfl, rfl⟩
      exact ⟨_, (d.global_lt ht).1, _, (d.global_lt ht).2, rfl, rfl⟩
    · rintro ⟨x, hx, y, hy, rfl, rfl⟩
      have hx' : x / d.blockDimX < d.gridDimX := by
        rw [Nat.div_lt_iff_lt_mul d.blockDimX.pos]; exact hx
      have hy' : y / d.blockDimY < d.gridDimY := by
        rw [Nat.div_lt_iff_lt_mul d.blockDimY.pos]; exact hy
      refine ⟨⟨x / d.blockDimX, y / d.blockDimY, x % d.blockDimX, y % d.blockDimY⟩,
        d.mem_threads.2 ⟨hx', hy', Nat.mod_lt _ d.blockDimX.pos, Nat.mod_lt _ d.blockDimY.pos⟩,
        Nat.div_add_mod' _ _, Nat.div_add_mod' _ _⟩

end Dims

/-- The writes of all threads of the launch `d` of `kernel`. -/
def launch (d : Dims) (kernel : Thread → List β) : List β := d.threads.flatMap kernel

/-- A kernel whose writes depend only on its global indices writes what a loop over the global
indices writes, in some order. -/
theorem launch_perm (d : Dims) (kernel : Thread → List β) (K : ℕ → ℕ → List β)
    (hK : ∀ t ∈ d.threads, kernel t = K (d.globalX t) (d.globalY t)) :
    launch d kernel ~ (range d.strideX).flatMap fun x => (range d.strideY).flatMap (K x) := by
  have h := d.global_perm.flatMap_right fun p => K p.1 p.2
  rw [flatMap_map, flatMap_assoc] at h
  rw [launch, flatMap_congr hK]
  simpa only [flatMap_map] using h

/-- A one-dimensional launch of at least `n` threads of a kernel that reads only its global index
and returns at once from `n` on writes what one loop over `x < n` writes, in some order. -/
theorem launch_perm_guarded (d : Dims) (hY : d.strideY = 1) {n : ℕ} (hn : n ≤ d.strideX)
    (K : ℕ → List β) (hguard : ∀ x, n ≤ x → K x = []) :
    launch d (fun t => K (d.globalX t)) ~ (range n).flatMap K := by
  refine (launch_perm d _ (fun x _ => K x) fun _ _ => rfl).trans (Perm.of_eq ?_)
  obtain ⟨k, hk⟩ := Nat.exists_eq_add_of_le hn
  rw [hY, hk, range_add, flatMap_append, flatMap_map]
  simp [hguard, range_succ, flatMap_eq_nil_iff]

end MIOpen
