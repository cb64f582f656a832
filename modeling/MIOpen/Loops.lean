import Mathlib

/-!
# Counted and strided loops

The host routines are nests of `for (int i = 0; i < n; i++)` loops over an explicit state, and
`Nat.fold` is that loop. Two nested loops over a row-major range are one loop over the flat range,
a loop that adds one term per iteration computes a `Finset` sum, and a loop whose iterations touch
an observed location at most once leaves there what that one iteration wrote.

A row-major index `stride * q + r` with `r < stride` determines its row `q` and column `r`.

The kernels and the blocked host variant use `for (i = start; i < bound; i += stride)` with a
positive stride; `stridedRange` lists the values it visits.
-/

namespace MIOpen

open Finset

variable {σ β : Type*}

/-! ## Row-major indices -/

/-- An index `stride * q + r` with `r < stride` determines `q` and `r`. -/
theorem mul_add_div_mod {stride q r : ℕ} (hr : r < stride) :
    (stride * q + r) / stride = q ∧ (stride * q + r) % stride = r := by
  have hs : 0 < stride := by omega
  rw [Nat.mul_add_div hs, Nat.div_eq_of_lt hr, Nat.mul_add_mod, Nat.mod_eq_of_lt hr]
  exact ⟨rfl, rfl⟩

theorem mul_add_inj {stride q q' r r' : ℕ} (hr : r < stride) (hr' : r' < stride)
    (h : stride * q + r = stride * q' + r') : q = q' ∧ r = r' := by
  have h1 := mul_add_div_mod (q := q) hr
  have h2 := mul_add_div_mod (q := q') hr'
  rw [h] at h1
  exact ⟨h1.1.symm.trans h2.1, h1.2.symm.trans h2.2⟩

theorem mul_add_lt {stride q r n : ℕ} (hq : q < n) (hr : r < stride) :
    stride * q + r < n * stride := by
  have : stride * (q + 1) ≤ stride * n := Nat.mul_le_mul_left _ hq
  rw [Nat.mul_succ] at this
  rw [Nat.mul_comm n]
  omega

/-! ## Counted loops -/

@[simp] theorem fold_zero (f : ℕ → σ → σ) (s : σ) : Nat.fold f 0 s = s := rfl

theorem fold_succ (f : ℕ → σ → σ) (n : ℕ) (s : σ) :
    Nat.fold f (n + 1) s = f n (Nat.fold f n s) := rfl

theorem fold_add (f : ℕ → σ → σ) (m n : ℕ) (s : σ) :
    Nat.fold f (m + n) s = Nat.fold (fun i => f (m + i)) n (Nat.fold f m s) := by
  induction n with
  | zero => rfl
  | succ n ih => rw [← Nat.add_assoc, fold_succ, ih]; rfl

theorem fold_congr {n : ℕ} {f g : ℕ → σ → σ} (h : ∀ i < n, f i = g i) (s : σ) :
    Nat.fold f n s = Nat.fold g n s := by
  induction n with
  | zero => rfl
  | succ n ih =>
    rw [fold_succ, fold_succ, h n (by omega), ih fun i hi => h i (by omega)]

/-- A loop whose body commutes with a projection `π` of its state projects to a loop. -/
theorem fold_map {τ : Type*} (π : σ → τ) {f : ℕ → σ → σ} {g : ℕ → τ → τ}
    (h : ∀ i s, π (f i s) = g i (π s)) (n : ℕ) (s : σ) :
    π (Nat.fold f n s) = Nat.fold g n (π s) := by
  induction n with
  | zero => rfl
  | succ n ih => rw [fold_succ, fold_succ, h, ih]

/-- Two nested loops over `i < m` and `j < n` run the body at `n * i + j` in increasing order. -/
theorem fold_fold (F : ℕ → ℕ → σ → σ) (m n : ℕ) (s : σ) :
    Nat.fold (fun i => Nat.fold (F i) n) m s = Nat.fold (fun k => F (k / n) (k % n)) (m * n) s := by
  induction m with
  | zero => simp
  | succ m ih =>
    rw [fold_succ, ih, Nat.succ_mul, fold_add]
    refine fold_congr (fun j hj => ?_) _
    have hn : 0 < n := by omega
    rw [Nat.mul_comm, Nat.mul_add_div hn, Nat.div_eq_of_lt hj, Nat.mul_add_mod, Nat.mod_eq_of_lt hj,
      Nat.add_zero]

section Observe

variable {n : ℕ} {f : ℕ → σ → σ} (obs : σ → β)

/-- A loop none of whose iterations changes `obs` leaves it unchanged. -/
theorem fold_frame (h : ∀ i < n, ∀ s, obs (f i s) = obs s) (s : σ) :
    obs (Nat.fold f n s) = obs s := by
  induction n with
  | zero => rfl
  | succ n ih => rw [fold_succ, h n (by omega), ih fun i hi => h i (by omega)]

/-- A loop in which only iteration `i₀` changes `obs`, to `F` of its old value. -/
theorem fold_once (i₀ : ℕ) (hi₀ : i₀ < n) (F : β → β)
    (hother : ∀ i < n, i ≠ i₀ → ∀ s, obs (f i s) = obs s) (hat : ∀ s, obs (f i₀ s) = F (obs s))
    (s : σ) : obs (Nat.fold f n s) = F (obs s) := by
  induction n with
  | zero => omega
  | succ n ih =>
    rw [fold_succ]
    by_cases h : i₀ = n
    · subst h
      rw [hat, fold_frame obs (fun i hi => hother i (by omega) (by omega))]
    · rw [hother n (by omega) (Ne.symm h), ih (by omega) fun i hi => hother i (by omega)]

/-- A loop whose iteration `i` adds `g i` to `obs` adds their sum. -/
theorem fold_acc [AddCommMonoid β] (g : ℕ → β) (h : ∀ i < n, ∀ s, obs (f i s) = obs s + g i)
    (s : σ) : obs (Nat.fold f n s) = obs s + ∑ i ∈ range n, g i := by
  induction n with
  | zero => simp
  | succ n ih =>
    rw [fold_succ, h n (by omega), ih fun i hi => h i (by omega), sum_range_succ, add_assoc]

/-- A loop over a list whose iteration at `x` adds `g x` to `obs`. -/
theorem foldl_acc [AddCommMonoid β] {γ : Type*} (f : σ → γ → σ) (g : γ → β)
    (h : ∀ x s, obs (f s x) = obs s + g x) (l : List γ) (s : σ) :
    obs (l.foldl f s) = obs s + (l.map g).sum := by
  induction l generalizing s with
  | nil => simp
  | cons x l ih => rw [List.foldl_cons, ih, h, List.map_cons, List.sum_cons, add_assoc]

/-- A loop whose iteration `i` changes the entry `j` of an indexed observation only when
`j = i`. -/
theorem fold_update (obs : ℕ → σ → β) (F : ℕ → β → β)
    (h : ∀ i < n, ∀ j s, obs j (f i s) = if j = i then F j (obs j s) else obs j s) (j : ℕ)
    (s : σ) : obs j (Nat.fold f n s) = if j < n then F j (obs j s) else obs j s := by
  split_ifs with hj
  · exact fold_once (obs j) j hj (F j) (fun i hi hij t => by rw [h i hi, if_neg (Ne.symm hij)])
      (fun t => by rw [h j hj, if_pos rfl]) s
  · exact fold_frame (obs j) (fun i hi t => by rw [h i hi, if_neg (by omega)]) s

end Observe

/-- The accumulation `acc += g i` over `i < n`. -/
theorem fold_add_eq_sum [AddCommMonoid β] (g : ℕ → β) (n : ℕ) (a : β) :
    Nat.fold (fun i acc => acc + g i) n a = a + ∑ i ∈ range n, g i :=
  fold_acc id g (fun _ _ _ => rfl) a

/-- A row-major double sum is the sum over the flat range. -/
theorem sum_range_mul [AddCommMonoid β] (f : ℕ → β) (m n : ℕ) :
    ∑ k ∈ range (m * n), f k = ∑ i ∈ range m, ∑ j ∈ range n, f (n * i + j) := by
  induction m with
  | zero => simp
  | succ m ih => rw [Nat.succ_mul, sum_range_add, ih, sum_range_succ, Nat.mul_comm n m]

/-- Adding `t` to entry `i` of an array adds `t` to every sum over indices containing `i`. -/
theorem sum_update_add [AddCommMonoid β] {s : Finset ℕ} {i : ℕ} (hi : i ∈ s) (f : ℕ → β) (t : β) :
    ∑ j ∈ s, Function.update f i (f i + t) j = ∑ j ∈ s, f j + t := by
  rw [sum_update_of_mem hi, sum_eq_add_sum_diff_singleton hi f, add_right_comm]

/-- A conditional single-entry write `if (c) buf[i] = v;`. -/
theorem ite_update_apply (c : Bool) (f : ℕ → β) (i : ℕ) (v : β) (j : ℕ) :
    (if c then Function.update f i v else f) j = if j = i then (if c then v else f j) else f j := by
  rcases eq_or_ne j i with rfl | h <;> cases c <;> simp [*]

/-! ## Loops over independent groups

A loop over groups `g < n` whose body `step g` writes only the cells group `g` owns, and reads the
state only there, gives the same cells whatever order it visits the groups in: each owned cell
ends as its own group's body leaves it from the initial state. -/

section Groups

variable {ι : Type*} (owns : ℕ → ι → Prop) (get : σ → ι → β)

/-- The body `step g` of a loop over the groups `g < n` writes only the cells of `g`, and what it
writes there depends on the state only at the cells of `g`. -/
structure LocalBody (n : ℕ) (step : ℕ → σ → σ) : Prop where
  frame : ∀ g < n, ∀ s i, ¬ owns g i → get (step g s) i = get s i
  footprint : ∀ g < n, ∀ s s', (∀ i, owns g i → get s i = get s' i) →
    ∀ i, owns g i → get (step g s) i = get (step g s') i

variable {owns get} {n : ℕ} {step : ℕ → σ → σ}

/-- Bodies of groups that do not own cell `i` leave it alone. -/
theorem LocalBody.foldl_of_not_owns (hl : LocalBody owns get n step) {i : ι} :
    ∀ (l : List ℕ), (∀ g ∈ l, g < n) → (∀ g ∈ l, ¬ owns g i) → ∀ s,
      get (l.foldl (fun s g => step g s) s) i = get s i
  | [], _, _, _ => rfl
  | g :: l, hlt, hno, s => by
    rw [List.foldl_cons, hl.foldl_of_not_owns l (fun g' hg' => hlt g' (.tail _ hg'))
      (fun g' hg' => hno g' (.tail _ hg')), hl.frame g (hlt g (.head _)) s i (hno g (.head _))]

/-- Over distinct groups with disjoint cells, a cell of group `g` ends as the body of `g` leaves
it from the initial state. -/
theorem LocalBody.foldl_of_owns (hl : LocalBody owns get n step)
    (hdisj : ∀ g g' i, owns g i → owns g' i → g = g') {g : ℕ} {i : ι} (hi : owns g i) :
    ∀ (l : List ℕ), l.Nodup → (∀ g' ∈ l, g' < n) → g ∈ l → ∀ s,
      get (l.foldl (fun s g => step g s) s) i = get (step g s) i
  | [], _, _, hg, _ => absurd hg (List.not_mem_nil g)
  | g₀ :: l, hnd, hlt, hg, s => by
    have hlt' : ∀ g' ∈ l, g' < n := fun g' hg' => hlt g' (.tail _ hg')
    rw [List.foldl_cons]
    rcases List.mem_cons.1 hg with rfl | hg
    · exact hl.foldl_of_not_owns l hlt' (fun g' hg' ho =>
        (List.nodup_cons.1 hnd).1 (hdisj g' g i ho hi ▸ hg')) _
    · have hne : g ≠ g₀ := fun h => (List.nodup_cons.1 hnd).1 (h ▸ hg)
      rw [hl.foldl_of_owns hdisj hi l (List.nodup_cons.1 hnd).2 hlt' hg]
      exact hl.footprint g (hlt' g hg) _ _ (fun j hj => hl.frame g₀ (hlt g₀ (.head _)) s j
        fun hj₀ => hne (hdisj g g₀ j hj hj₀)) i hi

/-- The loop gives the same cells in any order of the groups. -/
theorem LocalBody.foldl_perm (hl : LocalBody owns get n step)
    (hdisj : ∀ g g' i, owns g i → owns g' i → g = g') {l l' : List ℕ} (hp : l.Perm l')
    (hnd : l.Nodup) (hlt : ∀ g ∈ l, g < n) (s : σ) (i : ι) :
    get (l.foldl (fun s g => step g s) s) i = get (l'.foldl (fun s g => step g s) s) i := by
  have hlt' : ∀ g ∈ l', g < n := fun g hg => hlt g (hp.mem_iff.2 hg)
  by_cases h : ∃ g ∈ l, owns g i
  · obtain ⟨g, hg, hi⟩ := h
    rw [hl.foldl_of_owns hdisj hi l hnd hlt hg,
      hl.foldl_of_owns hdisj hi l' (hp.nodup_iff.1 hnd) hlt' (hp.mem_iff.1 hg)]
  · push_neg at h
    rw [hl.foldl_of_not_owns l hlt h,
      hl.foldl_of_not_owns l' hlt' fun g hg => h g (hp.mem_iff.2 hg)]

theorem fold_eq_foldl (f : ℕ → σ → σ) (n : ℕ) (s : σ) :
    Nat.fold f n s = (List.range n).foldl (fun s i => f i s) s := by
  induction n with
  | zero => rfl
  | succ n ih => rw [fold_succ, ih, List.range_succ, List.foldl_append]; rfl

/-- The loop leaves a cell no group owns alone. -/
theorem LocalBody.fold_of_not_owns (hl : LocalBody owns get n step) {i : ι}
    (hi : ∀ g < n, ¬ owns g i) (s : σ) : get (Nat.fold step n s) i = get s i :=
  fold_frame (fun s => get s i) (fun g hg s => hl.frame g hg s i (hi g hg)) s

/-- States that agree on every cell give loops that agree on every cell. -/
theorem LocalBody.fold_congr (hl : LocalBody owns get n step) (s s' : σ)
    (h : ∀ i, get s i = get s' i) :
    ∀ i, get (Nat.fold step n s) i = get (Nat.fold step n s') i := by
  suffices ∀ m ≤ n, ∀ i, get (Nat.fold step m s) i = get (Nat.fold step m s') i from this n le_rfl
  intro m hm
  induction m with
  | zero => exact h
  | succ m ih =>
    have hm' : m < n := hm
    intro i
    rw [fold_succ, fold_succ]
    by_cases hi : owns m i
    · exact hl.footprint m hm' _ _ (fun j _ => ih hm'.le j) i hi
    · rw [hl.frame m hm' _ i hi, hl.frame m hm' _ i hi]
      exact ih hm'.le i

/-- States that agree on every cell some group owns give loops that agree on those cells. -/
theorem LocalBody.fold_congr_on (hl : LocalBody owns get n step) (s s' : σ)
    (h : ∀ i, (∃ g < n, owns g i) → get s i = get s' i) :
    ∀ i, (∃ g < n, owns g i) → get (Nat.fold step n s) i = get (Nat.fold step n s') i := by
  suffices ∀ m ≤ n, ∀ i, (∃ g < n, owns g i) →
      get (Nat.fold step m s) i = get (Nat.fold step m s') i from this n le_rfl
  intro m hm
  induction m with
  | zero => exact h
  | succ m ih =>
    have hm' : m < n := hm
    intro i hi
    rw [fold_succ, fold_succ]
    by_cases hmi : owns m i
    · exact hl.footprint m hm' _ _ (fun j hj => ih hm'.le j ⟨m, hm', hj⟩) i hmi
    · rw [hl.frame m hm' _ i hmi, hl.frame m hm' _ i hmi]
      exact ih hm'.le i hi

/-- Running the bodies of the groups in the order `l`. -/
def runGroups (step : ℕ → σ → σ) (l : List ℕ) (s : σ) : σ := l.foldl (fun s g => step g s) s

/-- The loop over `g < n` runs the groups in increasing order. -/
theorem fold_eq_runGroups (step : ℕ → σ → σ) (n : ℕ) (s : σ) :
    Nat.fold step n s = runGroups step (List.range n) s :=
  fold_eq_foldl step n s

/-- Orders of groups whose bodies agree on every group of the order run alike. -/
theorem runGroups_congr {step step' : ℕ → σ → σ} {l : List ℕ} (h : ∀ g ∈ l, step g = step' g)
    (s : σ) : runGroups step l s = runGroups step' l s :=
  List.foldl_ext _ _ s fun s' g hg => by rw [h g hg]

/-- Every order of the groups gives the cells the loop gives. -/
theorem LocalBody.runGroups_perm (hl : LocalBody owns get n step)
    (hdisj : ∀ g g' i, owns g i → owns g' i → g = g') {l : List ℕ} (hp : l.Perm (List.range n))
    (s : σ) (i : ι) : get (runGroups step l s) i = get (Nat.fold step n s) i := by
  rw [fold_eq_runGroups]
  exact (hl.foldl_perm hdisj hp.symm (List.nodup_range n)
    (fun _ hg => List.mem_range.1 hg) s i).symm

variable {κ : Type*}

/-- A loop body run with arguments `a : κ` is local to its group: group `g` writes only its own
cells, and what it writes there depends only on the arguments as `agree g` sees them and on the
state at the cells of `g`. -/
structure GroupLocal (owns : ℕ → ι → Prop) (get : σ → ι → β)
    (agree : ℕ → κ → κ → Prop) (n : ℕ) (body : κ → ℕ → σ → σ) : Prop where
  frame : ∀ a, ∀ g < n, ∀ s i, ¬ owns g i → get (body a g s) i = get s i
  reads : ∀ g < n, ∀ a a', agree g a a' → ∀ s s', (∀ i, owns g i → get s i = get s' i) →
    ∀ i, owns g i → get (body a g s) i = get (body a' g s') i

variable {agree : ℕ → κ → κ → Prop} {body : κ → ℕ → σ → σ}

theorem GroupLocal.localBody (hl : GroupLocal owns get agree n body) (hrefl : ∀ g a, agree g a a)
    (a : κ) : LocalBody owns get n (body a) :=
  ⟨hl.frame a, fun g hg _ _ hs => hl.reads g hg a a (hrefl g a) _ _ hs⟩

/-- A body that agrees with a local body on every group is local. -/
theorem GroupLocal.congr (hl : GroupLocal owns get agree n body) {body' : κ → ℕ → σ → σ}
    (h : ∀ a, ∀ g < n, body' a g = body a g) : GroupLocal owns get agree n body' where
  frame a g hg s i hi := by rw [h a g hg]; exact hl.frame a g hg s i hi
  reads g hg a a' ha s s' hs i hi := by
    rw [h a g hg, h a' g hg]; exact hl.reads g hg a a' ha s s' hs i hi

/-- A body that writes the cells of its group as a whole call `F` does is local when `F` reads,
for the cells of `g`, only what `agree g` sees and the state at the cells of `g`. -/
theorem GroupLocal.of_step [∀ g i, Decidable (owns g i)] (F : κ → σ → σ)
    (hstep : ∀ a, ∀ g < n, ∀ s i,
      get (body a g s) i = if owns g i then get (F a s) i else get s i)
    (hF : ∀ g < n, ∀ a a', agree g a a' → ∀ s s', (∀ i, owns g i → get s i = get s' i) →
      ∀ i, owns g i → get (F a s) i = get (F a' s') i) :
    GroupLocal owns get agree n body where
  frame a g hg s i hi := by rw [hstep a g hg, if_neg hi]
  reads g hg a a' ha s s' hs i hi := by
    rw [hstep a g hg, hstep a' g hg, if_pos hi, if_pos hi]
    exact hF g hg a a' ha s s' hs i hi

/-- Arguments that every group sees alike give the same loop. -/
theorem GroupLocal.fold_congr (hl : GroupLocal owns get agree n body)
    (hrefl : ∀ g a, agree g a a) (hdisj : ∀ g g' i, owns g i → owns g' i → g = g') {a a' : κ}
    (ha : ∀ g < n, agree g a a') (s : σ) (i : ι) :
    get (Nat.fold (body a) n s) i = get (Nat.fold (body a') n s) i := by
  have hlt : ∀ g ∈ List.range n, g < n := fun g hg => List.mem_range.1 hg
  by_cases h : ∃ g < n, owns g i
  · obtain ⟨g, hg, hi⟩ := h
    rw [fold_eq_foldl, fold_eq_foldl, (hl.localBody hrefl a).foldl_of_owns hdisj hi _
      (List.nodup_range n) hlt (List.mem_range.2 hg), (hl.localBody hrefl a').foldl_of_owns hdisj
      hi _ (List.nodup_range n) hlt (List.mem_range.2 hg)]
    exact hl.reads g hg a a' (ha g hg) s s (fun _ _ => rfl) i hi
  · push_neg at h
    rw [(hl.localBody hrefl a).fold_of_not_owns h, (hl.localBody hrefl a').fold_of_not_owns h]

/-- `run` writes only the cells inside `inBounds`, reads the cells it writes only inside
`inBounds` (buffers that agree there give results that agree there), and arguments that agree as
`agreeBelow` sees them give the same result. -/
structure AccessesWithin {τ : Type*} (inBounds : ι → Prop) (get : τ → ι → β)
    (agreeBelow : κ → κ → Prop) (run : κ → τ → τ) : Prop where
  writes : ∀ a b i, ¬ inBounds i → get (run a b) i = get b i
  readsBufs : ∀ a b b', (∀ i, inBounds i → get b i = get b' i) →
    ∀ i, inBounds i → get (run a b) i = get (run a b') i
  reads : ∀ a a' b, agreeBelow a a' → run a b = run a' b

/-- A routine that runs a group-local body over its groups, from `init b` and read back by `out`,
writes and reads only cells some group owns and reads its arguments only as the groups see
them. -/
theorem GroupLocal.accessesWithin {τ : Type*} {inBounds : ι → Prop} {get' : τ → ι → β}
    {agreeBelow : κ → κ → Prop} {run : κ → τ → τ} (init : τ → σ) (out : σ → τ)
    (hl : GroupLocal owns get agree n body) (hrefl : ∀ g a, agree g a a)
    (hdisj : ∀ g g' i, owns g i → owns g' i → g = g')
    (hown : ∀ g < n, ∀ i, owns g i → inBounds i)
    (hagree : ∀ a a', agreeBelow a a' → ∀ g < n, agree g a a')
    (hinit : ∀ b i, get (init b) i = get' b i) (hout : ∀ s i, get' (out s) i = get s i)
    (hext : ∀ t t', (∀ i, get' t i = get' t' i) → t = t')
    (hrun : ∀ a b, run a b = out (Nat.fold (body a) n (init b))) :
    AccessesWithin inBounds get' agreeBelow run where
  writes a b i hi := by
    rw [hrun, hout, (hl.localBody hrefl a).fold_of_not_owns fun g hg ho => hi (hown g hg i ho),
      hinit]
  readsBufs a b b' hb i hi := by
    rw [hrun, hrun, hout, hout]
    by_cases ho : ∃ g < n, owns g i
    · refine (hl.localBody hrefl a).fold_congr_on _ _ (fun j ⟨g, hg, hj⟩ => ?_) i ho
      rw [hinit, hinit]
      exact hb j (hown g hg j hj)
    · push_neg at ho
      rw [(hl.localBody hrefl a).fold_of_not_owns ho, (hl.localBody hrefl a).fold_of_not_owns ho,
        hinit, hinit]
      exact hb i hi
  reads a a' b ha := by
    rw [hrun, hrun]
    exact hext _ _ fun i => by rw [hout, hout, hl.fold_congr hrefl hdisj (hagree a a' ha)]

end Groups

/-! ## Strided loops -/

/-- The values of `i` that `for (i = start; i < bound; i += stride)` visits. -/
def stridedRange (start : ℕ) (stride : ℕ+) (bound : ℕ) : List ℕ :=
  if start < bound then start :: stridedRange (start + stride) stride bound else []
termination_by bound - start
decreasing_by have := stride.pos; omega

theorem mem_stridedRange {start : ℕ} {stride : ℕ+} {bound i : ℕ} :
    i ∈ stridedRange start stride bound ↔ i < bound ∧ ∃ j, i = start + stride * j := by
  induction start, stride, bound using stridedRange.induct with
  | case1 start stride bound h ih =>
    rw [stridedRange, if_pos h, List.mem_cons, ih]
    constructor
    · rintro (rfl | ⟨hi, j, rfl⟩)
      · exact ⟨h, 0, by simp⟩
      · exact ⟨hi, j + 1, by rw [Nat.mul_succ]; omega⟩
    · rintro ⟨hi, (_ | j), rfl⟩
      · exact .inl (by simp)
      · exact .inr ⟨hi, j, by rw [Nat.mul_succ] at *; omega⟩
  | case2 start stride bound h =>
    rw [stridedRange, if_neg h]
    simp only [List.not_mem_nil, false_iff, not_and, not_exists]
    intro hi j hj
    omega

theorem le_of_mem_stridedRange {start : ℕ} {stride : ℕ+} {bound i : ℕ}
    (h : i ∈ stridedRange start stride bound) : start ≤ i := by
  obtain ⟨-, j, rfl⟩ := mem_stridedRange.1 h
  omega

/-- The values a strided loop visits all have the residue of its start. -/
theorem mod_of_mem_stridedRange {start : ℕ} {stride : ℕ+} {bound i : ℕ}
    (h : i ∈ stridedRange start stride bound) : i % stride = start % stride := by
  obtain ⟨-, j, rfl⟩ := mem_stridedRange.1 h
  exact Nat.add_mul_mod_self_left _ _ _

theorem nodup_stridedRange (start : ℕ) (stride : ℕ+) (bound : ℕ) :
    (stridedRange start stride bound).Nodup := by
  induction start, stride, bound using stridedRange.induct with
  | case1 start stride bound h ih =>
    rw [stridedRange, if_pos h]
    refine List.nodup_cons.2 ⟨fun hm => ?_, ih⟩
    have := le_of_mem_stridedRange hm
    have := stride.pos
    omega
  | case2 start stride bound h => rw [stridedRange, if_neg h]; exact List.nodup_nil

end MIOpen
