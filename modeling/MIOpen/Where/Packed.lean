import MIOpen.Where.Broadcast

/-!
# Where: packed descriptors

`SetTensorNd` without strides gives a tensor its packed strides, each the product of the lengths
inside it (`packedDesc`). The packed offset of a multi-index is its row-major index
(`rowMajorIndex_eq_offset`), and it puts the in-bounds multi-indices one-to-one onto
`0, …, numel - 1`, with the mixed-radix digits `unravel` as its inverse (`packedDesc_bijOn`).
`check_broadcasted_contiguous` reads a packed descriptor of positive lengths as one block of all
its elements (`checkBroadcastedContiguous_packedDesc`).

So the Where host routines read a packed operand at `o % numel`. That is the NumPy broadcast
element exactly for the operands that repeat as whole blocks along the output: past leading
lengths `1`, the operand's shape is the output's without some leading dimensions
(`BlockBroadcast`), as in the driver's default shapes. For those, the forward host routine is
`where` with broadcasting (`mloWhereForwardRunHost_blockBroadcast`). An operand broadcast along an
inner dimension is not of this kind, and there the routine reads other elements.
-/

namespace MIOpen.Where

/-! ## Packed offsets and their inverse -/

@[simp]
theorem length_packedStrides (lens : List ℕ) : (packedStrides lens).length = lens.length := by
  induction lens with
  | nil => rfl
  | cons len lens ih => exact congrArg Nat.succ ih

/-- The multi-index of the element at linear index `p` of a tensor of the given lengths: its
mixed-radix digits, outermost first. -/
def unravel : List ℕ → ℕ → List ℕ
  | [], _ => []
  | _ :: lens, p => p / lens.prod :: unravel lens (p % lens.prod)

theorem offset_packedDesc_cons (len i : ℕ) (lens m : List ℕ) :
    (packedDesc (len :: lens)).offset (i :: m) = i * lens.prod + (packedDesc lens).offset m :=
  rfl

theorem offset_packedDesc_lt {m lens : List ℕ} (h : List.Forall₂ (· < ·) m lens) :
    (packedDesc lens).offset m < lens.prod := by
  induction h with
  | nil => exact Nat.one_pos
  | @cons i len m lens hi _ ih =>
    rw [offset_packedDesc_cons, List.prod_cons]
    calc i * lens.prod + (packedDesc lens).offset m < (i + 1) * lens.prod := by
          rw [Nat.succ_mul]; omega
      _ ≤ len * lens.prod := Nat.mul_le_mul_right _ hi

theorem unravel_offset {m lens : List ℕ} (h : List.Forall₂ (· < ·) m lens) :
    unravel lens ((packedDesc lens).offset m) = m := by
  induction h with
  | nil => rfl
  | @cons i len m lens _ h ih =>
    have hlt := offset_packedDesc_lt h
    rw [offset_packedDesc_cons, unravel, Nat.mul_comm, Nat.mul_add_div (by omega),
      Nat.div_eq_of_lt hlt, Nat.add_zero, Nat.mul_add_mod, Nat.mod_eq_of_lt hlt, ih]

theorem unravel_lt {lens : List ℕ} {p : ℕ} (h : p < lens.prod) :
    List.Forall₂ (· < ·) (unravel lens p) lens ∧ (packedDesc lens).offset (unravel lens p) = p := by
  induction lens generalizing p with
  | nil => exact ⟨.nil, (Nat.lt_one_iff.1 h).symm⟩
  | cons len lens ih =>
    rw [List.prod_cons] at h
    have hpos : 0 < lens.prod := Nat.pos_of_ne_zero fun h0 => by simp [h0] at h
    obtain ⟨hall, hoff⟩ := ih (Nat.mod_lt p hpos)
    refine ⟨.cons ((Nat.div_lt_iff_lt_mul hpos).2 h) hall, ?_⟩
    rw [unravel, offset_packedDesc_cons, hoff]
    exact Nat.div_add_mod' p lens.prod

/-- The packed layout of a tensor puts its in-bounds multi-indices one-to-one onto
`0, …, numel - 1`. -/
theorem packedDesc_bijOn (lens : List ℕ) :
    Set.BijOn (packedDesc lens).offset {m | List.Forall₂ (· < ·) m lens} (Set.Iio lens.prod) :=
  have hinv : Set.InvOn (unravel lens) (packedDesc lens).offset {m | List.Forall₂ (· < ·) m lens}
      (Set.Iio lens.prod) := ⟨fun _ h => unravel_offset h, fun _ h => (unravel_lt h).2⟩
  hinv.bijOn (fun _ h => offset_packedDesc_lt h) (fun _ h => (unravel_lt h).1)


/-! ## Row-major indices -/

/-- The row-major loop from an accumulator `a`: `a` scaled by all the lengths, plus the index from
`0`. -/
theorem foldl_rowMajor (xs : List (ℕ × ℕ)) (a : ℕ) :
    xs.foldl (fun acc d => acc * d.1 + d.2) a =
      a * (xs.map Prod.fst).prod + xs.foldl (fun acc d => acc * d.1 + d.2) 0 := by
  induction xs generalizing a with
  | nil => simp
  | cons d xs ih =>
    rw [List.foldl_cons, List.foldl_cons, ih, ih (0 * d.1 + d.2), List.map_cons, List.prod_cons]
    ring

theorem rowMajorIndex_append {pre mp lens ms : List ℕ} (h : mp.length = pre.length)
    (h' : lens.length ≤ ms.length) :
    rowMajorIndex (pre ++ lens) (mp ++ ms) =
      rowMajorIndex pre mp * lens.prod + rowMajorIndex lens ms := by
  rw [rowMajorIndex, List.zip_append h.symm, List.foldl_append, foldl_rowMajor,
    List.map_fst_zip _ _ h']
  rfl

theorem rowMajorIndex_cons {lens m : List ℕ} (len i : ℕ) (h : lens.length ≤ m.length) :
    rowMajorIndex (len :: lens) (i :: m) = i * lens.prod + rowMajorIndex lens m := by
  rw [rowMajorIndex, List.zip_cons_cons, List.foldl_cons, foldl_rowMajor, List.map_fst_zip _ _ h,
    Nat.zero_mul, Nat.zero_add]
  rfl

/-- The row-major index of a multi-index is its packed offset. -/
theorem rowMajorIndex_eq_offset {m lens : List ℕ} (h : m.length = lens.length) :
    rowMajorIndex lens m = (packedDesc lens).offset m := by
  induction lens generalizing m with
  | nil => rw [List.eq_nil_of_length_eq_zero h]; rfl
  | cons len lens ih =>
    obtain ⟨i, m, rfl⟩ := List.exists_cons_of_length_eq_add_one h
    rw [rowMajorIndex_cons _ _ (Nat.succ.inj h).ge, ih (Nat.succ.inj h), offset_packedDesc_cons]

theorem rowMajorIndex_lt {m lens : List ℕ} (h : List.Forall₂ (· < ·) m lens) :
    rowMajorIndex lens m < lens.prod :=
  rowMajorIndex_eq_offset h.length_eq ▸ offset_packedDesc_lt h

theorem rowMajorIndex_replicate_zero (lens : List ℕ) (n : ℕ) :
    rowMajorIndex lens (List.replicate n 0) = 0 := by
  induction lens generalizing n with
  | nil => rfl
  | cons len lens ih =>
    cases n with
    | zero => rfl
    | succ n =>
      rw [List.replicate_succ, rowMajorIndex, List.zip_cons_cons, List.foldl_cons, Nat.zero_mul,
        Nat.zero_add]
      exact ih n

/-! ## What `check_broadcasted_contiguous` reads off a packed descriptor -/

theorem packedStrides_concat (init : List ℕ) (l : ℕ) :
    packedStrides (init ++ [l]) = (packedStrides init).map (· * l) ++ [1] := by
  induction init with
  | nil => rfl
  | cons a init ih =>
    rw [List.cons_append, packedStrides, ih, List.prod_append, List.prod_singleton]
    rfl

/-- From an element count `c > 0`, the loop passes every packed dimension, innermost first, and
returns `c` times the number of elements. -/
theorem checkBroadcastedContiguousLoop_packed {lens : List ℕ} (hpos : ∀ l ∈ lens, 0 < l) {c : ℕ}
    (hc : 0 < c) :
    checkBroadcastedContiguousLoop (lens.zip ((packedStrides lens).map (· * c))).reverse c =
      c * lens.prod := by
  induction lens using List.reverseRecOn generalizing c with
  | nil => simp [checkBroadcastedContiguousLoop]
  | append_singleton init l ih =>
    have hl : 0 < l := hpos l (by simp)
    have hmap : ((packedStrides init).map (· * l)).map (· * c) =
        (packedStrides init).map (· * (c * l)) := by
      rw [List.map_map]
      congr 1
      funext x
      simp only [Function.comp_apply]
      ring
    rw [packedStrides_concat, List.map_append, hmap, List.zip_append (by simp),
      List.reverse_append]
    simp only [List.map_cons, List.map_nil, Nat.one_mul, List.zip_cons_cons, List.zip_nil_right,
      List.reverse_cons, List.reverse_nil, List.nil_append, List.singleton_append]
    rw [checkBroadcastedContiguousLoop, if_neg (by omega), if_neg (by omega),
      ih (fun x hx => hpos x (by simp [hx])) (Nat.mul_pos hc hl), List.prod_append,
      List.prod_singleton]
    ring

/-- A packed descriptor of positive lengths is one block of all its elements. -/
theorem checkBroadcastedContiguous_packedDesc {lens : List ℕ} (hpos : ∀ l ∈ lens, 0 < l) :
    checkBroadcastedContiguous (packedDesc lens) = lens.prod := by
  simpa [checkBroadcastedContiguous, packedDesc] using
    checkBroadcastedContiguousLoop_packed hpos Nat.one_pos

theorem checkBroadcastedContiguous_packedDesc_pos {lens : List ℕ} (hpos : ∀ l ∈ lens, 0 < l) :
    0 < checkBroadcastedContiguous (packedDesc lens) :=
  checkBroadcastedContiguous_packedDesc hpos ▸ List.prod_pos hpos

/-! ## Operands repeated as whole blocks -/

/-- `lens` broadcasts to `out` by repeating one block: it has no more dimensions, and past its
leading lengths `1` it is `out`'s shape without some leading dimensions. -/
def BlockBroadcast (lens out : List ℕ) : Prop :=
  lens.length ≤ out.length ∧ lens.dropWhile (· == 1) <:+ out

instance (lens out : List ℕ) : Decidable (BlockBroadcast lens out) :=
  inferInstanceAs (Decidable (_ ∧ _))

theorem eq_one_of_mem_takeWhile {lens : List ℕ} {l : ℕ} (hl : l ∈ lens.takeWhile (· == 1)) :
    l = 1 :=
  beq_iff_eq.1 (List.all_eq_true.1 List.all_takeWhile l hl)

theorem BlockBroadcast.pos {lens out : List ℕ} (hb : BlockBroadcast lens out)
    (hpos : ∀ l ∈ out, 0 < l) (l : ℕ) (hl : l ∈ lens) : 0 < l := by
  rw [← List.takeWhile_append_dropWhile (· == 1) lens, List.mem_append] at hl
  rcases hl with hl | hl
  · exact (eq_one_of_mem_takeWhile hl).symm ▸ Nat.one_pos
  · exact hpos l (hb.2.subset hl)

/-- Pinning the dimensions of length `1` changes no in-bounds index. -/
theorem map_pin_zip {ms suf : List ℕ} (h : List.Forall₂ (· < ·) ms suf) :
    (suf.zip ms).map (fun d => if d.1 = 1 then 0 else d.2) = ms := by
  induction h with
  | nil => rfl
  | @cons i s ms suf hi _ ih =>
    rw [List.zip_cons_cons, List.map_cons, ih]
    congr 1
    split_ifs with hs
    · omega
    · rfl

theorem map_pin_zip_ones {ones mo : List ℕ} (h : ∀ l ∈ ones, l = 1)
    (hlen : mo.length = ones.length) :
    (ones.zip mo).map (fun d => if d.1 = 1 then 0 else d.2) = List.replicate ones.length 0 := by
  induction ones generalizing mo with
  | nil => rfl
  | cons l ones ih =>
    obtain ⟨i, mo, rfl⟩ := List.exists_cons_of_length_eq_add_one hlen
    rw [List.zip_cons_cons, List.map_cons, ih (fun x hx => h x (.tail _ hx)) (Nat.succ.inj hlen),
      if_pos (h l (.head _))]
    rfl

/-- On an operand repeated as whole blocks, the broadcast index of an output multi-index is its
row-major index modulo the operand's element count. -/
theorem broadcastIndex_of_blockBroadcast {lens out m : List ℕ} (hb : BlockBroadcast lens out)
    (hm : List.Forall₂ (· < ·) m out) :
    broadcastIndex lens m = rowMajorIndex out m % lens.prod := by
  obtain ⟨hle, pre, rfl⟩ := hb
  have hones : ∀ l ∈ lens.takeWhile (· == 1), l = 1 := fun _ hl => eq_one_of_mem_takeWhile hl
  have hlens := (List.takeWhile_append_dropWhile (· == 1) lens).symm
  generalize lens.takeWhile (· == 1) = ones at hones hlens
  generalize lens.dropWhile (· == 1) = suf at hlens hm hle
  subst hlens
  obtain ⟨mp, ms, rfl, hmp, hms⟩ : ∃ mp ms, m = mp ++ ms ∧ List.Forall₂ (· < ·) mp pre ∧
      List.Forall₂ (· < ·) ms suf :=
    ⟨_, _, (List.take_append_drop pre.length m).symm, List.forall₂_take_append m pre suf hm,
      List.forall₂_drop_append m pre suf hm⟩
  simp only [List.length_append, hmp.length_eq, hms.length_eq] at hle
  have hlhs : broadcastIndex (ones ++ suf) (mp ++ ms) = rowMajorIndex suf ms := by
    have hd : (mp ++ ms).length - (ones ++ suf).length = pre.length - ones.length := by
      simp only [List.length_append, hmp.length_eq, hms.length_eq]
      omega
    have hmo : (mp.drop (pre.length - ones.length)).length = ones.length := by
      rw [List.length_drop, hmp.length_eq]
      omega
    rw [broadcastIndex, hd, List.drop_append_of_le_length (hmp.length_eq ▸ Nat.sub_le _ _),
      List.zip_append hmo.symm, List.map_append, map_pin_zip_ones hones hmo, map_pin_zip hms,
      rowMajorIndex_append (List.length_replicate _ _) hms.length_eq.ge,
      rowMajorIndex_replicate_zero, Nat.zero_mul, Nat.zero_add]
  have hrhs :
      rowMajorIndex (pre ++ suf) (mp ++ ms) % (ones ++ suf).prod = rowMajorIndex suf ms := by
    rw [rowMajorIndex_append hmp.length_eq hms.length_eq.ge, List.prod_append,
      List.prod_eq_one hones, Nat.one_mul, Nat.mul_comm, Nat.mul_add_mod,
      Nat.mod_eq_of_lt (rowMajorIndex_lt hms)]
  rw [hlhs, hrhs]

/-! ## Exactly the operands repeated as whole blocks -/

/-- Reading the operand at the output's row-major position modulo its element count gives the
NumPy broadcast index at every in-bounds output multi-index. -/
def ReadsByBlocks (lens out : List ℕ) : Prop :=
  ∀ m, List.Forall₂ (· < ·) m out → broadcastIndex lens m = rowMajorIndex out m % lens.prod

theorem alignedLen_concat_zero (lens : List ℕ) (l : ℕ) : alignedLen (lens ++ [l]) 0 = l := by
  rw [alignedLen, List.reverse_append]
  rfl

theorem alignedLen_concat_succ (lens : List ℕ) (l i : ℕ) :
    alignedLen (lens ++ [l]) (i + 1) = alignedLen lens i := by
  rw [alignedLen, alignedLen, List.reverse_append]
  rfl

/-- Broadcasting, innermost dimension first. -/
theorem broadcastsTo_concat {lens out : List ℕ} {l o : ℕ} :
    BroadcastsTo (lens ++ [l]) (out ++ [o]) ↔ (l = o ∨ l = 1) ∧ BroadcastsTo lens out := by
  simp only [BroadcastsTo, List.length_append, List.length_singleton, Nat.add_le_add_iff_right]
  constructor
  · rintro ⟨hlen, h⟩
    refine ⟨by simpa [alignedLen_concat_zero] using h 0 (by omega), hlen, fun i hi => ?_⟩
    simpa [alignedLen_concat_succ] using h (i + 1) (by omega)
  · rintro ⟨h0, hlen, h⟩
    refine ⟨hlen, fun i hi => ?_⟩
    cases i with
    | zero => simpa [alignedLen_concat_zero] using h0
    | succ i => simpa [alignedLen_concat_succ] using h i (by omega)

theorem BroadcastsTo.pos {lens out : List ℕ} (hpos : ∀ l ∈ out, 0 < l)
    (hb : BroadcastsTo lens out) : ∀ l ∈ lens, 0 < l := by
  induction out using List.reverseRecOn generalizing lens with
  | nil =>
    rw [List.eq_nil_of_length_eq_zero (Nat.le_zero.1 hb.1)]
    exact fun _ h => absurd h (List.not_mem_nil _)
  | append_singleton out o ih =>
    rcases List.eq_nil_or_concat lens with rfl | ⟨lens, l, rfl⟩
    · exact fun _ h => absurd h (List.not_mem_nil _)
    · rw [List.concat_eq_append] at hb ⊢
      obtain ⟨hl, hb⟩ := broadcastsTo_concat.1 hb
      intro x hx
      rcases List.mem_append.1 hx with hx | hx
      · exact ih (fun y hy => hpos y (by simp [hy])) hb x hx
      · obtain rfl := List.mem_singleton.1 hx
        rcases hl with rfl | rfl
        · exact hpos _ (by simp)
        · exact Nat.one_pos

theorem concat_suffix_concat {S T : List ℕ} {a b : ℕ} :
    S ++ [a] <:+ T ++ [b] ↔ a = b ∧ S <:+ T := by
  rw [← List.reverse_prefix, List.reverse_append, List.reverse_append]
  simp

theorem blockBroadcast_nil (out : List ℕ) : BlockBroadcast [] out :=
  ⟨Nat.zero_le _, List.nil_suffix⟩

theorem blockBroadcast_concat_same {lens out : List ℕ} (o : ℕ) :
    BlockBroadcast (lens ++ [o]) (out ++ [o]) ↔ BlockBroadcast lens out := by
  simp only [BlockBroadcast, List.length_append, List.length_singleton,
    Nat.add_le_add_iff_right]
  refine and_congr_right fun _ => ?_
  rw [List.dropWhile_append]
  by_cases h : (lens.dropWhile (· == 1)).isEmpty
  · rw [if_pos h, List.isEmpty_iff.1 h, iff_true_intro List.nil_suffix, iff_true,
      List.dropWhile_cons]
    split
    · exact List.nil_suffix
    · exact List.suffix_append _ _
  · rw [if_neg h, concat_suffix_concat]
    simp

theorem blockBroadcast_concat_one {lens out : List ℕ} {o : ℕ} (ho : o ≠ 1) :
    BlockBroadcast (lens ++ [1]) (out ++ [o]) ↔ lens.length ≤ out.length ∧ ∀ l ∈ lens, l = 1 := by
  simp only [BlockBroadcast, List.length_append, List.length_singleton,
    Nat.add_le_add_iff_right]
  refine and_congr_right fun _ => ?_
  rw [List.dropWhile_append]
  have hall : (∀ l ∈ lens, l = 1) ↔ (lens.dropWhile (· == 1)).isEmpty := by
    simp [List.isEmpty_iff]
  by_cases h : (lens.dropWhile (· == 1)).isEmpty
  · rw [if_pos h]
    exact iff_of_true (by simp) (hall.2 h)
  · rw [if_neg h, concat_suffix_concat]
    simp [Ne.symm ho, hall, h]

theorem forall₂_concat_right {m out : List ℕ} {o : ℕ}
    (h : List.Forall₂ (· < ·) m (out ++ [o])) :
    ∃ m₀ x, m = m₀ ++ [x] ∧ List.Forall₂ (· < ·) m₀ out ∧ x < o := by
  obtain ⟨x, u, hx, hu, hd⟩ :=
    List.forall₂_cons_right_iff.1 (List.forall₂_drop_append m out [o] h)
  obtain rfl := List.forall₂_nil_right_iff.1 hu
  exact ⟨_, x, (List.take_append_drop out.length m).symm.trans (by rw [hd]),
    List.forall₂_take_append m out [o] h, hx⟩

theorem broadcastIndex_concat {lens m : List ℕ} (l x : ℕ) (h : lens.length ≤ m.length) :
    broadcastIndex (lens ++ [l]) (m ++ [x]) =
      broadcastIndex lens m * l + if l = 1 then 0 else x := by
  have hd : (m ++ [x]).length - (lens ++ [l]).length = m.length - lens.length := by
    simp only [List.length_append, List.length_singleton, Nat.add_sub_add_right]
  have hz : lens.length = (m.drop (m.length - lens.length)).length := by
    rw [List.length_drop]; omega
  rw [broadcastIndex, hd, List.drop_append_of_le_length (Nat.sub_le _ _), List.zip_append hz,
    List.map_append, rowMajorIndex_append (by rw [List.length_map, List.length_zip, ← hz,
      Nat.min_self]) (by simp), List.prod_singleton]
  congr 1
  simp only [rowMajorIndex, List.zip_cons_cons, List.zip_nil_right, List.map_cons, List.map_nil,
    List.foldl_cons, List.foldl_nil, Nat.zero_mul, Nat.zero_add]

theorem rowMajorIndex_concat {out m : List ℕ} (o x : ℕ) (h : m.length = out.length) :
    rowMajorIndex (out ++ [o]) (m ++ [x]) = rowMajorIndex out m * o + x := by
  rw [rowMajorIndex_append h (show [o].length ≤ [x].length from le_rfl), List.prod_singleton]
  simp [rowMajorIndex]

theorem broadcastIndex_of_forall_eq_one {lens m : List ℕ} (hall : ∀ l ∈ lens, l = 1)
    (h : lens.length ≤ m.length) : broadcastIndex lens m = 0 := by
  rw [broadcastIndex, map_pin_zip_ones hall (by simp; omega), rowMajorIndex_replicate_zero]

theorem mul_add_mod_mul {a P o x : ℕ} (hx : x < o) : (a * o + x) % (P * o) = a % P * o + x := by
  rcases Nat.eq_zero_or_pos P with rfl | hP
  · simp
  · have hlt : a % P * o + x < P * o :=
      calc a % P * o + x < (a % P + 1) * o := by rw [Nat.succ_mul]; omega
        _ ≤ P * o := Nat.mul_le_mul_right _ (Nat.mod_lt a hP)
    conv_lhs => rw [← Nat.div_add_mod a P]
    rw [show (P * (a / P) + a % P) * o + x = P * o * (a / P) + (a % P * o + x) by ring,
      Nat.mul_add_mod, Nat.mod_eq_of_lt hlt]

theorem forall_eq_one_of_prod_eq_one {lens : List ℕ} (h : lens.prod = 1) : ∀ l ∈ lens, l = 1 := by
  induction lens with
  | nil => exact fun _ h => absurd h (List.not_mem_nil _)
  | cons a lens ih =>
    rw [List.prod_cons] at h
    exact List.forall_mem_cons.2
      ⟨Nat.eq_one_of_mul_eq_one_right h, ih (Nat.eq_one_of_mul_eq_one_left h)⟩

theorem readsByBlocks_nil (out : List ℕ) : ReadsByBlocks [] out := fun _ _ =>
  (Nat.mod_one _).symm

theorem readsByBlocks_concat_same {lens out : List ℕ} {o : ℕ} (ho : 0 < o)
    (hlen : lens.length ≤ out.length) :
    ReadsByBlocks (lens ++ [o]) (out ++ [o]) ↔ ReadsByBlocks lens out := by
  constructor
  · intro h m hm
    have h0 := h (m ++ [0]) (List.rel_append hm (.cons ho .nil))
    rw [broadcastIndex_concat _ _ (hm.length_eq ▸ hlen), rowMajorIndex_concat _ _ hm.length_eq,
      List.prod_append, List.prod_singleton, mul_add_mod_mul ho] at h0
    simp only [ite_self, Nat.add_zero] at h0
    exact Nat.eq_of_mul_eq_mul_right ho h0
  · intro h m hm
    obtain ⟨m, x, rfl, hm, hx⟩ := forall₂_concat_right hm
    rw [broadcastIndex_concat _ _ (hm.length_eq ▸ hlen), rowMajorIndex_concat _ _ hm.length_eq,
      List.prod_append, List.prod_singleton, mul_add_mod_mul hx, h m hm]
    split_ifs <;> omega

theorem readsByBlocks_concat_one {lens out : List ℕ} {o : ℕ} (ho : 1 < o)
    (hlen : lens.length ≤ out.length) (hpos : ∀ l ∈ out, 0 < l) :
    ReadsByBlocks (lens ++ [1]) (out ++ [o]) ↔ ∀ l ∈ lens, l = 1 := by
  constructor
  · intro h
    have hz : List.Forall₂ (· < ·) (List.replicate out.length 0) out :=
      List.forall₂_iff_get.2 ⟨by simp, fun i _ _ => by simpa using hpos _ (List.get_mem _ _ _)⟩
    have h0 := h _ (List.rel_append hz (.cons (by omega : 0 < o) .nil))
    have h1 := h _ (List.rel_append hz (.cons ho .nil))
    rw [broadcastIndex_concat _ _ (by simpa using hlen),
      rowMajorIndex_concat _ _ hz.length_eq, rowMajorIndex_replicate_zero] at h0 h1
    simp only [if_true, Nat.mul_one, Nat.add_zero, Nat.zero_mul, Nat.zero_add,
      List.prod_append, List.prod_singleton, Nat.zero_mod] at h0 h1
    exact forall_eq_one_of_prod_eq_one
      (Nat.eq_one_of_dvd_one (Nat.dvd_of_mod_eq_zero (h1 ▸ h0)))
  · intro hall m hm
    obtain ⟨m, x, rfl, hm, hx⟩ := forall₂_concat_right hm
    rw [broadcastIndex_concat _ _ (hm.length_eq ▸ hlen), if_pos rfl, Nat.mul_one, Nat.add_zero,
      broadcastIndex_of_forall_eq_one hall (hm.length_eq ▸ hlen), List.prod_append,
      List.prod_eq_one hall, List.prod_singleton, Nat.mul_one, Nat.mod_one]

/-- Reading by blocks is broadcasting exactly for the operands repeated as whole blocks. -/
theorem readsByBlocks_iff {lens out : List ℕ} (hpos : ∀ l ∈ out, 0 < l)
    (hb : BroadcastsTo lens out) : ReadsByBlocks lens out ↔ BlockBroadcast lens out := by
  induction out using List.reverseRecOn generalizing lens with
  | nil =>
    rw [List.eq_nil_of_length_eq_zero (Nat.le_zero.1 hb.1)]
    exact iff_of_true (readsByBlocks_nil _) (blockBroadcast_nil _)
  | append_singleton out o ih =>
    rcases List.eq_nil_or_concat lens with rfl | ⟨lens, l, rfl⟩
    · exact iff_of_true (readsByBlocks_nil _) (blockBroadcast_nil _)
    · rw [List.concat_eq_append] at hb ⊢
      have ho : 0 < o := hpos o (by simp)
      have hpos' : ∀ x ∈ out, 0 < x := fun x hx => hpos x (by simp [hx])
      obtain ⟨hl, hb₀⟩ := broadcastsTo_concat.1 hb
      by_cases hlo : l = o
      · subst hlo
        rw [readsByBlocks_concat_same ho hb₀.1, blockBroadcast_concat_same, ih hpos' hb₀]
      · obtain rfl : l = 1 := hl.resolve_left hlo
        rw [readsByBlocks_concat_one (by omega) hb₀.1 hpos',
          blockBroadcast_concat_one (Ne.symm hlo), and_iff_right hb₀.1]

/-- For an operand that broadcasts to an output of positive lengths, reading it at the output's
row-major position modulo what `check_broadcasted_contiguous` returns for its packed descriptor,
as the Where host routines do, gives the NumPy broadcast element at every output multi-index
exactly when the operand repeats as whole blocks. -/
theorem modIndex_eq_broadcastIndex_iff {lens out : List ℕ} (hpos : ∀ l ∈ out, 0 < l)
    (hb : BroadcastsTo lens out) :
    (∀ m, List.Forall₂ (· < ·) m out →
      rowMajorIndex out m % checkBroadcastedContiguous (packedDesc lens) = broadcastIndex lens m) ↔
      BlockBroadcast lens out := by
  rw [checkBroadcastedContiguous_packedDesc (hb.pos hpos), ← readsByBlocks_iff hpos hb]
  exact forall₂_congr fun _ _ => eq_comm

/-- An input `4×1` against an output `4×3`: it broadcasts, but along its inner dimension. -/
theorem modIndex_eq_broadcastIndex_iff_inner :
    (∀ l ∈ [4, 3], 0 < l) ∧ BroadcastsTo [4, 1] [4, 3] ∧
      ((∀ m, List.Forall₂ (· < ·) m [4, 3] →
        rowMajorIndex [4, 3] m % checkBroadcastedContiguous (packedDesc [4, 1]) =
          broadcastIndex [4, 1] m) ↔ BlockBroadcast [4, 1] [4, 3]) ∧
      ¬BlockBroadcast [4, 1] [4, 3] :=
  have hpos : ∀ l ∈ [4, 3], 0 < l := by decide
  have hb : BroadcastsTo [4, 1] [4, 3] := by decide
  ⟨hpos, hb, modIndex_eq_broadcastIndex_iff hpos hb, by decide⟩

section Forward

variable {α : Type*} [Ring α] [DecidableEq α]

/-- When every operand repeats as whole blocks along the output, the forward host routine on
packed descriptors is `where` with NumPy broadcasting: at every output multi-index it selects, by
the broadcast condition element, the broadcast input or other element. -/
theorem mloWhereForwardRunHost_blockBroadcast {inLen otherLen condLen out : List ℕ}
    (hpos : ∀ l ∈ out, 0 < l) (hin : BlockBroadcast inLen out)
    (hother : BlockBroadcast otherLen out) (hcond : BlockBroadcast condLen out)
    (input other condition outputHost : ℕ → α) {m : List ℕ} (hm : List.Forall₂ (· < ·) m out) :
    (mloWhereForwardRunHost (packedDesc inLen) input (packedDesc otherLen) other
        (packedDesc condLen) condition (packedDesc out) outputHost).map
          (fun output => output (rowMajorIndex out m)) =
      some (if condition (broadcastIndex condLen m) ≠ 0 then input (broadcastIndex inLen m)
        else other (broadcastIndex otherLen m)) := by
  rw [mloWhereForwardRunHost_apply _ _ _ _ (checkBroadcastedContiguous_packedDesc_pos
      (hcond.pos hpos)) (checkBroadcastedContiguous_packedDesc_pos (hin.pos hpos))
      (checkBroadcastedContiguous_packedDesc_pos (hother.pos hpos)), Option.map_some']
  refine congrArg some ((if_pos (show rowMajorIndex out m < (packedDesc out).elementSize from
    rowMajorIndex_lt hm)).trans ?_)
  rw [whereOutput, checkBroadcastedContiguous_packedDesc (hin.pos hpos),
    checkBroadcastedContiguous_packedDesc (hother.pos hpos),
    checkBroadcastedContiguous_packedDesc (hcond.pos hpos),
    ← broadcastIndex_of_blockBroadcast hin hm, ← broadcastIndex_of_blockBroadcast hother hm,
    ← broadcastIndex_of_blockBroadcast hcond hm]

end Forward

/-- The driver's default shapes, input and other `1×4×2×2` and condition `2×4×2×2`, at output
multi-index `(1, 3, 1, 0)`. -/
theorem mloWhereForwardRunHost_blockBroadcast_default :
    outLen [1, 4, 2, 2] [1, 4, 2, 2] [2, 4, 2, 2] = [2, 4, 2, 2] ∧
      (∀ l ∈ [2, 4, 2, 2], 0 < l) ∧ BlockBroadcast [1, 4, 2, 2] [2, 4, 2, 2] ∧
      BlockBroadcast [2, 4, 2, 2] [2, 4, 2, 2] ∧ List.Forall₂ (· < ·) [1, 3, 1, 0] [2, 4, 2, 2] ∧
      (mloWhereForwardRunHost (packedDesc [1, 4, 2, 2]) (fun i => (i : ℤ))
          (packedDesc [1, 4, 2, 2]) (fun _ => -1) (packedDesc [2, 4, 2, 2]) (fun i => (i : ℤ) % 2)
          (packedDesc [2, 4, 2, 2]) (fun _ => 0)).map
            (fun output => output (rowMajorIndex [2, 4, 2, 2] [1, 3, 1, 0])) =
        some (if (fun i => (i : ℤ) % 2) (broadcastIndex [2, 4, 2, 2] [1, 3, 1, 0]) ≠ 0 then
          (fun i => (i : ℤ)) (broadcastIndex [1, 4, 2, 2] [1, 3, 1, 0])
        else (fun _ => -1) (broadcastIndex [1, 4, 2, 2] [1, 3, 1, 0])) :=
  have hpos : ∀ l ∈ [2, 4, 2, 2], 0 < l := by decide
  have hin : BlockBroadcast [1, 4, 2, 2] [2, 4, 2, 2] := by decide
  have hcond : BlockBroadcast [2, 4, 2, 2] [2, 4, 2, 2] := by decide
  have hm : List.Forall₂ (· < ·) [1, 3, 1, 0] [2, 4, 2, 2] := by decide
  ⟨by decide, hpos, hin, hcond, hm,
    mloWhereForwardRunHost_blockBroadcast hpos hin hin hcond _ _ _ _ hm⟩

end MIOpen.Where
