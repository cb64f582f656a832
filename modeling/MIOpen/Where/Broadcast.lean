import MIOpen.Where.Host

/-!
# Where: broadcast shapes

`WhereDriver::GetandSetData` reads the lengths of the input, other and condition tensors, gives
each a packed descriptor (`SetTensorNd`), and gives the output the right-aligned maximum of the
three shapes, a missing dimension counting as `1` (`outLen`). It checks the input against the
other operand and the other operand against the condition; given those two checks, every operand
broadcasts to the output shape exactly when the input and the condition broadcast against each
other as well (`outLen_broadcastsTo`). NumPy broadcasting reads an operand at the output
multi-index right-aligned to the operand's shape, with each dimension of length `1` pinned to `0`
(`broadcastIndex`).

The forward host routine reads operand element `o % numel` at output position `o`, where `numel`
is what `check_broadcasted_contiguous` returns for a packed descriptor: the operand's element
count. That is the broadcast element when the operand only lacks leading dimensions, and not in
general. An input of shape `4×1` against an output of shape `4×3` is read along its four elements
in turn, not once per row (`mloWhereForwardRunHost_inner_broadcast`).
-/

namespace MIOpen.Where

/-- Modelled from the spec: `SetTensorNd` is not in the sources, and the spec's tensor view is
row-major, so each stride is the product of the lengths inside it. -/
def packedStrides : List ℕ → List ℕ
  | [] => []
  | _ :: lens => lens.prod :: packedStrides lens

/-- Modelled from the spec: `SetTensorNd` with the given lengths, a packed descriptor. -/
def packedDesc (lens : List ℕ) : TensorDesc := ⟨lens, packedStrides lens⟩

/-- `findMax`. -/
def findMax (a b c : ℕ) : ℕ :=
  if a ≥ b then (if a ≥ c then a else c) else (if b ≥ c then b else c)

/-- The length of dimension `i` counted from the innermost one, `1` past the rank of the shape:
`InVal`, `OtherVal` and `CondVal` of `GetandSetData`. -/
def alignedLen (lens : List ℕ) (i : ℕ) : ℕ := lens.reverse.getD i 1

/-- The output lengths of `GetandSetData`: `out_len[out_sz - 1 - i]` is the largest of the three
lengths at position `i` from the innermost dimension. -/
def outLen (inLen otherLen condLen : List ℕ) : List ℕ :=
  let outSz := findMax inLen.length otherLen.length condLen.length
  (List.range outSz).map fun k =>
    findMax (alignedLen inLen (outSz - 1 - k)) (alignedLen otherLen (outSz - 1 - k))
      (alignedLen condLen (outSz - 1 - k))

/-- Modelled from the spec: `miopen::isBroadcastable` is not in the sources, and the spec leaves
shape bookkeeping to a collaborator. This is the NumPy rule the driver's `out_len` presumes: two
shapes, aligned at the innermost dimension, have each pair of lengths equal or holding a `1`. -/
def Broadcastable (a b : List ℕ) : Prop :=
  ∀ i < max a.length b.length,
    alignedLen a i = alignedLen b i ∨ alignedLen a i = 1 ∨ alignedLen b i = 1

instance (a b : List ℕ) : Decidable (Broadcastable a b) :=
  inferInstanceAs (Decidable (∀ i < max a.length b.length, _))

/-- The shapes the driver runs `where` on: non-empty lists of positive lengths, pairwise
`Broadcastable` (modelled from the spec). -/
def ShapesAccepted (inLen otherLen condLen : List ℕ) : Prop :=
  inLen ≠ [] ∧ otherLen ≠ [] ∧ condLen ≠ [] ∧ (∀ l ∈ inLen ++ otherLen ++ condLen, 0 < l) ∧
    Broadcastable inLen otherLen ∧ Broadcastable otherLen condLen ∧ Broadcastable inLen condLen

instance (inLen otherLen condLen : List ℕ) : Decidable (ShapesAccepted inLen otherLen condLen) :=
  inferInstanceAs (Decidable (_ ∧ _))

/-- `lens` broadcasts to the shape `out`: it has no more dimensions, and, aligned at the innermost
dimension, each of its lengths is `out`'s or `1`. -/
def BroadcastsTo (lens out : List ℕ) : Prop :=
  lens.length ≤ out.length ∧
    ∀ i < out.length, alignedLen lens i = alignedLen out i ∨ alignedLen lens i = 1

instance (lens out : List ℕ) : Decidable (BroadcastsTo lens out) :=
  inferInstanceAs (Decidable (_ ∧ _))

theorem findMax_eq (a b c : ℕ) : findMax a b c = max a (max b c) := by
  unfold findMax
  split_ifs <;> omega

theorem alignedLen_of_le {lens : List ℕ} {i : ℕ} (h : lens.length ≤ i) : alignedLen lens i = 1 :=
  List.getD_eq_default _ _ (by simpa using h)

theorem alignedLen_pos {lens : List ℕ} (hpos : ∀ l ∈ lens, 0 < l) (i : ℕ) :
    0 < alignedLen lens i := by
  rw [alignedLen, List.getD_eq_getElem?_getD]
  cases h : lens.reverse[i]? with
  | none => exact Nat.one_pos
  | some l => exact hpos l (List.mem_reverse.1 (List.mem_iff_getElem?.2 ⟨i, h⟩))

theorem length_outLen (inLen otherLen condLen : List ℕ) :
    (outLen inLen otherLen condLen).length =
      max inLen.length (max otherLen.length condLen.length) := by
  rw [outLen, List.length_map, List.length_range, findMax_eq]

theorem getD_reverse_map_range (f : ℕ → ℕ) (n i d : ℕ) :
    ((List.range n).map f).reverse.getD i d = if i < n then f (n - 1 - i) else d := by
  split_ifs with hi
  · rw [List.getD_eq_getElem?_getD, List.getElem?_reverse (by simpa using hi), List.getElem?_map,
      List.length_map, List.length_range, List.getElem?_range (by omega)]
    rfl
  · exact List.getD_eq_default _ _ (by simpa using hi)

/-- The output's length at each position from the innermost dimension is the largest of the
operands'. -/
theorem alignedLen_outLen (inLen otherLen condLen : List ℕ) (i : ℕ) :
    alignedLen (outLen inLen otherLen condLen) i =
      max (alignedLen inLen i) (max (alignedLen otherLen i) (alignedLen condLen i)) := by
  rw [alignedLen, outLen, getD_reverse_map_range, findMax_eq]
  split_ifs with hi
  · rw [Nat.sub_sub_self (by omega), findMax_eq]
  · rw [alignedLen_of_le (by omega), alignedLen_of_le (by omega), alignedLen_of_le (by omega)]
    rfl

/-- Two shapes that broadcast against each other do so at every position, past the shorter one's
dimensions included. -/
theorem Broadcastable.aligned {a b : List ℕ} (h : Broadcastable a b) (i : ℕ) :
    alignedLen a i = alignedLen b i ∨ alignedLen a i = 1 ∨ alignedLen b i = 1 := by
  by_cases hi : i < max a.length b.length
  · exact h i hi
  · exact .inl ((alignedLen_of_le (by omega)).trans (alignedLen_of_le (by omega)).symm)

/-- Three positive lengths, pairwise equal or holding a `1`: each is their largest or `1`. -/
theorem eq_max_or_one {x y z : ℕ} (hx : 0 < x) (hy : 0 < y) (hz : 0 < z)
    (hxy : x = y ∨ x = 1 ∨ y = 1) (hyz : y = z ∨ y = 1 ∨ z = 1) (hxz : x = z ∨ x = 1 ∨ z = 1) :
    (x = max x (max y z) ∨ x = 1) ∧ (y = max x (max y z) ∨ y = 1) ∧
      (z = max x (max y z) ∨ z = 1) := by
  refine ⟨?_, ?_, ?_⟩ <;> omega

/-- Given the two checks `GetandSetData` makes, the input against the other operand and the other
operand against the condition, on shapes of positive lengths, the three operands all broadcast to
the output shape exactly when the input and condition shapes, which the driver does not check
against each other, broadcast too. -/
theorem outLen_broadcastsTo {inLen otherLen condLen : List ℕ}
    (hpos : ∀ l ∈ inLen ++ otherLen ++ condLen, 0 < l) (hio : Broadcastable inLen otherLen)
    (hoc : Broadcastable otherLen condLen) :
    (BroadcastsTo inLen (outLen inLen otherLen condLen) ∧
      BroadcastsTo otherLen (outLen inLen otherLen condLen) ∧
      BroadcastsTo condLen (outLen inLen otherLen condLen)) ↔ Broadcastable inLen condLen := by
  have hx : ∀ i, 0 < alignedLen inLen i := alignedLen_pos fun l hl => hpos l (by simp [hl])
  have hy : ∀ i, 0 < alignedLen otherLen i := alignedLen_pos fun l hl => hpos l (by simp [hl])
  have hz : ∀ i, 0 < alignedLen condLen i := alignedLen_pos fun l hl => hpos l (by simp [hl])
  simp only [BroadcastsTo, length_outLen, alignedLen_outLen]
  constructor
  · rintro ⟨⟨-, hin⟩, -, -, hcond⟩ i hi
    have hle : max inLen.length condLen.length ≤ max inLen.length
        (max otherLen.length condLen.length) := max_le_max le_rfl (le_max_right _ _)
    have := hin i (hi.trans_le hle)
    have := hcond i (hi.trans_le hle)
    omega
  · intro hic
    have h i := eq_max_or_one (hx i) (hy i) (hz i) (hio.aligned i) (hoc.aligned i) (hic.aligned i)
    exact ⟨⟨by omega, fun i _ => (h i).1⟩, ⟨by omega, fun i _ => (h i).2.1⟩,
      ⟨by omega, fun i _ => (h i).2.2⟩⟩

/-- An input of length `3` and a condition of length `2`, each against an `other` of length `1`:
both of the driver's checks pass, the output has length `3`, and the condition does not broadcast
to it. -/
theorem outLen_broadcastsTo_unchecked :
    (∀ l ∈ [3] ++ [1] ++ [2], 0 < l) ∧ Broadcastable [3] [1] ∧ Broadcastable [1] [2] ∧
      ((BroadcastsTo [3] (outLen [3] [1] [2]) ∧ BroadcastsTo [1] (outLen [3] [1] [2]) ∧
        BroadcastsTo [2] (outLen [3] [1] [2])) ↔ Broadcastable [3] [2]) ∧
      ¬ Broadcastable [3] [2] :=
  have hpos : ∀ l ∈ [3] ++ [1] ++ [2], 0 < l := by decide
  have hio : Broadcastable [3] [1] := by decide
  have hoc : Broadcastable [1] [2] := by decide
  ⟨hpos, hio, hoc, outLen_broadcastsTo hpos hio hoc, by decide⟩

/-- The NumPy broadcast index into an operand of lengths `lens` at the output multi-index `m`:
`m` right-aligned to `lens`, each dimension of length `1` pinned to `0`, read row-major. -/
def broadcastIndex (lens m : List ℕ) : ℕ :=
  rowMajorIndex lens ((lens.zip (m.drop (m.length - lens.length))).map fun d =>
    if d.1 = 1 then 0 else d.2)

/-- An accepted triple with an input broadcast along its inner dimension: at output index `(0, 1)`
NumPy reads `input[0]`, the host routine `input[1]`. -/
theorem mloWhereForwardRunHost_inner_broadcast :
    ShapesAccepted [4, 1] [4, 3] [4, 3] ∧ outLen [4, 1] [4, 3] [4, 3] = [4, 3] ∧
      List.Forall₂ (· < ·) [0, 1] [4, 3] ∧ broadcastIndex [4, 1] [0, 1] = 0 ∧
      (mloWhereForwardRunHost (packedDesc [4, 1]) (fun i => (i : ℤ)) (packedDesc [4, 3])
        (fun _ => 0) (packedDesc [4, 3]) (fun _ => 1) (packedDesc [4, 3]) (fun _ => 0)).map
          (fun output => output (rowMajorIndex [4, 3] [0, 1])) = some 1 := by
  decide

end MIOpen.Where
