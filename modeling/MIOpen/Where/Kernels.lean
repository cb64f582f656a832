import MIOpen.Where.Host

/-!
# Where kernels

The five kernels of `MIOpenWhere.cpp` are one-dimensional: thread `gid` of the launch returns at
once when `gid` is not below its bound. `WhereBroadcastedContiguousForward_Kernel`,
`WhereBroadcastedContiguousBackward_Kernel` and `WhereContiguousBackward_Kernel` handle output
position `gid`;
`WhereConditionBroadcastedContiguousForward_Kernel` and
`WhereConditionBroadcastedContiguousBackward_Kernel` read condition element `gid` once and loop
over the positions `gid, gid + condition_size, …` that read it. Buffers are read at an offset;
index arithmetic is exact.

`where_forward_agree`: launched with at least as many threads as their bound, both forward
kernels write every output position `o < size` exactly once with `where` of the offset
operands, and so does the host routine with offset `0`.

The backward kernels write, like the host routine, one product per position into the gradient
element the position reads; a gradient element that several positions read receives several
writes, each one contribution, and never their sum. `WhereContiguousBackward_Kernel`, for
operands as large as the output, is the broadcast kernel with every offset `0`, and writes the
gradient of `where` exactly (`whereContiguousBackward_perm`).
-/

namespace MIOpen.Where

open List

variable {α : Type*} [Ring α]

/-! ## Forward -/

/-- The arguments of the forward kernels. -/
structure FwdArgs (α : Type*) where
  condition : ℕ → α
  input : ℕ → α
  other : ℕ → α
  size : ℕ
  conditionOff : ℕ
  inputOff : ℕ
  otherOff : ℕ
  outputOff : ℕ
  conditionSize : ℕ
  inputSize : ℕ
  otherSize : ℕ

section Forward

variable [DecidableEq α] (a : FwdArgs α)

/-- `where` of the operands the kernels see, each read from its offset on. -/
def FwdArgs.whereAt (o : ℕ) : α :=
  whereOutput (fun k => a.condition (k + a.conditionOff)) (fun k => a.input (k + a.inputOff))
    (fun k => a.other (k + a.otherOff)) a.conditionSize a.inputSize a.otherSize o

/-- `WhereBroadcastedContiguousForward_Kernel` run by the thread of global index `gid`. -/
def whereBroadcastedContiguousForwardKernel (gid : ℕ) : List (ℕ × α) :=
  if a.size ≤ gid then []
  else if a.condition (gid % a.conditionSize + a.conditionOff) ≠ 0 then
    [(gid + a.outputOff, a.input (gid % a.inputSize + a.inputOff))]
  else [(gid + a.outputOff, a.other (gid % a.otherSize + a.otherOff))]

/-- `WhereConditionBroadcastedContiguousForward_Kernel` run by the thread of global index
`gid`. -/
def whereConditionBroadcastedContiguousForwardKernel (gid : ℕ) : List (ℕ × α) :=
  if h : a.conditionSize ≤ gid then []
  else
    let cond := a.condition (gid % a.conditionSize + a.conditionOff)
    let conditionSize : ℕ+ := ⟨a.conditionSize, by omega⟩
    if cond ≠ 0 then
      (stridedRange gid conditionSize a.size).map fun idx =>
        (idx + a.outputOff, a.input (idx % a.inputSize + a.inputOff))
    else
      (stridedRange gid conditionSize a.size).map fun idx =>
        (idx + a.outputOff, a.other (idx % a.otherSize + a.otherOff))

/-- The writes of a launch `d` of `WhereBroadcastedContiguousForward`. -/
def whereBroadcastedContiguousForward (d : Dims) : List (ℕ × α) :=
  launch d fun t => whereBroadcastedContiguousForwardKernel a (d.globalX t)

/-- The writes of a launch `d` of `WhereConditionBroadcastedContiguousForward`. -/
def whereConditionBroadcastedContiguousForward (d : Dims) : List (ℕ × α) :=
  launch d fun t => whereConditionBroadcastedContiguousForwardKernel a (d.globalX t)

theorem whereBroadcastedContiguousForwardKernel_eq {gid : ℕ} (h : gid < a.size) :
    whereBroadcastedContiguousForwardKernel a gid = [(gid + a.outputOff, a.whereAt gid)] := by
  rw [whereBroadcastedContiguousForwardKernel, if_neg (Nat.not_le.2 h), FwdArgs.whereAt,
    whereOutput]
  split_ifs <;> rfl

/-- Thread `gid < condition_size` writes `where` at the positions of its strided loop: they
all read condition element `gid`. -/
theorem whereConditionBroadcastedContiguousForwardKernel_eq (hcs : 0 < a.conditionSize)
    {gid : ℕ} (h : gid < a.conditionSize) :
    whereConditionBroadcastedContiguousForwardKernel a gid =
      (stridedRange gid ⟨a.conditionSize, hcs⟩ a.size).map
        fun o => (o + a.outputOff, a.whereAt o) := by
  rw [whereConditionBroadcastedContiguousForwardKernel, dif_neg (Nat.not_le.2 h)]
  dsimp only
  split_ifs with hc <;> refine map_congr_left fun o ho => ?_ <;>
  · have hm : o % a.conditionSize = gid % a.conditionSize := mod_of_mem_stridedRange ho
    simp [FwdArgs.whereAt, whereOutput, hm, hc]

/-- Both forward kernels, launched with at least as many threads as their bound, write every
output position `o < size` exactly once, with `where` of the operands at their offsets; the host
routine, whose `%` traps unless every block size is positive, writes the same values with
offsets `0`. -/
theorem where_forward_agree (hcs : 0 < a.conditionSize) (his : 0 < a.inputSize)
    (hos : 0 < a.otherSize) (d d' : Dims)
    (hd : a.conditionSize ≤ d.strideX) (hdY : d.strideY = 1) (hd' : a.size ≤ d'.strideX)
    (hdY' : d'.strideY = 1) (inputDesc otherDesc conditionDesc outputDesc : TensorDesc)
    (hcond : checkBroadcastedContiguous conditionDesc = a.conditionSize)
    (hinput : checkBroadcastedContiguous inputDesc = a.inputSize)
    (hother : checkBroadcastedContiguous otherDesc = a.otherSize)
    (hout : outputDesc.elementSize = a.size) (outputHost : ℕ → α) :
    whereConditionBroadcastedContiguousForward a d ~
      (range a.size).map (fun o => (o + a.outputOff, a.whereAt o)) ∧
    whereBroadcastedContiguousForward a d' ~
      (range a.size).map (fun o => (o + a.outputOff, a.whereAt o)) ∧
    ∀ o < a.size, (mloWhereForwardRunHost inputDesc a.input otherDesc a.other conditionDesc
        a.condition outputDesc outputHost).map (fun out => out o) =
      some (whereOutput a.condition a.input a.other a.conditionSize a.inputSize a.otherSize o) := by
  refine ⟨?_, ?_, fun o ho => ?_⟩
  · refine (launch_perm_guarded d hdY hd (whereConditionBroadcastedContiguousForwardKernel a)
      fun x hx => dif_pos hx).trans ?_
    rw [flatMap_congr fun x hx =>
      whereConditionBroadcastedContiguousForwardKernel_eq a hcs (mem_range.1 hx), ← map_flatMap]
    exact (flatMap_stridedRange_perm ⟨a.conditionSize, hcs⟩ a.size).map _
  · refine (launch_perm_guarded d' hdY' hd' (whereBroadcastedContiguousForwardKernel a)
      fun x hx => if_pos hx).trans (Perm.of_eq ?_)
    rw [flatMap_congr fun x hx => whereBroadcastedContiguousForwardKernel_eq a (mem_range.1 hx),
      map_eq_flatMap]
  · rw [mloWhereForwardRunHost_apply _ _ _ _ (hcond ▸ hcs) (hinput ▸ his) (hother ▸ hos),
      Option.map_some', hout, hcond, hinput, hother]
    exact congrArg some (if_pos ho)

end Forward

/-- One block of 256 threads. -/
def oneBlock : Dims := ⟨256, 1, 1, 1⟩

/-- Four output positions reading a condition block of two elements, the input in full, and an
`other` operand broadcast from one element. -/
def fourFwdArgs : FwdArgs ℤ := ⟨fun k => k % 2, fun k => k, fun k => -k, 4, 0, 0, 0, 0, 2, 4, 1⟩

/-- The `other` operand is described with stride `0`, which `check_broadcasted_contiguous` reads
as a block of one element. -/
theorem where_forward_agree_four :
    0 < fourFwdArgs.conditionSize ∧ 0 < fourFwdArgs.inputSize ∧ 0 < fourFwdArgs.otherSize ∧
    fourFwdArgs.conditionSize ≤ oneBlock.strideX ∧
    oneBlock.strideY = 1 ∧ fourFwdArgs.size ≤ oneBlock.strideX ∧
    checkBroadcastedContiguous ⟨[2], [1]⟩ = fourFwdArgs.conditionSize ∧
    checkBroadcastedContiguous ⟨[4], [1]⟩ = fourFwdArgs.inputSize ∧
    checkBroadcastedContiguous ⟨[4], [0]⟩ = fourFwdArgs.otherSize ∧
    TensorDesc.elementSize ⟨[4], [1]⟩ = fourFwdArgs.size ∧
    (whereConditionBroadcastedContiguousForward fourFwdArgs oneBlock ~
      (range 4).map (fun o => (o + fourFwdArgs.outputOff, fourFwdArgs.whereAt o)) ∧
    whereBroadcastedContiguousForward fourFwdArgs oneBlock ~
      (range 4).map (fun o => (o + fourFwdArgs.outputOff, fourFwdArgs.whereAt o)) ∧
    ∀ o < 4, (mloWhereForwardRunHost ⟨[4], [1]⟩ fourFwdArgs.input ⟨[4], [0]⟩ fourFwdArgs.other
        ⟨[2], [1]⟩ fourFwdArgs.condition ⟨[4], [1]⟩ (fun _ => 0)).map (fun out => out o) =
      some (whereOutput fourFwdArgs.condition fourFwdArgs.input fourFwdArgs.other 2 4 1 o)) :=
  ⟨by decide, by decide, by decide, by decide, rfl, by decide, by decide, by decide, by decide,
    by decide, where_forward_agree fourFwdArgs (by decide) (by decide) (by decide) oneBlock
      oneBlock (by decide) rfl (by decide) rfl
      ⟨[4], [1]⟩ ⟨[4], [0]⟩ ⟨[2], [1]⟩ ⟨[4], [1]⟩ (by decide) (by decide) (by decide) (by decide)
      (fun _ => 0)⟩

/-! ## Backward -/

/-- The gradient buffers the backward kernels write. -/
inductive GradBuffer
  | inputGrad
  | otherGrad
deriving DecidableEq, Repr

/-- The arguments of the backward kernels; `inputGrad` and `otherGrad` say whether the gradient
pointers are not null. -/
structure BwdArgs (α : Type*) where
  condition : ℕ → α
  outputGrad : ℕ → α
  inputGrad : Bool
  otherGrad : Bool
  size : ℕ
  outputGradOff : ℕ
  conditionOff : ℕ
  inputGradOff : ℕ
  otherGradOff : ℕ
  conditionSize : ℕ
  inputSize : ℕ
  otherSize : ℕ

section Backward

variable (b : BwdArgs α)

/-- `WhereBroadcastedContiguousBackward_Kernel` run by the thread of global index `gid`. -/
def whereBroadcastedContiguousBackwardKernel (gid : ℕ) : List (GradBuffer × ℕ × α) :=
  if b.size ≤ gid then []
  else
    (if b.inputGrad then
      [(.inputGrad, gid % b.inputSize + b.inputGradOff, b.outputGrad (gid + b.outputGradOff) *
        b.condition (gid % b.conditionSize + b.conditionOff))]
    else []) ++
    (if b.otherGrad then
      [(.otherGrad, gid % b.otherSize + b.otherGradOff, b.outputGrad (gid + b.outputGradOff) *
        (1 - b.condition (gid % b.conditionSize + b.conditionOff)))]
    else [])

/-- `WhereConditionBroadcastedContiguousBackward_Kernel` run by the thread of global index
`gid`. Its loop counter `int idx` is taken exactly: it stays below `2^31`, where the `int` would
overflow and the loop stop, while `input_size + condition_size ≤ 2^31`. -/
def whereConditionBroadcastedContiguousBackwardKernel (gid : ℕ) : List (GradBuffer × ℕ × α) :=
  if h : b.conditionSize ≤ gid then []
  else
    let cond := b.condition (gid % b.conditionSize + b.conditionOff)
    let conditionSize : ℕ+ := ⟨b.conditionSize, by omega⟩
    (if b.inputGrad then
      (stridedRange gid conditionSize b.inputSize).map fun idx =>
        (.inputGrad, idx + b.inputGradOff, b.outputGrad (idx % b.size + b.outputGradOff) * cond)
    else []) ++
    (if b.otherGrad then
      (stridedRange gid conditionSize b.otherSize).map fun idx =>
        (.otherGrad, idx + b.otherGradOff,
          b.outputGrad (idx % b.size + b.outputGradOff) * (1 - cond))
    else [])

/-- The writes of a launch `d` of `WhereBroadcastedContiguousBackward`. -/
def whereBroadcastedContiguousBackward (d : Dims) : List (GradBuffer × ℕ × α) :=
  launch d fun t => whereBroadcastedContiguousBackwardKernel b (d.globalX t)

/-- The writes of a launch `d` of `WhereConditionBroadcastedContiguousBackward`. -/
def whereConditionBroadcastedContiguousBackward (d : Dims) : List (GradBuffer × ℕ × α) :=
  launch d fun t => whereConditionBroadcastedContiguousBackwardKernel b (d.globalX t)

/-- `WhereContiguousBackward_Kernel` run by the thread of global index `gid`: it is given the
condition, the output gradient, the gradient pointers and `size` only, and reads and writes every
buffer at `gid`. -/
def whereContiguousBackwardKernel (gid : ℕ) : List (GradBuffer × ℕ × α) :=
  if b.size ≤ gid then []
  else
    (if b.inputGrad then [(.inputGrad, gid, b.outputGrad gid * b.condition gid)] else []) ++
    (if b.otherGrad then [(.otherGrad, gid, b.outputGrad gid * (1 - b.condition gid))] else [])

/-- The writes of a launch `d` of `WhereContiguousBackward`. -/
def whereContiguousBackward (d : Dims) : List (GradBuffer × ℕ × α) :=
  launch d fun t => whereContiguousBackwardKernel b (d.globalX t)

/-- What `WhereConditionBroadcastedContiguousBackward_Kernel` writes at `input_grad[idx]`. -/
def BwdArgs.inputGradAt (idx : ℕ) : α :=
  b.outputGrad (idx % b.size + b.outputGradOff) *
    b.condition (idx % b.conditionSize + b.conditionOff)

/-- What `WhereConditionBroadcastedContiguousBackward_Kernel` writes at `other_grad[idx]`. -/
def BwdArgs.otherGradAt (idx : ℕ) : α :=
  b.outputGrad (idx % b.size + b.outputGradOff) *
    (1 - b.condition (idx % b.conditionSize + b.conditionOff))

theorem whereConditionBroadcastedContiguousBackwardKernel_eq (hcs : 0 < b.conditionSize)
    {gid : ℕ} (h : gid < b.conditionSize) :
    whereConditionBroadcastedContiguousBackwardKernel b gid =
      (if b.inputGrad then (stridedRange gid ⟨b.conditionSize, hcs⟩ b.inputSize).map
        fun idx => (.inputGrad, idx + b.inputGradOff, b.inputGradAt idx) else []) ++
      (if b.otherGrad then (stridedRange gid ⟨b.conditionSize, hcs⟩ b.otherSize).map
        fun idx => (.otherGrad, idx + b.otherGradOff, b.otherGradAt idx) else []) := by
  rw [whereConditionBroadcastedContiguousBackwardKernel, dif_neg (Nat.not_le.2 h)]
  dsimp only
  congr 1 <;> split_ifs <;> try rfl
  all_goals refine map_congr_left fun idx hidx => ?_
  all_goals
    have hm : idx % b.conditionSize = gid % b.conditionSize := mod_of_mem_stridedRange hidx
    simp only [BwdArgs.inputGradAt, BwdArgs.otherGradAt, hm]

/-- With every operand as large as the output and every offset `0`, each thread of the broadcast
backward kernel writes what the same thread of the contiguous one writes. -/
theorem whereBroadcastedContiguousBackward_eq_contiguous (d : Dims)
    (hcond : b.conditionSize = b.size) (hinput : b.inputSize = b.size)
    (hother : b.otherSize = b.size)
    (hoff : b.outputGradOff = 0 ∧ b.conditionOff = 0 ∧ b.inputGradOff = 0 ∧ b.otherGradOff = 0) :
    whereBroadcastedContiguousBackward b d = whereContiguousBackward b d := by
  obtain ⟨h1, h2, h3, h4⟩ := hoff
  refine flatMap_congr fun t _ => ?_
  rw [whereBroadcastedContiguousBackwardKernel, whereContiguousBackwardKernel]
  by_cases hg : b.size ≤ d.globalX t
  · rw [if_pos hg, if_pos hg]
  · have hm : d.globalX t % b.size = d.globalX t := Nat.mod_eq_of_lt (Nat.not_le.1 hg)
    rw [if_neg hg, if_neg hg]
    simp only [hcond, hinput, hother, h1, h2, h3, h4, hm, Nat.add_zero]

theorem flatMap_ite_singleton {β : Type*} (n : ℕ) (c : Bool) (F : ℕ → β) :
    (range n).flatMap (fun x => if c then [F x] else []) = if c then (range n).map F else [] := by
  cases c
  · simp
  · simp [map_eq_flatMap]

/-- Thread `gid < size` of the contiguous kernel writes the gradients of element `gid`: no other
position reads it. -/
theorem whereContiguousBackwardKernel_eq {gid : ℕ} (h : gid < b.size) :
    whereContiguousBackwardKernel b gid =
      (if b.inputGrad then [(.inputGrad, gid,
        whereInputGrad b.outputGrad b.condition b.size b.size b.size gid)] else []) ++
      (if b.otherGrad then [(.otherGrad, gid,
        whereOtherGrad b.outputGrad b.condition b.size b.size b.size gid)] else []) := by
  rw [whereContiguousBackwardKernel, if_neg (Nat.not_le.2 h), whereInputGrad_self _ _ _ h,
    whereOtherGrad_self _ _ _ h, Nat.mod_eq_of_lt h]

/-- Launched with at least `size` threads, the contiguous backward kernel writes every element
`j < size` of each gradient it is given exactly once, with the gradient of `where` there; the
host routine, on descriptors of `size` elements, leaves the same gradients. -/
theorem whereContiguousBackward_perm (d : Dims) (hd : b.size ≤ (d.strideX : ℕ))
    (hdY : d.strideY = 1) (outputGradDesc conditionDesc inputGradDesc otherGradDesc : TensorDesc)
    (hn : outputGradDesc.elementSize = b.size)
    (hcond : checkBroadcastedContiguous conditionDesc = b.size)
    (hinput : checkBroadcastedContiguous inputGradDesc = b.size)
    (hother : checkBroadcastedContiguous otherGradDesc = b.size) (inputGrad otherGrad : ℕ → α) :
    whereContiguousBackward b d ~
      (if b.inputGrad then (range b.size).map (fun j => (.inputGrad, j,
        whereInputGrad b.outputGrad b.condition b.size b.size b.size j)) else []) ++
      (if b.otherGrad then (range b.size).map (fun j => (.otherGrad, j,
        whereOtherGrad b.outputGrad b.condition b.size b.size b.size j)) else []) ∧
    ∀ j < b.size,
      ((mloWhereBackwardRunHost outputGradDesc b.outputGrad conditionDesc b.condition
        inputGradDesc (some inputGrad) otherGradDesc (some otherGrad)).bind Prod.fst).map
          (fun g => g j) =
        some (whereInputGrad b.outputGrad b.condition b.size b.size b.size j) ∧
      ((mloWhereBackwardRunHost outputGradDesc b.outputGrad conditionDesc b.condition
        inputGradDesc (some inputGrad) otherGradDesc (some otherGrad)).bind Prod.snd).map
          (fun g => g j) =
        some (whereOtherGrad b.outputGrad b.condition b.size b.size b.size j) := by
  refine ⟨?_, fun j hj => ?_⟩
  · refine (launch_perm_guarded d hdY hd (whereContiguousBackwardKernel b)
      fun x hx => if_pos hx).trans ?_
    rw [flatMap_congr fun x hx => whereContiguousBackwardKernel_eq b (mem_range.1 hx)]
    refine (flatMap_append_perm _ _ _).symm.trans (Perm.of_eq ?_)
    rw [flatMap_ite_singleton, flatMap_ite_singleton]
  · have hb : 0 < b.size := by omega
    rw [mloWhereBackwardRunHost_eq _ _ _ _ (hcond ▸ hb) (hinput ▸ hb) (hother ▸ hb), hn, hcond,
      hinput, hother, whereInputGrad_self _ _ _ hj, whereOtherGrad_self _ _ _ hj]
    simp only [Option.some_bind, Option.map_some']
    have hlast : ∀ (value grad : ℕ → α), assignLoop b.size value b.size grad j = value j :=
      fun value grad => (assignLoop_last value grad hb dvd_rfl hj).trans (by
        rw [Nat.sub_self, Nat.zero_add])
    exact ⟨congrArg some (hlast _ _), congrArg some (hlast _ _)⟩

end Backward

/-- Two output positions, both reading the one input element (`input_size = 1`) and the
condition elements `1`, with output gradients `1`. -/
def pairBwdArgs : BwdArgs ℤ := ⟨fun _ => 1, fun _ => 1, true, true, 2, 0, 0, 0, 0, 2, 1, 2⟩

/-- Two output positions, with a condition, input gradient and other gradient of two elements
each, all at offset `0`. -/
def contigBwdArgs : BwdArgs ℤ := ⟨fun k => k % 2, fun k => k, true, true, 2, 0, 0, 0, 0, 2, 2, 2⟩

theorem whereBroadcastedContiguousBackward_eq_contiguous_pair :
    contigBwdArgs.conditionSize = contigBwdArgs.size ∧
    contigBwdArgs.inputSize = contigBwdArgs.size ∧ contigBwdArgs.otherSize = contigBwdArgs.size ∧
    (contigBwdArgs.outputGradOff = 0 ∧ contigBwdArgs.conditionOff = 0 ∧
      contigBwdArgs.inputGradOff = 0 ∧ contigBwdArgs.otherGradOff = 0) ∧
    whereBroadcastedContiguousBackward contigBwdArgs oneBlock =
      whereContiguousBackward contigBwdArgs oneBlock :=
  ⟨rfl, rfl, rfl, ⟨rfl, rfl, rfl, rfl⟩, whereBroadcastedContiguousBackward_eq_contiguous
    contigBwdArgs oneBlock rfl rfl rfl ⟨rfl, rfl, rfl, rfl⟩⟩

theorem whereContiguousBackward_perm_pair :
    contigBwdArgs.size ≤ (oneBlock.strideX : ℕ) ∧ oneBlock.strideY = 1 ∧
    TensorDesc.elementSize ⟨[2], [1]⟩ = contigBwdArgs.size ∧
    checkBroadcastedContiguous ⟨[2], [1]⟩ = contigBwdArgs.size ∧
    (whereContiguousBackward contigBwdArgs oneBlock ~
      (if contigBwdArgs.inputGrad then (range 2).map (fun j => (.inputGrad, j,
        whereInputGrad contigBwdArgs.outputGrad contigBwdArgs.condition 2 2 2 j)) else []) ++
      (if contigBwdArgs.otherGrad then (range 2).map (fun j => (.otherGrad, j,
        whereOtherGrad contigBwdArgs.outputGrad contigBwdArgs.condition 2 2 2 j)) else []) ∧
    ∀ j < 2,
      ((mloWhereBackwardRunHost ⟨[2], [1]⟩ contigBwdArgs.outputGrad ⟨[2], [1]⟩
        contigBwdArgs.condition ⟨[2], [1]⟩ (some fun _ => 0) ⟨[2], [1]⟩
          (some fun _ => 0)).bind Prod.fst).map (fun g => g j) =
        some (whereInputGrad contigBwdArgs.outputGrad contigBwdArgs.condition 2 2 2 j) ∧
      ((mloWhereBackwardRunHost ⟨[2], [1]⟩ contigBwdArgs.outputGrad ⟨[2], [1]⟩
        contigBwdArgs.condition ⟨[2], [1]⟩ (some fun _ => 0) ⟨[2], [1]⟩
          (some fun _ => 0)).bind Prod.snd).map (fun g => g j) =
        some (whereOtherGrad contigBwdArgs.outputGrad contigBwdArgs.condition 2 2 2 j)) :=
  ⟨by decide, rfl, by decide, by decide, whereContiguousBackward_perm contigBwdArgs oneBlock
    (by decide) rfl ⟨[2], [1]⟩ ⟨[2], [1]⟩ ⟨[2], [1]⟩ ⟨[2], [1]⟩ (by decide) (by decide) (by decide)
    (by decide) (fun _ => 0) (fun _ => 0)⟩

/-- With `input_size = 1` below `size = 2`, the gradient of the input element is `2`, the sum of
both positions' contributions; the host routine leaves `1` there, and every write either backward
kernel makes there is `1`, whichever thread writes last. -/
theorem whereBackward_inputGrad_ne :
    whereInputGrad pairBwdArgs.outputGrad pairBwdArgs.condition 2 2 1 0 = 2 ∧
    (((mloWhereBackwardRunHost ⟨[2], [1]⟩ pairBwdArgs.outputGrad ⟨[2], [1]⟩
      pairBwdArgs.condition ⟨[1], [1]⟩ (some fun _ => 0) ⟨[2], [1]⟩ (some fun _ => 0)).bind
        Prod.fst).map fun g => g 0) = some 1 ∧
    (∀ v, (GradBuffer.inputGrad, 0, v) ∈ whereBroadcastedContiguousBackward pairBwdArgs oneBlock ↔
      v = 1) ∧
    ∀ v, (GradBuffer.inputGrad, 0, v) ∈
      whereConditionBroadcastedContiguousBackward pairBwdArgs oneBlock ↔ v = 1 := by
  refine ⟨by decide, by decide, fun v => ?_, fun v => ?_⟩
  · rw [whereBroadcastedContiguousBackward, (launch_perm_guarded oneBlock rfl
      (show pairBwdArgs.size ≤ (oneBlock.strideX : ℕ) by decide)
      (whereBroadcastedContiguousBackwardKernel pairBwdArgs) fun x hx => if_pos hx).mem_iff]
    simp [whereBroadcastedContiguousBackwardKernel, pairBwdArgs, range_succ, eq_comm]
  · rw [whereConditionBroadcastedContiguousBackward, (launch_perm_guarded oneBlock rfl
      (show pairBwdArgs.conditionSize ≤ (oneBlock.strideX : ℕ) by decide)
      (whereConditionBroadcastedContiguousBackwardKernel pairBwdArgs)
      fun x hx => dif_pos hx).mem_iff]
    simp [whereConditionBroadcastedContiguousBackwardKernel, pairBwdArgs, range_succ, stridedRange,
      eq_comm]

end MIOpen.Where
