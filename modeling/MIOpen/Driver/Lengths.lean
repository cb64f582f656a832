import MIOpen.Driver.Stoi

/-!
# Tensor lengths from the command line

`WhereDriver::GetTensorLengthsFromCmdLine` reads a flag's value character by character: a comma
ends the field being read, which, when it is not empty, goes through `std::stoi` and is kept
unless it reads `0`; the last field is read after the loop, and when no length is kept the driver
prints `Error Input Tensor Lengths` and returns `{0}`. `NLLLossDriver::GetInputTensorDimsFromCmd`
cuts its flag's value at every comma with `find` and `substr`, and reads every slice through
`std::stoi`, an empty one included.

Both loops read the fields of the value, its characters cut at every comma (`List.splitOn`):
`getTensorLengthsFromCmdLine_eq` and `getInputTensorDimsFromCmd_eq` say what each computes field
by field. What the Where driver returns is a non-empty list of `int`s, `[0]` or free of zeros,
negative lengths included (`getTensorLengthsFromCmdLine_wellFormed`); both drivers read back
lengths written in decimal and joined by commas (`showLengths_roundTrip`); on a value without
empty fields the Where driver returns the NLLLoss driver's lengths with the zeros dropped, and on
a value with an empty field, a trailing comma included, the NLLLoss driver throws
(`getTensorLengthsFromCmdLine_eq_dims`).
-/

namespace MIOpen.Driver

/-- `true` on every character but the comma. -/
def notComma (c : Char) : Bool := c ≠ ','

/-- The fields of a flag's value: its characters cut at every comma. -/
def fields (s : List Char) : List (List Char) := s.splitOn ','

theorem fields_append_comma {number : List Char} (hn : ',' ∉ number) (s : List Char) :
    fields (number ++ ',' :: s) = number :: fields s :=
  List.splitOnP_first (· == ',') number (fun _ hx h => hn (eq_of_beq h ▸ hx)) ','
    (beq_self_eq_true _) s

theorem fields_of_not_mem {number : List Char} (hn : ',' ∉ number) : fields number = [number] :=
  List.splitOnP_eq_single (· == ',') number fun _ hx h => hn (eq_of_beq h ▸ hx)

/-! ## `WhereDriver::GetTensorLengthsFromCmdLine` -/

/-- `if(!number.empty())`: `std::stoi` of the field `number`, pushed back unless it reads `0`. -/
def pushField (lengths : List ℤ) (number : List Char) : Except StoiError (List ℤ) :=
  if number ≠ [] then do
    let temp ← stoi number
    pure (if temp ≠ 0 then lengths ++ [temp] else lengths)
  else pure lengths

/-- One iteration of the character loop, on the lengths read so far and the field being read: a
comma ends the field (`number.clear()`, a no-op on an empty field), any other character extends
it. -/
def lengthsStep (st : List ℤ × List Char) (ch : Char) : Except StoiError (List ℤ × List Char) :=
  if ch = ',' then do
    let lengths ← pushField st.1 st.2
    pure (lengths, [])
  else pure (st.1, st.2 ++ [ch])

/-- `WhereDriver::GetTensorLengthsFromCmdLine` on the characters of the flag's value. The echo of
the lengths to `std::cout` and the error message are not modelled. -/
def getTensorLengthsFromCmdLine (lengthsString : List Char) : Except StoiError (List ℤ) := do
  let st ← lengthsString.foldlM lengthsStep ([], [])
  let lengths ← pushField st.1 st.2
  pure (if lengths = [] then [0] else lengths)

/-- What the driver reads from the fields `fs`: the non-empty ones through `std::stoi`, with the
zeros dropped. -/
def nonzeroLengths (fs : List (List Char)) : Except StoiError (List ℤ) :=
  (fun vs => vs.filter (· ≠ 0)) <$> (fs.filter (· ≠ [])).mapM stoi

/-- The character loop reads, after the field `number` it has begun, the fields of the rest of
the value one after the other. -/
theorem foldlM_lengthsStep (s : List Char) (lengths : List ℤ) {number : List Char}
    (hn : ',' ∉ number) :
    (s.foldlM lengthsStep (lengths, number) >>= fun st => pushField st.1 st.2) =
      (fields (number ++ s)).foldlM pushField lengths := by
  induction s generalizing lengths number with
  | nil => simp [fields_of_not_mem hn]
  | cons c s ih =>
    rw [List.foldlM_cons, lengthsStep, bind_assoc]
    split_ifs with hc
    · subst hc
      simp only [bind_assoc, pure_bind, fields_append_comma hn, List.foldlM_cons]
      exact bind_congr fun l => ih l (List.not_mem_nil _)
    · rw [pure_bind, ih _ (by simp [hn, Ne.symm hc]), List.append_assoc, List.singleton_append]

theorem foldlM_pushField (fs : List (List Char)) (lengths : List ℤ) :
    fs.foldlM pushField lengths = (lengths ++ ·) <$> nonzeroLengths fs := by
  induction fs generalizing lengths with
  | nil =>
    simp only [List.foldlM_nil, nonzeroLengths, List.filter_nil, List.mapM_nil, map_pure,
      List.append_nil]
  | cons f fs ih =>
    rw [List.foldlM_cons, pushField, nonzeroLengths]
    by_cases hf : f = []
    · rw [if_neg (not_not.2 hf), pure_bind, ih, nonzeroLengths,
        List.filter_cons_of_neg (by simp [hf])]
    · rw [if_pos hf, List.filter_cons_of_pos (by simp [hf]), List.mapM_cons]
      cases stoi f with
      | error e => rfl
      | ok v =>
        simp only [ok_bind, map_ok, pure_bind, ih, nonzeroLengths, bind_pure_comp, Functor.map_map]
        congr 1
        funext vs
        by_cases h0 : v = 0 <;> simp [h0]

/-- The character loop of the Where driver reads the non-empty fields of the value through
`std::stoi` and drops the zeros; it returns `[0]` when no length is left. -/
theorem getTensorLengthsFromCmdLine_eq (s : List Char) :
    getTensorLengthsFromCmdLine s =
      (fun ls => if ls = [] then [0] else ls) <$> nonzeroLengths (fields s) := by
  rw [getTensorLengthsFromCmdLine, ← bind_assoc, foldlM_lengthsStep s [] (List.not_mem_nil _),
    List.nil_append, foldlM_pushField, bind_pure_comp, Functor.map_map]
  rfl

/-- Fields that all read through `std::stoi` are non-empty, and their values are `int`s. -/
theorem mapM_stoi_ok {fs : List (List Char)} {vs : List ℤ} (h : fs.mapM stoi = .ok vs) :
    (∀ f ∈ fs, f ≠ []) ∧ ∀ v ∈ vs, intMin ≤ v ∧ v ≤ intMax := by
  induction fs generalizing vs with
  | nil => exact ⟨by simp, by cases h; simp⟩
  | cons f fs ih =>
    rw [List.mapM_cons] at h
    cases hf : stoi f with
    | error e => rw [hf] at h; cases h
    | ok v =>
      cases hfs : fs.mapM stoi with
      | error e => rw [hf, ok_bind, hfs] at h; cases h
      | ok vs' =>
        rw [hf, ok_bind, hfs, ok_bind] at h
        cases h
        refine ⟨List.forall_mem_cons.2 ⟨fun h0 => ?_, (ih hfs).1⟩,
          List.forall_mem_cons.2 ⟨stoi_range hf, (ih hfs).2⟩⟩
        rw [h0, stoi_nil] at hf
        cases hf

/-- What the Where driver returns is not empty, and it is `[0]` or a list of nonzero `int`s;
negative lengths are returned as read. -/
theorem getTensorLengthsFromCmdLine_wellFormed {s : List Char} {lengths : List ℤ}
    (h : getTensorLengthsFromCmdLine s = .ok lengths) :
    lengths ≠ [] ∧ (lengths = [0] ∨ ∀ v ∈ lengths, v ≠ 0 ∧ intMin ≤ v ∧ v ≤ intMax) := by
  rw [getTensorLengthsFromCmdLine_eq, nonzeroLengths, Functor.map_map] at h
  cases hm : ((fields s).filter (· ≠ [])).mapM stoi with
  | error e => rw [hm] at h; cases h
  | ok vs =>
    rw [hm, map_ok] at h
    cases h
    split_ifs with h0
    · exact ⟨List.cons_ne_nil _ _, .inl rfl⟩
    · refine ⟨h0, .inr fun v hv => ?_⟩
      obtain ⟨hvs, hv0⟩ := List.mem_filter.1 hv
      exact ⟨of_decide_eq_true hv0, (mapM_stoi_ok hm).2 v hvs⟩

/-- `-2,,0,3`: a negative length, an empty field and a zero. -/
theorem getTensorLengthsFromCmdLine_wellFormed_negative :
    getTensorLengthsFromCmdLine "-2,,0,3".toList = .ok [-2, 3] ∧ ([-2, 3] : List ℤ) ≠ [] ∧
      (([-2, 3] : List ℤ) = [0] ∨ ∀ v ∈ ([-2, 3] : List ℤ), v ≠ 0 ∧ intMin ≤ v ∧ v ≤ intMax) :=
  have h : getTensorLengthsFromCmdLine "-2,,0,3".toList = .ok [-2, 3] := rfl
  ⟨h, getTensorLengthsFromCmdLine_wellFormed h⟩

/-! ## `NLLLossDriver::GetInputTensorDimsFromCmd` -/

theorem dropWhile_notComma {rest : List Char} (h : ',' ∈ rest) :
    rest.dropWhile notComma = ',' :: (rest.dropWhile notComma).tail := by
  have hne : rest.dropWhile notComma ≠ [] := fun h0 => by
    simpa [notComma] using List.dropWhile_eq_nil_iff.1 h0 ',' h
  have hhd := List.head_dropWhile_not notComma rest hne
  rw [notComma, decide_eq_false_iff_not, not_not] at hhd
  conv_lhs => rw [← List.head_cons_tail _ hne, hhd]

/-- The loop of `GetInputTensorDimsFromCmd` on the value from `pos` on: while `find(',', pos)`
finds a comma, the slice before it goes through `std::stoi` and is pushed back and `pos` moves
past the comma; the slice after the last comma is read last. -/
def getInputTensorDimsLoop (lengths : List ℤ) (rest : List Char) : Except StoiError (List ℤ) :=
  if _hc : ',' ∈ rest then do
    let len ← stoi (rest.takeWhile notComma)
    getInputTensorDimsLoop (lengths ++ [len]) (rest.dropWhile notComma).tail
  else do
    let len ← stoi rest
    pure (lengths ++ [len])
termination_by rest.length
decreasing_by
  have hlen := congrArg List.length (dropWhile_notComma _hc)
  have := (List.dropWhile_suffix notComma (l := rest)).length_le
  simp only [List.length_cons] at hlen
  omega

/-- `NLLLossDriver::GetInputTensorDimsFromCmd` on the characters of the flag's value. -/
def getInputTensorDimsFromCmd (lengthsStr : List Char) : Except StoiError (List ℤ) :=
  getInputTensorDimsLoop [] lengthsStr

/-- The loop reads every field of the rest of the value through `std::stoi`. -/
theorem getInputTensorDimsLoop_eq (lengths : List ℤ) (rest : List Char) :
    getInputTensorDimsLoop lengths rest = (lengths ++ ·) <$> (fields rest).mapM stoi := by
  induction lengths, rest using getInputTensorDimsLoop.induct with
  | case1 lengths rest h ih =>
    have hsplit : rest = rest.takeWhile notComma ++ ',' :: (rest.dropWhile notComma).tail := by
      rw [← dropWhile_notComma h, List.takeWhile_append_dropWhile]
    have hA : ',' ∉ rest.takeWhile notComma := fun hc => by
      simpa [notComma] using List.mem_takeWhile_imp hc
    rw [getInputTensorDimsLoop, dif_pos h]
    conv_rhs => rw [hsplit, fields_append_comma hA, List.mapM_cons]
    cases stoi (rest.takeWhile notComma) with
    | error e => rfl
    | ok v =>
      simp only [ok_bind, ih, bind_pure_comp, Functor.map_map, List.append_assoc,
        List.singleton_append]
  | case2 lengths rest h =>
    rw [getInputTensorDimsLoop, dif_neg h, fields_of_not_mem h, List.mapM_cons, List.mapM_nil]
    cases stoi rest <;> rfl

/-- The NLLLoss driver reads every field of the value through `std::stoi`, empty ones included. -/
theorem getInputTensorDimsFromCmd_eq (s : List Char) :
    getInputTensorDimsFromCmd s = (fields s).mapM stoi :=
  (getInputTensorDimsLoop_eq [] s).trans (by simp only [List.nil_append, id_map'])

/-! ## The two drivers -/

/-- On a value without empty fields the Where driver returns the NLLLoss driver's lengths with
the zeros dropped, `[0]` when none is left; on a value with an empty field, a trailing comma
included, the NLLLoss driver throws where the Where driver skips the field. -/
theorem getTensorLengthsFromCmdLine_eq_dims (s : List Char) :
    ([] ∉ fields s → getTensorLengthsFromCmdLine s =
      (fun ls => if ls.filter (· ≠ 0) = [] then [0] else ls.filter (· ≠ 0)) <$>
        getInputTensorDimsFromCmd s) ∧
    ([] ∈ fields s → ∀ ls, getInputTensorDimsFromCmd s ≠ .ok ls) := by
  rw [getInputTensorDimsFromCmd_eq]
  refine ⟨fun h => ?_, fun h ls hls => (mapM_stoi_ok hls).1 [] h rfl⟩
  have hfs : (fields s).filter (· ≠ []) = fields s :=
    List.filter_eq_self.2 fun f hf => decide_eq_true fun h0 : f = [] => h (h0 ▸ hf)
  rw [getTensorLengthsFromCmdLine_eq, nonzeroLengths, Functor.map_map, hfs]

/-- Lengths written in decimal and joined by commas. -/
def showLengths (ls : List ℤ) : List Char := [','].intercalate (ls.map fun v => (toString v).toList)

/-- The characters of a decimal `int`: a minus sign or digits, and at least one. -/
theorem toString_chars (v : ℤ) :
    (toString v).toList ≠ [] ∧ ∀ c ∈ (toString v).toList, c = '-' ∨ c.isDigit = true := by
  cases v with
  | ofNat n =>
    obtain ⟨hne, hdig⟩ := toDigits_isDigit n
    exact ⟨hne, fun c hc => .inr (hdig c hc)⟩
  | negSucc n =>
    obtain ⟨-, hdig⟩ := toDigits_isDigit (n + 1)
    refine ⟨List.cons_ne_nil _ _, fun c hc => ?_⟩
    rcases List.mem_cons.1 (show c ∈ '-' :: Nat.toDigits 10 (n + 1) from hc) with rfl | hc
    · exact .inl rfl
    · exact .inr (hdig c hc)

theorem fields_showLengths {ls : List ℤ} (hne : ls ≠ []) :
    fields (showLengths ls) = ls.map fun v => (toString v).toList := by
  refine List.splitOn_intercalate _ ',' (fun l hl hc => ?_) (by simpa using hne)
  obtain ⟨v, -, rfl⟩ := List.mem_map.1 hl
  rcases (toString_chars v).2 ',' hc with h | h <;> revert h <;> decide

theorem mapM_stoi_toString {ls : List ℤ} (hint : ∀ v ∈ ls, intMin ≤ v ∧ v ≤ intMax) :
    (ls.map fun v => (toString v).toList).mapM stoi = .ok ls := by
  induction ls with
  | nil => rfl
  | cons v ls ih =>
    rw [List.map_cons, List.mapM_cons, stoi_toString v (hint v (.head _)).1 (hint v (.head _)).2,
      ok_bind, ih fun w hw => hint w (.tail _ hw)]
    rfl

/-- Both drivers read back lengths written in decimal and joined by commas: the NLLLoss driver
any non-empty list of `int`s, the Where driver one without zeros. -/
theorem showLengths_roundTrip {ls : List ℤ} (hne : ls ≠ [])
    (hint : ∀ v ∈ ls, intMin ≤ v ∧ v ≤ intMax) :
    getInputTensorDimsFromCmd (showLengths ls) = .ok ls ∧
      ((∀ v ∈ ls, v ≠ 0) → getTensorLengthsFromCmdLine (showLengths ls) = .ok ls) := by
  rw [getInputTensorDimsFromCmd_eq, getTensorLengthsFromCmdLine_eq, nonzeroLengths,
    fields_showLengths hne, mapM_stoi_toString hint]
  refine ⟨rfl, fun h0 => ?_⟩
  rw [List.filter_eq_self.2 fun f hf => ?_, mapM_stoi_toString hint, map_ok, map_ok,
    List.filter_eq_self.2 fun v hv => decide_eq_true (h0 v hv), if_neg hne]
  obtain ⟨v, -, rfl⟩ := List.mem_map.1 hf
  exact decide_eq_true (toString_chars v).1

theorem showLengths_roundTrip_pair :
    ([2, -3] : List ℤ) ≠ [] ∧ (∀ v ∈ ([2, -3] : List ℤ), intMin ≤ v ∧ v ≤ intMax) ∧
      getInputTensorDimsFromCmd (showLengths [2, -3]) = .ok [2, -3] ∧
      ((∀ v ∈ ([2, -3] : List ℤ), v ≠ 0) →
        getTensorLengthsFromCmdLine (showLengths [2, -3]) = .ok [2, -3]) :=
  have hint : ∀ v ∈ ([2, -3] : List ℤ), intMin ≤ v ∧ v ≤ intMax := by decide
  ⟨by decide, hint, showLengths_roundTrip (by decide) hint⟩

end MIOpen.Driver
