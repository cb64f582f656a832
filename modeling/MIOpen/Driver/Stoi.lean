import MIOpen.Loops

/-!
# `std::stoi`

The drivers read tensor lengths from a command-line flag one comma-separated field at a time,
through `std::stoi`. Built on the C library's `strtol` in base 10, `std::stoi` skips leading white
space (`isspace` in the "C" locale), reads an optional sign and the longest run of decimal digits
after it, and ignores the rest of the field. It throws `std::invalid_argument` when it reads no
digit, and `std::out_of_range` when the value does not fit an `int`; both are a `StoiError`.

Every value `stoi` returns is an `int` (`stoi_range`), and every `int` written in decimal reads
back as itself (`stoi_toString`).
-/

namespace MIOpen.Driver

/-- The exceptions `std::stoi` throws. -/
inductive StoiError
  | invalidArgument
  | outOfRange
deriving DecidableEq, Repr

section Except

variable {ε α β : Type}

/-! A call that throws passes the exception on; one that returns continues with its value. -/

@[simp]
theorem ok_bind (a : α) (f : α → Except ε β) : (Except.ok a >>= f) = f a := rfl

@[simp]
theorem error_bind (e : ε) (f : α → Except ε β) : (Except.error e >>= f) = .error e := rfl

@[simp]
theorem map_ok (f : α → β) (a : α) : (f <$> Except.ok a : Except ε β) = .ok (f a) := rfl

@[simp]
theorem map_error (f : α → β) (e : ε) : (f <$> Except.error e : Except ε β) = .error e := rfl

end Except

/-- `INT_MIN` of a 32-bit `int`. -/
def intMin : ℤ := -2 ^ 31

/-- `INT_MAX` of a 32-bit `int`. -/
def intMax : ℤ := 2 ^ 31 - 1

/-- `isspace` in the "C" locale. -/
def isSpace (c : Char) : Bool :=
  c = ' ' || c = '\t' || c = '\n' || c = '\x0b' || c = '\x0c' || c = '\r'

/-- The value of a run of decimal digits, most significant first. -/
def digitsValue (ds : List Char) : ℕ :=
  ds.foldl (fun acc c => 10 * acc + (c.toNat - '0'.toNat)) 0

/-- The sign `strtol` reads: whether the value is negated, and the characters after the sign. -/
def readSign : List Char → Bool × List Char
  | '-' :: s => (true, s)
  | '+' :: s => (false, s)
  | s => (false, s)

/-- `std::stoi` of a field, in base 10. -/
def stoi (s : List Char) : Except StoiError ℤ :=
  let signed := readSign (s.dropWhile isSpace)
  let ds := signed.2.takeWhile Char.isDigit
  if ds = [] then .error .invalidArgument
  else
    let v : ℤ := if signed.1 then -(digitsValue ds : ℤ) else digitsValue ds
    if v < intMin ∨ intMax < v then .error .outOfRange else .ok v

/-- What `std::stoi` returns fits an `int`. -/
theorem stoi_range {s : List Char} {v : ℤ} (h : stoi s = .ok v) : intMin ≤ v ∧ v ≤ intMax := by
  unfold stoi at h
  dsimp only at h
  split_ifs at h <;> obtain rfl := Except.ok.inj h <;> omega

@[simp]
theorem stoi_nil : stoi [] = .error .invalidArgument := rfl

/-! ## Decimal numerals -/

theorem digitChar_isDigit {d : ℕ} (hd : d < 10) : (Nat.digitChar d).isDigit = true := by
  interval_cases d <;> rfl

theorem digitChar_sub {d : ℕ} (hd : d < 10) : (Nat.digitChar d).toNat - '0'.toNat = d := by
  interval_cases d <;> rfl

/-- `Nat.toDigitsCore` with enough fuel writes the decimal digits of `n > 0` in front of `ds`. -/
theorem toDigitsCore_eq {fuel n : ℕ} (ds : List Char) (hn : 0 < n) (hf : n < fuel) :
    Nat.toDigitsCore 10 fuel n ds = (Nat.digits 10 n).reverse.map Nat.digitChar ++ ds := by
  induction fuel generalizing n ds with
  | zero => omega
  | succ fuel ih =>
    rw [Nat.toDigitsCore, Nat.digits_def' (by norm_num) hn]
    split_ifs with h
    · simp [h]
    · rw [ih _ (Nat.pos_of_ne_zero h) (by omega)]
      simp

theorem toDigits_eq {n : ℕ} (hn : 0 < n) :
    Nat.toDigits 10 n = (Nat.digits 10 n).reverse.map Nat.digitChar :=
  (toDigitsCore_eq [] hn (Nat.lt_succ_self n)).trans (List.append_nil _)

theorem digitsValue_digits (n : ℕ) :
    digitsValue ((Nat.digits 10 n).reverse.map Nat.digitChar) = n := by
  suffices h : ∀ L : List ℕ, (∀ d ∈ L, d < 10) →
      digitsValue (L.reverse.map Nat.digitChar) = Nat.ofDigits 10 L from
    (h _ fun d hd => Nat.digits_lt_base (by norm_num) hd).trans (Nat.ofDigits_digits 10 n)
  intro L hL
  rw [digitsValue, List.foldl_map, List.foldl_reverse]
  induction L with
  | nil => rfl
  | cons d L ih =>
    rw [List.foldr_cons, ih fun e he => hL e (.tail _ he), digitChar_sub (hL d (.head _)),
      Nat.ofDigits_cons, Nat.add_comm]

/-- A numeral of `toDigits`: its characters are digits, and there is at least one. -/
theorem toDigits_isDigit (n : ℕ) :
    Nat.toDigits 10 n ≠ [] ∧ ∀ c ∈ Nat.toDigits 10 n, c.isDigit = true := by
  rcases Nat.eq_zero_or_pos n with rfl | hn
  · decide
  · rw [toDigits_eq hn]
    refine ⟨by simpa using Nat.digits_ne_nil_iff_ne_zero.2 hn.ne', fun c hc => ?_⟩
    obtain ⟨d, hd, rfl⟩ := List.mem_map.1 hc
    exact digitChar_isDigit (Nat.digits_lt_base (by norm_num) (List.mem_reverse.1 hd))

theorem digitsValue_toDigits (n : ℕ) : digitsValue (Nat.toDigits 10 n) = n := by
  rcases Nat.eq_zero_or_pos n with rfl | hn
  · rfl
  · rw [toDigits_eq hn, digitsValue_digits]

theorem isSpace_of_isDigit {c : Char} (h : c.isDigit = true) : isSpace c = false := by
  simp only [isSpace, Bool.or_eq_false_iff, decide_eq_false_iff_not]
  refine ⟨⟨⟨⟨⟨?_, ?_⟩, ?_⟩, ?_⟩, ?_⟩, ?_⟩ <;> rintro rfl <;> revert h <;> decide

theorem readSign_of_isDigit {c : Char} (cs : List Char) (h : c.isDigit = true) :
    readSign (c :: cs) = (false, c :: cs) := by
  have h1 : c ≠ '-' := by rintro rfl; revert h; decide
  have h2 : c ≠ '+' := by rintro rfl; revert h; decide
  unfold readSign
  split <;> simp_all

/-- `std::stoi` of a run of digits, after a minus sign or not, whose value fits an `int`. -/
theorem stoi_digits {ds : List Char} (hne : ds ≠ []) (hdig : ∀ c ∈ ds, c.isDigit = true)
    (neg : Bool) (hv : intMin ≤ if neg then -(digitsValue ds : ℤ) else digitsValue ds)
    (hv' : (if neg then -(digitsValue ds : ℤ) else digitsValue ds) ≤ intMax) :
    stoi ((if neg then ['-'] else []) ++ ds) =
      .ok (if neg then -(digitsValue ds : ℤ) else digitsValue ds) := by
  obtain ⟨c, cs, rfl⟩ := List.exists_cons_of_ne_nil hne
  have hc : c.isDigit = true := hdig c (.head _)
  have hsign : readSign ((if neg then ['-'] else []) ++ c :: cs) = (neg, c :: cs) := by
    cases neg
    · exact readSign_of_isDigit cs hc
    · rfl
  have hspace : ((if neg then ['-'] else []) ++ c :: cs).dropWhile isSpace =
      (if neg then ['-'] else []) ++ c :: cs := by
    cases neg
    · exact List.dropWhile_cons_of_neg (by simp [isSpace_of_isDigit hc])
    · exact List.dropWhile_cons_of_neg (by decide)
  unfold stoi
  dsimp only
  rw [hspace, hsign, List.takeWhile_eq_self_iff.2 hdig, if_neg hne,
    if_neg (not_or.2 ⟨not_lt.2 hv, not_lt.2 hv'⟩)]

/-- Every `int`, written in decimal, reads back as itself. -/
theorem stoi_toString (v : ℤ) (h : intMin ≤ v) (h' : v ≤ intMax) :
    stoi (toString v).toList = .ok v := by
  cases v with
  | ofNat n =>
    obtain ⟨hne, hdig⟩ := toDigits_isDigit n
    have hrt := stoi_digits hne hdig false
    simp only [Bool.false_eq_true, ↓reduceIte, digitsValue_toDigits, List.nil_append] at hrt
    exact hrt h h'
  | negSucc n =>
    obtain ⟨hne, hdig⟩ := toDigits_isDigit (n + 1)
    have hrt := stoi_digits hne hdig true
    simp only [↓reduceIte, digitsValue_toDigits, List.singleton_append, ← Int.negSucc_coe] at hrt
    exact hrt h h'

end MIOpen.Driver
