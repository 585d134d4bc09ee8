import NetlinkHub.Number.Text

/-! # Byte amounts on the wire

`byteAmountSchema` of `data.ts`, and what is later computed with its output. A string of digits survives, and
a number exactly when it is below `10 ^ 21` and has no fewer digits that round to it (`survives_iff`). -/

namespace Sharing

/-! ## The schema -/

/-- A JSON value that is a string or a number. A number is the double that it was read as. -/
inductive Scalar where
  | string (s : List Char)
  | number (d : Double)
  /-- A number too large for a double. -/
  | infinite (negative : Bool)

/-- The amount that is given. -/
def Scalar.amount : Scalar → ℕ
  | .string s => Nat.ofDigitChars 10 s 0
  | .number d => d.natAbs
  | .infinite _ => 0

/-- `byteAmountSchema`: one to twenty digits, or a number that is an integer and not negative. -/
def byteAmountSchema : Scalar → Option (List Char)
  | .string s => if 1 ≤ s.length ∧ s.length ≤ 20 ∧ s.all Char.isDigit then some s else none
  -- Of the negative numbers `nonnegative` lets zero pass.
  | .number d => if d.IsInteger ∧ (d.negative = false ∨ d.natAbs = 0) then some d.toText else none
  | .infinite _ => none

/-! ## What is computed with amounts -/

/-- The comparison of the limits in `createPassRequestSchema`. Nothing where `BigInt` throws, as below. -/
def dailyAboveTotal (totalBytes dailyBytes : Option (List Char)) : Option Bool :=
  match totalBytes, dailyBytes with
  | some total, some daily =>
    if total ≠ [] ∧ daily ≠ [] then do
      let limit ← BigInt.ofText daily
      let all ← BigInt.ofText total
      some (all < limit)
    else some false
  | _, _ => some false

/-- The comparison with the pool in `createPass`. -/
def abovePool (totalBytes : Option (List Char)) (availableBytes : ℤ) : Option Bool :=
  (BigInt.ofText (totalBytes.getD ['0'])).map (availableBytes < ·)

/-- The comparison with what is used in `updateAllocation`. -/
def belowUsed (totalBytes : Option (List Char)) (usedBytes : ℕ) : Option Bool :=
  match totalBytes with
  | some total => if total ≠ [] then (BigInt.ofText total).map (· < (usedBytes : ℤ)) else some false
  | none => some false

/-- The output denotes the amount that was given, and everything computes with that amount. -/
structure Survives (input : Scalar) (output : List Char) : Prop where
  nonempty : output ≠ []
  digits : ∀ c ∈ output, c.isDigit
  denotes : Nat.ofDigitChars 10 output 0 = input.amount
  total : ∀ daily n, daily ≠ [] → BigInt.ofText daily = some n →
    dailyAboveTotal (some output) (some daily) = some (decide ((input.amount : ℤ) < n))
  daily : ∀ total n, total ≠ [] → BigInt.ofText total = some n →
    dailyAboveTotal (some total) (some output) = some (decide (n < (input.amount : ℤ)))
  pool : ∀ available, abovePool (some output) available = some (decide (available < (input.amount : ℤ)))
  used : ∀ used, belowUsed (some output) used = some (decide (input.amount < used))

/-- A string, or a number whose text is its own digits. -/
def Scalar.Plain : Scalar → Prop
  | .string _ => True
  | .number d => d.Plain
  | .infinite _ => False

variable {input : Scalar} {output : List Char}

/-- Digits that denote the amount are what everything computes with. -/
theorem Survives.of_digits (hsome : output ≠ []) (hdigits : ∀ c ∈ output, c.isDigit)
    (hdenotes : Nat.ofDigitChars 10 output 0 = input.amount) : Survives input output := by
  have hread : BigInt.ofText output = some ((input.amount : ℕ) : ℤ) := by
    rw [BigInt.ofText_of_digits hsome hdigits, hdenotes]
    rfl
  refine ⟨hsome, hdigits, hdenotes, fun daily n hdaily hn => ?_, fun total n htotal hn => ?_, fun available => ?_,
    fun used => ?_⟩
  · simp [dailyAboveTotal, hsome, hdaily, hn, hread]
  · simp [dailyAboveTotal, hsome, htotal, hn, hread]
  · simp [abovePool, hread]
  · simp [belowUsed, hsome, hread]

/-- **When an amount survives.** -/
theorem survives_iff (h : byteAmountSchema input = some output) : Survives input output ↔ input.Plain := by
  cases input with
  | string s =>
    simp only [byteAmountSchema] at h
    split at h
    · rename_i hmatch
      obtain rfl := Option.some.inj h
      have hsome : s ≠ [] := List.ne_nil_of_length_pos hmatch.1
      exact iff_of_true (.of_digits hsome (List.all_eq_true.mp hmatch.2.2) rfl) trivial
    · cases h
  | number d =>
    simp only [byteAmountSchema] at h
    split at h
    · rename_i hmatch
      obtain rfl := Option.some.inj h
      rw [Scalar.Plain, ← Double.toText_iff hmatch.1]
      constructor
      · intro hsurvives
        exact ⟨hsurvives.digits, hsurvives.denotes⟩
      · rintro ⟨hdigits, hdenotes⟩
        exact .of_digits (Double.toText_ne_nil d) hdigits hdenotes
    · cases h
  | infinite negative => cases h

/-! ## Three numbers -/

/-- A thousand million. -/
def gigabyte : Double := ⟨false, 8388608000000000, -23, by decide, by decide, .inl (by decide)⟩

/-- `10 ^ 21`. -/
def sextillion : Double := ⟨false, 7629394531250000, 17, by decide, by decide, .inl (by decide)⟩

/-- `2 ^ 54 + 8`. -/
def uneven : Double := ⟨false, 4503599627370498, 2, by decide, by decide, .inl (by decide)⟩

/-- A gigabyte survives. -/
theorem survives_iff_gigabyte : byteAmountSchema (.number gigabyte) = some "1000000000".toList ∧
    Survives (.number gigabyte) "1000000000".toList := by
  have htext : byteAmountSchema (.number gigabyte) = some "1000000000".toList := by decide +kernel
  exact ⟨htext, (survives_iff htext).mpr (Double.plain_of_exponent_le (by decide) (by decide))⟩

/-- **Two amounts that do not survive**: one is no longer digits, and `BigInt` throws; the other has become
another amount. -/
theorem sextillion_lost :
    byteAmountSchema (.number sextillion) = some "1e+21".toList ∧
      abovePool (some "1e+21".toList) 0 = none ∧
      byteAmountSchema (.number uneven) = some "18014398509481990".toList ∧
      uneven.natAbs = 18014398509481992 ∧
      ¬ ∀ input output, byteAmountSchema input = some output → Survives input output := by
  have htext : byteAmountSchema (.number sextillion) = some "1e+21".toList := by decide +kernel
  refine ⟨htext, by decide, by decide +kernel, by decide, fun h => ?_⟩
  exact absurd ((h _ _ htext).digits 'e' (by decide)) (by decide)

end Sharing
