import OpentelemetryExt.Cpp

namespace opentelemetry

/-- `isspace` in the C locale. -/
def isspace (c : UInt8) : Bool := c == 32 || (9 ≤ c && c ≤ 13)

/-- `tolower` in the C locale. -/
def tolower (c : UInt8) : UInt8 := if 65 ≤ c ∧ c ≤ 90 then c + 32 else c

/-- The value of a character as a digit of `base`, if it is one. -/
def digit (base : Nat) (c : UInt8) : Option Nat :=
  if 48 ≤ c ∧ c ≤ 57 ∧ c.toNat - 48 < base then some (c.toNat - 48)
  else if 65 ≤ c ∧ c ≤ 90 ∧ c.toNat - 55 < base then some (c.toNat - 55)
  else if 97 ≤ c ∧ c ≤ 122 ∧ c.toNat - 87 < base then some (c.toNat - 87)
  else none

/-- The longest run of digits at the front of a string: its value, and what follows it. -/
def digits (base : Nat) : Nat → Bytes → Nat × Bytes
  | value, [] => (value, [])
  | value, c :: rest =>
    match digit base c with
    | some d => digits base (value * base + d) rest
    | none => (value, c :: rest)

def sign : Bytes → Bool × Bytes
  | 43 :: rest => (false, rest)
  | 45 :: rest => (true, rest)
  | s => (false, s)

/-- In base 16 a leading `0x` is skipped, provided that a digit follows it. -/
def skipRadix (base : Nat) : Bytes → Bytes
  | 48 :: x :: c :: rest =>
    if base = 16 ∧ (x = 120 ∨ x = 88) ∧ (digit 16 c).isSome then c :: rest
    else 48 :: x :: c :: rest
  | s => s

structure Number where
  negative : Bool
  magnitude : Nat
  rest : Bytes
deriving DecidableEq, Repr

/-- What the `strto` family recognises at the front of a string: blanks, a sign
and at least one digit. `none` when there is no such text. -/
def scan (base : Nat) (s : Bytes) : Option Number :=
  let signed := sign (s.dropWhile isspace)
  match skipRadix base signed.2 with
  | [] => none
  | c :: rest =>
    if (digit base c).isSome then
      let run := digits base 0 (c :: rest)
      some ⟨signed.1, run.1, run.2⟩
    else none

/-- `strtoul` on a NUL-terminated string: the value and the text from `end_ptr` on. A
minus sign negates in the unsigned type. -/
def strtoul (base : Nat) (s : Bytes) : Nat × Bytes :=
  match scan base s with
  | none => (0, s)
  | some n =>
    if 2 ^ 64 ≤ n.magnitude then (2 ^ 64 - 1, n.rest)
    else if n.negative then ((2 ^ 64 - n.magnitude) % 2 ^ 64, n.rest)
    else (n.magnitude, n.rest)

def Number.value (n : Number) : Int := if n.negative then -n.magnitude else n.magnitude

/-- `strtol` with a null `end_ptr`; values outside `long` are clamped. -/
def strtol (base : Nat) (s : Bytes) : Int :=
  match scan base s with
  | none => 0
  | some n => max (-2 ^ 63) (min (2 ^ 63 - 1) n.value)

/-- `std::stoll` throws `invalid_argument` without a conversion and
`out_of_range` outside `long long`. -/
def stoll (s : Bytes) : Except Fault Int :=
  match scan 10 s with
  | none => .error .exception
  | some n =>
    if -2 ^ 63 ≤ n.value ∧ n.value < 2 ^ 63 then .ok n.value else .error .exception

/-- The texts `std::stoll` converts. -/
def IsLongLong (s : Bytes) : Prop := ∃ n, scan 10 s = some n ∧ -2 ^ 63 ≤ n.value ∧ n.value < 2 ^ 63

instance (s : Bytes) : Decidable (IsLongLong s) :=
  match h : scan 10 s with
  | none => .isFalse (by simp [IsLongLong, h])
  | some n => decidable_of_iff (-2 ^ 63 ≤ n.value ∧ n.value < 2 ^ 63) (by simp [IsLongLong, h])

theorem stoll_isOk_iff (s : Bytes) : (∃ v, stoll s = .ok v) ↔ IsLongLong s := by
  unfold stoll IsLongLong
  cases scan 10 s with
  | none => simp
  | some n =>
    dsimp only
    split <;> simp_all

theorem digit_lt {base d : Nat} {c : UInt8} (h : digit base c = some d) : d < base := by
  unfold digit at h
  split at h
  · simp only [Option.some.injEq] at h; omega
  split at h
  · simp only [Option.some.injEq] at h; omega
  split at h
  · simp only [Option.some.injEq] at h; omega
  simp at h

theorem forall_byte {p : UInt8 → Prop} (h : ∀ n < 256, p (UInt8.ofNat n)) (c : UInt8) : p c := by
  simpa using h c.toNat c.toNat_lt

/-- A digit is neither a blank, a sign nor the NUL. -/
theorem not_isspace_of_digit (c : UInt8) : (digit 16 c).isSome →
    isspace c = false ∧ c ≠ 43 ∧ c ≠ 45 ∧ c ≠ 0 := by
  revert c
  exact forall_byte (by decide +kernel)

/-- A string of hexadecimal digits is scanned to its end. -/
theorem strtoul_digits {c d : UInt8} {hi lo : Nat} (hhi : digit 16 c = some hi)
    (hlo : digit 16 d = some lo) : strtoul 16 [c, d] = (16 * hi + lo, []) := by
  have hc := not_isspace_of_digit c (by simp [hhi])
  have hhi' := digit_lt hhi
  have hlo' := digit_lt hlo
  have hsign : sign [c, d] = (false, [c, d]) := by
    unfold sign
    split <;> simp_all
  have hscan : scan 16 [c, d] = some ⟨false, 16 * hi + lo, []⟩ := by
    have hblank : List.dropWhile isspace [c, d] = [c, d] := by simp [hc.1]
    have hradix : skipRadix 16 [c, d] = [c, d] := by
      unfold skipRadix
      split <;> simp_all
    simp [scan, hblank, hsign, hradix, hhi, digits, hlo, Nat.mul_comm]
  simp only [strtoul, hscan]
  rw [if_neg (by omega)]
  rfl

end opentelemetry
