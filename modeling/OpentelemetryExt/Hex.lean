import OpentelemetryExt.Strto

namespace opentelemetry

/-- `digits[d]` in `Hex::encode`. -/
def hexDigit (d : Nat) : UInt8 := (lit "0123456789abcdef").getD d 0

/-- `Hex::encode` of the bytes `data[0 .. length)`. -/
def Hex.encode (data : Bytes) : Bytes :=
  data.flatMap fun d => [hexDigit (d.toNat >>> 4), hexDigit (d.toNat &&& 0xf)]

/-- `atoul`. The test of `errno` also sees a range error that some earlier
call left behind, which is what `erange` says. -/
def atoul (erange : Bool) (str : Bytes) : Option Nat :=
  let str := c_str str
  if str.length = 0 then none
  else
    let (out, rest) := strtoul 16 str
    if rest ≠ [] ∨ (out = 2 ^ 64 - 1 ∧ erange) then none else some out

/-- The loop of `Hex::decode` over what is left of the string: `substr(i, 2)` each time. -/
def Hex.decodeLoop (erange : Bool) : Bytes → Option Bytes
  | [] => some []
  | [a] => (atoul erange [a]).map fun out => [UInt8.ofNat out]
  | a :: b :: rest => do
    let out ← atoul erange [a, b]
    let segment ← Hex.decodeLoop erange rest
    return UInt8.ofNat out :: segment

/-- `Hex::decode`: the empty vector when any group of characters is rejected. -/
def Hex.decode (erange : Bool) (hex_string : Bytes) : Bytes :=
  if hex_string.length % 2 = 1 then
    match atoul erange (hex_string.take 1), Hex.decodeLoop erange (hex_string.drop 1) with
    | some out, some segment => UInt8.ofNat out :: segment
    | _, _ => []
  else (Hex.decodeLoop erange hex_string).getD []

/-- A hexadecimal digit, of either case. -/
def IsHexDigit (c : UInt8) : Prop := (digit 16 c).isSome

instance : DecidablePred IsHexDigit := fun _ => inferInstanceAs (Decidable (_ = true))

/-- The bytes that pairs of hexadecimal digits denote. -/
def denoted : Bytes → Bytes
  | hi :: lo :: rest => UInt8.ofNat (16 * (digit 16 hi).getD 0 + (digit 16 lo).getD 0) :: denoted rest
  | _ => []

theorem length_denoted {n : Nat} : ∀ {h : Bytes}, h.length = 2 * n → (denoted h).length = n := by
  induction n with
  | zero =>
    intro h hlen
    obtain rfl := List.eq_nil_of_length_eq_zero hlen
    rfl
  | succ n ih =>
    intro h hlen
    obtain ⟨hi, lo, rest, rfl⟩ : ∃ hi lo rest, h = hi :: lo :: rest := by
      match h, hlen with
      | hi :: lo :: rest, _ => exact ⟨hi, lo, rest, rfl⟩
      | [_], hlen => simp at hlen; omega
      | [], hlen => simp at hlen
    simp only [List.length_cons] at hlen
    simp [denoted, ih (h := rest) (by omega)]

theorem atoul_digits {erange : Bool} {hi lo : UInt8} (hhi : IsHexDigit hi) (hlo : IsHexDigit lo) :
    atoul erange [hi, lo] = some (16 * (digit 16 hi).getD 0 + (digit 16 lo).getD 0) := by
  obtain ⟨x, hx⟩ := Option.isSome_iff_exists.mp hhi
  obtain ⟨y, hy⟩ := Option.isSome_iff_exists.mp hlo
  have hchi := (not_isspace_of_digit hi hhi).2.2.2
  have hclo := (not_isspace_of_digit lo hlo).2.2.2
  have hcstr : c_str [hi, lo] = [hi, lo] := by simp [c_str, hchi, hclo]
  have hbound := digit_lt hx
  have hbound' := digit_lt hy
  simp only [atoul, hcstr, strtoul_digits hx hy, hx, hy, Option.getD_some]
  rw [if_neg (by simp), if_neg]
  rintro (hrest | ⟨hmax, -⟩)
  · exact hrest rfl
  · omega

theorem Hex.decodeLoop_digits {erange : Bool} : ∀ {h : Bytes}, h.length % 2 = 0 →
    (∀ c ∈ h, IsHexDigit c) → Hex.decodeLoop erange h = some (denoted h)
  | [], _, _ => rfl
  | [_], hlen, _ => by simp at hlen
  | hi :: lo :: rest, hlen, hdigits => by
    have hrest : Hex.decodeLoop erange rest = some (denoted rest) :=
      Hex.decodeLoop_digits (by simp only [List.length_cons] at hlen; omega) fun c hc =>
        hdigits c (by simp [hc])
    simp [Hex.decodeLoop, denoted, hrest, atoul_digits (hdigits hi (by simp)) (hdigits lo (by simp))]

/-- An even number of digits decodes to the bytes they denote. -/
theorem Hex.decode_digits {erange : Bool} {h : Bytes} (hlen : h.length % 2 = 0)
    (hdigits : ∀ c ∈ h, IsHexDigit c) : Hex.decode erange h = denoted h := by
  rw [Hex.decode, if_neg (by omega), Hex.decodeLoop_digits hlen hdigits, Option.getD_some]

theorem digit_hexDigit (d : UInt8) :
    digit 16 (hexDigit (d.toNat >>> 4)) = some (d.toNat / 16) ∧
      digit 16 (hexDigit (d.toNat &&& 0xf)) = some (d.toNat % 16) := by
  revert d
  exact forall_byte (by decide +kernel)

theorem Hex.encode_cons (d : UInt8) (data : Bytes) : Hex.encode (d :: data) =
    hexDigit (d.toNat >>> 4) :: hexDigit (d.toNat &&& 0xf) :: Hex.encode data := rfl

@[simp]
theorem Hex.length_encode (data : Bytes) : (Hex.encode data).length = 2 * data.length := by
  simp [Hex.encode, List.length_flatMap]
  omega

theorem Hex.encode_digits (data : Bytes) : ∀ c ∈ Hex.encode data, IsHexDigit c := by
  intro c hc
  obtain ⟨d, -, hc⟩ := List.mem_flatMap.mp hc
  rcases List.mem_cons.mp hc with rfl | hc
  · simp [IsHexDigit, (digit_hexDigit d).1]
  · rw [List.mem_singleton.mp hc]
    simp [IsHexDigit, (digit_hexDigit d).2]

theorem denoted_encode (data : Bytes) : denoted (Hex.encode data) = data := by
  induction data with
  | nil => rfl
  | cons d data ih =>
    rw [Hex.encode_cons, denoted, (digit_hexDigit d).1, (digit_hexDigit d).2, ih]
    have hdivmod : 16 * (d.toNat / 16) + d.toNat % 16 = d.toNat := Nat.div_add_mod _ _
    simp [hdivmod]

/-- The encoder's output decodes to its input, whatever `errno` holds. -/
theorem Hex.decode_encode (erange : Bool) (data : Bytes) :
    Hex.decode erange (Hex.encode data) = data := by
  rw [Hex.decode_digits (by simp) (Hex.encode_digits data), denoted_encode]

end opentelemetry
