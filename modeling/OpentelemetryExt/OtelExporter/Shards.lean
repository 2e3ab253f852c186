import OpentelemetryExt.Cpp
import OpentelemetryExt.Lib.Rounding

open rounding

namespace opentelemetry

namespace OtelExporter

/-- The largest datagram the exporter sends. -/
def maxUdpSize : Nat := 60000

/-- `ceil((float) dataSize / (float) maxUdpSize)`: both operands and the
quotient are binary32 values. -/
def shards (dataSize : Nat) : Nat :=
  ⌈toFloat 24 (toFloat 24 (dataSize : ℚ) / toFloat 24 (maxUdpSize : ℚ))⌉₊

/-- `data.substr(i * maxUdpSize, maxUdpSize)`. -/
def chunk (data : Bytes) (i : Nat) : Except Fault Bytes := do
  let pos ← intMul i maxUdpSize
  substr data pos maxUdpSize

/-- `static_cast<int>(data.size())`. -/
def dataSize (data : Bytes) : Int := Int.bmod data.length (2 ^ 32)

/-- The chunks the loop over `i` cuts a large payload into. -/
def chunks (data : Bytes) : Except Fault (List Bytes) :=
  (List.range (shards (dataSize data).toNat)).mapM (chunk data)

/-- The frame around one chunk. -/
def warp (id : Bytes) (shards i : Nat) (data : Bytes) : Bytes :=
  id ++ lit ":" ++ to_string shards ++ lit "," ++ to_string i ++ lit ":end:" ++ data

/-- The datagrams `sendTracerByUDP` hands to `sendto`, in order; every frame of
a large payload is sent twice. -/
def sendTracerByUDP (id : Bytes) (data : Bytes) : Except Fault (List Bytes) :=
  if data = [] then .ok []
  else if dataSize data ≤ maxUdpSize then .ok [data]
  else do
    let parts ← chunks data
    .ok (parts.zipIdx.flatMap fun (part, i) =>
      let frame := warp id (shards (dataSize data).toNat) i part
      [frame, frame])

/-- Converting a positive `int` to `float` rounds it to a multiple of its last
place, which is one below 2^24. -/
theorem toFloat_int {n : Nat} (hpos : 0 < n) :
    toFloat 24 (n : ℚ) =
      ((roundEven ((n : ℚ) / (2 ^ (Nat.log 2 n - 23) : ℕ)) * (2 ^ (Nat.log 2 n - 23) : ℕ) : ℤ) : ℚ) := by
  by_cases hsmall : n < 2 ^ 24
  · have hlog : Nat.log 2 n < 24 := Nat.log_lt_of_lt_pow hpos.ne' hsmall
    have hzero : Nat.log 2 n - 23 = 0 := by omega
    have hint : (n : ℚ) = ((n : ℤ) : ℚ) := by push_cast; rfl
    rw [toFloat_of_lt hpos hsmall, hzero]
    simp only [pow_zero, Nat.cast_one, div_one, mul_one]
    rw [hint, roundEven_intCast]
  · exact toFloat_natCast (by norm_num) (by omega)

theorem toFloat_maxUdpSize : toFloat 24 (maxUdpSize : ℚ) = maxUdpSize :=
  toFloat_of_lt (by decide) (by decide)

/-- The quotient does not pass the integer `j` exactly when the rounded size
stays within half a last place of `j` of the multiple `60000 * j`. -/
theorem shards_le_iff {n j : Nat} (hpos : 0 < n) (hj : 0 < j) (hsmall : j < 2 ^ 23) :
    shards n ≤ j ↔
      roundEven ((n : ℚ) / (2 ^ (Nat.log 2 n - 23) : ℕ)) * (2 ^ (Nat.log 2 n - 23) : ℕ) * 2 ^ 24 ≤
        60000 * ((j : ℤ) * 2 ^ 24 + 2 ^ Nat.log 2 j) := by
  have hlog : Nat.log 2 j < 23 := Nat.log_lt_of_lt_pow hj.ne' hsmall
  have hlow : 2 ^ Nat.log 2 j ≤ j := Nat.pow_log_le_self 2 hj.ne'
  have hhigh : j < 2 ^ (Nat.log 2 j + 1) := Nat.lt_pow_succ_log_self (by norm_num) j
  obtain ⟨d, hd⟩ : ∃ d, Nat.log 2 j + (d + 1) = 23 := ⟨22 - Nat.log 2 j, by omega⟩
  set size : ℤ := roundEven ((n : ℚ) / (2 ^ (Nat.log 2 n - 23) : ℕ)) * (2 ^ (Nat.log 2 n - 23) : ℕ)
    with hsize
  have hsizePos : 0 < size := by
    have hunit : 0 < 2 ^ (Nat.log 2 n - 23) := by positivity
    have hle : 2 ^ (Nat.log 2 n - 23) ≤ n :=
      (Nat.pow_le_pow_right (by norm_num) (by omega)).trans (Nat.pow_log_le_self 2 hpos.ne')
    have hone : ((1 : ℤ) : ℚ) ≤ (n : ℚ) / (2 ^ (Nat.log 2 n - 23) : ℕ) := by
      rw [le_div_iff₀ (by exact_mod_cast hunit)]
      push_cast
      rw [one_mul]
      exact_mod_cast hle
    have := le_roundEven hone
    positivity
  have hquot : (0 : ℚ) < (size : ℚ) / 60000 := by
    have : (0 : ℚ) < size := by exact_mod_cast hsizePos
    positivity
  -- The bound `j` as a normalized significand with its exponent.
  have hbound : ((j : ℕ) : ℚ) = ((j * 2 ^ (d + 1) : ℤ) : ℚ) * 2 ^ (-((d : ℤ) + 1)) := by
    rw [zpow_neg, ← Nat.cast_add_one, zpow_natCast]
    push_cast
    field_simp
  have heven : Even ((j : ℤ) * 2 ^ (d + 1)) := by
    rw [pow_succ, ← mul_assoc]
    exact even_two.mul_left _
  have hmlow : (2 : ℤ) ^ (24 - 1) ≤ j * 2 ^ (d + 1) := by
    have : 2 ^ 23 ≤ j * 2 ^ (d + 1) := by
      calc 2 ^ 23 = 2 ^ Nat.log 2 j * 2 ^ (d + 1) := by rw [← pow_add, hd]
        _ ≤ j * 2 ^ (d + 1) := Nat.mul_le_mul_right _ hlow
    exact_mod_cast this
  have hmhigh : (j : ℤ) * 2 ^ (d + 1) < 2 ^ 24 := by
    have : j * 2 ^ (d + 1) < 2 ^ 24 := by
      calc j * 2 ^ (d + 1) < 2 ^ (Nat.log 2 j + 1) * 2 ^ (d + 1) :=
            Nat.mul_lt_mul_of_pos_right hhigh (by positivity)
        _ = 2 ^ 24 := by rw [← pow_add]; congr 1; omega
    exact_mod_cast this
  have hhalf : (((j * 2 ^ (d + 1) : ℤ) : ℚ) + 1 / 2) * 2 ^ (-((d : ℤ) + 1)) * 60000 * 2 ^ 24 =
      60000 * ((j : ℚ) * 2 ^ 24 + 2 ^ Nat.log 2 j) := by
    have hpow : (2 : ℚ) ^ 24 = 2 ^ Nat.log 2 j * 2 ^ (d + 1) * 2 := by
      rw [← pow_add, hd]
      norm_num
    rw [zpow_neg, ← Nat.cast_add_one, zpow_natCast, hpow]
    push_cast
    field_simp
  unfold shards
  rw [Nat.ceil_le, toFloat_int hpos, toFloat_maxUdpSize, ← hsize, hbound,
    show ((maxUdpSize : ℕ) : ℚ) = 60000 by norm_num [maxUdpSize],
    toFloat_le_iff (by norm_num) hquot _ hmlow hmhigh]
  have hscale : (0 : ℚ) < 2 ^ 24 := by norm_num
  simp only [heven, and_true, ← le_iff_lt_or_eq]
  rw [div_le_iff₀ (by norm_num), ← mul_le_mul_iff_left₀ hscale, hhalf]
  constructor <;> intro h <;> exact_mod_cast h

/-- The size lies far enough above the last multiple of 60000 below it for the
rounded quotient to pass that multiple. `u` is the exponent of the last place
the size is rounded to and `g` the largest rounded size, counted in such last
places, whose quotient still rounds down to the multiple. -/
def ClearOfMultiple (n : Nat) : Prop :=
  let k := (n - 1) / maxUdpSize
  let u := Nat.log 2 n - 23
  let g := maxUdpSize * (k * 2 ^ 24 + 2 ^ Nat.log 2 k) / 2 ^ (24 + u)
  (2 * g + 1) * 2 ^ u < 2 * n ∨ ((2 * g + 1) * 2 ^ u = 2 * n ∧ ¬ Even g)

instance (n : Nat) : Decidable (ClearOfMultiple n) := by
  unfold ClearOfMultiple
  infer_instance

/-- Rounding to a multiple of `2 ^ u`, as a comparison of integers. -/
theorem roundEven_div_le_iff (n u : Nat) (g : ℤ) :
    roundEven ((n : ℚ) / (2 ^ u : ℕ)) ≤ g ↔
      2 * (n : ℤ) < (2 * g + 1) * 2 ^ u ∨ (2 * (n : ℤ) = (2 * g + 1) * 2 ^ u ∧ Even g) := by
  have hunit : (0 : ℚ) < (2 ^ u : ℕ) := by positivity
  rw [roundEven_le_iff, div_lt_iff₀ hunit, div_eq_iff hunit.ne']
  have hlt : ((n : ℚ) < (g + 1 / 2) * (2 ^ u : ℕ)) ↔ 2 * (n : ℤ) < (2 * g + 1) * 2 ^ u := by
    rw [← @Int.cast_lt ℚ]
    push_cast
    constructor <;> intro h <;> linarith
  have heq : ((n : ℚ) = (g + 1 / 2) * (2 ^ u : ℕ)) ↔ 2 * (n : ℤ) = (2 * g + 1) * 2 ^ u := by
    rw [← @Int.cast_inj ℚ]
    push_cast
    constructor <;> intro h <;> linarith
  rw [hlt, heq]

theorem shards_le_multiple_iff {n : Nat} (hlarge : maxUdpSize < n) (hint : n < 2 ^ 31) :
    shards n ≤ (n - 1) / maxUdpSize ↔ ¬ ClearOfMultiple n := by
  have hk : 0 < (n - 1) / maxUdpSize := Nat.div_pos (by omega) (by decide)
  have hsmall : (n - 1) / maxUdpSize < 2 ^ 23 := by
    simp only [maxUdpSize]
    omega
  rw [shards_le_iff (by omega) hk hsmall]
  simp only [ClearOfMultiple]
  generalize (n - 1) / maxUdpSize = k
  generalize Nat.log 2 n - 23 = u
  generalize hx : maxUdpSize * (k * 2 ^ 24 + 2 ^ Nat.log 2 k) = x
  have hcast : (60000 * ((k : ℤ) * 2 ^ 24 + 2 ^ Nat.log 2 k)) = (x : ℤ) := by
    rw [← hx]
    push_cast [maxUdpSize]
    rfl
  have hdiv : roundEven ((n : ℚ) / (2 ^ u : ℕ)) * (2 ^ u : ℕ) * 2 ^ 24 ≤ (x : ℤ) ↔
      roundEven ((n : ℚ) / (2 ^ u : ℕ)) ≤ ((x / 2 ^ (24 + u) : ℕ) : ℤ) := by
    have hpow : ((2 ^ u : ℕ) : ℤ) * 2 ^ 24 = 2 ^ (24 + u) := by
      rw [Nat.cast_pow, Nat.cast_ofNat, pow_add, mul_comm]
    have hquot : ((x / 2 ^ (24 + u) : ℕ) : ℤ) = (x : ℤ) / 2 ^ (24 + u) := by push_cast; rfl
    rw [mul_assoc, hpow, hquot, Int.le_ediv_iff_mul_le (by positivity)]
  rw [hcast, hdiv, roundEven_div_le_iff]
  generalize x / 2 ^ (24 + u) = g
  have heven : Even (g : ℤ) ↔ Even g := by exact_mod_cast Iff.rfl
  have hmul : ((2 * (g : ℤ) + 1) * 2 ^ u) = (((2 * g + 1) * 2 ^ u : ℕ) : ℤ) := by push_cast; rfl
  rw [heven, hmul]
  generalize (2 * g + 1) * 2 ^ u = y
  by_cases hg : Even g
  · simp only [hg, not_true, and_true, and_false, or_false]
    omega
  · simp only [hg, not_false_iff, and_true, and_false, or_false]
    omega

/-- No more shards than the payload needs, even where the size was rounded up. -/
theorem shards_le_succ {n : Nat} (hlarge : maxUdpSize < n) (hint : n < 2 ^ 31) :
    shards n ≤ n / maxUdpSize + 1 := by
  have hmul : n < 60000 * (n / maxUdpSize + 1) := Nat.lt_mul_div_succ n (by decide)
  have hsmall : n / maxUdpSize + 1 < 2 ^ 23 := by
    simp only [maxUdpSize]
    omega
  have hlogn : Nat.log 2 n < 31 := Nat.log_lt_of_lt_pow (by omega) hint
  rw [shards_le_iff (by omega) (by omega) hsmall]
  generalize hj : n / maxUdpSize + 1 = j at hmul
  have hjlog : 17896 ≤ j → 14 ≤ Nat.log 2 j := fun h =>
    Nat.le_log_of_pow_le (by norm_num) (by omega)
  have hlow : 2 ^ Nat.log 2 n ≤ n := Nat.pow_log_le_self 2 (by omega)
  -- Rounding moves the size by at most half a last place.
  generalize hr : roundEven ((n : ℚ) / (2 ^ (Nat.log 2 n - 23) : ℕ)) = r
  have hnear : (2 * r - 1) * 2 ^ (Nat.log 2 n - 23) ≤ 2 * (n : ℤ) := by
    have h := (roundEven_div_le_iff n (Nat.log 2 n - 23) (r - 1)).not.mp (by omega)
    have hshift : 2 * (r - 1) + 1 = 2 * r - 1 := by ring
    rw [hshift] at h
    omega
  have hpow : (1 : ℤ) ≤ 2 ^ Nat.log 2 j := one_le_pow₀ (by norm_num)
  obtain ⟨u, hu⟩ : ∃ u, Nat.log 2 n - 23 = u := ⟨_, rfl⟩
  have hcases : u ≤ 7 := by omega
  rw [hu] at hnear ⊢
  -- A multiple of 60000 is a multiple of 32, so only the two coarsest binades leave slack.
  by_cases hfine : u ≤ 6
  · have : r * ((2 ^ u : ℕ) : ℤ) ≤ 60000 * j := by
      interval_cases u <;> norm_num at hnear ⊢ <;> omega
    nlinarith
  · have heq : u = 7 := by omega
    subst heq
    have hbig : 17896 ≤ j := by
      have hlog : Nat.log 2 n = 30 := by omega
      rw [hlog] at hlow
      omega
    have hpow14 : (2 : ℤ) ^ 14 ≤ 2 ^ Nat.log 2 j := pow_le_pow_right₀ (by norm_num) (hjlog hbig)
    have : r * ((2 ^ 7 : ℕ) : ℤ) ≤ 60000 * j + 32 := by
      norm_num at hnear ⊢
      omega
    nlinarith

theorem dataSize_of_lt {data : Bytes} (hint : data.length < 2 ^ 31) :
    dataSize data = data.length := by
  unfold dataSize
  apply Int.bmod_eq_of_le <;> omega

theorem dataSize_lt (data : Bytes) : (dataSize data).toNat < 2 ^ 31 := by
  have h := @Int.bmod_lt data.length (2 ^ 32) (by norm_num)
  unfold dataSize
  omega

/-- An `int` that is positive stays below the length it was cut from. -/
theorem dataSize_le (data : Bytes) : (dataSize data).toNat ≤ data.length := by
  have hlt := dataSize_lt data
  by_cases hint : data.length < 2 ^ 31
  · rw [dataSize_of_lt hint]
    omega
  · omega

/-- Every position handed to `substr` is inside the payload and every product
fits an `int`, so the loop cuts one chunk for every index. -/
theorem chunks_eq {data : Bytes} (hlarge : maxUdpSize < dataSize data) :
    chunks data = .ok ((List.range (shards (dataSize data).toNat)).map fun i =>
      (data.drop (i * maxUdpSize)).take maxUdpSize) := by
  have hint := dataSize_lt data
  have hsize := dataSize_le data
  apply mapM_eq_ok
  intro i hi
  have hcount := shards_le_succ (n := (dataSize data).toNat) (by omega) hint
  have hle : i ≤ (dataSize data).toNat / maxUdpSize := by
    have := List.mem_range.mp hi
    omega
  have hpos : i * maxUdpSize ≤ (dataSize data).toNat :=
    (Nat.mul_le_mul_right _ hle).trans (Nat.div_mul_le_self _ _)
  simp only [chunk, intMul, substr, ok_bind, if_pos (hpos.trans hsize),
    if_pos (lt_of_le_of_lt hpos hint)]

/-- Consecutive chunks join to a prefix of the payload. -/
theorem flatten_chunks (data : Bytes) (s k : Nat) :
    ((List.range s).map fun i => (data.drop (i * k)).take k).flatten = data.take (s * k) := by
  induction s with
  | zero => simp
  | succ s ih =>
    rw [List.range_succ, List.map_append, List.flatten_append, ih, Nat.succ_mul, List.take_add]
    simp

/-- What the sender owes its receiver: the loop stays in defined behaviour,
no chunk exceeds a datagram, and the chunks join to the payload. -/
def Reassembles (data : Bytes) : Prop :=
  ∃ parts, chunks data = .ok parts ∧ (∀ part ∈ parts, part.length ≤ maxUdpSize) ∧
    parts.flatten = data

/-- Only a missing last shard can lose data. -/
theorem reassembles_iff_shards {data : Bytes} (hlarge : maxUdpSize < data.length)
    (hint : data.length < 2 ^ 31) :
    Reassembles data ↔ data.length ≤ shards data.length * maxUdpSize := by
  have hsize := dataSize_of_lt hint
  unfold Reassembles
  rw [chunks_eq (by omega), hsize, Int.toNat_natCast]
  simp only [Except.ok.injEq, exists_eq_left', flatten_chunks, List.take_eq_self_iff]
  constructor
  · exact fun h => h.2
  · intro h
    refine ⟨?_, h⟩
    intro part hpart
    obtain ⟨i, _, rfl⟩ := List.mem_map.mp hpart
    exact List.length_take_le _ _

/-- Sharding by a single-precision quotient loses nothing exactly when the
payload ends clear of the last multiple of the datagram size. -/
theorem reassembles_iff_clear {data : Bytes} (hlarge : maxUdpSize < data.length)
    (hint : data.length < 2 ^ 31) :
    Reassembles data ↔ ClearOfMultiple data.length := by
  rw [reassembles_iff_shards hlarge hint, ← not_iff_not, ← shards_le_multiple_iff hlarge hint,
    not_le]
  generalize shards data.length = s
  simp only [maxUdpSize] at hlarge ⊢
  omega

/-- A payload one byte above a datagram is cut into two chunks. -/
theorem reassembles_smallest : Reassembles (List.replicate 60001 0) :=
  (reassembles_iff_clear (by rw [List.length_replicate]; decide)
    (by rw [List.length_replicate]; decide)).mpr (by rw [List.length_replicate]; decide)

/-- One byte above 280 datagrams, the size rounds down to a multiple of the
datagram size and the last byte is not sent. -/
private theorem last_byte_lost {data : Bytes} (hlength : data.length = 16800001) :
    ¬ Reassembles data := by
  have hlarge : maxUdpSize < data.length := by
    rw [hlength]
    decide
  have hint : data.length < 2 ^ 31 := by
    rw [hlength]
    decide
  have hclear : ¬ ClearOfMultiple 16800001 := by decide
  have hle := (shards_le_multiple_iff (n := 16800001) (by decide) (by decide)).mpr hclear
  rw [reassembles_iff_shards hlarge hint, hlength, not_le]
  generalize shards 16800001 = s at hle ⊢
  simp only [maxUdpSize] at hle ⊢
  omega

theorem not_reassembles_one_above : ¬ Reassembles (List.replicate 16800001 0) :=
  last_byte_lost List.length_replicate

end OtelExporter

end opentelemetry
