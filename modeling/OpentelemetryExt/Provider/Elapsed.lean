import OpentelemetryExt.Provider.TraceParent

open heap stateful rounding

namespace opentelemetry

/-- Below `2 ^ 53` nanoseconds the arithmetic of doubles does not show. -/
theorem toMilliseconds_of_lt {n : UInt64} (h : n.toNat < 2 ^ 53) :
    toMilliseconds n = n.toNat / 1000000 := by
  have hexact : toFloat 53 (n.toNat : ℚ) = n.toNat := by
    rcases Nat.eq_zero_or_pos n.toNat with hzero | hpos
    · rw [hzero, Nat.cast_zero, toFloat_zero]
    · exact toFloat_of_lt hpos h
  have hfloor := floor_toFloat_div (p := 53) (d := 1000000) (by omega) (by omega) h
  rw [toMilliseconds, hexact]
  exact_mod_cast hfloor

/-- A difference that has wrapped around is longer than any setting. -/
theorem toMilliseconds_of_wrapped {n : UInt64} (h : 2 ^ 63 ≤ n.toNat) :
    2 ^ 31 ≤ toMilliseconds n := by
  have hn : (2 : ℚ) ^ 63 ≤ n.toNat := by exact_mod_cast h
  have hfirst := half_le_toFloat (p := 53) (by omega) (x := n.toNat) (by linarith)
  have hsecond := half_le_toFloat (p := 53) (by omega)
    (x := toFloat 53 n.toNat / 1000000) (by linarith)
  rw [toMilliseconds, Nat.le_floor_iff (by linarith)]
  push_cast
  linarith

/-- Modulo `2 ^ 64` an elapsed time is what it is, and a time that lies ahead is a wrapped one. -/
theorem sub_toNat_cases {now start : UInt64} (hnow : now.toNat < 2 ^ 63)
    (hstart : start.toNat < 2 ^ 63) :
    (start.toNat ≤ now.toNat ∧ (now - start).toNat = now.toNat - start.toNat) ∨
      (now.toNat < start.toNat ∧ 2 ^ 63 ≤ (now - start).toNat) := by
  have hsub : (now - start).toNat = (2 ^ 64 - start.toNat + now.toNat) % 2 ^ 64 :=
    UInt64.toNat_sub now start
  omega

variable {φ : Type} {eng : Engine φ} {w : World φ} {f : Nat} {first : Span}

theorem isSampled_of_flag (h : sampledFlag eng w = true) :
    Provider.isSampled eng w = .ok (true, w) := by
  cases hp : w.globals.provider with
  | none =>
    rw [sampledFlag, hp] at h
    cases h
  | some p =>
    rw [sampledFlag, hp, Option.map_some, Option.getD_some] at h
    simp only [Provider.isSampled, bind_apply, slot_of_some hp, ok_bind, h, if_true, pure_apply]

/-- What `isSampled` answers when the flag is clear. -/
theorem isSampled_of_clear (hfirst : HasFirst eng w f first) (hclear : sampledFlag eng w = false) :
    Provider.isSampled eng w = .ok (decide ((w.globals.max_time_consuming % 2 ^ 64).toNat ≤
      toMilliseconds (w.clock 0 - first.start_time_unix_nano)),
        { w with clock := fun n => w.clock (n + 1) }) := by
  obtain ⟨p, hp, hspan, hcell⟩ := hfirst
  have hflag : (p.slots (w.key eng)).is_sampled = false := by
    rw [sampledFlag, hp] at hclear
    exact hclear
  simp only [Provider.isSampled, bind_apply, slot_of_some hp, ok_bind, hflag, Bool.false_eq_true,
    if_false, hspan, deref_some, lift_ok, readSpan_of_some hcell]
  rfl

/-- A request is sampled when its flag is up, or it has taken too long. -/
theorem isSampled_iff {sampled : Bool} {w' : World φ} (hfirst : HasFirst eng w f first)
    (h : Provider.isSampled eng w = .ok (sampled, w')) : sampled = true ↔ sampledFlag eng w = true ∨
      (w.globals.max_time_consuming % 2 ^ 64).toNat ≤
        toMilliseconds (w.clock 0 - first.start_time_unix_nano) := by
  cases hflag : sampledFlag eng w with
  | true =>
    rw [isSampled_of_flag hflag, Except.ok.injEq, Prod.mk.injEq] at h
    obtain ⟨rfl, -⟩ := h
    simp
  | false =>
    rw [isSampled_of_clear hfirst hflag, Except.ok.injEq, Prod.mk.injEq] at h
    obtain ⟨rfl, -⟩ := h
    simp

/-- `isSampled` is true if and only if the limit has passed since the start of the first span. -/
def FollowsTime (eng : Engine φ) (w : World φ) (first : Span) : Prop :=
  ∃ sampled w', Provider.isSampled eng w = .ok (sampled, w') ∧ (sampled = true ↔
    first.start_time_unix_nano.toNat + w.globals.max_time_consuming.toNat * 1000000 ≤
      (w.clock 0).toNat)

/-- The decision about a slow request is right exactly while the clock is not behind the start of
the span: a clock that was set back makes every request a slow one. -/
theorem followsTime_iff (hfirst : HasFirst eng w f first) (hclear : sampledFlag eng w = false)
    (hstart : first.start_time_unix_nano.toNat < 2 ^ 63) (hnow : (w.clock 0).toNat < 2 ^ 63)
    (hahead : (w.clock 0).toNat < first.start_time_unix_nano.toNat + 2 ^ 53)
    (hbehind : first.start_time_unix_nano.toNat < (w.clock 0).toNat + 2 ^ 53)
    (hmax : 0 ≤ w.globals.max_time_consuming) (hint : w.globals.max_time_consuming < 2 ^ 31) :
    FollowsTime eng w first ↔ first.start_time_unix_nano.toNat ≤ (w.clock 0).toNat := by
  have hlimit : (w.globals.max_time_consuming % 2 ^ 64).toNat =
      w.globals.max_time_consuming.toNat := by omega
  have hanswer := isSampled_of_clear hfirst hclear
  rw [hlimit] at hanswer
  rcases sub_toNat_cases hnow hstart with ⟨hle, hsub⟩ | ⟨hlt, hsub⟩
  · refine iff_of_true ⟨_, _, hanswer, ?_⟩ hle
    have hms := toMilliseconds_of_lt (n := w.clock 0 - first.start_time_unix_nano) (by omega)
    rw [decide_eq_true_iff, hms, hsub, Nat.le_div_iff_mul_le (by omega)]
    omega
  · refine iff_of_false ?_ (by omega)
    rintro ⟨sampled, w', hsampled, htime⟩
    rw [hanswer, Except.ok.injEq, Prod.mk.injEq] at hsampled
    have hms := toMilliseconds_of_wrapped hsub
    have htrue : sampled = true := by
      rw [← hsampled.1, decide_eq_true_iff]
      omega
    have hpast := htime.mp htrue
    omega

/-- A span that began at `start`. -/
def begunSpan (start : UInt64) : Span where
  trace_id := []
  span_id := []
  name := []
  kind := .server
  start_time_unix_nano := start

/-- A request with such a first span, and `now` on the clock. -/
def begunAt (start now : UInt64) : World Unit :=
  { World.fresh () with
    globals := { provider := some ⟨0, fun _ => { firstSpan := some 0 }⟩ }
    memory := { spans := Heap.empty.alloc (begunSpan start) }
    clock := fun _ => now }

theorem hasFirst_begunAt (start now : UInt64) :
    HasFirst (.bare false) (begunAt start now) 0 (begunSpan start) := ⟨_, rfl, rfl, rfl⟩

theorem followsTime_iff_begunAt :
    FollowsTime (.bare false) (begunAt 5 2000000000) (begunSpan 5) ↔
      (5 : UInt64).toNat ≤ (2000000000 : UInt64).toNat :=
  followsTime_iff (hasFirst_begunAt 5 2000000000) rfl (by decide) (by decide) (by decide) (by decide)
    (by decide) (by decide)

/-- One nanosecond back is enough. -/
theorem not_followsTime_set_back : ¬ FollowsTime (.bare false) (begunAt 6 5) (begunSpan 6) := by
  have hanswer := isSampled_of_clear (hasFirst_begunAt 6 5) rfl
  rintro ⟨sampled, w', hsampled, htime⟩
  rw [hanswer, Except.ok.injEq, Prod.mk.injEq] at hsampled
  have hms : 2 ^ 31 ≤ toMilliseconds (5 - 6) := toMilliseconds_of_wrapped (by decide)
  have htrue : sampled = true := by
    rw [← hsampled.1, decide_eq_true_iff]
    exact le_trans (by decide) hms
  exact absurd (htime.mp htrue) (by decide)

end opentelemetry
