import OpentelemetryExt.Provider.Steps

open heap stateful

namespace opentelemetry

variable {φ : Type} {eng : Engine φ} {u w : World φ} {p : Provider}

/-- The sampled flag of the current trace. -/
def sampledFlag (eng : Engine φ) (w : World φ) : Bool :=
  (w.globals.provider.map fun p => (p.slots (w.key eng)).is_sampled).getD false

theorem setSampled_flag (b : Bool) (h : w.globals.provider = some p) :
    ∃ w', Provider.setSampled eng b w = .ok ((), w') ∧ sampledFlag eng w' = b :=
  ⟨_, modifySlot_of_some _ h, by simp [sampledFlag]⟩

namespace Provider

theorem increase_of_some (h : w.globals.provider = some p) :
    increase w = .ok ((), w.withProvider { p with counter := nextCount p.counter }) := by
  simp only [increase, bind_apply, provider_of_some h, ok_bind]
  rfl

/-- The counts that a provider can reach: its counter starts at 0 and changes by `increase`. -/
def IsCount (c : Int) : Prop := ∃ n : Nat, c = nextCount^[n] 0

theorem IsCount.next {c : Int} (h : IsCount c) : IsCount (nextCount c) := by
  obtain ⟨n, rfl⟩ := h
  exact ⟨n + 1, (Function.iterate_succ_apply' _ _ _).symm⟩

/-- The counter wraps before it leaves its range. -/
theorem IsCount.bounds {c : Int} (h : IsCount c) : 0 ≤ c ∧ c ≤ 10000001 := by
  obtain ⟨n, rfl⟩ := h
  induction n with
  | zero => simp
  | succ n ih =>
    rw [Function.iterate_succ_apply', nextCount]
    split <;> omega

/-- The one quotient of a `long` by an `int` that is out of range. -/
def OutOfRange (c r : Int) : Prop := c = -2 ^ 63 ∧ r = -1

theorem IsCount.inRange {c : Int} (h : IsCount c) (r : Int) : ¬ OutOfRange c r := by
  rintro ⟨hc, -⟩
  have := h.bounds
  omega

theorem remainder_of_ne_zero {c r : Int} (hc : ¬ OutOfRange c r) (hr : r ≠ 0) :
    remainder c r = .ok (c.tmod r) := by
  rw [remainder, if_neg hr]
  exact if_neg hc

/-- Without a header the counter decides. The last branch of the source is never taken: a
zero ratio has already been divided by. -/
theorem parseTraceParent_nil (h : w.globals.provider = some p) :
    parseTraceParent eng [] w =
      if w.globals.sample_ratio_based = 1 then setSampled eng true w
      else match remainder p.counter w.globals.sample_ratio_based with
        | .error e => .error (.fault e)
        | .ok rest => if rest = 0 then setSampled eng true w else .ok ((), w) := by
  simp only [parseTraceParent, ne_eq, not_true_eq_false, if_false, bind_apply, globals_apply,
    ok_bind, ite_apply, count, provider_of_some h, pure_apply]
  by_cases hone : w.globals.sample_ratio_based = 1
  · rw [if_pos hone, if_pos hone]
  rw [if_neg hone, if_neg hone]
  cases hrest : remainder p.counter w.globals.sample_ratio_based with
  | error e => rfl
  | ok rest =>
    have hratio : w.globals.sample_ratio_based ≠ 0 := by
      intro hzero
      simp [remainder, hzero] at hrest
    simp [hratio]

theorem parseTraceParent_nil_zero (h : w.globals.provider = some p)
    (hratio : w.globals.sample_ratio_based = 0) :
    parseTraceParent eng [] w = .error (.fault .divisionByZero) := by
  simp [parseTraceParent_nil h, hratio, remainder]

/-- The traces that the ratio selects. -/
def Selected (ratio count : Int) : Prop := ratio = 1 ∨ ratio ≠ 0 ∧ ratio ∣ count

theorem parseTraceParent_nil_selected (h : w.globals.provider = some p)
    (hcount : ¬ OutOfRange p.counter w.globals.sample_ratio_based)
    (hselected : Selected w.globals.sample_ratio_based p.counter) :
    parseTraceParent eng [] w = setSampled eng true w := by
  rw [parseTraceParent_nil h]
  obtain hone | ⟨hratio, hdvd⟩ := hselected
  · rw [if_pos hone]
  split
  · rfl
  rw [remainder_of_ne_zero hcount hratio]
  exact if_pos (Int.tmod_eq_zero_of_dvd hdvd)

theorem parseTraceParent_nil_unselected (h : w.globals.provider = some p)
    (hcount : ¬ OutOfRange p.counter w.globals.sample_ratio_based)
    (hratio : w.globals.sample_ratio_based ≠ 0)
    (hselected : ¬ Selected w.globals.sample_ratio_based p.counter) :
    parseTraceParent eng [] w = .ok ((), w) := by
  rw [parseTraceParent_nil h, if_neg fun hone => hselected (.inl hone),
    remainder_of_ne_zero hcount hratio]
  exact if_neg fun hzero => hselected (.inr ⟨hratio, Int.dvd_of_tmod_eq_zero hzero⟩)

/-- The parse of an empty header returns, and the flag says whether the ratio selects the trace. -/
def HonoursRatio (eng : Engine φ) (w : World φ) (ratio count : Int) : Prop :=
  ∃ w', parseTraceParent eng [] w = .ok ((), w') ∧
    (sampledFlag eng w' = true ↔ Selected ratio count)

/-- A flag that `clean` does not take down: it was set while there was no request. -/
def KeepsFlag (s : Slot) : Prop := s.request = none ∧ s.is_sampled = true

theorem cleaned_flag (cli : Bool) (s : Slot) : (s.cleaned cli).is_sampled = true ↔ KeepsFlag s := by
  unfold Slot.cleaned KeepsFlag
  cases s.request <;> cases cli <;> simp

/-- `clean` keeps the settings and the counter, and the flag only where it found no request. -/
theorem clean_keeps (hclean : clean eng u = .ok ((), w)) (hp : u.globals.provider = some p) :
    ∃ q, w.globals.provider = some q ∧ q.counter = p.counter ∧
      w.globals.sample_ratio_based = u.globals.sample_ratio_based ∧
      (sampledFlag eng w = true ↔ KeepsFlag (p.slots (u.key eng))) := by
  obtain ⟨p', hp', rfl⟩ := clean_ok hclean
  obtain rfl : p = p' := Option.some.inj (hp.symm.trans hp')
  exact ⟨_, rfl, rfl, rfl, by simp [sampledFlag, World.cleaned, cleaned_flag]⟩

/-- On a cleaned provider the parse of an empty header honours the ratio if and only if the
ratio is not zero and no flag that `clean` kept stands for a trace that the ratio passes over. -/
theorem honours_ratio_iff (hclean : clean eng u = .ok ((), w)) (hp : u.globals.provider = some p)
    (hcount : IsCount p.counter) :
    HonoursRatio eng w u.globals.sample_ratio_based p.counter ↔
      u.globals.sample_ratio_based ≠ 0 ∧
        (KeepsFlag (p.slots (u.key eng)) → Selected u.globals.sample_ratio_based p.counter) := by
  obtain ⟨q, hq, hcounter, hsettings, hkept⟩ := clean_keeps hclean hp
  rw [← hcounter, ← hsettings, ← hkept]
  rw [← hcounter] at hcount
  constructor
  · rintro ⟨w', hparse, hflag⟩
    have hratio : w.globals.sample_ratio_based ≠ 0 := by
      intro hzero
      rw [parseTraceParent_nil_zero hq hzero] at hparse
      cases hparse
    refine ⟨hratio, fun hset => ?_⟩
    by_contra hunselected
    rw [parseTraceParent_nil_unselected hq (hcount.inRange _) hratio hunselected] at hparse
    cases hparse
    exact hunselected (hflag.mp hset)
  · rintro ⟨hratio, hleft⟩
    by_cases hselected : Selected w.globals.sample_ratio_based q.counter
    · obtain ⟨w', hset, hflag⟩ : ∃ w', Provider.setSampled eng true w = .ok ((), w') ∧
          sampledFlag eng w' = true := setSampled_flag true hq
      exact ⟨w', (parseTraceParent_nil_selected hq (hcount.inRange _) hselected).trans hset,
        by simp only [hflag, hselected]⟩
    · refine ⟨w, parseTraceParent_nil_unselected hq (hcount.inRange _) hratio hselected, ?_⟩
      exact ⟨hleft, fun h => absurd h hselected⟩

/-- A fresh process with a new provider and this ratio. -/
def ratioWorld (ratio : Int) : World Unit :=
  { World.fresh () with
    globals := { provider := some { counter := 1 }, sample_ratio_based := ratio } }

theorem honours_ratio_three : ∃ w, clean (.bare false) (ratioWorld 3) = .ok ((), w) ∧
    (HonoursRatio (.bare false) w 3 1 ↔
      (3 : Int) ≠ 0 ∧ (KeepsFlag {} → Selected 3 1)) :=
  ⟨_, rfl, honours_ratio_iff (u := ratioWorld 3) (p := ⟨1, fun _ => {}⟩) rfl rfl ⟨1, rfl⟩⟩

/-- With ratio 0 the first count is already divided by it. -/
theorem not_honours_ratio_zero : ∃ w, clean (.bare false) (ratioWorld 0) = .ok ((), w) ∧
    parseTraceParent (.bare false) [] w = .error (.fault .divisionByZero) ∧
      ¬ HonoursRatio (.bare false) w 0 1 := by
  refine ⟨_, rfl, rfl, ?_⟩
  rintro ⟨w', hparse, -⟩
  cases hparse

end Provider

end opentelemetry
