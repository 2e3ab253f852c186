import OpentelemetryExt.Provider.TraceParent
import OpentelemetryExt.Sdk

open heap stateful

namespace opentelemetry

variable {φ : Type} {eng : Engine φ} {u w : World φ} {p : Provider}

namespace Provider

/-- The header and its absence leave the same sampled flag. -/
def SampledAlike (eng : Engine φ) (w : World φ) (header : Bytes) : Prop :=
  ∃ v v', parseTraceParent eng header w = .ok ((), v) ∧
    parseTraceParent eng [] w = .ok ((), v') ∧ sampledFlag eng v = sampledFlag eng v'

/-- The flag after the parse of an empty header: it is put up or left. -/
theorem parseTraceParent_nil_flag (eng : Engine φ) (h : w.globals.provider = some p)
    (hcount : ¬ OutOfRange p.counter w.globals.sample_ratio_based)
    (hratio : w.globals.sample_ratio_based ≠ 0) :
    ∃ v, parseTraceParent eng [] w = .ok ((), v) ∧ (sampledFlag eng v = true ↔
      sampledFlag eng w = true ∨ Selected w.globals.sample_ratio_based p.counter) := by
  by_cases hselected : Selected w.globals.sample_ratio_based p.counter
  · obtain ⟨v, hset, hflag⟩ : ∃ v, Provider.setSampled eng true w = .ok ((), v) ∧
        sampledFlag eng v = true := setSampled_flag true h
    refine ⟨v, (parseTraceParent_nil_selected h hcount hselected).trans hset, ?_⟩
    exact iff_of_true hflag (.inr hselected)
  · refine ⟨w, parseTraceParent_nil_unselected h hcount hratio hselected, ?_⟩
    exact ⟨.inl, fun hor => hor.resolve_right hselected⟩

/-- On a cleaned provider a header that is not four fields samples like no header if and
only if the ratio passes the trace over, or a flag was left that decides both. -/
theorem sampled_alike_iff {header : Bytes} (hclean : clean eng u = .ok ((), w))
    (hp : u.globals.provider = some p) (hratio : 1 ≤ u.globals.sample_ratio_based)
    (hne : header ≠ []) (hfour : (explode (lit "-") header).length ≠ 4) :
    SampledAlike eng w header ↔
      KeepsFlag (p.slots (u.key eng)) ∨ ¬ Selected u.globals.sample_ratio_based p.counter := by
  obtain ⟨q, hq, hcounter, hsettings, hkept⟩ := clean_keeps hclean hp
  rw [← hcounter, ← hsettings, ← hkept]
  rw [← hsettings] at hratio
  rw [explode_dash] at hfour
  have hmalformed : parseTraceParent eng header w = .ok ((), w) :=
    parseTraceParent_other hne hfour
  have hcount : ¬ OutOfRange q.counter w.globals.sample_ratio_based := by
    rintro ⟨-, hnegative⟩
    omega
  obtain ⟨v', hempty, hflag⟩ :=
    parseTraceParent_nil_flag eng hq hcount (by omega)
  constructor
  · rintro ⟨v, v'', hv, hv'', hsame⟩
    rw [hmalformed] at hv
    cases hv
    rw [hempty] at hv''
    cases hv''
    by_cases hselected : Selected w.globals.sample_ratio_based q.counter
    · have hset : sampledFlag eng v' = true := hflag.mpr (.inr hselected)
      exact .inl (hsame.trans hset)
    · exact .inr hselected
  · intro hor
    refine ⟨w, v', hmalformed, hempty, ?_⟩
    rw [Bool.eq_iff_iff, hflag]
    constructor
    · exact .inl
    · rintro (hset | hselected)
      · exact hset
      · exact hor.resolve_right fun hunselected => hunselected hselected

/-- A ratio of 3 passes the first trace over, so that garbage does no harm. -/
theorem sampled_alike_three : ∃ w, clean (.bare false) (ratioWorld 3) = .ok ((), w) ∧
    (SampledAlike (.bare false) w (lit "garbage") ↔ KeepsFlag {} ∨ ¬ Selected 3 1) :=
  ⟨_, rfl, sampled_alike_iff (u := ratioWorld 3) (p := ⟨1, fun _ => {}⟩) rfl rfl (by decide)
    (by decide) (by decide)⟩

/-- With every trace sampled, garbage keeps one from being so. -/
theorem not_sampled_alike_garbage : ∃ w, clean (.bare false) (ratioWorld 1) = .ok ((), w) ∧
    ¬ SampledAlike (.bare false) w (lit "garbage") := by
  refine ⟨_, rfl, ?_⟩
  rintro ⟨v, v', hv, hv', hsame⟩
  obtain rfl : _ = v := Prod.ext_iff.mp (Except.ok.inj ((parseTraceParent_other (by decide)
    (by rw [← explode_dash]; decide)).symm.trans hv)) |>.2
  cases hv'
  cases hsame

/-- The flag is as if the provider had been cleaned and its ratio configured as this one. -/
def AppliesRatio (eng : Engine φ) (w : World φ) (ratio count : Int) : Prop :=
  ∃ w', opentelemetry_set_sample_ratio_based eng (some ratio) w = .ok ((), w') ∧
    (sampledFlag eng w' = true ↔ Selected ratio count)

/-- A ratio other than 0 and 1 is not looked at: the configured one decides, and only in favour. -/
theorem set_sample_ratio_based_other {ratio : Int} (h : w.globals.provider = some p)
    (huntraced : find_server_string (lit "HTTP_TRACEPARENT") w = .ok ([], w))
    (hzero : ratio ≠ 0) (hone : ratio ≠ 1) :
    opentelemetry_set_sample_ratio_based eng (some ratio) w =
      match remainder p.counter w.globals.sample_ratio_based with
      | .error e => .error (.fault e)
      | .ok rest => if rest = 0 then setSampled eng true w else .ok ((), w) := by
  simp only [opentelemetry_set_sample_ratio_based, is_has_provider, bind_apply, globals_apply,
    ok_bind, pure_apply, h, Option.isSome_some, if_true, if_neg hzero, if_neg hone, huntraced,
    count, provider_of_some h, ite_apply]
  cases hrest : remainder p.counter w.globals.sample_ratio_based with
  | error e => rfl
  | ok rest => rfl

theorem set_sample_ratio_based_divides (eng : Engine φ) {ratio : Int} (h : w.globals.provider = some p)
    (huntraced : find_server_string (lit "HTTP_TRACEPARENT") w = .ok ([], w))
    (hcount : IsCount p.counter) (hzero : ratio ≠ 0) (hone : ratio ≠ 1)
    (hconfigured : w.globals.sample_ratio_based ≠ 0) :
    ∃ w', opentelemetry_set_sample_ratio_based eng (some ratio) w = .ok ((), w') ∧
      (sampledFlag eng w' = true ↔
        w.globals.sample_ratio_based ∣ p.counter ∨ sampledFlag eng w = true) := by
  rw [set_sample_ratio_based_other h huntraced hzero hone,
    remainder_of_ne_zero (hcount.inRange _) hconfigured]
  by_cases hrest : p.counter.tmod w.globals.sample_ratio_based = 0
  · obtain ⟨w', hset, hflag⟩ : ∃ w', Provider.setSampled eng true w = .ok ((), w') ∧
        sampledFlag eng w' = true := setSampled_flag true h
    refine ⟨w', ?_, iff_of_true hflag (.inl (Int.dvd_of_tmod_eq_zero hrest))⟩
    simpa only [if_pos hrest] using hset
  · refine ⟨w, by simp only [if_neg hrest], ?_⟩
    constructor
    · exact .inr
    · rintro (hdvd | hset)
      · exact absurd (Int.tmod_eq_zero_of_dvd hdvd) hrest
      · exact hset

/-- Without an incoming context the call applies the ratio it is given if and only if that
is 0 or 1, or the configured ratio can be divided by and decides about this count, with the
flag that was up, as the given one would. -/
theorem applies_ratio_iff {ratio : Int} (hp : w.globals.provider = some p)
    (huntraced : find_server_string (lit "HTTP_TRACEPARENT") w = .ok ([], w))
    (hcount : IsCount p.counter) :
    AppliesRatio eng w ratio p.counter ↔
      ratio = 0 ∨ ratio = 1 ∨ w.globals.sample_ratio_based ≠ 0 ∧
        (w.globals.sample_ratio_based ∣ p.counter ∨ sampledFlag eng w = true ↔
          ratio ∣ p.counter) := by
  have hsets (b : Bool) (hdecides : b = true ↔ Selected ratio p.counter)
      (hcall : opentelemetry_set_sample_ratio_based eng (some ratio) w = setSampled eng b w) :
      AppliesRatio eng w ratio p.counter := by
    obtain ⟨w', hset, hflag⟩ : ∃ w', Provider.setSampled eng b w = .ok ((), w') ∧
        sampledFlag eng w' = b := setSampled_flag b hp
    exact ⟨w', hcall.trans hset, by rw [hflag, hdecides]⟩
  by_cases hzero : ratio = 0
  · refine iff_of_true (hsets false ?_ ?_) (.inl hzero)
    · simp [Selected, hzero]
    · simp [opentelemetry_set_sample_ratio_based, is_has_provider, globals_apply, hp, hzero]
  by_cases hone : ratio = 1
  · refine iff_of_true (hsets true ?_ ?_) (.inr (.inl hone))
    · simp [Selected, hone]
    · simp [opentelemetry_set_sample_ratio_based, is_has_provider, globals_apply, hp, hone]
  have hselected : Selected ratio p.counter ↔ ratio ∣ p.counter := by
    unfold Selected
    simp only [hone, hzero, ne_eq, not_false_eq_true, true_and, false_or]
  by_cases hconfigured : w.globals.sample_ratio_based = 0
  · -- The configured ratio is divided by, although the given one is the ratio asked for.
    refine iff_of_false ?_ (by simp [hzero, hone, hconfigured])
    rintro ⟨w', hcall, -⟩
    rw [set_sample_ratio_based_other hp huntraced hzero hone, hconfigured] at hcall
    cases hcall
  obtain ⟨w', hcall, hflag⟩ := set_sample_ratio_based_divides eng hp huntraced hcount
    hzero hone hconfigured
  simp only [hzero, hone, hconfigured, ne_eq, not_false_eq_true, true_and, false_or]
  constructor
  · rintro ⟨w'', hcall', hdecides⟩
    rw [hcall] at hcall'
    cases hcall'
    rw [← hflag, hdecides, hselected]
  · intro hagrees
    exact ⟨w', hcall, by rw [hflag, hagrees, hselected]⟩

/-- A ratio of 2 where 3 is configured: neither selects the first trace. -/
theorem applies_ratio_two : AppliesRatio (.bare false) (ratioWorld 3) 2 1 ↔
    (2 : Int) = 0 ∨ (2 : Int) = 1 ∨ (3 : Int) ≠ 0 ∧
      ((3 : Int) ∣ 1 ∨ sampledFlag (.bare false) (ratioWorld 3) = true ↔ (2 : Int) ∣ 1) :=
  applies_ratio_iff (w := ratioWorld 3) (p := ⟨1, fun _ => {}⟩) rfl rfl ⟨1, rfl⟩

/-- With 1 configured, a ratio of 2 samples the first trace. With 0 configured it divides by zero. -/
theorem not_applies_ratio_two : ¬ AppliesRatio (.bare false) (ratioWorld 1) 2 1 ∧
    opentelemetry_set_sample_ratio_based (.bare false) (some 2) (ratioWorld 0) =
      .error (.fault .divisionByZero) := by
  refine ⟨?_, rfl⟩
  rintro ⟨w', hcall, hdecides⟩
  cases hcall
  have hselected : Selected 2 1 := hdecides.mp rfl
  exact absurd hselected (by unfold Selected; decide)

end Provider

end opentelemetry
