import OpentelemetryExt.Session.Phases
import OpentelemetryExt.Provider.Sampling

open stateful run

namespace opentelemetry

variable {φ : Type} {eng : Engine φ} {natives : CurlNatives φ} {u v w w' : World φ}

/-- The count of the request that comes after `k` others. -/
def turn (k : Nat) : Nat := k % 10000001 + 1

theorem iterate_nextCount (k : Nat) : Provider.nextCount^[k + 1] 0 = turn k := by
  induction k with
  | zero => rfl
  | succ k ih =>
    rw [Function.iterate_succ_apply', ih, Provider.nextCount, turn, turn]
    by_cases hreset : k % 10000001 = 10000000
    · rw [if_pos (by omega)]
      omega
    · rw [if_neg (by omega)]
      omega

theorem turn_bounds (k : Nat) : 1 ≤ turn k ∧ turn k ≤ 10000001 := by
  unfold turn
  omega

/-- Two counts that are less than `n` requests apart are not both multiples of `n`. -/
theorem turn_sparse {n i j : Nat} (hlt : i < j) (hwindow : j < i + n) (hi : n ∣ turn i)
    (hj : n ∣ turn j) : False := by
  have hposi := (turn_bounds i).1
  have hposj := (turn_bounds j).1
  have hlei := Nat.le_of_dvd hposi hi
  have hlej := Nat.le_of_dvd hposj hj
  by_cases hreset : turn i < turn j
  · have hgap : n ∣ turn j - turn i := Nat.dvd_sub hj hi
    have hle := Nat.le_of_dvd (by omega) hgap
    unfold turn at *
    omega
  · -- The counter was reset in between, so the later count is too small for a multiple.
    unfold turn at *
    omega

/-- Among the counts of `2n - 1` consecutive requests there is a multiple of `n`. -/
theorem turn_dense {n : Nat} (hpos : 1 ≤ n) (hmax : n ≤ 1000000) (i : Nat) :
    ∃ j, i ≤ j ∧ j < i + (2 * n - 1) ∧ n ∣ turn j := by
  obtain ⟨r, hr⟩ : ∃ r, i % 10000001 = r := ⟨_, rfl⟩
  have hrlt : r < 10000001 := hr ▸ Nat.mod_lt _ (by norm_num)
  -- The first multiple of `n` from the count of `i` on.
  obtain ⟨m, hm⟩ : ∃ m, n * ((r + n) / n) = m := ⟨_, rfl⟩
  have hlow : r < m := by
    have := Nat.lt_mul_div_succ r (by omega : 0 < n)
    rwa [← Nat.add_div_right r (by omega : 0 < n), hm] at this
  have hhigh : m ≤ r + n := hm ▸ Nat.mul_div_le (r + n) n
  have hdvd : n ∣ m := hm ▸ Nat.dvd_mul_right n _
  by_cases hfits : m ≤ 10000001
  · refine ⟨i + (m - (r + 1)), by omega, by omega, ?_⟩
    have hturn : turn (i + (m - (r + 1))) = m := by
      unfold turn
      omega
    rwa [hturn]
  · refine ⟨i + (10000001 - (r + 1)) + n, by omega, by omega, ?_⟩
    have hturn : turn (i + (10000001 - (r + 1)) + n) = n := by
      unfold turn
      omega
    rw [hturn]

theorem selected_natCast_iff {n c : Nat} (hpos : 1 ≤ n) : Provider.Selected n c ↔ n ∣ c := by
  unfold Provider.Selected
  rw [Int.natCast_dvd_natCast]
  constructor
  · rintro (hone | ⟨-, hdvd⟩)
    · have : n = 1 := by omega
      exact this ▸ one_dvd _
    · exact hdvd
  · exact fun hdvd => .inr ⟨by omega, hdvd⟩

/-- What a start has made of its request: the number it counts it by, and whether it samples it. -/
structure Decision where
  count : Int
  sampled : Bool
deriving DecidableEq, Repr

def World.decision (eng : Engine φ) (w : World φ) : Decision :=
  ⟨(w.globals.provider.getD {}).counter, sampledFlag eng w⟩

/-- No trace context comes with the request. -/
def Untraced (server : Bytes → Option Zval) : Prop :=
  ∀ value, server (lit "HTTP_TRACEPARENT") = some value → value = .string []

/-- An event, with the decision when it is the start of a request. -/
def Decides (eng : Engine φ) (natives : CurlNatives φ) (l : Event φ × Option Decision)
    (w w' : World φ) : Prop :=
  Step eng natives l.1 w w' ∧
    match l.1 with
    | .request_init => Untraced w.server ∧ l.2 = some (w'.decision eng)
    | _ => l.2 = none

/-- The settings that a decision depends on, and the counter. -/
def World.dial (w : World φ) : Bool × Int × Int :=
  (w.globals.enable, w.globals.sample_ratio_based, (w.globals.provider.getD {}).counter)

theorem dial_blind : Blind eng (SameOn (World.dial : World φ → _)) where
  memory _ _ := rfl
  clock _ := rfl
  uuids _ _ := rfl
  slot hp _ _ := by simp [SameOn, World.dial, World.withProvider, hp]

theorem flag_tolerates {g : Grants} (hends : ¬ g.ends) (hsamples : ¬ g.samples) :
    Tolerates eng g (SameOn (sampledFlag eng)) where
  memory _ _ := rfl
  clock _ := rfl
  uuids _ _ := rfl
  request hp _ _ _ _ := by simp [SameOn, sampledFlag, hp]
  baggage hp _ := by simp [SameOn, sampledFlag, hp]
  sampled h := by
    obtain h | h := h
    · exact absurd h hends
    · exact absurd h hsamples
  exception _ hp _ := by simp [SameOn, sampledFlag, hp]
  php _ _ := rfl
  headers _ _ _ := rfl

theorem sampledFlag_slots (w : World φ) :
    sampledFlag eng w = (w.slots (w.key eng)).is_sampled := by
  unfold sampledFlag World.slots
  cases w.globals.provider <;> rfl

theorem find_server_string_untraced {header : Bytes} (hserver : Untraced w.server)
    (h : find_server_string (lit "HTTP_TRACEPARENT") w = .ok (header, w')) : header = [] := by
  obtain ⟨v, _, hget, hread⟩ := bind_ok_iff.mp h
  cases hget
  cases hvalue : w.server (lit "HTTP_TRACEPARENT") with
  | none =>
    simp only [hvalue] at hread
    cases hread
    rfl
  | some value =>
    obtain rfl := hserver value hvalue
    simp only [hvalue] at hread
    cases hread
    rfl

/-- The first span changes nothing that a decision depends on. -/
theorem createFirstSpan_dial {name : Bytes} {kind : SpanKind} {q : Nat}
    (h : Provider.createFirstSpan eng name kind w = .ok (q, w')) :
    w'.dial = w.dial ∧ sampledFlag eng w' = sampledFlag eng w := by
  obtain ⟨v, p, hcreate, hp, rfl⟩ := Provider.createFirstSpan_ok h
  have hdial : v.dial = w.dial := dial_blind.spanwise.createSpan _ _ (.of_ok hcreate)
  have hflag : sampledFlag eng v = sampledFlag eng w :=
    (flag_tolerates (g := .none) id id).createSpan _ _ (.of_ok hcreate)
  rw [← hdial, ← hflag]
  constructor
  · simp [World.dial, World.withProvider, hp]
  · simp [sampledFlag, hp]

/-- The parse of an empty header samples the traces that the ratio selects. -/
theorem parse_decides (hp : w.globals.provider.isSome) (hflag : sampledFlag eng w = false)
    (hcount : Provider.IsCount (w.globals.provider.getD {}).counter)
    (hratio : w.globals.sample_ratio_based ≠ 0)
    (h : Provider.parseTraceParent eng [] w = .ok ((), w')) :
    sampledFlag eng w' = true ↔ Provider.Selected w.globals.sample_ratio_based
      (w.globals.provider.getD {}).counter := by
  obtain ⟨p, hp⟩ := Option.isSome_iff_exists.mp hp
  rw [hp, Option.getD_some] at hcount ⊢
  by_cases hselected : Provider.Selected w.globals.sample_ratio_based p.counter
  · obtain ⟨v, hset, hv⟩ : ∃ v, Provider.setSampled eng true w = .ok ((), v) ∧ _ :=
      setSampled_flag true hp
    rw [Provider.parseTraceParent_nil_selected hp (hcount.inRange _) hselected, hset] at h
    cases h
    exact iff_of_true hv hselected
  · rw [Provider.parseTraceParent_nil_unselected hp (hcount.inRange _) hratio hselected] at h
    cases h
    rw [hflag]
    exact iff_of_false Bool.false_ne_true hselected

/-- The start of an untraced session counts it and decides by the count. -/
theorem start_decides {traceparent tracebaggage : Bytes} {kind : SpanKind}
    (h : start_tracer eng traceparent tracebaggage kind w = .ok ((), w'))
    (heffective : ¬ Refuses eng w.globals)
    (hclear : ((w.slots (w.key eng)).cleaned eng.cli).is_sampled = false)
    (htraceparent : eng.cli = true → traceparent = [])
    (huntraced : eng.cli = false → Untraced w.server)
    (hratio : w.globals.sample_ratio_based ≠ 0)
    (hcount : Provider.IsCount (w.globals.provider.getD {}).counter) :
    w'.dial = (w.globals.enable, w.globals.sample_ratio_based,
      Provider.nextCount (w.globals.provider.getD {}).counter) ∧
    (sampledFlag eng w' = true ↔ Provider.Selected w.globals.sample_ratio_based
      (Provider.nextCount (w.globals.provider.getD {}).counter)) := by
  obtain ⟨u, v, v₁, header, name, kind', q, m, hcore, hcreate, hparse, hbuilt, hrest, hgiven,
    hheader, -⟩ :=
    start_tracer_ok h heffective
  have hdialu : u.dial = (w.globals.enable, w.globals.sample_ratio_based,
      Provider.nextCount (w.globals.provider.getD {}).counter) :=
    show u.core.dial = _ by rw [hcore]; rfl
  have hserver : u.server = w.server := show u.core.server = _ by rw [hcore]; rfl
  have hkey : u.key eng = w.key eng :=
    World.key_congr (show u.core.ppid = w.ppid by rw [hcore]; rfl)
  have hflagu : sampledFlag eng u = false := by
    rw [sampledFlag_slots, World.slots_core hcore, World.slots_reset, hkey, Function.update_self,
      hclear]
  have hempty : header = [] := by
    cases hcli : eng.cli with
    | true => rw [hgiven hcli, htraceparent hcli]
    | false => exact find_server_string_untraced (hserver ▸ huntraced hcli) (hheader hcli)
  subst hempty
  obtain ⟨hdialv, hflagv⟩ := createFirstSpan_dial hcreate
  obtain ⟨v', p, -, hp, rfl⟩ := Provider.createFirstSpan_ok hcreate
  have hdial := hdialv.trans hdialu
  obtain ⟨-, hsame, hnext⟩ : _ ∧ _ ∧ _ := by simpa only [World.dial, Prod.mk.injEq] using hdial
  have hdecides := parse_decides rfl (hflagv.trans hflagu) (hnext ▸ hcount.next)
    (hsame ▸ hratio) hparse
  have hdial₁ := dial_blind.parseTraceParent _ (.of_ok hparse)
  have hdial' := dial_blind.built (fun _ _ => rfl) (fun _ _ _ => rfl) hbuilt hrest
  have hflag' : sampledFlag eng w' = sampledFlag eng v₁ := (flag_tolerates id id).built hbuilt hrest
  refine ⟨hdial'.trans (hdial₁.trans hdial), ?_⟩
  rw [hflag', hdecides, hsame, hnext]

theorem shutdown_dial (h : shutdown_tracer eng w = .ok ((), w')) (hcli : eng.cli = false) :
    w'.dial = w.dial := by
  have heffective : ¬ Refuses eng w.globals := fun hrefuses => by simp [hcli, Refuses] at hrefuses
  obtain ⟨p, u, hp, rfl, hend⟩ := shutdown_tracer_ok h heffective
  change u.dial = w.dial
  cases hfirst : (p.slots (w.key eng)).firstSpan with
  | none =>
    rw [hfirst] at hend
    rw [hend]
  | some first =>
    rw [hfirst] at hend
    obtain ⟨v, q, hrelated, hq, -, rfl⟩ :=
      finishSession_ok dial_blind.spanwise (fun _ _ => rfl) hend
    have hdial : v.dial = w.dial := hrelated
    rw [← hdial]
    simp [hcli, World.dial, World.cleaned, World.withProvider, hq]

/-- The decision about the request that comes after `k` others. -/
def decisionAt (n k : Nat) : Decision := ⟨turn k, decide (n ∣ turn k)⟩

/-- The counter goes with the number of decisions, and these are as the counts say. -/
structure Paced (eng : Engine φ) (n : Nat) (phase : Phase) (ds : List Decision) (w : World φ) :
    Prop where
  orderly : Orderly eng phase w
  dial : w.dial = (true, (n : Int), Provider.nextCount^[ds.length] 0)
  decisions : ds = (List.range ds.length).map (decisionAt n)

theorem Paced.start {n : Nat} {ds : List Decision} (hcli : eng.cli = false) (hpos : 1 ≤ n)
    (hw : Paced eng n .idle ds w) (huntraced : Untraced w.server)
    (h : Step eng natives .request_init w w') :
    Paced eng n .active (ds ++ [w'.decision eng]) w' := by
  obtain ⟨henable, hratio, hcounter⟩ : w.globals.enable = true ∧
      w.globals.sample_ratio_based = n ∧
      (w.globals.provider.getD {}).counter = Provider.nextCount^[ds.length] 0 := by
    simpa only [World.dial, Prod.mk.injEq] using hw.dial
  have horderly : Orderly eng .active w' := orderly_step h (by simp [Phase.next, hcli]) hw.orderly
  have hserves : Serves eng w.globals := ⟨henable, by simp [hcli]⟩
  obtain ⟨hskip, -⟩ | ⟨-, hstart⟩ := request_init_ends h
  · exact absurd hserves hskip
  have hclear : ((w.slots (w.key eng)).cleaned eng.cli).is_sampled = false := by
    obtain ⟨resource, past, hslot⟩ := hw.orderly.spent rfl
    rw [hslot, hcli]
    rfl
  obtain ⟨hdial, hflag⟩ := start_decides hstart hserves.not_refuses hclear (by simp [hcli])
    (fun _ => huntraced) (by omega) (hcounter ▸ ⟨ds.length, rfl⟩)
  have hnext : Provider.nextCount (w.globals.provider.getD {}).counter = turn ds.length := by
    rw [hcounter, ← Function.iterate_succ_apply' Provider.nextCount, iterate_nextCount]
  rw [henable, hratio, hnext] at hdial
  rw [hratio, hnext] at hflag
  have hselected : Provider.Selected n (turn ds.length) ↔ n ∣ turn ds.length :=
    selected_natCast_iff hpos
  have hcount : (w'.globals.provider.getD {}).counter = turn ds.length :=
    congrArg (fun dial => dial.2.2) hdial
  have hdecision : w'.decision eng = decisionAt n ds.length := by
    have hsampled : sampledFlag eng w' = decide (n ∣ turn ds.length) := by
      rw [Bool.eq_iff_iff, decide_eq_true_iff, hflag, hselected]
    rw [World.decision, hcount, hsampled]
    rfl
  refine ⟨horderly, ?_, ?_⟩
  · rw [hdial, List.length_append, List.length_singleton, iterate_nextCount]
  · rw [hdecision, List.length_append, List.length_singleton, List.range_succ, List.map_append,
      ← hw.decisions]
    rfl

theorem paced_step {n : Nat} {phase phase' : Phase} {ds : List Decision}
    {l : Event φ × Option Decision} (hcli : eng.cli = false) (hpos : 1 ≤ n)
    (hnext : phase.next eng.cli l.1 = some phase') (hw : Paced eng n phase ds w)
    (h : Decides eng natives l w w') : Paced eng n phase' (ds ++ l.2.toList) w' := by
  obtain ⟨e, d⟩ := l
  obtain ⟨hstep, hdecision⟩ := h
  have horderly : Orderly eng phase' w' := orderly_step hstep hnext hw.orderly
  -- All events but a start leave the counter alone and decide nothing.
  have hkept (hnone : d = none) (hdial : w'.dial = w.dial) :
      Paced eng n phase' (ds ++ d.toList) w' := by
    rw [hnone, Option.toList_none, List.append_nil]
    exact ⟨horderly, hdial.trans hw.dial, hw.decisions⟩
  obtain ⟨s, rfl, -⟩ | ⟨c, rfl, -⟩ | ⟨rfl, rfl, ⟨-, rfl⟩ | ⟨htrue, -⟩⟩ |
    ⟨-, -, ⟨-, rfl⟩ | ⟨htrue, -⟩⟩ := Phase.next_cases hnext
  · obtain ⟨_, hstep⟩ | hstep := hstep <;> cases hstep
    exact hkept hdecision rfl
  · exact hkept hdecision
      (dial_blind.built (fun _ _ => rfl) (fun _ _ _ => rfl) (Move.built_call c) hstep)
  · obtain ⟨huntraced, rfl⟩ := hdecision
    exact hw.start hcli hpos huntraced hstep
  · rw [hcli] at htrue
    cases htrue
  · refine hkept hdecision ?_
    obtain ⟨-, rfl⟩ | ⟨-, hshutdown⟩ := request_shutdown_ends hstep
    · rfl
    · exact shutdown_dial hshutdown hcli
  · rw [hcli] at htrue
    cases htrue

/-- Every run of requests decides by the counts. -/
theorem paced_run {n : Nat} {log : List (Event φ × Option Decision)} (hcli : eng.cli = false)
    (hpos : 1 ≤ n) (hinit : w.globals.provider = none) (henable : w.globals.enable = true)
    (hratio : w.globals.sample_ratio_based = n) (hrun : Run (Decides eng natives) w log v) :
    ∀ phase, (log.map Prod.fst).foldlM (Phase.next eng.cli) .idle = some phase →
      Paced eng n phase (log.filterMap Prod.snd) v := by
  induction hrun with
  | nil =>
    rintro phase ⟨⟩
    refine ⟨orderly_new hinit _, ?_, rfl⟩
    simp [World.dial, henable, hratio, hinit]
  | @snoc log l u v _ hlast ih =>
    intro phase hphases
    rw [List.map_append, List.foldlM_append] at hphases
    obtain ⟨before, hbefore, hnext⟩ := Option.bind_eq_some_iff.mp hphases
    have hdecisions : (log ++ [l]).filterMap Prod.snd = log.filterMap Prod.snd ++ l.2.toList := by
      rw [List.filterMap_append]
      cases hl : l.2 <;> simp [hl]
    rw [hdecisions]
    exact paced_step hcli hpos (by simpa using hnext) (ih before hbefore) hlast

/-- Sampling density. A worker that serves requests without a trace context counts them within
1 and 10000001; of any `n` consecutive requests it samples at most one, and of any `2n - 1` at
least one. -/
theorem sampling_density {n : Nat} {log : List (Event φ × Option Decision)} {phase : Phase}
    (hpos : 1 ≤ n) (hmax : n ≤ 1000000) (hinit : w.globals.provider = none)
    (hserves : Serves eng w.globals) (hratio : w.globals.sample_ratio_based = n)
    (hrun : Run (Decides eng natives) w log v)
    (hphases : (log.map Prod.fst).foldlM (Phase.next eng.cli) .idle = some phase) :
    let decisions := log.filterMap Prod.snd
    (∀ d ∈ decisions, 1 ≤ d.count ∧ d.count ≤ 10000001) ∧
    (∀ i j d d', i < j → j < i + n → decisions[i]? = some d → decisions[j]? = some d' →
      ¬ (d.sampled = true ∧ d'.sampled = true)) ∧
    (∀ i, i + (2 * n - 1) ≤ decisions.length → ∃ j d, i ≤ j ∧ j < i + (2 * n - 1) ∧
      decisions[j]? = some d ∧ d.sampled = true) := by
  intro decisions
  have hcli : eng.cli = false := Bool.eq_false_iff.mpr hserves.2
  have hall := (paced_run hcli hpos hinit hserves.1 hratio hrun phase hphases).decisions
  change decisions = (List.range decisions.length).map (decisionAt n) at hall
  have hat {i : Nat} {d : Decision} (hd : decisions[i]? = some d) : d = decisionAt n i := by
    obtain ⟨hi, -⟩ := List.getElem?_eq_some_iff.mp hd
    rw [hall, List.getElem?_map, List.getElem?_range hi] at hd
    exact (Option.some.inj hd).symm
  refine ⟨?_, ?_, ?_⟩
  · intro d hd
    obtain ⟨i, hi⟩ := List.getElem?_of_mem hd
    obtain ⟨hlow, hhigh⟩ := turn_bounds i
    rw [hat hi]
    simp only [decisionAt]
    omega
  · rintro i j d d' hlt hwindow hd hd' ⟨hsampled, hsampled'⟩
    rw [hat hd, decisionAt, decide_eq_true_iff] at hsampled
    rw [hat hd', decisionAt, decide_eq_true_iff] at hsampled'
    exact turn_sparse hlt hwindow hsampled hsampled'
  · intro i hi
    obtain ⟨j, hle, hlt, hdvd⟩ := turn_dense hpos hmax i
    have hj : j < decisions.length := by omega
    exact ⟨j, _, hle, hlt, List.getElem?_eq_getElem hj, by
      rw [hat (List.getElem?_eq_getElem hj), decisionAt, decide_eq_true_iff]
      exact hdvd⟩

/-- Requests of nothing but their start and end, decided as given. -/
def workerLog (decisions : List Decision) : List (Event Unit × Option Decision) :=
  decisions.flatMap fun d => [(.request_init, some d), (.request_shutdown, none)]

theorem workerLog_run (ratio : Int) (decisions : List Decision)
    (h : ((workerLog decisions).foldlM (fun (w : World Unit) l =>
      if (w.server (lit "HTTP_TRACEPARENT")).isNone then
        (final (Event.run (.bare false) .bare l.1) w).filter fun w' =>
          l.2 = match l.1 with
            | .request_init => some (w'.decision (.bare false))
            | _ => none
      else none)
      { World.fresh () with globals := { sample_ratio_based := ratio } }).isSome) :
    ∃ v, Run (Decides (.bare false) .bare)
      { World.fresh () with globals := { sample_ratio_based := ratio } } (workerLog decisions) v := by
  obtain ⟨v, hfold⟩ := Option.isSome_iff_exists.mp h
  refine ⟨v, Run.of_foldlM (fun w l w' hw => ?_) hfold⟩
  split at hw
  · rename_i hnone
    obtain ⟨hstep, hcheck⟩ := Option.filter_eq_some_iff.mp hw
    obtain ⟨e, d⟩ := l
    refine And.intro (ends_iff_final.mpr hstep) ?_
    cases e with
    | request_init =>
      refine And.intro (fun value hvalue => ?_) (of_decide_eq_true hcheck)
      rw [hvalue] at hnone
      cases hnone
    | _ => exact of_decide_eq_true hcheck
  · cases hw

/-- Of five requests at ratio 3 the third is sampled. -/
theorem sampling_density_third : ∃ v : World Unit,
    Run (Decides (.bare false) .bare) { World.fresh () with globals := { sample_ratio_based := 3 } }
      (workerLog [⟨1, false⟩, ⟨2, false⟩, ⟨3, true⟩, ⟨4, false⟩, ⟨5, false⟩]) v ∧
    ∃ (j : Nat) (d : Decision), j < 5 ∧ d.count ≤ 10000001 ∧ d.sampled = true ∧
      ((workerLog [⟨1, false⟩, ⟨2, false⟩, ⟨3, true⟩, ⟨4, false⟩, ⟨5, false⟩]).filterMap
        Prod.snd)[j]? = some d := by
  obtain ⟨v, hrun⟩ := workerLog_run 3 [⟨1, false⟩, ⟨2, false⟩, ⟨3, true⟩, ⟨4, false⟩, ⟨5, false⟩]
    (by decide +kernel)
  obtain ⟨hcounts, -, hdense⟩ := sampling_density (n := 3) (by norm_num) (by norm_num) rfl
    ⟨rfl, Bool.false_ne_true⟩ rfl hrun (show _ = some Phase.idle from rfl)
  obtain ⟨j, d, -, hj, hd, hsampled⟩ := hdense 0 le_rfl
  exact ⟨v, hrun, j, d, by omega, (hcounts d (List.mem_of_getElem? hd)).2, hsampled, hd⟩

end opentelemetry
