import OpentelemetryExt.Session.Density

open stateful run

namespace opentelemetry

variable {φ : Type} {eng eng' : Engine φ} {natives natives' : CurlNatives φ} {u v w w' : World φ}

/-- No trace context is given to the session that the event starts. -/
def Event.Contextless : Event φ → Prop
  | .start_cli_tracer (some (traceparent, _, _)) => c_str (traceparent.getD []) = []
  | _ => True

/-- What the event decides: a CLI session is sampled, or not, at its start. -/
def Event.cliDecision (eng : Engine φ) (w' : World φ) : Event φ → Option Decision
  | .start_cli_tracer (some _) => some (w'.decision eng)
  | _ => none

def CliDecides (eng : Engine φ) (natives : CurlNatives φ) (l : Event φ × Option Decision)
    (w w' : World φ) : Prop :=
  Step eng natives l.1 w w' ∧ l.1.Contextless ∧ l.2 = l.1.cliDecision eng w'

/-- Between two CLI sessions there is no provider. -/
structure Cyclic (phase : Phase) (t : Sessions) : Prop where
  cli_enable : t.cli_enable = true
  started : t.started = decide (phase = .active)
  provider : phase = .idle → t.live = none

/-- The complete sessions of a CLI process keep to their cycle. -/
theorem Cyclic.next {phase phase' : Phase} {t : Sessions} {e : Event φ} (ht : Cyclic phase t)
    (hfits : phase.Fits true t) (hnext : phase.next true e = some phase') :
    Cyclic phase' (t.next true e) := by
  obtain ⟨s, rfl, rfl⟩ | ⟨c, rfl, rfl, rfl⟩ | ⟨rfl, rfl, ⟨hcli, -⟩ | ⟨-, args, rfl⟩⟩ |
    ⟨rfl, rfl, ⟨hcli, -⟩ | ⟨-, rfl⟩⟩ := Phase.next_cases hnext
  · exact ht
  · exact ht
  · cases hcli
  · have hstarted : t.started = false := ht.started
    rw [Sessions.next, if_pos ⟨⟨rfl, ht.cli_enable, hstarted⟩, rfl⟩]
    exact ⟨ht.cli_enable, rfl, fun hidle => by cases hidle⟩
  · cases hcli
  · have hstarted : t.started = true := ht.started
    rw [Sessions.next, if_pos ⟨rfl, ht.cli_enable, hstarted⟩, Sessions.closed]
    cases hlive : t.live with
    | none => exact ⟨ht.cli_enable, rfl, fun _ => rfl⟩
    | some live =>
      obtain ⟨-, hcurrent, -⟩ := hfits live hlive
      simp only [hcurrent, if_true]
      exact ⟨ht.cli_enable, rfl, fun _ => rfl⟩

theorem ratio_blind : Blind eng (SameOn fun w : World φ => w.globals.sample_ratio_based) where
  memory _ _ := rfl
  clock _ := rfl
  uuids _ _ := rfl
  slot _ _ _ := rfl

theorem shutdown_ratio (h : shutdown_tracer eng w = .ok ((), w'))
    (heffective : ¬ Refuses eng w.globals) :
    w'.globals.sample_ratio_based = w.globals.sample_ratio_based := by
  obtain ⟨p, u, hp, rfl, hend⟩ := shutdown_tracer_ok h heffective
  change u.globals.sample_ratio_based = w.globals.sample_ratio_based
  cases hfirst : (p.slots (w.key eng)).firstSpan with
  | none =>
    rw [hfirst] at hend
    rw [hend]
  | some first =>
    rw [hfirst] at hend
    obtain ⟨v, q, hrelated, -, -, rfl⟩ :=
      finishSession_ok ratio_blind.spanwise (fun _ _ => rfl) hend
    have hratio : v.globals.sample_ratio_based = w.globals.sample_ratio_based := hrelated
    rw [← hratio]
    split <;> rfl

/-- Every session of a CLI process is its provider's first. -/
structure Cycled (eng : Engine φ) (n : Nat) (phase : Phase) (ds : List Decision) (w : World φ) :
    Prop where
  orderly : Orderly eng phase w
  cyclic : Cyclic phase w.sessions
  ratio : w.globals.sample_ratio_based = n
  decisions : ∀ d ∈ ds, d = ⟨1, decide (n = 1)⟩

theorem Cycled.provider {n : Nat} {ds : List Decision} (h : Cycled eng n .idle ds w) :
    w.globals.provider = none := by
  have hlive := h.cyclic.provider rfl
  rwa [World.sessions, Option.map_eq_none_iff] at hlive

/-- A start finds no provider, so that its count is 1. -/
theorem Cycled.start {n : Nat} {ds : List Decision} {traceparent baggage : Option Bytes}
    {kind : SpanKind} (hcli : eng.cli = true) (hpos : 1 ≤ n) (hw : Cycled eng n .idle ds w)
    (htraceparent : c_str (traceparent.getD []) = [])
    (h : Step eng natives (.start_cli_tracer (some (traceparent, baggage, kind))) w w') :
    w'.globals.sample_ratio_based = n ∧ w'.decision eng = ⟨1, decide (n = 1)⟩ := by
  have hoffers : Offers eng w.globals false := ⟨hcli, hw.cyclic.cli_enable, hw.cyclic.started⟩
  obtain ⟨hskip, -⟩ | ⟨-, traceparent', baggage', kind', hargs, hstart⟩ :=
    start_cli_tracer_ends (ends_ignore_iff.mp h)
  · exact absurd ⟨hoffers, rfl⟩ hskip
  cases hargs
  have hnone : w.withStarted.globals.provider = none := hw.provider
  have hslots : w.withStarted.slots = fun _ => {} := by
    rw [World.slots, hnone]
    rfl
  have hclear : ((w.withStarted.slots (w.withStarted.key eng)).cleaned eng.cli).is_sampled =
      false := by
    rw [hslots, hcli]
    rfl
  have hratio : w.withStarted.globals.sample_ratio_based = n := hw.ratio
  obtain ⟨hdial, hflag⟩ := start_decides hstart hoffers.not_refuses_started hclear
    (fun _ => htraceparent) (by simp [hcli]) (by omega) (by rw [hnone]; exact ⟨0, rfl⟩)
  have hfirst : Provider.nextCount (w.withStarted.globals.provider.getD {}).counter = (1 : Nat) := by
    rw [hnone]
    rfl
  rw [hfirst, hratio] at hdial hflag
  obtain ⟨-, hsame, hcount⟩ : _ ∧ w'.globals.sample_ratio_based = n ∧
      (w'.globals.provider.getD {}).counter = (1 : Nat) := by
    simpa only [World.dial, Prod.mk.injEq] using hdial
  refine ⟨hsame, ?_⟩
  have hsampled : sampledFlag eng w' = decide (n = 1) := by
    rw [Bool.eq_iff_iff, decide_eq_true_iff, hflag, selected_natCast_iff hpos, Nat.dvd_one]
  rw [World.decision, hcount, hsampled]
  rfl

theorem cycled_step {n : Nat} {phase phase' : Phase} {ds : List Decision}
    {l : Event φ × Option Decision} (hcli : eng.cli = true) (hpos : 1 ≤ n)
    (hnext : phase.next eng.cli l.1 = some phase') (hw : Cycled eng n phase ds w)
    (h : CliDecides eng natives l w w') : Cycled eng n phase' (ds ++ l.2.toList) w' := by
  obtain ⟨e, d⟩ := l
  obtain ⟨hstep, hcontextless, hdecision⟩ := h
  have horderly : Orderly eng phase' w' := orderly_step hstep hnext hw.orderly
  have hcyclic : Cyclic phase' w'.sessions := by
    rw [sessions_step hstep, hcli]
    rw [hcli] at hnext
    exact hw.cyclic.next (hcli ▸ hw.orderly.fits) hnext
  -- All events but a start decide nothing and leave the ratio alone.
  have hkept (hnone : d = none)
      (hratio : w'.globals.sample_ratio_based = w.globals.sample_ratio_based) :
      Cycled eng n phase' (ds ++ d.toList) w' := by
    rw [hnone, Option.toList_none, List.append_nil]
    exact ⟨horderly, hcyclic, hratio.trans hw.ratio, hw.decisions⟩
  obtain ⟨s, rfl, -⟩ | ⟨c, rfl, -⟩ | ⟨rfl, rfl, ⟨hfalse, -⟩ | ⟨-, args, rfl⟩⟩ |
    ⟨-, -, ⟨hfalse, -⟩ | ⟨-, rfl⟩⟩ := Phase.next_cases hnext
  · obtain ⟨_, hstep⟩ | hstep := hstep <;> cases hstep
    exact hkept hdecision rfl
  · have hratio : SameOn (fun w : World φ => w.globals.sample_ratio_based) w w' :=
      ratio_blind.built (fun _ _ => rfl) (fun _ _ _ => rfl) (Move.built_call c) hstep
    exact hkept hdecision hratio
  · rw [hcli] at hfalse
    cases hfalse
  · obtain ⟨traceparent, baggage, kind⟩ := args
    obtain rfl : d = some (w'.decision eng) := hdecision
    obtain ⟨hratio, hfirst⟩ := hw.start hcli hpos hcontextless hstep
    refine ⟨horderly, hcyclic, hratio, ?_⟩
    intro d hd
    rcases List.mem_append.mp hd with hd | hd
    · exact hw.decisions d hd
    · rw [Option.toList_some, List.mem_singleton] at hd
      rw [hd, hfirst]
  · rw [hcli] at hfalse
    cases hfalse
  · refine hkept hdecision ?_
    obtain ⟨-, rfl⟩ | ⟨hoffers, hshutdown⟩ := shutdown_cli_tracer_ends (ends_ignore_iff.mp hstep)
    · rfl
    · exact shutdown_ratio hshutdown hoffers.not_refuses

/-- Every run of CLI sessions decides as if each were the first. -/
theorem cycled_run {n : Nat} {log : List (Event φ × Option Decision)} (hcli : eng.cli = true)
    (hpos : 1 ≤ n) (hinit : w.globals.provider = none) (henable : w.globals.cli_enable = true)
    (hstarted : w.globals.is_started_cli_tracer = false)
    (hratio : w.globals.sample_ratio_based = n) (hrun : Run (CliDecides eng natives) w log v) :
    ∀ phase, (log.map Prod.fst).foldlM (Phase.next eng.cli) .idle = some phase →
      Cycled eng n phase (log.filterMap Prod.snd) v := by
  induction hrun with
  | nil =>
    rintro phase ⟨⟩
    refine ⟨orderly_new hinit _, ⟨henable, hstarted, fun _ => ?_⟩, hratio, by simp⟩
    rw [World.sessions, hinit]
    rfl
  | @snoc log l u v _ hlast ih =>
    intro phase hphases
    rw [List.map_append, List.foldlM_append] at hphases
    obtain ⟨before, hbefore, hnext⟩ := Option.bind_eq_some_iff.mp hphases
    have hdecisions : (log ++ [l]).filterMap Prod.snd = log.filterMap Prod.snd ++ l.2.toList := by
      rw [List.filterMap_append]
      cases hl : l.2 <;> simp [hl]
    rw [hdecisions]
    exact cycled_step hcli hpos (by simpa using hnext) (ih before hbefore) hlast

/-- Among the first `N` counts there is a multiple of `n` if and only if they get as far as `n`. -/
theorem exists_turn_iff {n N : Nat} (hpos : 1 ≤ n) :
    (∃ k < N, n ∣ turn k) ↔ n ≤ N ∧ n ≤ 10000001 := by
  constructor
  · rintro ⟨k, hk, hdvd⟩
    obtain ⟨hlow, hhigh⟩ := turn_bounds k
    have hle := Nat.le_of_dvd hlow hdvd
    refine ⟨?_, by omega⟩
    unfold turn at hle
    omega
  · rintro ⟨hN, hmax⟩
    refine ⟨n - 1, by omega, ?_⟩
    have hturn : turn (n - 1) = n := by
      unfold turn
      omega
    rw [hturn]

/-- For every ratio and every number of sessions: a CLI process decides as a worker that serves
as many requests if and only if everything is sampled, or the worker samples none of them. -/
theorem cli_decides_alike_iff {n N : Nat} {log log' : List (Event φ × Option Decision)}
    {phase phase' : Phase} {x x' : World φ} (hpos : 1 ≤ n)
    (hcli : eng.cli = true) (hinit : w.globals.provider = none)
    (henable : w.globals.cli_enable = true) (hstarted : w.globals.is_started_cli_tracer = false)
    (hratio : w.globals.sample_ratio_based = n)
    (hrun : Run (CliDecides eng natives) w log x)
    (hphases : (log.map Prod.fst).foldlM (Phase.next eng.cli) .idle = some phase)
    (hN : (log.filterMap Prod.snd).length = N)
    (hserves : Serves eng' w'.globals) (hinit' : w'.globals.provider = none)
    (hratio' : w'.globals.sample_ratio_based = n)
    (hrun' : Run (Decides eng' natives') w' log' x')
    (hphases' : (log'.map Prod.fst).foldlM (Phase.next eng'.cli) .idle = some phase')
    (hN' : (log'.filterMap Prod.snd).length = N) :
    (log.filterMap Prod.snd).map Decision.sampled =
        (log'.filterMap Prod.snd).map Decision.sampled ↔
      n = 1 ∨ N < n ∨ 10000001 < n := by
  have hcli' : eng'.cli = false := Bool.eq_false_iff.mpr hserves.2
  have hcycled := (cycled_run hcli hpos hinit henable hstarted hratio hrun phase hphases).decisions
  have hpaced :=
    (paced_run hcli' hpos hinit' hserves.1 hratio' hrun' phase' hphases').decisions
  have hleft : (log.filterMap Prod.snd).map Decision.sampled = List.replicate N (decide (n = 1)) := by
    rw [List.eq_replicate_iff, List.length_map, hN]
    refine ⟨rfl, fun b hb => ?_⟩
    obtain ⟨d, hd, rfl⟩ := List.mem_map.mp hb
    rw [hcycled d hd]
  have hright : (log'.filterMap Prod.snd).map Decision.sampled =
      (List.range N).map fun k => decide (n ∣ turn k) := by
    rw [hpaced, hN', List.map_map]
    rfl
  rw [hleft, hright]
  by_cases hone : n = 1
  · subst hone
    refine iff_of_true ?_ (.inl rfl)
    rw [eq_comm, List.eq_replicate_iff]
    simp
  have hnever : (List.replicate N (decide (n = 1)) = (List.range N).map fun k => decide (n ∣ turn k))
      ↔ ¬ ∃ k < N, n ∣ turn k := by
    rw [eq_comm, List.eq_replicate_iff]
    simp [hone]
  rw [hnever, exists_turn_iff hpos]
  omega

/-- A CLI process with tracing switched on, and this ratio. -/
def cliWorld (ratio : Int) : World Unit :=
  { World.fresh () with
    server := fun key => if key = lit "argv" then some .null else none
    globals := { cli_enable := true, sample_ratio_based := ratio } }

/-- Sessions of nothing but their start and end, decided as given. -/
def cliLog (decisions : List Decision) : List (Event Unit × Option Decision) :=
  decisions.flatMap fun d =>
    [(.start_cli_tracer (some (none, none, .internal)), some d), (.shutdown_cli_tracer, none)]

instance Event.decidableContextless : (e : Event φ) → Decidable e.Contextless
  | .start_cli_tracer (some _) => inferInstanceAs (Decidable (_ = _))
  | .start_cli_tracer none | .call _ | .surround _ | .reparent _ | .request_init
  | .request_shutdown | .shutdown_cli_tracer => inferInstanceAs (Decidable True)

theorem cliLog_run (ratio : Int) (decisions : List Decision)
    (h : ((cliLog decisions).foldlM (fun w l =>
      (final (Event.run (.bare true) .bare l.1) w).filter fun w' =>
        l.1.Contextless ∧ l.2 = l.1.cliDecision (.bare true) w') (cliWorld ratio)).isSome) :
    ∃ v, Run (CliDecides (.bare true) .bare) (cliWorld ratio) (cliLog decisions) v := by
  obtain ⟨v, hfold⟩ := Option.isSome_iff_exists.mp h
  refine ⟨v, Run.of_foldlM (fun w l w' hw => ?_) hfold⟩
  obtain ⟨hstep, hcheck⟩ := Option.filter_eq_some_iff.mp hw
  exact ⟨ends_iff_final.mpr hstep, of_decide_eq_true hcheck⟩

/-- Every trace sampled, in a CLI process of two sessions and a worker of two requests. -/
theorem cli_decides_alike_twice : ∃ x x' : World Unit,
    Run (CliDecides (.bare true) .bare) (cliWorld 1) (cliLog [⟨1, true⟩, ⟨1, true⟩]) x ∧
    Run (Decides (.bare false) .bare) { World.fresh () with globals := { sample_ratio_based := 1 } }
      (workerLog [⟨1, true⟩, ⟨2, true⟩]) x' ∧
    (((cliLog [⟨1, true⟩, ⟨1, true⟩]).filterMap Prod.snd).map Decision.sampled =
      ((workerLog [⟨1, true⟩, ⟨2, true⟩]).filterMap Prod.snd).map Decision.sampled ↔
        1 = 1 ∨ 2 < 1 ∨ 10000001 < 1) := by
  obtain ⟨x, hx⟩ := cliLog_run 1 [⟨1, true⟩, ⟨1, true⟩] (by decide +kernel)
  obtain ⟨x', hx'⟩ := workerLog_run 1 [⟨1, true⟩, ⟨2, true⟩] (by decide +kernel)
  have hphases : ((cliLog [⟨1, true⟩, ⟨1, true⟩]).map Prod.fst).foldlM (Phase.next true) .idle =
      some .idle := rfl
  have hphases' : ((workerLog [⟨1, true⟩, ⟨2, true⟩]).map Prod.fst).foldlM (Phase.next false)
      .idle = some .idle := rfl
  exact ⟨x, x', hx, hx', cli_decides_alike_iff (n := 1) (N := 2) le_rfl rfl rfl rfl rfl rfl hx
    hphases rfl ⟨rfl, Bool.false_ne_true⟩ rfl rfl hx' hphases' rfl⟩

/-- One trace in two: the worker samples its second request, the CLI process neither session. -/
theorem cli_decides_otherwise : ∃ x x' : World Unit,
    Run (CliDecides (.bare true) .bare) (cliWorld 2) (cliLog [⟨1, false⟩, ⟨1, false⟩]) x ∧
    Run (Decides (.bare false) .bare) { World.fresh () with globals := { sample_ratio_based := 2 } }
      (workerLog [⟨1, false⟩, ⟨2, true⟩]) x' ∧
    ((cliLog [⟨1, false⟩, ⟨1, false⟩]).filterMap Prod.snd).map Decision.sampled ≠
      ((workerLog [⟨1, false⟩, ⟨2, true⟩]).filterMap Prod.snd).map Decision.sampled := by
  obtain ⟨x, hx⟩ := cliLog_run 2 [⟨1, false⟩, ⟨1, false⟩] (by decide +kernel)
  obtain ⟨x', hx'⟩ := workerLog_run 2 [⟨1, false⟩, ⟨2, true⟩] (by decide +kernel)
  exact ⟨x, x', hx, hx', by decide⟩

end opentelemetry
