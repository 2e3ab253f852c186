import OpentelemetryExt.Session.Start
import OpentelemetryExt.Session.Events

open stateful run

namespace opentelemetry

variable {φ : Type} {eng : Engine φ} {natives : CurlNatives φ} {w w' : World φ}

/-- What the guard of the hooks depends on: `live` is absent while there is no provider, and
says otherwise under which keys there is a first span. -/
structure Sessions where
  enable : Bool
  cli_enable : Bool
  started : Bool
  ppid : Nat
  live : Option (Option Nat → Bool)

def World.sessions (w : World φ) : Sessions where
  enable := w.globals.enable
  cli_enable := w.globals.cli_enable
  started := w.globals.is_started_cli_tracer
  ppid := w.ppid
  live := w.globals.provider.map fun p key => (p.slots key).firstSpan.isSome

namespace Sessions

def key (cli : Bool) (t : Sessions) : Option Nat := if cli then some t.ppid else none

/-- A session is started under the current key, beside those under other keys. -/
def opened (cli : Bool) (t : Sessions) : Sessions :=
  { t with live := some (Function.update (t.live.getD fun _ => false) (t.key cli) true) }

/-- The session under the current key ends. In the CLI the provider goes with it, and so do
the sessions under other keys. -/
def closed (cli : Bool) (t : Sessions) : Sessions :=
  match t.live with
  | some live =>
    if live (t.key cli) then
      { t with
        started := false
        live := if cli then none else some (Function.update live (t.key cli) false) }
    else { t with started := false }
  | none => { t with started := false }

/-- How the events move the sessions. -/
def next (cli : Bool) (t : Sessions) : Event φ → Sessions
  | .call _ | .surround _ => t
  | .reparent ppid => { t with ppid := ppid }
  | .request_init => if t.enable = true ∧ ¬ cli = true then t.opened cli else t
  | .request_shutdown => if t.enable = true ∧ ¬ cli = true then t.closed cli else t
  | .start_cli_tracer args =>
    if (cli = true ∧ t.cli_enable = true ∧ t.started = false) ∧ args.isSome then
      opened cli { t with started := true }
    else t
  | .shutdown_cli_tracer =>
    if cli = true ∧ t.cli_enable = true ∧ t.started = true then t.closed cli else t

/-- The current key has a session, or there is none at all. -/
def Covered (cli : Bool) (t : Sessions) : Prop :=
  ∀ live, t.live = some live → live (t.key cli) = true

end Sessions

/-- Whether an event starts a session. -/
def Sessions.Starts (cli : Bool) (t : Sessions) : Event φ → Prop
  | .request_init => t.enable = true ∧ ¬ cli = true
  | .start_cli_tracer args =>
    (cli = true ∧ t.cli_enable = true ∧ t.started = false) ∧ args.isSome
  | _ => False

instance (cli : Bool) (t : Sessions) (e : Event φ) : Decidable (t.Starts cli e) :=
  match e with
  | .request_init => inferInstanceAs (Decidable (_ ∧ _))
  | .start_cli_tracer _ => inferInstanceAs (Decidable ((_ ∧ _ ∧ _) ∧ _))
  | .call _ | .surround _ | .reparent _ | .request_shutdown | .shutdown_cli_tracer =>
    inferInstanceAs (Decidable False)

/-- Whether an event ends the session under the current key. -/
def Sessions.Stops (cli : Bool) (t : Sessions) : Event φ → Prop
  | .request_shutdown => t.enable = true ∧ ¬ cli = true
  | .shutdown_cli_tracer => cli = true ∧ t.cli_enable = true ∧ t.started = true
  | _ => False

theorem sessions_key (w : World φ) : w.sessions.key eng.cli = w.key eng := rfl

theorem sessions_withProvider (w : World φ) (p : Provider) :
    (w.withProvider p).sessions =
      { w.sessions with live := some fun key => (p.slots key).firstSpan.isSome } := rfl

theorem live_set (p : Provider) (key : Option Nat) (s : Slot) :
    (fun k => ((p.set key s).slots k).firstSpan.isSome) =
      Function.update (fun k => (p.slots k).firstSpan.isSome) key s.firstSpan.isSome := by
  funext k
  by_cases hk : k = key
  · subst hk
    simp
  · simp [Provider.set_ne p s hk, hk]

theorem sessions_blind : Blind eng (SameOn (World.sessions : World φ → Sessions)) where
  memory _ _ := rfl
  clock _ := rfl
  uuids _ _ := rfl
  slot {w p s} hp hfirst _ := by
    rw [SameOn, sessions_withProvider, live_set, hfirst]
    simp [World.sessions, hp]

theorem sessions_call (c : Call) : Keeps (SameOn World.sessions) (c.run eng natives) :=
  sessions_blind.built (fun _ _ => rfl) (fun _ _ _ => rfl) (Move.built_call c)

theorem sessions_createFirstSpan {name : Bytes} {kind : SpanKind} {q : Nat}
    (h : Provider.createFirstSpan eng name kind w = .ok (q, w')) :
    w'.sessions = w.sessions.opened eng.cli := by
  obtain ⟨v, p, hcreate, hp, rfl⟩ := Provider.createFirstSpan_ok h
  have hview : v.sessions = w.sessions := sessions_blind.spanwise.createSpan _ _ (.of_ok hcreate)
  rw [sessions_withProvider, live_set, Sessions.opened, ← hview]
  simp [World.sessions, hp, World.key, Sessions.key]

theorem sessions_core {u v : World φ} (h : u.core = v.core) : u.sessions = v.sessions := by
  have hself (w : World φ) : w.core.sessions = w.sessions := rfl
  rw [← hself u, ← hself v, h]

theorem live_getD (w : World φ) : w.sessions.live.getD (fun _ => false) =
    fun key => ((w.globals.provider.getD {}).slots key).firstSpan.isSome := by
  unfold World.sessions
  cases w.globals.provider <;> rfl

/-- What is cleaned up at the start of a session makes no difference once it has started. -/
theorem sessions_reset (w : World φ) :
    (w.reset eng).sessions.opened eng.cli = w.sessions.opened eng.cli := by
  have hlive : (w.reset eng).sessions = { w.sessions with
      live := some (Function.update (w.sessions.live.getD fun _ => false) (w.key eng)
        (((w.globals.provider.getD {}).slots (w.key eng)).cleaned eng.cli).firstSpan.isSome) } := by
    rw [live_getD, ← live_set]
    rfl
  rw [hlive, Sessions.opened, Sessions.opened]
  simp only [Option.getD_some, Sessions.key, World.key, World.sessions, Function.update_idem]

theorem sessions_start {traceparent tracebaggage : Bytes} {kind : SpanKind}
    (h : start_tracer eng traceparent tracebaggage kind w = .ok ((), w'))
    (heffective : ¬ Refuses eng w.globals) : w'.sessions = w.sessions.opened eng.cli := by
  obtain ⟨u, v, v₁, header, name, kind', q, m, hcore, hcreate, hparse, hbuilt, hrest, -⟩ :=
    start_tracer_ok h heffective
  calc w'.sessions
      = v₁.sessions := sessions_blind.built (fun _ _ => rfl) (fun _ _ _ => rfl) hbuilt hrest
    _ = v.sessions := sessions_blind.parseTraceParent _ (.of_ok hparse)
    _ = u.sessions.opened eng.cli := sessions_createFirstSpan hcreate
    _ = (w.reset eng).sessions.opened eng.cli := by rw [sessions_core hcore]
    _ = w.sessions.opened eng.cli := sessions_reset w

theorem sessions_shutdown (h : shutdown_tracer eng w = .ok ((), w'))
    (heffective : ¬ Refuses eng w.globals) : w'.sessions = w.sessions.closed eng.cli := by
  obtain ⟨p, u, hp, rfl, hend⟩ := shutdown_tracer_ok h heffective
  have hlive : w.sessions.live = some fun key => (p.slots key).firstSpan.isSome := by
    simp [World.sessions, hp]
  cases hfirst : (p.slots (w.key eng)).firstSpan with
  | none =>
    rw [hfirst] at hend
    subst hend
    simp only [Sessions.closed, hlive, sessions_key, hfirst, Option.isSome_none,
      Bool.false_eq_true, if_false]
    rw [← hlive]
    rfl
  | some first =>
    rw [hfirst] at hend
    obtain ⟨v, q, hview, hq, hrequest, rfl⟩ :=
      finishSession_ok sessions_blind.spanwise (fun _ _ => rfl) hend
    have hclosed : w.sessions.closed eng.cli = { v.sessions with
        started := false
        live := if eng.cli then none
          else some (Function.update (fun key => (q.slots key).firstSpan.isSome) (v.key eng) false) } := by
      have hqlive : v.sessions.live = some fun key => (q.slots key).firstSpan.isSome := by
        simp [World.sessions, hq]
      have hkey : v.key eng = w.key eng := by
        rw [← sessions_key, ← sessions_key, hview]
      have hset : (q.slots (v.key eng)).firstSpan.isSome = true := by
        have hsame := hqlive.symm.trans ((congrArg Sessions.live hview).trans hlive)
        rw [congrFun (Option.some.inj hsame) (v.key eng), hkey, hfirst]
        rfl
      rw [← hview, Sessions.closed, hqlive]
      simp only [sessions_key, hset, if_true]
    rw [hclosed]
    split
    · rfl
    · rw [← show ((q.slots (v.key eng)).cleaned eng.cli).firstSpan.isSome = false from by
        simp [Slot.cleaned, hrequest], ← live_set]
      rfl

/-- One step of the process moves the sessions as the event says. -/
theorem sessions_step {e : Event φ} (h : Step eng natives e w w') :
    w'.sessions = w.sessions.next eng.cli e := by
  cases e with
  | call c => exact sessions_call c h
  | surround s =>
    obtain ⟨_, h⟩ | h := h <;> cases h
    rfl
  | reparent ppid =>
    obtain ⟨_, h⟩ | h := h <;> cases h
    rfl
  | request_init =>
    obtain ⟨hskip, rfl⟩ | ⟨hserves, hstart⟩ := request_init_ends h
    · exact (if_neg hskip).symm
    · exact (sessions_start hstart hserves.not_refuses).trans (if_pos hserves).symm
  | request_shutdown =>
    obtain ⟨hskip, rfl⟩ | ⟨hserves, hshutdown⟩ := request_shutdown_ends h
    · exact (if_neg hskip).symm
    · exact (sessions_shutdown hshutdown hserves.not_refuses).trans (if_pos hserves).symm
  | start_cli_tracer args =>
    obtain ⟨hskip, rfl⟩ | ⟨hoffers, traceparent, baggage, kind, rfl, hstart⟩ :=
      start_cli_tracer_ends (ends_ignore_iff.mp h)
    · exact (if_neg hskip).symm
    · exact (sessions_start hstart hoffers.not_refuses_started).trans (if_pos ⟨hoffers, rfl⟩).symm
  | shutdown_cli_tracer =>
    obtain ⟨hskip, rfl⟩ | ⟨hoffers, hshutdown⟩ := shutdown_cli_tracer_ends (ends_ignore_iff.mp h)
    · exact (if_neg hskip).symm
    · exact (sessions_shutdown hshutdown hoffers.not_refuses).trans (if_pos hoffers).symm

theorem sessions_run {es : List (Event φ)} (hrun : Run (Step eng natives) w es w') :
    w'.sessions = es.foldl (Sessions.next eng.cli) w.sessions := by
  refine hrun.simulates (R := fun (u : World φ) t => u.sessions = t) rfl fun e u v t hstep ht => ?_
  rw [sessions_step hstep, ht]

/-- What is enabled stays so. -/
theorem Sessions.next_enabled (cli : Bool) (t : Sessions) (e : Event φ) :
    (t.next cli e).enable = t.enable ∧ (t.next cli e).cli_enable = t.cli_enable := by
  have hclosed : (t.closed cli).enable = t.enable ∧ (t.closed cli).cli_enable = t.cli_enable := by
    unfold closed
    split
    · split <;> exact ⟨rfl, rfl⟩
    · exact ⟨rfl, rfl⟩
  have hite {c : Prop} [Decidable c] {s : Sessions}
      (hs : s.enable = t.enable ∧ s.cli_enable = t.cli_enable) :
      (if c then s else t).enable = t.enable ∧ (if c then s else t).cli_enable = t.cli_enable := by
    by_cases hc : c
    · rwa [if_pos hc]
    · rw [if_neg hc]
      exact ⟨rfl, rfl⟩
  cases e with
  | request_init => exact hite ⟨rfl, rfl⟩
  | request_shutdown => exact hite hclosed
  | start_cli_tracer args => exact hite ⟨rfl, rfl⟩
  | shutdown_cli_tracer => exact hite hclosed
  | _ => exact ⟨rfl, rfl⟩

theorem enabled_run {es : List (Event φ)} (hrun : Run (Step eng natives) w es w') :
    w'.globals.enable = w.globals.enable ∧ w'.globals.cli_enable = w.globals.cli_enable := by
  induction hrun with
  | nil => exact ⟨rfl, rfl⟩
  | snoc _ hlast ih =>
    obtain ⟨henable, hcli⟩ := Sessions.next_enabled eng.cli _ _
    rw [← sessions_step hlast] at henable hcli
    exact ⟨henable.trans ih.1, hcli.trans ih.2⟩

/-- `is_has_provider()` implies that `firstOneSpan()` is not null. -/
def GuardSufficient (eng : Engine φ) (w : World φ) : Prop :=
  is_has_provider w = .ok (true, w) → ∃ f, Provider.firstOneSpan eng w = .ok (some f, w)

theorem guardSufficient_iff_covered : GuardSufficient eng w ↔ w.sessions.Covered eng.cli := by
  unfold GuardSufficient Sessions.Covered
  cases hp : w.globals.provider with
  | none => simp [is_has_provider, globals_apply, World.sessions, hp]
  | some p =>
    have hslot : Provider.firstOneSpan eng w = .ok ((p.slots (w.key eng)).firstSpan, w) := by
      simp only [Provider.firstOneSpan, bind_apply, slot_of_some hp, ok_bind, pure_apply]
    rw [hslot]
    simp [is_has_provider, globals_apply, World.sessions, hp, Option.isSome_iff_exists,
      Sessions.key, World.key]

/-- The guard of the hooks is sufficient in exactly those states in which the current key has
a session that was started under it and has not ended, or no session has been started since
the provider was last deleted. -/
theorem guard_sufficient_iff {es : List (Event φ)} (hinit : w.globals.provider = none)
    (hrun : Run (Step eng natives) w es w') :
    GuardSufficient eng w' ↔
      (es.foldl (Sessions.next eng.cli) { w.sessions with live := none }).Covered eng.cli := by
  have hlive : { w.sessions with live := none } = w.sessions := by
    simp [World.sessions, hinit]
  rw [guardSufficient_iff_covered, sessions_run hrun, hlive]

theorem guard_sufficient_in_request : ∃ w',
    Run (Step (.bare false) .bare) (World.fresh ()) [.request_init] w' ∧
      (GuardSufficient (.bare false) w' ↔ (([.request_init] : List (Event Unit)).foldl
        (Sessions.next false) { (World.fresh ()).sessions with live := none }).Covered false) := by
  have hrun : ∃ w', Run (Step (.bare false) .bare) (World.fresh ()) [.request_init] w' :=
    ⟨_, .snoc .nil (step_final _ rfl)⟩
  obtain ⟨w', hrun⟩ := hrun
  exact ⟨w', hrun, guard_sufficient_iff rfl hrun⟩

/-- After a request the provider is still there, without a first span. -/
theorem guard_not_sufficient_between_requests : ∃ w',
    Run (Step (.bare false) .bare) (World.fresh ()) [.request_init, .request_shutdown] w' ∧
      ¬ GuardSufficient (.bare false) w' := by
  have hrun : ∃ w', Run (Step (.bare false) .bare) (World.fresh ())
      [.request_init, .request_shutdown] w' :=
    ⟨_, .snoc (.snoc .nil (step_final _ rfl)) (step_final _ rfl)⟩
  obtain ⟨w', hrun⟩ := hrun
  refine ⟨w', hrun, fun h => ?_⟩
  rw [guardSufficient_iff_covered, sessions_run hrun] at h
  exact Bool.false_ne_true (h _ rfl)

end opentelemetry
