import OpentelemetryExt.Session.Slots
import OpentelemetryExt.ZendHook.Transparent

open stateful run

namespace opentelemetry

variable {φ : Type} {eng : Engine φ} {natives : CurlNatives φ} {v w w' : World φ} {e : Event φ}

/-- What may happen between the start of a session and its end. A request is no event of a CLI
process, and the functions for CLI tracers do nothing in a request, or while one is started. The
parent may change where nothing depends on it. -/
def Event.Inner (cli : Bool) : Event φ → Prop
  | .call _ | .surround _ | .start_cli_tracer _ => True
  | .reparent _ | .shutdown_cli_tracer => cli = false
  | .request_init | .request_shutdown => cli = true

/-- A value is read from Redis, and the worker gets another parent. -/
def getInRequest : List (Event Unit) :=
  [.call (.enter .redis getFrame), .call (.leave .redis getFrame (.string (lit "v")) (some 1)),
    .reparent 2]

theorem getInRequest_inner : ∀ e ∈ getInRequest, e.Inner false := by
  intro e he
  simp only [getInRequest, List.mem_cons, List.not_mem_nil, or_false] at he
  obtain rfl | rfl | rfl := he
  · trivial
  · trivial
  · rfl

/-- In the CLI a tracer is started. -/
def Started (eng : Engine φ) (w : World φ) : Prop :=
  eng.cli = true → w.globals.is_started_cli_tracer = true

/-- An inner event is a call, or the world around the extension changes, or nothing does. -/
theorem inner_cases (h : Step eng natives e w w') (hinner : e.Inner eng.cli)
    (hstarted : Started eng w) : (∃ c, e = .call c) ∨ (∃ s, e = .surround s ∧ w' = w.surround s) ∨
      (eng.cli = false ∧ ∃ ppid, w' = { w with ppid := ppid }) ∨ w' = w := by
  cases e with
  | call c => exact .inl ⟨c, rfl⟩
  | surround s =>
    obtain ⟨_, h⟩ | h := h <;> cases h
    exact .inr (.inl ⟨s, rfl, rfl⟩)
  | reparent ppid =>
    obtain ⟨_, h⟩ | h := h <;> cases h
    exact .inr (.inr (.inl ⟨hinner, ppid, rfl⟩))
  | request_init =>
    obtain ⟨-, rfl⟩ | ⟨hserves, -⟩ := request_init_ends h
    · exact .inr (.inr (.inr rfl))
    · exact absurd hinner hserves.2
  | request_shutdown =>
    obtain ⟨-, rfl⟩ | ⟨hserves, -⟩ := request_shutdown_ends h
    · exact .inr (.inr (.inr rfl))
    · exact absurd hinner hserves.2
  | start_cli_tracer args =>
    obtain ⟨-, rfl⟩ | ⟨⟨hcli, -, hnew⟩, -⟩ := start_cli_tracer_ends (ends_ignore_iff.mp h)
    · exact .inr (.inr (.inr rfl))
    · rw [hstarted hcli] at hnew
      cases hnew
  | shutdown_cli_tracer =>
    obtain ⟨-, rfl⟩ | ⟨⟨hcli, -⟩, -⟩ := shutdown_cli_tracer_ends (ends_ignore_iff.mp h)
    · exact .inr (.inr (.inr rfl))
    · have hfalse : eng.cli = false := hinner
      rw [hfalse] at hcli
      cases hcli

/-- Calls leave a tracer started. -/
theorem started_call {c : Call} (h : Step eng natives (.call c) w w') (hw : Started eng w) :
    Started eng w' := by
  intro hcli
  have hsame : w'.sessions.started = w.sessions.started := congrArg _ (sessions_call c h)
  exact hsame.trans (hw hcli)

theorem started_inner (h : Step eng natives e w w') (hinner : e.Inner eng.cli)
    (hw : Started eng w) : Started eng w' := by
  obtain ⟨c, rfl⟩ | ⟨s, -, rfl⟩ | ⟨-, ppid, rfl⟩ | rfl := inner_cases h hinner hw
  · exact started_call h hw
  · exact hw
  · exact hw
  · exact hw

/-- What every event in the course of a session keeps holds to its end. -/
theorem inner_run {I : World φ → Prop} {es : List (Event φ)}
    (hstep : ∀ {e w w'}, Step eng natives e w w' → e.Inner eng.cli → Started eng w → I w → I w')
    (hrun : Run (Step eng natives) v es w) (hinner : ∀ e ∈ es, e.Inner eng.cli)
    (hstarted : Started eng v) (hv : I v) : Started eng w ∧ I w := by
  induction hrun with
  | nil => exact ⟨hstarted, hv⟩
  | @snoc es e t u _ hlast ih =>
    obtain ⟨hstarted, ht⟩ := ih fun e he => hinner e (List.mem_append_left _ he)
    have hinner : e.Inner eng.cli := hinner e (by simp)
    exact ⟨started_inner hlast hinner hstarted, hstep hlast hinner hstarted ht⟩

/-- The process has just started a session. -/
def Opened (eng : Engine φ) (natives : CurlNatives φ) (v : World φ) : Prop :=
  ∃ origin past u e, origin.globals.provider = none ∧ Run (Step eng natives) origin past u ∧
    u.sessions.Starts eng.cli e ∧ Step eng natives e u v

/-- A session is started by `start_tracer`, in a state that the process has reached. -/
theorem Opened.start_of {I : World φ → Prop} (h : Opened eng natives v)
    (hreached : ∀ {origin past u}, origin.globals.provider = none →
      Run (Step eng natives) origin past u → I u)
    (hflag : ∀ u, I u → I u.withStarted) : ∃ u traceparent tracebaggage kind, I u ∧
      ¬ Refuses eng u.globals ∧ start_tracer eng traceparent tracebaggage kind u = .ok ((), v) := by
  obtain ⟨origin, past, u, e, hnew, hrun, hstarts, hstep⟩ := h
  have hu : I u := hreached hnew hrun
  cases e with
  | request_init =>
    obtain ⟨hskip, -⟩ | ⟨hserves, hstart⟩ := request_init_ends hstep
    · exact absurd hstarts hskip
    · exact ⟨u, _, _, _, hu, hserves.not_refuses, hstart⟩
  | start_cli_tracer args =>
    obtain ⟨hskip, -⟩ | ⟨hoffers, _, _, _, -, hstart⟩ :=
      start_cli_tracer_ends (ends_ignore_iff.mp hstep)
    · exact absurd hstarts hskip
    · exact ⟨u.withStarted, _, _, _, hflag u hu, hoffers.not_refuses_started, hstart⟩
  | _ => exact hstarts.elim

theorem Opened.start (h : Opened eng natives v) : ∃ u traceparent tracebaggage kind, Kept u ∧
    ¬ Refuses eng u.globals ∧
    start_tracer eng traceparent tracebaggage kind u = .ok ((), v) :=
  h.start_of kept_run fun _ hu => hu

theorem Opened.started (h : Opened eng natives v) : Started eng v := by
  obtain ⟨u, traceparent, tracebaggage, kind, -, heffective, hstart⟩ := h.start
  intro hcli
  have hsessions : v.sessions.started = u.sessions.started := by
    rw [sessions_start hstart heffective]
    rfl
  have hstarted : u.globals.is_started_cli_tracer = true := by
    by_contra hnot
    exact heffective ⟨hcli, .inr hnot⟩
  exact hsessions.trans hstarted

/-- A session can be ended for as long as it goes on. -/
theorem Opened.stops {es : List (Event φ)} (h : Opened eng natives v)
    (hrun : Run (Step eng natives) v es w) (hinner : ∀ e ∈ es, e.Inner eng.cli) :
    w.sessions.Stops eng.cli
      (if eng.cli = true then .shutdown_cli_tracer else .request_shutdown : Event φ) := by
  obtain ⟨hstarted, -⟩ := inner_run (I := fun _ => True) (fun _ _ _ _ => trivial) hrun hinner
    h.started trivial
  obtain ⟨origin, past, u, e, -, -, hstarts, hstart⟩ := h
  obtain ⟨henable, hcli⟩ := enabled_run (hrun.cons hstart)
  by_cases hmode : eng.cli = true
  · rw [if_pos hmode]
    cases e with
    | request_init => exact absurd hmode hstarts.2
    | start_cli_tracer args => exact ⟨hmode, hcli.trans hstarts.1.2.1, hstarted hmode⟩
    | _ => exact hstarts.elim
  · rw [if_neg hmode]
    cases e with
    | request_init => exact ⟨henable.trans hstarts.1, hmode⟩
    | start_cli_tracer args => exact absurd hstarts.1.1 hmode
    | _ => exact hstarts.elim

end opentelemetry
