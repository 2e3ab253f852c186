import OpentelemetryExt.Session.Slots

open assoc stateful run

namespace opentelemetry

variable {φ : Type} {eng : Engine φ} {natives : CurlNatives φ} {u v w w' : World φ}

/-- Whether a session is under way. -/
inductive Phase where
  | idle
  | active
deriving DecidableEq, Repr

namespace Phase

/-- Complete sessions one after the other, under one key: each is started, worked in and ended. -/
def next (cli : Bool) : Phase → Event φ → Option Phase
  | phase, .surround _ => some phase
  | active, .call _ => some active
  | idle, .request_init => if cli then none else some active
  | active, .request_shutdown => if cli then none else some idle
  | idle, .start_cli_tracer (some _) => if cli then some active else none
  | active, .shutdown_cli_tracer => if cli then some idle else none
  | _, _ => none

/-- How the phases go with the sessions that there are. -/
def Fits (cli : Bool) (phase : Phase) (t : Sessions) : Prop :=
  ∀ live, t.live = some live → (∀ key, key ≠ t.key cli → live key = false) ∧
    match phase with
    | idle => cli = false ∧ t.enable = true ∧ live (t.key cli) = false
    | active => live (t.key cli) = true ∧
        if cli then t.cli_enable = true ∧ t.started = true else t.enable = true

/-- The events that take the process from one phase to another. -/
theorem next_cases {cli : Bool} {phase phase' : Phase} {e : Event φ}
    (h : phase.next cli e = some phase') :
    (∃ s, e = .surround s ∧ phase' = phase) ∨
      (∃ c, e = .call c ∧ phase = active ∧ phase' = active) ∨
      (phase = idle ∧ phase' = active ∧ (cli = false ∧ e = .request_init ∨
        cli = true ∧ ∃ args, e = .start_cli_tracer (some args))) ∨
      (phase = active ∧ phase' = idle ∧ (cli = false ∧ e = .request_shutdown ∨
        cli = true ∧ e = .shutdown_cli_tracer)) := by
  unfold next at h
  split at h
  · cases h
    exact .inl ⟨_, rfl, rfl⟩
  · cases h
    exact .inr (.inl ⟨_, rfl, rfl, rfl⟩)
  · cases cli <;> cases h
    exact .inr (.inr (.inl ⟨rfl, rfl, .inl ⟨rfl, rfl⟩⟩))
  · cases cli <;> cases h
    exact .inr (.inr (.inr ⟨rfl, rfl, .inl ⟨rfl, rfl⟩⟩))
  · cases cli <;> cases h
    exact .inr (.inr (.inl ⟨rfl, rfl, .inr ⟨rfl, _, rfl⟩⟩))
  · cases cli <;> cases h
    exact .inr (.inr (.inr ⟨rfl, rfl, .inr ⟨rfl, rfl⟩⟩))
  · cases h

theorem Fits.opened {cli : Bool} {t : Sessions} (h : idle.Fits cli t)
    (heffective : if cli then t.cli_enable = true ∧ t.started = true else t.enable = true) :
    active.Fits cli (t.opened cli) := by
  rintro live ⟨⟩
  have hkey : (t.opened cli).key cli = t.key cli := rfl
  refine ⟨fun key hne => ?_, by rw [hkey, Function.update_self], heffective⟩
  rw [hkey] at hne
  rw [Function.update_of_ne hne]
  cases hlive : t.live with
  | none => rfl
  | some live => exact (h live hlive).1 key hne

theorem Fits.closed {cli : Bool} {t : Sessions} (h : active.Fits cli t) :
    idle.Fits cli (t.closed cli) := by
  intro live' hlive'
  cases hlive : t.live with
  | none => simp [Sessions.closed, hlive] at hlive'
  | some live =>
    obtain ⟨hothers, hcurrent, heffective⟩ := h live hlive
    simp only [Sessions.closed, hlive, hcurrent, if_true] at hlive' ⊢
    cases cli with
    | true => simp at hlive'
    | false =>
      simp only [Bool.false_eq_true, if_false, Option.some.injEq] at hlive' heffective
      subst hlive'
      refine ⟨fun key hne => ?_, rfl, heffective, Function.update_self _ _ _⟩
      have hne' : key ≠ t.key false := hne
      rw [Function.update_of_ne hne']
      exact hothers key hne

/-- The events of complete sessions keep the phase and the sessions in step. -/
theorem Fits.next {cli : Bool} {phase phase' : Phase} {t : Sessions} {e : Event φ}
    (h : phase.Fits cli t) (hnext : phase.next cli e = some phase') :
    phase'.Fits cli (t.next cli e) := by
  obtain ⟨s, rfl, rfl⟩ | ⟨c, rfl, rfl, rfl⟩ | ⟨rfl, rfl, ⟨rfl, rfl⟩ | ⟨rfl, args, rfl⟩⟩ |
    ⟨rfl, rfl, ⟨rfl, rfl⟩ | ⟨rfl, rfl⟩⟩ := next_cases hnext
  · exact h
  · exact h
  · rw [Sessions.next]
    split
    · exact h.opened (And.left ‹_›)
    · rename_i hskip
      intro live hlive
      obtain ⟨-, -, henable, -⟩ := h live hlive
      exact absurd ⟨henable, Bool.false_ne_true⟩ hskip
  · rw [Sessions.next]
    split
    · rename_i hoffers
      exact Fits.opened (t := { t with started := true }) h ⟨hoffers.1.2.1, rfl⟩
    · intro live hlive
      obtain ⟨-, hcli, -⟩ := h live hlive
      cases hcli
  · rw [Sessions.next]
    split
    · exact h.closed
    · rename_i hskip
      intro live hlive
      obtain ⟨-, -, henable⟩ := h live hlive
      exact absurd ⟨henable, Bool.false_ne_true⟩ hskip
  · rw [Sessions.next]
    split
    · exact h.closed
    · rename_i hskip
      intro live hlive
      obtain ⟨-, -, henable⟩ := h live hlive
      exact absurd ⟨rfl, henable⟩ hskip

end Phase

theorem World.slots_core (h : u.core = v.core) : u.slots = v.slots := by
  have hself (w : World φ) : w.core.slots = w.slots := rfl
  rw [← hself u, ← hself v, h]

theorem World.memory_core (h : u.core = v.core) : u.memory = v.memory := by
  have hself (w : World φ) : w.core.memory = w.memory := rfl
  rw [← hself u, ← hself v, h]

/-- The slots under other keys than the current one are untouched. -/
def Alone (eng : Engine φ) (w : World φ) : Prop := ∀ key, key ≠ w.key eng → w.slots key = {}

theorem Alone.of_slots (h : Alone eng w) (hslots : w'.slots = w.slots) (hppid : w'.ppid = w.ppid) :
    Alone eng w' := by
  intro key hne
  rw [hslots]
  exact h key (World.key_congr hppid ▸ hne)

theorem Alone.set {p : Provider} {s : Slot} (h : Alone eng w)
    (hslots : p.slots = w.slots) : Alone eng (w.withProvider (p.set (w.key eng) s)) := by
  intro key hne
  have hne' : key ≠ w.key eng := hne
  rw [World.slots_of_some (World.provider_withProvider _ _), Provider.set_ne p s hne', hslots]
  exact h key hne'

theorem alone_blind : Blind eng (Preserves (Alone (φ := φ) eng)) where
  memory _ _ h := h
  clock _ h := h
  uuids _ _ h := h
  slot hp _ _ h := h.set (World.slots_of_some hp).symm

theorem alone_call (c : Call) : Keeps (Preserves (Alone eng)) (c.run eng natives) :=
  alone_blind.built (fun _ _ h => h) (fun _ _ _ h => h) (Move.built_call c)

theorem World.slots_reset (w : World φ) : (w.reset eng).slots =
    Function.update w.slots (w.key eng) ((w.slots (w.key eng)).cleaned eng.cli) := by
  funext key
  by_cases hkey : key = w.key eng
  · subst hkey
    simp [World.slots, World.reset, World.withProvider, Provider.set]
  · simp [World.slots, World.reset, World.withProvider, Provider.set, hkey]

theorem Alone.reset (h : Alone eng w) : Alone eng (w.reset eng) := by
  intro key hne
  have hne' : key ≠ w.key eng := hne
  rw [World.slots_reset, Function.update_of_ne hne']
  exact h key hne'

theorem alone_start {traceparent tracebaggage : Bytes} {kind : SpanKind}
    (h : start_tracer eng traceparent tracebaggage kind w = .ok ((), w'))
    (heffective : ¬ Refuses eng w.globals) (hw : Alone eng w) : Alone eng w' := by
  obtain ⟨u, v, v₁, header, name, kind', q, m, hcore, hcreate, hparse, hbuilt, hrest, -⟩ :=
    start_tracer_ok h heffective
  have hppid : u.ppid = (w.reset eng).ppid := show u.core.ppid = _ by rw [hcore]; rfl
  have hu : Alone eng u := hw.reset.of_slots (World.slots_core hcore) hppid
  have hv : Alone eng v := by
    obtain ⟨v', p, hcreate', hp, rfl⟩ := Provider.createFirstSpan_ok hcreate
    exact Alone.set (alone_blind.spanwise.createSpan _ _ (.of_ok hcreate') hu)
      (World.slots_of_some hp).symm
  have hv₁ : Alone eng v₁ := alone_blind.parseTraceParent _ (.of_ok hparse) hv
  exact alone_blind.built (fun _ _ h => h) (fun _ _ _ h => h) hbuilt hrest hv₁

/-- A slot with nothing in it but a pointer to a resource, and the past of its baggage map. -/
def Slot.Spent (s : Slot) : Prop :=
  ∃ resource past, s = { resource := resource, baggage := { cleared := past } }

theorem Slot.spent_empty : ({} : Slot).Spent := ⟨none, [], rfl⟩

/-- That is what is left of a slot with a request. -/
theorem Slot.spent_cleaned {s : Slot} (cli : Bool) (h : s.request.isSome) :
    (s.cleaned cli).Spent := by
  refine ⟨s.resource, s.baggage.clear.cleared, ?_⟩
  rw [← Table.clear_eq]
  exact if_pos h

/-- A session that has a first span leaves nothing behind but, outside the CLI, a spent slot. -/
theorem shutdown_spent (h : shutdown_tracer eng w = .ok ((), w'))
    (heffective : ¬ Refuses eng w.globals) (hfirst : (w.slots (w.key eng)).firstSpan.isSome)
    (hw : Alone eng w) :
    Alone eng w' ∧ (w'.slots (w'.key eng)).Spent := by
  obtain ⟨p, u, hp, rfl, hend⟩ := shutdown_tracer_ok h heffective
  rw [World.slots_of_some hp] at hfirst
  obtain ⟨first, hfirst⟩ := Option.isSome_iff_exists.mp hfirst
  rw [hfirst] at hend
  obtain ⟨v, q, hrelated, hq, hrequest, rfl⟩ :=
    finishSession_ok alone_blind.spanwise (fun _ _ h => h) hend
  have hspent : ((q.set (v.key eng) ((q.slots (v.key eng)).cleaned eng.cli)).slots
      (v.key eng)).Spent := by
    rw [Provider.set_self]
    exact Slot.spent_cleaned eng.cli hrequest
  cases hcli : eng.cli with
  | true =>
    simp only [if_true]
    exact ⟨fun key _ => rfl, Slot.spent_empty⟩
  | false =>
    simp only [Bool.false_eq_true, if_false]
    refine ⟨Alone.of_slots ((hrelated hw).set (World.slots_of_some hq).symm) rfl rfl, ?_⟩
    exact hspent

/-- What complete sessions under one key keep: beside the current session there is nothing, and
between two sessions there is nothing in its place. -/
structure Orderly (eng : Engine φ) (phase : Phase) (w : World φ) : Prop where
  fits : phase.Fits eng.cli w.sessions
  alone : Alone eng w
  spent : phase = .idle → (w.slots (w.key eng)).Spent

theorem orderly_new (h : w.globals.provider = none) (phase : Phase) : Orderly eng phase w where
  fits := by
    intro live hlive
    simp [World.sessions, h] at hlive
  alone _ _ := by rw [World.slots, h]; rfl
  spent _ := by
    rw [World.slots, h]
    exact Slot.spent_empty

theorem Orderly.firstSpan {p : Provider} (h : Orderly eng .active w)
    (hp : w.globals.provider = some p) : (w.slots (w.key eng)).firstSpan.isSome := by
  rw [World.slots_of_some hp]
  exact (h.fits (fun key => (p.slots key).firstSpan.isSome) (by simp [World.sessions, hp])).2.1

/-- An event of complete sessions, step by step. -/
theorem orderly_step {phase phase' : Phase} {e : Event φ} (h : Step eng natives e w w')
    (hnext : phase.next eng.cli e = some phase') (hw : Orderly eng phase w) :
    Orderly eng phase' w' := by
  have hfits : phase'.Fits eng.cli w'.sessions := by
    rw [sessions_step h]
    exact hw.fits.next hnext
  obtain ⟨s, rfl, rfl⟩ | ⟨c, rfl, rfl, rfl⟩ | ⟨rfl, rfl, hstarts⟩ | ⟨rfl, rfl, hends⟩ :=
    Phase.next_cases hnext
  · obtain ⟨_, h⟩ | h := h <;> cases h
    exact ⟨hfits, hw.alone, hw.spent⟩
  · exact ⟨hfits, alone_call c h hw.alone, fun hidle => by cases hidle⟩
  · refine ⟨hfits, ?_, fun hidle => by cases hidle⟩
    obtain ⟨-, rfl⟩ | ⟨-, args, rfl⟩ := hstarts
    · obtain ⟨-, rfl⟩ | ⟨hserves, hstart⟩ := request_init_ends h
      · exact hw.alone
      · exact alone_start hstart hserves.not_refuses hw.alone
    · obtain ⟨-, rfl⟩ | ⟨hoffers, _, _, _, -, hstart⟩ :=
        start_cli_tracer_ends (ends_ignore_iff.mp h)
      · exact hw.alone
      · exact alone_start hstart hoffers.not_refuses_started (hw.alone.of_slots rfl rfl)
  · -- Without a provider there is nothing to end.
    have hleft (hp : w.globals.provider = none) (heq : w' = w) : Orderly eng .idle w' :=
      orderly_new (heq ▸ hp) _
    have hskipped (heq : w' = w) (hlive : w.globals.provider.isSome → False) :
        Orderly eng .idle w' :=
      hleft (Option.not_isSome_iff_eq_none.mp hlive) heq
    have hdone (hshutdown : shutdown_tracer eng w = .ok ((), w'))
        (heffective : ¬ Refuses eng w.globals) : Orderly eng .idle w' := by
      obtain ⟨p, -, hp, -⟩ := shutdown_tracer_ok hshutdown heffective
      obtain ⟨halone, hspent⟩ := shutdown_spent hshutdown heffective (hw.firstSpan hp) hw.alone
      exact ⟨hfits, halone, fun _ => hspent⟩
    obtain ⟨hcli, rfl⟩ | ⟨hcli, rfl⟩ := hends
    · obtain ⟨hskip, heq⟩ | ⟨hserves, hshutdown⟩ := request_shutdown_ends h
      · refine hskipped heq fun hsome => hskip ?_
        obtain ⟨p, hp⟩ := Option.isSome_iff_exists.mp hsome
        have henable := (hw.fits _ (by rw [World.sessions, hp]; rfl)).2.2
        rw [hcli] at henable
        exact ⟨henable, by simp [hcli]⟩
      · exact hdone hshutdown hserves.not_refuses
    · obtain ⟨hskip, heq⟩ | ⟨hoffers, hshutdown⟩ :=
        shutdown_cli_tracer_ends (ends_ignore_iff.mp h)
      · refine hskipped heq fun hsome => hskip ?_
        obtain ⟨p, hp⟩ := Option.isSome_iff_exists.mp hsome
        have henable := (hw.fits _ (by rw [World.sessions, hp]; rfl)).2.2
        rw [hcli] at henable
        exact ⟨hcli, henable⟩
      · exact hdone hshutdown hoffers.not_refuses

/-- Complete sessions, of whatever content, from a state without a provider. -/
theorem orderly_run {phase : Phase} {es : List (Event φ)} (hinit : w.globals.provider = none)
    (hrun : Run (Step eng natives) w es w')
    (hphases : es.foldlM (Phase.next eng.cli) .idle = some phase) : Orderly eng phase w' :=
  hrun.follows hphases (orderly_new hinit _) fun _ _ _ _ _ => orderly_step

end opentelemetry
