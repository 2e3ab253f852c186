import OpentelemetryExt.Session.Guard

open stateful run

namespace opentelemetry

variable {φ : Type} {eng : Engine φ} {natives : CurlNatives φ} {u v w w' : World φ}

/-- The slots under all keys have the property. -/
def Slotwise (P : Slot → Prop) (w : World φ) : Prop :=
  ∀ p, w.globals.provider = some p → ∀ key, P (p.slots key)

/-- A property of slots that starts and ends of sessions keep. -/
structure Slot.Steady (cli : Bool) (P : Slot → Prop) : Prop where
  empty : P {}
  cleaned {s : Slot} : P s → P (s.cleaned cli)
  request {s : Slot} (request resourceSpan resource : Nat) : P s →
    P { s with
      request := some request, resourceSpan := some resourceSpan, resource := some resource }
  firstSpan {s : Slot} (q : Nat) : s.request.isSome → P s → P { s with firstSpan := some q }
  sampled {s : Slot} (isSampled : Bool) : P s → P { s with is_sampled := isSampled }
  baggage {s : Slot} (baggage : RobinMap) : P s → P { s with baggage := baggage }

section

variable {P : Slot → Prop}

theorem Slotwise.of_provider (h : Slotwise P w) (heq : w'.globals.provider = w.globals.provider) :
    Slotwise P w' :=
  fun p hp => h p (heq ▸ hp)

theorem Slotwise.of_core (h : Slotwise P w) (heq : w'.core = w.core) : Slotwise P w' := by
  have hself (v : World φ) : v.core.globals.provider = v.globals.provider := rfl
  exact h.of_provider (by rw [← hself w', ← hself w, heq])

theorem Slotwise.withProvider {p : Provider} (h : ∀ key, P (p.slots key)) :
    Slotwise P (w.withProvider p) := by
  rintro q ⟨⟩
  exact h

theorem slotwise_set {p : Provider} {key : Option Nat} {s : Slot} (h : ∀ k, P (p.slots k))
    (hs : P s) : ∀ k, P ((p.set key s).slots k) := by
  intro k
  by_cases hk : k = key
  · subst hk
    rwa [Provider.set_self]
  · rw [Provider.set_ne p s hk]
    exact h k

/-- A change of the current slot. -/
theorem Slotwise.change {p : Provider} {s : Slot} (h : Slotwise P w)
    (hp : w.globals.provider = some p) (hs : P (p.slots (w.key eng)) → P s) :
    Slotwise P (w.withProvider (p.set (w.key eng) s)) :=
  .withProvider (slotwise_set (h p hp) (hs (h p hp _)))

/-- The creation of the first span makes sure of the request. -/
theorem createSpan_request {name : Bytes} {kind : SpanKind} {q : Nat}
    (h : Provider.createSpan eng name kind w = .ok (q, w')) :
    ∃ p, w'.globals.provider = some p ∧ (p.slots (w'.key eng)).request.isSome := by
  obtain ⟨rs, u, p, span, htracer, hp, hadded, -⟩ := Provider.createSpan_ok h
  rw [hadded.globals, World.key_congr hadded.ppid]
  obtain ⟨p', hp', ⟨hrequest, -, rfl⟩ | ⟨-, -, rfl⟩⟩ := Provider.getTracer_ok htracer
  · exact ⟨p', hp', hrequest⟩
  · exact ⟨_, rfl, by simp [World.withRequest]⟩

namespace Slot.Steady

theorem tolerates (h : Steady eng.cli P) {g : Grants}
    (hraises : g.raises → ∀ s message, P s → P { s with redisException := message }) :
    Tolerates eng g (Preserves (Slotwise P)) where
  memory _ _ hw := hw
  clock _ hw := hw
  uuids _ _ hw := hw
  request hp _ request resourceSpan resource hw :=
    hw.change hp (h.request request resourceSpan resource)
  baggage hp baggage hw := hw.change hp (h.baggage baggage)
  sampled _ hp isSampled hw := hw.change hp (h.sampled isSampled)
  exception hgrant hp message hw := hw.change hp (hraises hgrant _ message)
  php _ _ hw := hw
  headers _ _ _ hw := hw

theorem spanwise (h : Steady eng.cli P) : Spanwise eng (Preserves (Slotwise P)) :=
  (h.tolerates (g := .none) False.elim).toSpanwise

theorem clean (h : Steady eng.cli P) {p : Provider} (hp : w.globals.provider = some p)
    (hw : Slotwise P w) : Slotwise P (w.cleaned eng p) :=
  .withProvider (slotwise_set (hw p hp) (h.cleaned (hw p hp _)))

theorem reset (h : Steady eng.cli P) (hw : Slotwise P w) : Slotwise P (w.reset eng) := by
  have hslots : ∀ key, P ((w.globals.provider.getD {}).slots key) := by
    cases hp : w.globals.provider with
    | none => exact fun key => h.empty
    | some p => exact hw p hp
  rintro q ⟨⟩
  exact slotwise_set hslots (h.cleaned (hslots _))

theorem createFirstSpan (h : Steady eng.cli P) {name : Bytes} {kind : SpanKind} {q : Nat}
    (hcreate : Provider.createFirstSpan eng name kind w = .ok (q, w')) (hw : Slotwise P w) :
    Slotwise P w' := by
  obtain ⟨v, p, hspan, hp, rfl⟩ := Provider.createFirstSpan_ok hcreate
  have hv : Slotwise P v := h.spanwise.createSpan _ _ (.of_ok hspan) hw
  obtain ⟨p', hp', hrequest⟩ := createSpan_request hspan
  obtain rfl : p = p' := Option.some.inj (hp.symm.trans hp')
  exact hv.change hp (h.firstSpan q hrequest)

theorem parseTraceParent (h : Steady eng.cli P) (header : Bytes) :
    Keeps (Preserves (Slotwise P)) (Provider.parseTraceParent eng header) := by
  refine parseTraceParent_keeps (fun span f _ => h.spanwise.modifySpan span f) (fun b => ?_) header
  intro w w' hends hw
  obtain ⟨p, hp, rfl⟩ := modifySlot_ends hends
  exact hw.change hp (h.sampled b)

theorem start (h : Steady eng.cli P) {traceparent tracebaggage : Bytes} {kind : SpanKind}
    (hstart : start_tracer eng traceparent tracebaggage kind w = .ok ((), w'))
    (hw : Slotwise P w) : Slotwise P w' := by
  by_cases hrefuses : Refuses eng w.globals
  · obtain ⟨g, _, hglobals, hrest⟩ := bind_ok_iff.mp hstart
    cases hglobals
    rw [stateful.ite_apply, if_pos (show eng.cli = true ∧ _ from hrefuses)] at hrest
    cases hrest
    exact hw
  · obtain ⟨u, v, v₁, header, name, kind', q, m, hcore, hcreate, hparse, hbuilt, hrest, -⟩ :=
      start_tracer_ok hstart hrefuses
    have hu : Slotwise P u := (h.reset hw).of_core hcore
    have hv : Slotwise P v := h.createFirstSpan hcreate hu
    have hv₁ : Slotwise P v₁ := h.parseTraceParent header (.of_ok hparse) hv
    exact (h.tolerates False.elim).built hbuilt hrest hv₁

theorem shutdown (h : Steady eng.cli P) (hshutdown : shutdown_tracer eng w = .ok ((), w'))
    (hw : Slotwise P w) : Slotwise P w' := by
  by_cases hrefuses : Refuses eng w.globals
  · obtain ⟨g, _, hglobals, hrest⟩ := bind_ok_iff.mp hshutdown
    cases hglobals
    rw [stateful.ite_apply, if_pos (show eng.cli = true ∧ _ from hrefuses)] at hrest
    cases hrest
    exact hw.of_provider rfl
  · obtain ⟨p, u, hp, rfl, hend⟩ := shutdown_tracer_ok hshutdown hrefuses
    refine Slotwise.of_provider (w := u) ?_ rfl
    cases hfirst : (p.slots (w.key eng)).firstSpan with
    | none =>
      rw [hfirst] at hend
      subst hend
      exact hw
    | some first =>
      rw [hfirst] at hend
      obtain ⟨v, q, hrelated, hq, -, rfl⟩ := finishSession_ok h.spanwise (fun _ _ hv => hv) hend
      split
      · rintro q ⟨⟩
      · exact h.clean hq (hrelated hw)

/-- If calls keep it as well, all slots have it in every state that a process reaches. -/
theorem run (h : Steady eng.cli P)
    (hcalls : ∀ c : Call, Keeps (Preserves (Slotwise P)) (c.run eng natives))
    {es : List (Event φ)} (hinit : w.globals.provider = none)
    (hrun : Run (Step eng natives) w es w') : Slotwise P w' := by
  refine hrun.invariant (I := Slotwise P) (fun p hp => by simp [hinit] at hp)
    fun e u v hstep hu => ?_
  cases e with
  | call c => exact hcalls c hstep hu
  | surround s =>
    obtain ⟨_, h⟩ | h := hstep <;> cases h
    exact hu
  | reparent ppid =>
    obtain ⟨_, h⟩ | h := hstep <;> cases h
    exact hu
  | request_init =>
    obtain ⟨-, rfl⟩ | ⟨-, hstart⟩ := request_init_ends hstep
    · exact hu
    · exact h.start hstart hu
  | request_shutdown =>
    obtain ⟨-, rfl⟩ | ⟨-, hshutdown⟩ := request_shutdown_ends hstep
    · exact hu
    · exact h.shutdown hshutdown hu
  | start_cli_tracer args =>
    obtain ⟨-, rfl⟩ | ⟨-, _, _, _, -, hstart⟩ := start_cli_tracer_ends (ends_ignore_iff.mp hstep)
    · exact hu
    · exact h.start hstart (hu.of_provider rfl)
  | shutdown_cli_tracer =>
    obtain ⟨-, rfl⟩ | ⟨-, hshutdown⟩ := shutdown_cli_tracer_ends (ends_ignore_iff.mp hstep)
    · exact hu
    · exact h.shutdown hshutdown hu

end Slot.Steady

end

/-- A first span belongs to a request. -/
def Slot.Kept (s : Slot) : Prop := s.firstSpan.isSome → s.request.isSome

/-- The slots under all keys are. -/
def Kept (w : World φ) : Prop := ∀ p, w.globals.provider = some p → ∀ key, (p.slots key).Kept

/-- A slot that has been cleaned has neither. -/
theorem Slot.Kept.cleaned_none {s : Slot} (cli : Bool) (h : s.Kept) :
    (s.cleaned cli).request = none ∧ (s.cleaned cli).firstSpan = none := by
  unfold Slot.Kept at h
  unfold Slot.cleaned
  cases hr : s.request with
  | some r => simp
  | none =>
    have hfirst : s.firstSpan = none := by
      rw [hr] at h
      exact Option.not_isSome_iff_eq_none.mp fun hsome => Bool.false_ne_true (h hsome)
    simp only [Option.isSome_none, Bool.false_eq_true, if_false]
    split
    · exact ⟨rfl, hfirst⟩
    · exact ⟨hr, hfirst⟩

theorem Slot.kept_steady (cli : Bool) : Slot.Steady cli Slot.Kept where
  empty hfirst := hfirst
  cleaned h := by
    obtain ⟨-, hfirst⟩ := h.cleaned_none cli
    intro hsome
    rw [hfirst] at hsome
    cases hsome
  request _ _ _ _ _ := rfl
  firstSpan _ hrequest _ _ := hrequest
  sampled _ h := h
  baggage _ h := h

/-- In every state that a process reaches, each first span belongs to a request. -/
theorem kept_run {es : List (Event φ)} (hinit : w.globals.provider = none)
    (hrun : Run (Step eng natives) w es w') : Kept w' :=
  (Slot.kept_steady eng.cli).run
    (fun c => ((Slot.kept_steady eng.cli).tolerates fun _ _ _ h => h).built (Move.built_call c))
    hinit hrun

end opentelemetry
