import OpentelemetryExt.Session.Phases
import OpentelemetryExt.Session.Ended

open heap stateful run

namespace opentelemetry

variable {φ : Type} {eng : Engine φ} {natives : CurlNatives φ} {u v w w' : World φ}
variable {k : Option Nat}

/-- The request under a key is a message with one entry, which has the first span of the key. -/
structure Owns (w : World φ) (k : Option Nat) (request rs : Nat) (r : ResourceSpans) : Prop where
  slot : (w.slots k).request = some request
  entry : (w.slots k).resourceSpan = some rs
  message : w.memory.requests.cell request = some ⟨[rs]⟩
  cell : w.memory.resource_spans.cell rs = some r
  first : ∀ f, (w.slots k).firstSpan = some f → f ∈ r.spans

/-- Under whatever key there is a first span or a request, there is a whole request, and no two
keys have the same entry. -/
structure Parted (w : World φ) : Prop where
  owns : ∀ k, (w.slots k).firstSpan.isSome ∨ (w.slots k).request.isSome →
    ∃ request rs r, Owns w k request rs r
  apart : ∀ k k' rs, (w.slots k).request.isSome → (w.slots k').request.isSome →
    (w.slots k).resourceSpan = some rs → (w.slots k').resourceSpan = some rs → k = k'

/-- What a slot points to. -/
def Slot.pointers (s : Slot) : Option Nat × Option Nat × Option Nat :=
  (s.firstSpan, s.request, s.resourceSpan)

theorem Owns.of_pointers {request rs : Nat} {r : ResourceSpans} (h : Owns w k request rs r)
    (hslot : (w'.slots k).pointers = (w.slots k).pointers)
    (hmessage : w'.memory.requests.cell request = some ⟨[rs]⟩)
    (hcell : w'.memory.resource_spans.cell rs = some r) : Owns w' k request rs r := by
  simp only [Slot.pointers, Prod.mk.injEq] at hslot
  obtain ⟨hfirst, hrequest, hentry⟩ := hslot
  exact ⟨hrequest.trans h.slot, hentry.trans h.entry, hmessage, hcell, hfirst ▸ h.first⟩

theorem parted_none (h : w.globals.provider = none) : Parted w := by
  have hslots (k : Option Nat) : w.slots k = {} := by rw [World.slots, h, Option.getD_none]
  constructor
  · intro k hk
    rw [hslots] at hk
    simp at hk
  · intro k k' rs hk
    rw [hslots] at hk
    cases hk

theorem pointers_shape (h : w'.shape = w.shape) (k : Option Nat) :
    (w'.slots k).pointers = (w.slots k).pointers := by
  obtain ⟨-, hslots⟩ := Prod.mk.inj (Prod.mk.inj h).2
  unfold World.slots
  cases hp : w.globals.provider with
  | none =>
    rw [hp, Option.map_none, Option.map_eq_none_iff] at hslots
    rw [hslots]
  | some p =>
    rw [hp, Option.map_some, Option.map_eq_some_iff] at hslots
    obtain ⟨p', hp', hsame⟩ := hslots
    rw [hp']
    exact congrFun hsame k

/-- It is all in the pointers and the two heaps. -/
theorem Parted.of_heaps (h : Parted w)
    (hslots : ∀ k, (w'.slots k).pointers = (w.slots k).pointers)
    (hrequests : w'.memory.requests = w.memory.requests)
    (hentries : w'.memory.resource_spans = w.memory.resource_spans) : Parted w' := by
  have hslot (k : Option Nat) := hslots k
  simp only [Slot.pointers, Prod.mk.injEq] at hslot
  constructor
  · intro k hk
    obtain ⟨hfirst, hrequest, -⟩ := hslot k
    rw [hfirst, hrequest] at hk
    obtain ⟨request, rs, r, howns⟩ := h.owns k hk
    refine ⟨request, rs, r, howns.of_pointers (hslots k) ?_ ?_⟩
    · rw [hrequests, howns.message]
    · rw [hentries, howns.cell]
  · intro k k' rs hk hk' hrs hrs'
    obtain ⟨-, hrequest, hentry⟩ := hslot k
    obtain ⟨-, hrequest', hentry'⟩ := hslot k'
    exact h.apart k k' rs (hrequest ▸ hk) (hrequest' ▸ hk') (hentry ▸ hrs) (hentry' ▸ hrs')

theorem Parted.of_shape (h : Parted w) (hshape : w'.shape = w.shape) : Parted w' := by
  obtain ⟨hheaps, -⟩ := Prod.mk.inj hshape
  obtain ⟨hentries, hrequests⟩ := Prod.mk.inj hheaps
  exact h.of_heaps (pointers_shape hshape) hrequests hentries

theorem slots_set (eng : Engine φ) {p : Provider} (hp : w.globals.provider = some p) (s : Slot)
    (k : Option Nat) : (w.withProvider (p.set (w.key eng) s)).slots k =
      if k = w.key eng then s else w.slots k := by
  rw [World.slots_of_some hp]
  by_cases hk : k = w.key eng
  · subst hk
    rw [if_pos rfl]
    exact Provider.set_self _ _ _
  · rw [if_neg hk]
    exact Provider.set_ne _ _ hk

/-- A new request takes addresses that no other has. -/
theorem Parted.getTracer {rs : Nat} (h : Parted w)
    (htracer : Provider.getTracer eng w = .ok (rs, u)) :
    Parted u ∧ ∃ request r, Owns u (u.key eng) request rs r := by
  obtain ⟨p, hp, ⟨hrequest, hrs, rfl⟩ | ⟨hnone, rfl, rfl⟩⟩ := Provider.getTracer_ok htracer
  · rw [← World.slots_of_some hp] at hrequest hrs
    obtain ⟨request, rs', r, howns⟩ := h.owns _ (.inr hrequest)
    obtain rfl : rs = rs' := Option.some.inj (hrs.symm.trans howns.entry)
    exact ⟨h, request, r, howns⟩
  · rw [← World.slots_of_some hp] at hnone
    have hfirst : (w.slots (w.key eng)).firstSpan = none := by
      by_contra hsome
      obtain ⟨request, rs, r, howns⟩ := h.owns _ (.inl (Option.isSome_iff_ne_none.mpr hsome))
      rw [howns.slot] at hnone
      cases hnone
    have hslots (k : Option Nat) : (w.withRequest eng p).slots k =
        if k = w.key eng then { w.slots k with
          request := some w.memory.requests.next
          resourceSpan := some w.memory.resource_spans.next
          resource := some w.memory.resources.next } else w.slots k := by
      refine (slots_set eng hp _ k).trans ?_
      by_cases hk : k = w.key eng
      · rw [if_pos hk, if_pos hk, World.slots_of_some hp, hk]
      · rw [if_neg hk, if_neg hk]
    have hold {k : Option Nat} (hk : k ≠ w.key eng) {request rs : Nat} {r : ResourceSpans}
        (howns : Owns w k request rs r) : Owns (w.withRequest eng p) k request rs r := by
      refine howns.of_pointers (by rw [hslots, if_neg hk]) ?_ ?_
      · exact Heap.cell_alloc_of_some howns.message
      · exact Heap.cell_alloc_of_some howns.cell
    have hnew : Owns (w.withRequest eng p) (w.key eng) w.memory.requests.next
        w.memory.resource_spans.next {} := by
      have hslot := hslots (w.key eng)
      rw [if_pos rfl] at hslot
      refine ⟨by rw [hslot], by rw [hslot], Heap.cell_alloc_self _ _, Heap.cell_alloc_self _ _, ?_⟩
      intro f hf
      rw [hslot, hfirst] at hf
      cases hf
    have hbelow {k : Option Nat} (hk : k ≠ w.key eng) {rs : Nat}
        (hrequest : ((w.withRequest eng p).slots k).request.isSome)
        (hrs : ((w.withRequest eng p).slots k).resourceSpan = some rs) :
        rs < w.memory.resource_spans.next := by
      rw [hslots, if_neg hk] at hrequest hrs
      obtain ⟨request, rs', r, howns⟩ := h.owns k (.inr hrequest)
      obtain rfl : rs = rs' := Option.some.inj (hrs.symm.trans howns.entry)
      exact Heap.lt_next howns.cell
    have hself {rs : Nat}
        (hrs : ((w.withRequest eng p).slots (w.key eng)).resourceSpan = some rs) :
        rs = w.memory.resource_spans.next := Option.some.inj (hrs.symm.trans hnew.entry)
    refine ⟨⟨fun k hk => ?_, fun k k' rs hk hk' hrs hrs' => ?_⟩, _, _, hnew⟩
    · by_cases heq : k = w.key eng
      · subst heq
        exact ⟨_, _, _, hnew⟩
      · rw [hslots, if_neg heq] at hk
        obtain ⟨request, rs, r, howns⟩ := h.owns k hk
        exact ⟨request, rs, r, hold heq howns⟩
    · by_cases heq : k = w.key eng <;> by_cases heq' : k' = w.key eng
      · rw [heq, heq']
      · subst heq
        have hlt := hbelow heq' hk' hrs'
        have hnext := hself hrs
        omega
      · subst heq'
        have hlt := hbelow heq hk hrs
        have hnext := hself hrs'
        omega
      · rw [hslots, if_neg heq] at hk hrs
        rw [hslots, if_neg heq'] at hk' hrs'
        exact h.apart k k' rs hk hk' hrs hrs'

/-- A new span goes into the request under the current key. -/
theorem Parted.createSpan {name : Bytes} {kind : SpanKind} {q : Nat} (h : Parted w)
    (hcreate : Provider.createSpan eng name kind w = .ok (q, v)) :
    Parted v ∧ ∃ request rs r, Owns v (v.key eng) request rs r ∧ q ∈ r.spans := by
  obtain ⟨rs, u, p, span, htracer, -, hadded, -⟩ := Provider.createSpan_ok hcreate
  obtain ⟨hu, request, r, howns⟩ := h.getTracer htracer
  have hslots : v.slots = u.slots := by rw [World.slots, hadded.globals]; rfl
  have hkey : v.key eng = u.key eng := World.key_congr hadded.ppid
  have hkept {k : Option Nat} {request' rs' : Nat} {r' : ResourceSpans}
      (howns' : Owns u k request' rs' r') :
      ∃ r'', Owns v k request' rs' r'' ∧ (rs' = rs → q ∈ r''.spans) := by
    have hslot : (v.slots k).pointers = (u.slots k).pointers := by rw [hslots]
    have hmessage : v.memory.requests.cell request' = some ⟨[rs']⟩ := by
      rw [hadded.memory]
      exact howns'.message
    by_cases hrs : rs' = rs
    · subst hrs
      have hcell : v.memory.resource_spans.cell rs' = some { r' with spans := r'.spans ++ [q] } := by
        rw [hadded.memory, Heap.cell_modify_self, howns'.cell, Option.map_some]
      refine ⟨_, ⟨?_, ?_, hmessage, hcell, fun f hf => ?_⟩, fun _ => by simp⟩
      · rw [hslots, howns'.slot]
      · rw [hslots, howns'.entry]
      · rw [hslots] at hf
        exact List.mem_append_left _ (howns'.first f hf)
    · have hcell : v.memory.resource_spans.cell rs' = some r' := by
        rw [hadded.memory, Heap.cell_modify_ne hrs, howns'.cell]
      exact ⟨r', howns'.of_pointers hslot hmessage hcell, fun heq => absurd heq hrs⟩
  obtain ⟨r', howns', hq⟩ := hkept howns
  refine ⟨⟨fun k hk => ?_, ?_⟩, request, rs, r', hkey ▸ howns', hq rfl⟩
  · rw [hslots] at hk
    obtain ⟨request', rs', r', howns⟩ := hu.owns k hk
    obtain ⟨r'', howns', -⟩ := hkept howns
    exact ⟨request', rs', r'', howns'⟩
  · rw [hslots]
    exact hu.apart

theorem Parted.createFirstSpan {name : Bytes} {kind : SpanKind} {q : Nat} (h : Parted w)
    (hcreate : Provider.createFirstSpan eng name kind w = .ok (q, w')) : Parted w' := by
  obtain ⟨v, p, hspan, hp, rfl⟩ := Provider.createFirstSpan_ok hcreate
  obtain ⟨hv, request, rs, r, howns, hq⟩ := h.createSpan hspan
  have hslots := slots_set eng hp { p.slots (v.key eng) with firstSpan := some q }
  rw [← World.slots_of_some hp] at hslots
  have hsame (k : Option Nat) : ((v.withProvider (p.set (v.key eng) { v.slots (v.key eng) with
      firstSpan := some q })).slots k).request = (v.slots k).request ∧
      ((v.withProvider (p.set (v.key eng) { v.slots (v.key eng) with
      firstSpan := some q })).slots k).resourceSpan = (v.slots k).resourceSpan := by
    rw [hslots]
    split
    · subst_vars
      exact ⟨rfl, rfl⟩
    · exact ⟨rfl, rfl⟩
  rw [← World.slots_of_some hp]
  constructor
  · intro k hk
    by_cases heq : k = v.key eng
    · subst heq
      refine ⟨request, rs, r, ?_, ?_, howns.message, howns.cell, fun f hf => ?_⟩
      · rw [(hsame _).1, howns.slot]
      · rw [(hsame _).2, howns.entry]
      · rw [hslots, if_pos rfl] at hf
        obtain rfl := Option.some.inj hf
        exact hq
    · rw [hslots, if_neg heq] at hk
      obtain ⟨request, rs, r, howns⟩ := hv.owns k hk
      refine ⟨request, rs, r, howns.of_pointers ?_ howns.message howns.cell⟩
      rw [hslots, if_neg heq]
  · intro k k' rs hk hk' hrs hrs'
    rw [(hsame _).1] at hk hk'
    rw [(hsame _).2] at hrs hrs'
    exact hv.apart k k' rs hk hk' hrs hrs'

/-- A reset deletes the request under the current key and what it owns, and no other. -/
theorem Parted.reset (h : Parted w) : Parted (w.reset eng) := by
  have hslots : (w.reset eng).slots = _ := World.slots_reset w
  have hself : ((w.reset eng).slots (w.key eng)).firstSpan = none ∧
      ((w.reset eng).slots (w.key eng)).request = none := by
    rw [hslots, Function.update_self, Slot.cleaned]
    cases hrequest : (w.slots (w.key eng)).request with
    | some request => exact ⟨rfl, rfl⟩
    | none =>
      have hfirst : (w.slots (w.key eng)).firstSpan = none := by
        by_contra hsome
        obtain ⟨request, rs, r, howns⟩ := h.owns _ (.inl (Option.isSome_iff_ne_none.mpr hsome))
        rw [howns.slot] at hrequest
        cases hrequest
      cases eng.cli <;> simp [hfirst, hrequest]
  have hother {k : Option Nat} (hk : k ≠ w.key eng) : (w.reset eng).slots k = w.slots k := by
    rw [hslots, Function.update_of_ne hk]
  have hkept {k : Option Nat} (hk : k ≠ w.key eng) {request rs : Nat} {r : ResourceSpans}
      (howns : Owns w k request rs r) : Owns (w.reset eng) k request rs r := by
    have hmemory : (w.reset eng).memory = w.memory.cleaned (w.slots (w.key eng)) := rfl
    cases hrequest : (w.slots (w.key eng)).request with
    | none =>
      have hsame : (w.reset eng).memory = w.memory := by rw [hmemory, Memory.cleaned, hrequest]
      refine howns.of_pointers (by rw [hother hk]) ?_ ?_
      · rw [hsame, howns.message]
      · rw [hsame, howns.cell]
    | some request' =>
      obtain ⟨request'', rs', r', howns'⟩ := h.owns _ (.inr (by rw [hrequest]; rfl))
      obtain rfl : request' = request'' := Option.some.inj (hrequest.symm.trans howns'.slot)
      have hdeleted : (w.reset eng).memory = w.memory.deleteRequest request' ⟨[rs']⟩ := by
        rw [hmemory, Memory.cleaned, hrequest]
        simp only [howns'.message, Option.map_some, Option.getD_some]
      have hne : rs ≠ rs' := by
        rintro rfl
        refine hk (h.apart _ _ rs ?_ ?_ howns.entry howns'.entry)
        · rw [howns.slot]
          rfl
        · rw [howns'.slot]
          rfl
      have hnerequest : request ≠ request' := by
        rintro rfl
        have hsame := Option.some.inj (howns.message.symm.trans howns'.message)
        simp only [ExportTraceServiceRequest.mk.injEq, List.cons.injEq, and_true] at hsame
        exact hne hsame
      refine howns.of_pointers (by rw [hother hk]) ?_ ?_
      · rw [hdeleted]
        simp [Memory.deleteRequest, Heap.free, hnerequest, howns.message]
      · rw [hdeleted]
        simp [Memory.deleteRequest, Heap.free, hne, howns.cell]
  constructor
  · intro k hk
    by_cases heq : k = w.key eng
    · subst heq
      rw [hself.1, hself.2] at hk
      simp at hk
    · rw [hother heq] at hk
      obtain ⟨request, rs, r, howns⟩ := h.owns k hk
      exact ⟨request, rs, r, hkept heq howns⟩
  · intro k k' rs hk hk' hrs hrs'
    by_cases heq : k = w.key eng
    · subst heq
      rw [hself.2] at hk
      cases hk
    · by_cases heq' : k' = w.key eng
      · subst heq'
        rw [hself.2] at hk'
        cases hk'
      · rw [hother heq] at hk hrs
        rw [hother heq'] at hk' hrs'
        exact h.apart k k' rs hk hk' hrs hrs'

/-- An operation creates a child span, or leaves the layout and the number of spans alone. -/
theorem Op.layout {α : Type} {stores : Prop} {m : M φ α} (h : Op eng stores m)
    (hends : Ends m w w') :
    (w'.shape = w.shape ∧ w'.memory.spans.next = w.memory.spans.next) ∨
      ∃ name kind q, Provider.createChildSpan eng name kind w = .ok (q, w') := by
  cases h with
  | createChildSpan name kind =>
    obtain ⟨q, hok⟩ := (Direct.createChildSpan name kind).ok hends
    exact .inr ⟨name, kind, q, hok⟩
  | edit span hf =>
    have hshape := shape_modifySpan _ _ hends
    obtain ⟨-, rfl⟩ := modifySpan_ends hends
    exact .inl ⟨hshape, rfl⟩
  | annotate hf =>
    have hshape := shape_modifySlot (fun s => (hf s).2.2.2) (fun s => (hf s).1)
      (fun s => (hf s).2.1) hends
    obtain ⟨p, hp, rfl⟩ := modifySlot_ends hends
    exact .inl ⟨hshape, rfl⟩
  | addResourceAttribute resource kv =>
    obtain ⟨hspans, hshape⟩ := addResourceAttribute_ends hends
    exact .inl ⟨hshape, by rw [hspans]⟩
  | tick =>
    obtain ⟨_, h⟩ | h := hends <;> cases h
    exact .inl ⟨rfl, rfl⟩
  | php state =>
    obtain ⟨_, h⟩ | h := hends <;> cases h
    exact .inl ⟨rfl, rfl⟩
  | headers _ entries =>
    obtain ⟨_, h⟩ | h := hends <;> cases h
    exact .inl ⟨rfl, rfl⟩

theorem Op.parted {α : Type} {stores : Prop} {m : M φ α} (h : Op eng stores m) :
    Keeps (Preserves Parted) m := by
  intro w w' hends hw
  obtain ⟨hshape, -⟩ | ⟨name, kind, q, hcreate⟩ := h.layout hends
  · exact hw.of_shape hshape
  · obtain ⟨v, f, parent, -, hspan, rfl⟩ := createChildSpan_ok hcreate
    exact (hw.createSpan hspan).1.of_shape rfl

theorem Parted.start {traceparent tracebaggage : Bytes} {kind : SpanKind} (h : Parted w)
    (hstart : start_tracer eng traceparent tracebaggage kind w = .ok ((), w'))
    (heffective : ¬ Refuses eng w.globals) : Parted w' := by
  obtain ⟨u, v, v₁, header, name, kind', q, m, hcore, hcreate, hparse, hbuilt, hrest, -⟩ :=
    start_tracer_ok hstart heffective
  have hmemory : u.memory = (w.reset eng).memory := World.memory_core hcore
  have hreset : Parted (w.reset eng) := h.reset
  have hu : Parted u := by
    refine hreset.of_heaps (fun k => ?_) ?_ ?_
    · rw [World.slots_core hcore]
    · rw [hmemory]
    · rw [hmemory]
  have hv₁ : Parted v₁ :=
    (hu.createFirstSpan hcreate).of_shape (shape_parseTraceParent header (.of_ok hparse))
  exact (hbuilt.trans Move.built_op).keeps Op.parted hrest hv₁

/-- In the CLI the end of a session takes the requests of all keys with it. -/
theorem shutdown_provider (hcli : eng.cli = true)
    (hshutdown : shutdown_tracer eng w = .ok ((), w')) (heffective : ¬ Refuses eng w.globals) :
    w'.globals.provider = none ∨
      w.first eng = none ∧ w'.slots = w.slots ∧ w'.memory = w.memory ∧ w'.ppid = w.ppid := by
  obtain ⟨p, u, hp, rfl, hend⟩ := shutdown_tracer_ok hshutdown heffective
  cases hfirst : (p.slots (w.key eng)).firstSpan with
  | none =>
    rw [hfirst] at hend
    subst hend
    rw [← World.slots_of_some hp] at hfirst
    exact .inr ⟨hfirst, rfl, rfl, rfl⟩
  | some first =>
    rw [hfirst] at hend
    obtain ⟨v, q, -, -, -, rfl⟩ :=
      finishSession_ok first_blind.spanwise (fun _ _ => rfl) hend
    rw [if_pos hcli]
    exact .inl rfl

theorem parted_step {e : Event φ} (hcli : eng.cli = true) (h : Step eng natives e w w')
    (hw : Parted w) : Parted w' := by
  cases e with
  | call c => exact (Op.built_call c).keeps Op.parted h hw
  | surround s =>
    obtain ⟨_, h⟩ | h := h <;> cases h
    exact hw.of_shape rfl
  | reparent ppid =>
    obtain ⟨_, h⟩ | h := h <;> cases h
    exact hw.of_heaps (fun _ => rfl) rfl rfl
  | request_init =>
    obtain ⟨-, rfl⟩ | ⟨hserves, -⟩ := request_init_ends h
    · exact hw
    · exact absurd hcli hserves.2
  | request_shutdown =>
    obtain ⟨-, rfl⟩ | ⟨hserves, -⟩ := request_shutdown_ends h
    · exact hw
    · exact absurd hcli hserves.2
  | start_cli_tracer args =>
    obtain ⟨-, rfl⟩ | ⟨hoffers, _, _, _, -, hstart⟩ := start_cli_tracer_ends (ends_ignore_iff.mp h)
    · exact hw
    · have hstarted : Parted w.withStarted := hw.of_heaps (fun _ => rfl) rfl rfl
      exact hstarted.start hstart hoffers.not_refuses_started
  | shutdown_cli_tracer =>
    obtain ⟨-, rfl⟩ | ⟨hoffers, hshutdown⟩ := shutdown_cli_tracer_ends (ends_ignore_iff.mp h)
    · exact hw
    · obtain hnone | ⟨-, hslots, hmemory, -⟩ := shutdown_provider hcli hshutdown hoffers.not_refuses
      · exact parted_none hnone
      · exact hw.of_heaps (fun k => by rw [hslots]) (by rw [hmemory]) (by rw [hmemory])

/-- In every state that a CLI process reaches, the requests under different keys are apart. -/
theorem parted_run {es : List (Event φ)} (hcli : eng.cli = true) (hinit : w.globals.provider = none)
    (hrun : Run (Step eng natives) w es w') : Parted w' :=
  hrun.invariant (parted_none hinit) fun _ _ _ h => parted_step hcli h

/-- The addresses below `n` have been given out. -/
def Past (n : Nat) (w : World φ) : Prop := n ≤ w.memory.spans.next

variable {n : Nat}

theorem Past.of_spans (h : Past n w) (hspans : w'.memory.spans.next = w.memory.spans.next) :
    Past n w' := by
  unfold Past
  rwa [hspans]

theorem past_createSpan {name : Bytes} {kind : SpanKind} {q : Nat} (hw : Past n w)
    (h : Provider.createSpan eng name kind w = .ok (q, w')) : Past n w' := by
  obtain ⟨s, hspans, -⟩ := createSpan_spans h
  unfold Past
  rw [hspans]
  exact hw.trans (Nat.le_succ _)

theorem Op.past {α : Type} {stores : Prop} {m : M φ α} (h : Op eng stores m) :
    Keeps (Preserves (Past n)) m := by
  intro w w' hends hw
  obtain ⟨-, hnext⟩ | ⟨name, kind, q, hcreate⟩ := h.layout hends
  · exact hw.of_spans hnext
  · obtain ⟨v, f, parent, -, hspan, rfl⟩ := createChildSpan_ok hcreate
    exact (past_createSpan hw hspan).of_spans rfl

theorem next_cleaned (w : World φ) (p : Provider) :
    (w.cleaned eng p).memory.spans.next = w.memory.spans.next := by
  change (w.memory.cleaned _).spans.next = _
  unfold Memory.cleaned
  split
  · rename_i request hrequest
    cases w.memory.requests.cell request <;> rfl
  · rfl

/-- A start gives its first span an address that has not been given out. -/
theorem start_first {traceparent tracebaggage : Bytes} {kind : SpanKind} (hw : Past n w)
    (hstart : start_tracer eng traceparent tracebaggage kind w = .ok ((), w'))
    (heffective : ¬ Refuses eng w.globals) :
    Past n w' ∧ ∃ f, w'.first eng = some f ∧ n ≤ f ∧ w'.ppid = w.ppid := by
  obtain ⟨u, v, v₁, header, name, kind', q, m, hcore, hcreate, hparse, hbuilt, hrest, -⟩ :=
    start_tracer_ok hstart heffective
  have hmemory : u.memory = (w.reset eng).memory := World.memory_core hcore
  have hu : Past n u := by
    refine hw.of_spans ?_
    rw [hmemory]
    exact next_cleaned w _
  obtain ⟨v', p, hspan, hp, rfl⟩ := Provider.createFirstSpan_ok hcreate
  obtain ⟨s, -, hq, -⟩ := createSpan_spans hspan
  have hv' : Past n v' := past_createSpan hu hspan
  have hfirst' : Past n (v'.withProvider (p.set (v'.key eng) { p.slots (v'.key eng) with
      firstSpan := some q })) := hv'.of_spans rfl
  have hv₁ : Past n v₁ := hfirst'.of_spans (next_parseTraceParent header (.of_ok hparse))
  have hfirst : w'.first eng = some q := by
    have hbuilt' : w'.first eng = v₁.first eng :=
      first_blind.built (fun _ _ => rfl) (fun _ _ _ => rfl) hbuilt hrest
    rw [hbuilt', first_blind.parseTraceParent header (.of_ok hparse)]
    simp [World.first, World.slots]
  have hppid : w'.ppid = w.ppid := congrArg Sessions.ppid (sessions_start hstart heffective)
  exact ⟨(hbuilt.trans Move.built_op).keeps Op.past hrest hv₁, q, hfirst, hq ▸ hu, hppid⟩

theorem next_modifySpan (span : Nat) (f : Span → Span) :
    Keeps (SameOn fun w : World φ => w.memory.spans.next) (modifySpan span f) := by
  intro w w' h
  obtain ⟨-, rfl⟩ := modifySpan_ends h
  rfl

/-- The end of a session creates no spans. -/
theorem next_finishSession (first : Nat) :
    Keeps (SameOn fun w : World φ => w.memory.spans.next) (finishSession eng first) := by
  have htick : Keeps (SameOn fun w : World φ => w.memory.spans.next) get_unix_nanoseconds := by
    intro w w' h
    obtain ⟨_, h⟩ | h := h <;> cases h
    rfl
  have hattach : Keeps (SameOn fun w : World φ => w.memory.spans.next) (attachResource eng) :=
    spans_attachResource.mono fun w w' h => congrArg Heap.next h
  have hclean : Keeps (SameOn fun w : World φ => w.memory.spans.next) (Provider.clean eng) := by
    intro w w' h
    obtain ⟨_, hok⟩ := Direct.clean.ok h
    obtain ⟨p, -, rfl⟩ := Provider.clean_ok hok
    exact next_cleaned w p
  refine .bind (.bind (next_modifySpan _ _) fun _ => .bind htick fun _ => next_modifySpan _ _)
    fun _ => .bind hattach fun _ => .bind ?_ fun _ => .bind hclean fun _ => ?_
  · exact collectSession_keeps (fun _ => rfl) fun _ _ => rfl
  · exact .ite (.modify fun _ => rfl) (.of_reads (.pure _))

theorem past_shutdown (hw : Past n w) (hshutdown : shutdown_tracer eng w = .ok ((), w'))
    (heffective : ¬ Refuses eng w.globals) : Past n w' := by
  obtain ⟨p, u, hp, rfl, hend⟩ := shutdown_tracer_ok hshutdown heffective
  cases hfirst : (p.slots (w.key eng)).firstSpan with
  | none =>
    rw [hfirst] at hend
    subst hend
    exact hw
  | some first =>
    rw [hfirst] at hend
    have hu : Past n u := hw.of_spans (next_finishSession first (.of_ok hend))
    exact hu

end opentelemetry
