import OpentelemetryExt.Core

open heap stateful

namespace opentelemetry

variable {φ : Type} {eng : Engine φ} {w w' : World φ} {p : Provider}

@[simp] theorem World.provider_withProvider (w : World φ) (p : Provider) :
    (w.withProvider p).globals.provider = some p := rfl

@[simp] theorem World.globals_withMemory (w : World φ) (m : Memory) :
    (w.withMemory m).globals = w.globals := rfl

@[simp] theorem World.memory_withMemory (w : World φ) (m : Memory) :
    (w.withMemory m).memory = m := rfl

@[simp] theorem World.key_withMemory (w : World φ) (m : Memory) :
    (w.withMemory m).key eng = w.key eng := rfl

@[simp] theorem World.memory_withProvider (w : World φ) (p : Provider) :
    (w.withProvider p).memory = w.memory := rfl

@[simp] theorem World.key_withProvider (w : World φ) (p : Provider) :
    (w.withProvider p).key eng = w.key eng := rfl

/-- The slots of the provider, none of which is taken while there is no provider. -/
def World.slots (w : World φ) : Option Nat → Slot := (w.globals.provider.getD {}).slots

theorem World.slots_of_some {p : Provider} (h : w.globals.provider = some p) : w.slots = p.slots := by
  rw [World.slots, h, Option.getD_some]

theorem provider_of_some (h : w.globals.provider = some p) : provider w = .ok (p, w) := by
  rw [provider_apply, h]
  rfl

theorem provider_of_none (h : w.globals.provider = none) :
    (provider : M φ _) w = .error (.fault .nullPointer) := by
  rw [provider_apply, h]
  rfl

theorem slot_of_some (h : w.globals.provider = some p) :
    slot eng w = .ok (p.slots (w.key eng), w) := by
  simp only [slot, currentKey, bind_apply, provider_of_some h, ok_bind, get_apply, pure_apply]

theorem slot_of_none (h : w.globals.provider = none) :
    slot eng w = .error (.fault .nullPointer) := by
  simp only [slot, bind_apply, provider_of_none h, error_bind]

theorem slot_ok {s : Slot} (h : slot eng w = .ok (s, w')) :
    ∃ p, w.globals.provider = some p ∧ s = p.slots (w.key eng) ∧ w' = w := by
  cases hp : w.globals.provider with
  | none =>
    rw [slot_of_none hp] at h
    cases h
  | some p =>
    rw [slot_of_some hp] at h
    cases h
    exact ⟨p, rfl, rfl, rfl⟩

theorem modifySlot_of_some (f : Slot → Slot) (h : w.globals.provider = some p) :
    modifySlot eng f w =
      .ok ((), w.withProvider (p.set (w.key eng) (f (p.slots (w.key eng))))) := by
  simp only [modifySlot, currentKey, bind_apply, provider_of_some h, ok_bind, get_apply, pure_apply]
  rfl

theorem modifySlot_of_none (f : Slot → Slot) (h : w.globals.provider = none) :
    modifySlot eng f w = .error (.fault .nullPointer) := by
  simp only [modifySlot, bind_apply, provider_of_none h, error_bind]

theorem modifySlot_ends {f : Slot → Slot} (h : Ends (modifySlot eng f) w w') :
    ∃ p, w.globals.provider = some p ∧
      w' = w.withProvider (p.set (w.key eng) (f (p.slots (w.key eng)))) := by
  cases hp : w.globals.provider with
  | none => exact (h.false_of_fault (modifySlot_of_none f hp)).elim
  | some p => exact ⟨p, rfl, h.eq_of_ok (modifySlot_of_some f hp)⟩

theorem readSpan_of_some {q : Nat} {s : Span} (h : w.memory.spans.cell q = some s) :
    readSpan q w = .ok (s, w) := by
  simp [readSpan, load_eq_ok_iff.mpr h]

theorem readSpan_ok {q : Nat} {s : Span} (h : readSpan q w = .ok (s, w')) :
    w' = w ∧ w.memory.spans.cell q = some s := by
  cases hq : w.memory.spans.cell q with
  | none => simp [readSpan, load, hq] at h
  | some a =>
    rw [readSpan_of_some hq] at h
    cases h
    exact ⟨rfl, rfl⟩

/-- The world after a write to a span. -/
def World.withSpan (w : World φ) (q : Nat) (f : Span → Span) : World φ :=
  w.withMemory { w.memory with spans := w.memory.spans.modify q f }

theorem modifySpan_of_some {q : Nat} {s : Span} (f : Span → Span)
    (h : w.memory.spans.cell q = some s) : modifySpan q f w = .ok ((), w.withSpan q f) := by
  simp only [modifySpan, bind_apply, readSpan_of_some h, ok_bind]
  rfl

theorem modifySpan_ends {q : Nat} {f : Span → Span} (h : Ends (modifySpan q f) w w') :
    (∃ s, w.memory.spans.cell q = some s) ∧ w' = w.withSpan q f := by
  cases hq : w.memory.spans.cell q with
  | none =>
    refine (h.false_of_fault (e := .dangling) ?_).elim
    simp [modifySpan, readSpan, load, hq]
  | some s => exact ⟨⟨s, rfl⟩, h.eq_of_ok (modifySpan_of_some f hq)⟩

/-- The world after `newRequest`. -/
def World.withRequest (w : World φ) (eng : Engine φ) (p : Provider) : World φ :=
  World.withProvider
    (w.withMemory { w.memory with
      requests := w.memory.requests.alloc ⟨[w.memory.resource_spans.next]⟩
      resource_spans := w.memory.resource_spans.alloc {}
      resources := w.memory.resources.alloc ⟨Provider.resourceAttributes eng w.globals w.pid⟩ })
    (p.set (w.key eng) { p.slots (w.key eng) with
      request := some w.memory.requests.next
      resourceSpan := some w.memory.resource_spans.next
      resource := some w.memory.resources.next })

/-- A span that has not been ended. -/
def Span.Fresh (s : Span) : Prop := s.status = {} ∧ s.end_time_unix_nano = 0

namespace Provider

theorem newRequest_of_some (h : w.globals.provider = some p) :
    newRequest eng w = .ok (w.memory.resource_spans.next, w.withRequest eng p) := by
  simp only [newRequest, bind_apply, get_apply, ok_bind, modifyMemory, modify_apply]
  rw [modifySlot_of_some _ (by simpa using h)]
  rfl

theorem getTracer_ok {rs : Nat} (h : getTracer eng w = .ok (rs, w')) :
    ∃ p, w.globals.provider = some p ∧
      ((p.slots (w.key eng)).request.isSome ∧ (p.slots (w.key eng)).resourceSpan = some rs ∧
          w' = w ∨
        (p.slots (w.key eng)).request = none ∧ rs = w.memory.resource_spans.next ∧
          w' = w.withRequest eng p) := by
  cases hp : w.globals.provider with
  | none => simp [getTracer, slot_of_none hp] at h
  | some p =>
    refine ⟨p, rfl, ?_⟩
    simp only [getTracer, bind_apply, slot_of_some hp, ok_bind, ite_apply] at h
    split at h
    · obtain ⟨hrs, rfl⟩ := lift_ok_iff.mp h
      exact .inl ⟨‹_›, deref_eq_ok_iff.mp hrs, rfl⟩
    · rw [newRequest_of_some hp] at h
      cases h
      exact .inr ⟨Option.not_isSome_iff_eq_none.mp ‹_›, rfl, rfl⟩

/-- What the creation of a span does to the world that `getTracer` left. -/
structure SpanAdded (u w' : World φ) (rs q : Nat) (span : Span) : Prop where
  pointer : q = u.memory.spans.next
  memory : w'.memory = { u.memory with
    spans := u.memory.spans.alloc span
    resource_spans := u.memory.resource_spans.modify rs fun r => { r with spans := r.spans ++ [q] } }
  globals : w'.globals = u.globals
  ppid : w'.ppid = u.ppid
  live : ∃ r, u.memory.resource_spans.cell rs = some r
  span_id : span.span_id.length = 8
  parent_span_id : span.parent_span_id = []
  fresh : span.Fresh

theorem SpanAdded.of_same {u v w' : World φ} {rs q : Nat} {span : Span}
    (h : SpanAdded v w' rs q span) (hmemory : v.memory = u.memory)
    (hglobals : v.globals = u.globals) (hppid : v.ppid = u.ppid) : SpanAdded u w' rs q span where
  pointer := by rw [h.pointer, hmemory]
  memory := by rw [h.memory, hmemory]
  globals := h.globals.trans hglobals
  ppid := h.ppid.trans hppid
  live := by simpa only [hmemory] using h.live
  span_id := h.span_id
  parent_span_id := h.parent_span_id
  fresh := h.fresh

/-- The trace id of a new span is that of the first span, when there is one. -/
def Inherits (m : Memory) (first : Option Nat) (trace_id : Bytes) : Prop :=
  match first with
  | some f => ∃ s, m.spans.cell f = some s ∧ trace_id = s.trace_id
  | none => trace_id.length = 16

theorem traceIdFor_ok {first : Option Nat} {id : Bytes} (h : traceIdFor first w = .ok (id, w')) :
    w'.memory = w.memory ∧ w'.globals = w.globals ∧ w'.ppid = w.ppid ∧
      Inherits w.memory first id := by
  cases first with
  | none =>
    cases h
    exact ⟨rfl, rfl, rfl, (w.uuids 0).2⟩
  | some f =>
    obtain ⟨s, u, hread, hrest⟩ := bind_ok_iff.mp h
    obtain ⟨rfl, hcell⟩ := readSpan_ok hread
    cases hrest
    exact ⟨rfl, rfl, rfl, s, hcell, rfl⟩

theorem firstOneSpan_ok {first : Option Nat} (h : firstOneSpan eng w = .ok (first, w')) :
    ∃ p, w.globals.provider = some p ∧ first = (p.slots (w.key eng)).firstSpan ∧ w' = w := by
  obtain ⟨s, u, hslot, h⟩ := bind_ok_iff.mp h
  obtain ⟨p, hp, rfl, rfl⟩ := slot_ok hslot
  cases h
  exact ⟨p, hp, rfl, rfl⟩

theorem getRequest_ok {request : Option Nat} (h : getRequest eng w = .ok (request, w')) :
    ∃ p, w.globals.provider = some p ∧ request = (p.slots (w.key eng)).request ∧ w' = w := by
  obtain ⟨s, u, hslot, h⟩ := bind_ok_iff.mp h
  obtain ⟨p, hp, rfl, rfl⟩ := slot_ok hslot
  cases h
  exact ⟨p, hp, rfl, rfl⟩

theorem addSpan_ok {rs q : Nat} {span : Span} (h : addSpan rs span w = .ok (q, w'))
    (hid : span.span_id.length = 8) (hparent : span.parent_span_id = []) (hfresh : span.Fresh) :
    SpanAdded w w' rs q span := by
  obtain ⟨u, v, hget, h⟩ := bind_ok_iff.mp h
  cases hget
  obtain ⟨r, v, hload, h⟩ := bind_ok_iff.mp h
  obtain ⟨hr, rfl⟩ := lift_ok_iff.mp hload
  cases h
  exact ⟨rfl, rfl, rfl, rfl, ⟨r, load_eq_ok_iff.mp hr⟩, hid, hparent, hfresh⟩

theorem createSpan_ok {name : Bytes} {kind : SpanKind} {q : Nat}
    (h : createSpan eng name kind w = .ok (q, w')) :
    ∃ rs u p span, getTracer eng w = .ok (rs, u) ∧ u.globals.provider = some p ∧
      SpanAdded u w' rs q span ∧
        Inherits u.memory (p.slots (u.key eng)).firstSpan span.trace_id := by
  obtain ⟨rs, u, htracer, h⟩ := bind_ok_iff.mp h
  obtain ⟨first, u', hfirst, h⟩ := bind_ok_iff.mp h
  obtain ⟨p, hp, rfl, rfl⟩ := firstOneSpan_ok hfirst
  obtain ⟨id, v, hid, h⟩ := bind_ok_iff.mp h
  obtain ⟨hmemory, hglobals, hppid, hsource⟩ := traceIdFor_ok hid
  obtain ⟨uuid, v₁, huuid, h⟩ := bind_ok_iff.mp h
  cases huuid
  obtain ⟨start, v₂, hclock, h⟩ := bind_ok_iff.mp h
  cases hclock
  have hlen : ((v.uuids 0).val.take 8).length = 8 := by simp [(v.uuids 0).2]
  have hadded := addSpan_ok h hlen rfl ⟨rfl, rfl⟩
  exact ⟨rs, u', p, _, htracer, hp, hadded.of_same hmemory hglobals hppid, hsource⟩

theorem createFirstSpan_ok {name : Bytes} {kind : SpanKind} {q : Nat}
    (h : createFirstSpan eng name kind w = .ok (q, w')) :
    ∃ v p, createSpan eng name kind w = .ok (q, v) ∧ v.globals.provider = some p ∧
      w' = v.withProvider (p.set (v.key eng) { p.slots (v.key eng) with firstSpan := some q }) := by
  obtain ⟨q', v, hcreate, h⟩ := bind_ok_iff.mp h
  obtain ⟨⟨⟩, u, hmodify, h⟩ := bind_ok_iff.mp h
  obtain ⟨p, hp, rfl⟩ := modifySlot_ends (.of_ok hmodify)
  cases h
  exact ⟨v, p, hcreate, hp, rfl⟩

end Provider

/-- What `clean` leaves of a slot. A slot without a request keeps its flag. -/
def Slot.cleaned (cli : Bool) (s : Slot) : Slot :=
  if s.request.isSome then { resource := s.resource, baggage := s.baggage.clear }
  else if cli then { s with baggage := s.baggage.clear, redisException := [] }
  else s

/-- The memory after `clean`: a request goes with everything it owns. -/
def Memory.cleaned (m : Memory) (s : Slot) : Memory :=
  match s.request with
  | some r => ((m.requests.cell r).map (m.deleteRequest r)).getD m
  | none => m

theorem World.withProvider_self (h : w.globals.provider = some p) : w.withProvider p = w := by
  simp [World.withProvider, ← h]

@[simp] theorem Provider.set_slots_self (p : Provider) (key : Option Nat) :
    p.set key (p.slots key) = p := by
  simp [Provider.set]

theorem World.withProvider_withProvider (w : World φ) (p q : Provider) :
    (w.withProvider p).withProvider q = w.withProvider q := rfl

theorem Provider.set_set (p : Provider) (key : Option Nat) (s t : Slot) :
    (p.set key s).set key t = p.set key t := by
  simp [Provider.set]

theorem Provider.deleteRequest_ok {r : Nat} (h : deleteRequest r w = .ok ((), w')) :
    ∃ request, w.memory.requests.cell r = some request ∧
      w' = w.withMemory (w.memory.deleteRequest r request) := by
  simp only [deleteRequest, bind_apply, get_apply, ok_bind] at h
  cases hload : load w.memory.requests r with
  | error e =>
    rw [hload] at h
    cases h
  | ok request =>
    rw [hload] at h
    cases h
    exact ⟨request, load_eq_ok_iff.mp hload, rfl⟩

/-- The world after `clean`. -/
def World.cleaned (eng : Engine φ) (w : World φ) (p : Provider) : World φ :=
  (w.withMemory (w.memory.cleaned (p.slots (w.key eng)))).withProvider
    (p.set (w.key eng) ((p.slots (w.key eng)).cleaned eng.cli))

theorem Provider.clean_ok (h : clean eng w = .ok ((), w')) :
    ∃ p, w.globals.provider = some p ∧ w' = w.cleaned eng p := by
  obtain ⟨s, v, hslot, h⟩ := bind_ok_iff.mp h
  obtain ⟨p, hp, rfl, rfl⟩ := slot_ok hslot
  refine ⟨p, hp, ?_⟩
  cases hr : (p.slots (v.key eng)).request with
  | none =>
    simp only [World.cleaned, Memory.cleaned, Slot.cleaned, hr, Option.isSome_none,
      Bool.false_eq_true, if_false]
    simp only [hr, Option.isSome_none, Bool.false_eq_true, or_false, stateful.ite_apply] at h
    split at h
    · rw [modifySlot_of_some _ hp] at h
      cases h
      rw [if_pos ‹_›, hr]
      rfl
    · cases h
      rw [if_neg ‹_›, set_slots_self]
      exact (World.withProvider_self hp).symm
  | some r =>
    simp only [hr, Option.isSome_some, or_true, if_true] at h
    obtain ⟨⟨⟩, u, hdelete, h⟩ := bind_ok_iff.mp h
    obtain ⟨request, hcell, rfl⟩ := deleteRequest_ok hdelete
    obtain ⟨⟨⟩, u, hreset, h⟩ := bind_ok_iff.mp h
    obtain ⟨q, hq, rfl⟩ := modifySlot_ends (.of_ok hreset)
    obtain ⟨q', hq', rfl⟩ := modifySlot_ends (.of_ok h)
    simp only [World.globals_withMemory, World.provider_withProvider, hp, Option.some.injEq]
      at hq hq'
    subst hq hq'
    simp [World.cleaned, Memory.cleaned, Slot.cleaned, hr, hcell, World.withProvider_withProvider,
      Provider.set_set]

theorem Provider.deleteRequest_of_some {r : Nat} {request : ExportTraceServiceRequest}
    (h : w.memory.requests.cell r = some request) :
    deleteRequest r w = .ok ((), w.withMemory (w.memory.deleteRequest r request)) := by
  simp only [deleteRequest, bind_apply, get_apply, ok_bind, load_eq_ok_iff.mpr h, lift_ok,
    modifyMemory, modify_apply]

theorem Provider.deleteRequest_of_none {r : Nat} (h : w.memory.requests.cell r = none) :
    deleteRequest r w = .error (.fault .dangling) := by
  simp only [deleteRequest, bind_apply, get_apply, ok_bind, load, h, lift_error, error_bind]

/-- `clean` goes through, unless the request has been deleted already. -/
theorem Provider.clean_of_live (hp : w.globals.provider = some p)
    (hlive : ∀ r, (p.slots (w.key eng)).request = some r → (w.memory.requests.cell r).isSome) :
    clean eng w = .ok ((), w.cleaned eng p) := by
  have hreturns : ∃ v, clean eng w = .ok ((), v) := by
    simp only [clean, bind_apply, slot_of_some hp, ok_bind]
    cases hr : (p.slots (w.key eng)).request with
    | none =>
      simp only [Option.isSome_none, Bool.false_eq_true, or_false, stateful.ite_apply,
        modifySlot_of_some _ hp]
      split <;> exact ⟨_, rfl⟩
    | some r =>
      obtain ⟨request, hcell⟩ := Option.isSome_iff_exists.mp (hlive r hr)
      simp only [bind_apply, deleteRequest_of_some hcell, ok_bind, Option.isSome_some, or_true,
        if_true]
      rw [modifySlot_of_some _ (by exact hp), ok_bind, modifySlot_of_some _ rfl]
      exact ⟨_, rfl⟩
  obtain ⟨v, hv⟩ := hreturns
  obtain ⟨p', hp', rfl⟩ := clean_ok hv
  obtain rfl := Option.some.inj (hp.symm.trans hp')
  exact hv

theorem Provider.clean_of_dangling {r : Nat} (hp : w.globals.provider = some p)
    (hr : (p.slots (w.key eng)).request = some r) (hcell : w.memory.requests.cell r = none) :
    clean eng w = .error (.fault .dangling) := by
  simp only [clean, bind_apply, slot_of_some hp, ok_bind, hr, deleteRequest_of_none hcell,
    error_bind]

theorem World.key_congr {u v : World φ} (h : u.ppid = v.ppid) : u.key eng = v.key eng := by
  simp [World.key, h]

/-- The current first span is `s`, at `f`. -/
def HasFirst (eng : Engine φ) (w : World φ) (f : Nat) (s : Span) : Prop :=
  ∃ p, w.globals.provider = some p ∧ (p.slots (w.key eng)).firstSpan = some f ∧
    w.memory.spans.cell f = some s

theorem HasFirst.firstOneSpan {f : Nat} {s : Span} (h : HasFirst eng w f s) :
    Provider.firstOneSpan eng w = .ok (some f, w) := by
  obtain ⟨p, hp, hfirst, -⟩ := h
  simp only [Provider.firstOneSpan, bind_apply, slot_of_some hp, ok_bind, pure_apply, hfirst]

theorem HasFirst.readSpan {f : Nat} {s : Span} (h : HasFirst eng w f s) :
    readSpan f w = .ok (s, w) := readSpan_of_some h.choose_spec.2.2

/-- A new first span has no parent. -/
theorem Provider.createFirstSpan_hasFirst {name : Bytes} {kind : SpanKind} {q : Nat}
    (h : createFirstSpan eng name kind w = .ok (q, w')) :
    ∃ s, HasFirst eng w' q s ∧ s.parent_span_id = [] ∧ s.span_id.length = 8 := by
  obtain ⟨v, p, hcreate, hp, rfl⟩ := createFirstSpan_ok h
  obtain ⟨rs, u, p', span, -, -, hadded, -⟩ := createSpan_ok hcreate
  refine ⟨span, ⟨_, rfl, ?_, ?_⟩, hadded.parent_span_id, hadded.span_id⟩
  · simp
  · simp [hadded.memory, hadded.pointer]

end opentelemetry
