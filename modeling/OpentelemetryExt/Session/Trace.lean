import OpentelemetryExt.Session.Slots

open heap stateful run

namespace opentelemetry

variable {φ : Type} {eng : Engine φ} {u v w w' : World φ} {T : Bytes}

/-- The spans that exist keep their ids. -/
def IdsKept (w w' : World φ) : Prop :=
  ∀ q s, w.memory.spans.cell q = some s → ∃ s', w'.memory.spans.cell q = some s' ∧
    s'.trace_id = s.trace_id ∧ s'.span_id = s.span_id ∧ s'.parent_span_id = s.parent_span_id

instance : Std.Refl (IdsKept (φ := φ)) := ⟨fun _ _ s hs => ⟨s, hs, rfl, rfl, rfl⟩⟩

theorem IdsKept.trans (h : IdsKept u v) (h' : IdsKept v w) : IdsKept u w := by
  intro q s hs
  obtain ⟨s', hs', htrace, hid, hparent⟩ := h q s hs
  obtain ⟨s'', hs'', htrace', hid', hparent'⟩ := h' q s' hs'
  exact ⟨s'', hs'', htrace'.trans htrace, hid'.trans hid, hparent'.trans hparent⟩

instance : IsTrans (World φ) IdsKept := ⟨fun _ _ _ => .trans⟩

theorem IdsKept.of_spans (h : w'.memory.spans = w.memory.spans) : IdsKept w w' :=
  fun _ s hs => ⟨s, h ▸ hs, rfl, rfl, rfl⟩

theorem IdsKept.withSpan {f : Span → Span} {q : Nat} (hf : Edits f) : IdsKept w (w.withSpan q f) := by
  intro q' s hs
  by_cases hq : q' = q
  · subst hq
    exact ⟨f s, by simp [World.withSpan, hs], (hf s).1, (hf s).2.1, (hf s).2.2⟩
  · refine ⟨s, ?_, rfl, rfl, rfl⟩
    rwa [World.withSpan, World.memory_withMemory, Heap.cell_modify_ne hq]

/-- How the request of each key is laid out. -/
def World.shape (w : World φ) : (Heap ResourceSpans × Heap ExportTraceServiceRequest) × Nat ×
    Option (Option Nat → Option Nat × Option Nat × Option Nat) :=
  ((w.memory.resource_spans, w.memory.requests), w.ppid, w.globals.provider.map fun p key =>
    ((p.slots key).firstSpan, (p.slots key).request, (p.slots key).resourceSpan))

theorem shape_withProvider {p : Provider} {s : Slot} (hp : w.globals.provider = some p)
    (hfirst : s.firstSpan = (p.slots (w.key eng)).firstSpan)
    (hrequest : s.request = (p.slots (w.key eng)).request)
    (hresource : s.resourceSpan = (p.slots (w.key eng)).resourceSpan) :
    (w.withProvider (p.set (w.key eng) s)).shape = w.shape := by
  refine Prod.ext rfl (Prod.ext rfl ?_)
  simp only [World.shape, World.provider_withProvider, hp, Option.map_some, Option.some.injEq]
  funext key
  by_cases hkey : key = w.key eng
  · subst hkey
    simp [hfirst, hrequest, hresource]
  · rw [Provider.set_ne p s hkey]

theorem shape_modifySpan (span : Nat) (f : Span → Span) :
    Keeps (SameOn World.shape) (modifySpan span f : M φ Unit) := by
  intro w w' h
  obtain ⟨-, rfl⟩ := modifySpan_ends h
  rfl

theorem shape_modifySlot {f : Slot → Slot} (hfirst : ∀ s, (f s).firstSpan = s.firstSpan)
    (hrequest : ∀ s, (f s).request = s.request)
    (hresource : ∀ s, (f s).resourceSpan = s.resourceSpan) :
    Keeps (SameOn World.shape) (modifySlot eng f) := by
  intro w w' h
  obtain ⟨p, hp, rfl⟩ := modifySlot_ends h
  exact shape_withProvider hp (hfirst _) (hrequest _) (hresource _)

theorem shape_parseTraceParent (header : Bytes) :
    Keeps (SameOn World.shape) (Provider.parseTraceParent eng header) :=
  parseTraceParent_keeps (fun span f _ => shape_modifySpan span f)
    (fun _ => shape_modifySlot (fun _ => rfl) (fun _ => rfl) fun _ => rfl) header

/-- The current request is laid out at `rs` and its first span is `f`. -/
structure Laid (eng : Engine φ) (w : World φ) (f rs : Nat) (r : ResourceSpans) : Prop where
  slot : ∃ p, w.globals.provider = some p ∧ (p.slots (w.key eng)).firstSpan = some f ∧
    (p.slots (w.key eng)).request.isSome ∧ (p.slots (w.key eng)).resourceSpan = some rs
  cell : w.memory.resource_spans.cell rs = some r
  mem : f ∈ r.spans

/-- States of one shape have the same pointers in the current slot. -/
theorem pointers_of_shape (eng : Engine φ) {p : Provider} (hshape : w'.shape = w.shape)
    (hp : w.globals.provider = some p) : ∃ p', w'.globals.provider = some p' ∧
      (p'.slots (w'.key eng)).firstSpan = (p.slots (w.key eng)).firstSpan ∧
      (p'.slots (w'.key eng)).request = (p.slots (w.key eng)).request ∧
      (p'.slots (w'.key eng)).resourceSpan = (p.slots (w.key eng)).resourceSpan := by
  obtain ⟨hppid, hslots⟩ := Prod.mk.inj (Prod.mk.inj hshape).2
  have hkey : w'.key eng = w.key eng := World.key_congr hppid
  rw [hp, Option.map_some, Option.map_eq_some_iff] at hslots
  obtain ⟨p', hp', hsame⟩ := hslots
  have hpointers := congrFun hsame (w.key eng)
  simp only [Prod.mk.injEq] at hpointers
  rw [hkey]
  exact ⟨p', hp', hpointers⟩

theorem Laid.of_shape {f rs : Nat} {r : ResourceSpans} (h : Laid eng w f rs r)
    (hshape : w'.shape = w.shape) : Laid eng w' f rs r := by
  obtain ⟨⟨p, hp, hfirst, hrequest, hresource⟩, hcell, hmem⟩ := h
  obtain ⟨hheaps, -⟩ := Prod.mk.inj hshape
  obtain ⟨hheap, -⟩ := Prod.mk.inj hheaps
  obtain ⟨p', hp', hfirst', hrequest', hresource'⟩ := pointers_of_shape eng hshape hp
  refine ⟨⟨p', hp', ?_⟩, by rwa [hheap], hmem⟩
  rw [hfirst', hrequest', hresource']
  exact ⟨hfirst, hrequest, hresource⟩

/-- The current request is a message with the one entry `rs`. -/
def Whole (eng : Engine φ) (w : World φ) (rs : Nat) : Prop :=
  ∃ p request, w.globals.provider = some p ∧ (p.slots (w.key eng)).request = some request ∧
    w.memory.requests.cell request = some ⟨[rs]⟩

theorem Whole.of_shape {rs : Nat} (h : Whole eng w rs) (hshape : w'.shape = w.shape) :
    Whole eng w' rs := by
  obtain ⟨p, request, hp, hrequest, hcell⟩ := h
  obtain ⟨hheaps, -⟩ := Prod.mk.inj hshape
  obtain ⟨-, hheap⟩ := Prod.mk.inj hheaps
  obtain ⟨p', hp', -, hrequest', -⟩ := pointers_of_shape eng hshape hp
  exact ⟨p', request, hp', hrequest'.trans hrequest, by rw [hheap, hcell]⟩

theorem Laid.unique {f f' rs rs' : Nat} {r r' : ResourceSpans} (h : Laid eng w f rs r)
    (h' : Laid eng w f' rs' r') : f = f' ∧ rs = rs' ∧ r = r' := by
  obtain ⟨⟨p, hp, hfirst, -, hresource⟩, hcell, -⟩ := h
  obtain ⟨⟨p', hp', hfirst', -, hresource'⟩, hcell', -⟩ := h'
  obtain rfl : p = p' := Option.some.inj (hp.symm.trans hp')
  obtain rfl : rs = rs' := Option.some.inj (hresource.symm.trans hresource')
  exact ⟨Option.some.inj (hfirst.symm.trans hfirst'), rfl, Option.some.inj (hcell.symm.trans hcell')⟩

/-- Every span of the current request is there, and in the trace `T`. -/
def Traced (eng : Engine φ) (T : Bytes) (w : World φ) : Prop :=
  ∃ f rs r, Laid eng w f rs r ∧
    ∀ q ∈ r.spans, ∃ s, w.memory.spans.cell q = some s ∧ s.trace_id = T

theorem Traced.of_shape (h : Traced eng T w) (hshape : w'.shape = w.shape) (hids : IdsKept w w') :
    Traced eng T w' := by
  obtain ⟨f, rs, r, hlaid, hall⟩ := h
  refine ⟨f, rs, r, hlaid.of_shape hshape, fun q hq => ?_⟩
  obtain ⟨s, hs, htrace⟩ := hall q hq
  obtain ⟨s', hs', htrace', -⟩ := hids q s hs
  exact ⟨s', hs', htrace'.trans htrace⟩

/-- A span that is created in a trace belongs to it. -/
theorem Traced.createSpan {name : Bytes} {kind : SpanKind} {q : Nat} (h : Traced eng T w)
    (hcreate : Provider.createSpan eng name kind w = .ok (q, w')) :
    Traced eng T w' ∧ w.memory.spans.cell q = none ∧
      ∃ s, w'.memory.spans.cell q = some s ∧ s.trace_id = T ∧ s.span_id.length = 8 := by
  obtain ⟨f, rs, r, ⟨⟨p, hp, hfirst, hrequest, hresource⟩, hcell, hmem⟩, hall⟩ := h
  obtain ⟨rs', u, p', span, htracer, hp', hadded, hinherits⟩ := Provider.createSpan_ok hcreate
  obtain ⟨p₁, hp₁, ⟨-, hrs, rfl⟩ | ⟨hnone, -, -⟩⟩ := Provider.getTracer_ok htracer
  · obtain rfl : p = p₁ := Option.some.inj (hp.symm.trans hp₁)
    obtain rfl : p = p' := Option.some.inj (hp.symm.trans hp')
    obtain rfl : rs = rs' := Option.some.inj (hresource.symm.trans hrs)
    obtain ⟨s, hs, htrace⟩ := hall f hmem
    rw [hfirst] at hinherits
    obtain ⟨s', hs', hsame⟩ := hinherits
    obtain rfl : s = s' := Option.some.inj (hs.symm.trans hs')
    have hq := hadded.pointer
    have hnew : w'.memory.spans.cell q = some span := by simp [hadded.memory, hq]
    refine ⟨⟨f, rs, { r with spans := r.spans ++ [q] }, ⟨⟨p, ?_⟩, ?_, ?_⟩, ?_⟩, ?_, ?_⟩
    · rw [hadded.globals, World.key_congr hadded.ppid]
      exact ⟨hp, hfirst, hrequest, hresource⟩
    · simp [hadded.memory, hcell]
    · simp [hmem]
    · intro q' hq'
      rcases List.mem_append.mp hq' with hold | hlast
      · obtain ⟨s', hs', htrace'⟩ := hall q' hold
        exact ⟨s', by simp [hadded.memory, Heap.cell_alloc_of_some hs'], htrace'⟩
      · rw [List.mem_singleton.mp hlast]
        exact ⟨span, hnew, hsame.trans htrace⟩
    · rw [hq]
      exact u.memory.spans.fresh _ le_rfl
    · exact ⟨span, hnew, hsame.trans htrace, hadded.span_id⟩
  · obtain rfl : p = p₁ := Option.some.inj (hp.symm.trans hp₁)
    rw [hnone] at hrequest
    cases hrequest

theorem createSpan_spans {name : Bytes} {kind : SpanKind} {q : Nat}
    (h : Provider.createSpan eng name kind w = .ok (q, w')) :
    ∃ s, w'.memory.spans = w.memory.spans.alloc s ∧ q = w.memory.spans.next ∧ s.Fresh := by
  obtain ⟨rs, u, p, span, htracer, -, hadded, -⟩ := Provider.createSpan_ok h
  have hsame : u.memory.spans = w.memory.spans := by
    obtain ⟨p', -, ⟨-, -, rfl⟩ | ⟨-, -, rfl⟩⟩ := Provider.getTracer_ok htracer <;> rfl
  exact ⟨span, by rw [hadded.memory, hsame], by rw [hadded.pointer, hsame], hadded.fresh⟩

theorem IdsKept.createSpan {name : Bytes} {kind : SpanKind} {q : Nat}
    (h : Provider.createSpan eng name kind w = .ok (q, w')) : IdsKept w w' := by
  obtain ⟨span, hspans, -⟩ := createSpan_spans h
  intro q' s hs
  exact ⟨s, by rw [hspans, Heap.cell_alloc_of_some hs], rfl, rfl, rfl⟩

/-- The parent of a child span is the first span. -/
theorem createChildSpan_ok {name : Bytes} {kind : SpanKind} {q : Nat}
    (h : Provider.createChildSpan eng name kind w = .ok (q, w')) :
    ∃ v f first, HasFirst eng w f first ∧ Provider.createSpan eng name kind w = .ok (q, v) ∧
      w' = v.withSpan q fun s => { s with parent_span_id := first.span_id } := by
  obtain ⟨parent, u, hlatest, hcreate⟩ := bind_ok_iff.mp h
  obtain ⟨first, u', hfirst, hderef⟩ := bind_ok_iff.mp hlatest
  obtain ⟨p, hp, rfl, rfl⟩ := Provider.firstOneSpan_ok hfirst
  obtain ⟨f, u'', hf, hread⟩ := bind_ok_iff.mp hderef
  obtain ⟨hslot, rfl⟩ := lift_ok_iff.mp hf
  obtain ⟨rfl, hcell⟩ := readSpan_ok hread
  obtain ⟨q', v, hspan, hparent⟩ := bind_ok_iff.mp hcreate
  obtain ⟨⟨⟩, v', hmodify, hreturn⟩ := bind_ok_iff.mp hparent
  obtain ⟨-, rfl⟩ := modifySpan_ends (.of_ok hmodify)
  cases hreturn
  exact ⟨v, f, parent, ⟨p, hp, deref_eq_ok_iff.mp hslot, hcell⟩, hspan, rfl⟩

theorem IdsKept.createChildSpan (name : Bytes) (kind : SpanKind) :
    Keeps IdsKept (Provider.createChildSpan eng name kind) := by
  intro w w' h
  obtain ⟨q, hok⟩ := (Direct.createChildSpan name kind).ok h
  obtain ⟨v, _, first, -, hcreate, rfl⟩ := createChildSpan_ok hok
  obtain ⟨span, hspans, hq, -⟩ := createSpan_spans hcreate
  intro q' s hs
  have hne : q' ≠ q := by
    rintro rfl
    rw [hq, w.memory.spans.fresh _ le_rfl] at hs
    cases hs
  refine ⟨s, ?_, rfl, rfl, rfl⟩
  rw [World.withSpan, World.memory_withMemory, Heap.cell_modify_ne hne, hspans,
    Heap.cell_alloc_of_some hs]

theorem Traced.createChildSpan (name : Bytes) (kind : SpanKind) :
    Keeps (Preserves (Traced eng T)) (Provider.createChildSpan eng name kind) := by
  intro w w' h htraced
  obtain ⟨q, hok⟩ := (Direct.createChildSpan name kind).ok h
  obtain ⟨v, _, first, -, hcreate, rfl⟩ := createChildSpan_ok hok
  obtain ⟨f, rs, r, hlaid, hall⟩ := (htraced.createSpan hcreate).1
  refine ⟨f, rs, r, hlaid.of_shape rfl, fun q' hq' => ?_⟩
  obtain ⟨s, hs, htrace⟩ := hall q' hq'
  by_cases hq : q' = q
  · subst hq
    exact ⟨{ s with parent_span_id := first.span_id }, by simp [World.withSpan, hs], htrace⟩
  · exact ⟨s, by rwa [World.withSpan, World.memory_withMemory, Heap.cell_modify_ne hq], htrace⟩

theorem addResourceAttribute_ends {resource : Nat} {kv : KeyValue}
    (h : Ends (Provider.addResourceAttribute resource kv : M φ Unit) w w') :
    w'.memory.spans = w.memory.spans ∧ w'.shape = w.shape := by
  have hkeeps : Keeps (SameOn fun w : World φ => (w.memory.spans, w.shape))
      (Provider.addResourceAttribute resource kv) :=
    .bind (.of_reads .get) fun _ => .bind (.of_reads (.lift _)) fun _ => .modify fun _ => rfl
  exact Prod.mk.inj (hkeeps h)

/-- Nothing that hooks, callbacks and SDK calls do changes the ids of a span. -/
theorem Op.idsKept {α : Type} {stores : Prop} {m : M φ α} (h : Op eng stores m) : Keeps IdsKept m := by
  intro w w' hends
  cases h with
  | createChildSpan name kind => exact IdsKept.createChildSpan name kind hends
  | edit span hf =>
    obtain ⟨-, rfl⟩ := modifySpan_ends hends
    exact .withSpan hf
  | annotate hf =>
    obtain ⟨p, hp, rfl⟩ := modifySlot_ends hends
    exact .of_spans rfl
  | addResourceAttribute resource kv => exact .of_spans (addResourceAttribute_ends hends).1
  | tick =>
    obtain ⟨_, h⟩ | h := hends <;> cases h
    exact .of_spans rfl
  | php state =>
    obtain ⟨_, h⟩ | h := hends <;> cases h
    exact .of_spans rfl
  | headers _ entries =>
    obtain ⟨_, h⟩ | h := hends <;> cases h
    exact .of_spans rfl

/-- And nothing of it brings a span of another trace into the request. -/
theorem Op.traced {α : Type} {stores : Prop} {m : M φ α} (h : Op eng stores m) :
    Keeps (Preserves (Traced eng T)) m := by
  intro w w' hends htraced
  have hids : IdsKept w w' := h.idsKept hends
  cases h with
  | createChildSpan name kind => exact Traced.createChildSpan name kind hends htraced
  | edit span hf => exact htraced.of_shape (shape_modifySpan _ _ hends) hids
  | annotate hf =>
    exact htraced.of_shape (shape_modifySlot (fun s => (hf s).2.2.2) (fun s => (hf s).1)
      (fun s => (hf s).2.1) hends) hids
  | addResourceAttribute resource kv =>
    exact htraced.of_shape (addResourceAttribute_ends hends).2 hids
  | tick =>
    obtain ⟨_, h⟩ | h := hends <;> cases h
    exact htraced.of_shape rfl hids
  | php state =>
    obtain ⟨_, h⟩ | h := hends <;> cases h
    exact htraced.of_shape rfl hids
  | headers _ entries =>
    obtain ⟨_, h⟩ | h := hends <;> cases h
    exact htraced.of_shape rfl hids

/-- What may happen in the course of a session: a run of extension code made of the
operations, a change around the extension, and the creation of one more span. -/
inductive Deed (eng : Engine φ) : World φ → World φ → Prop
  | work {α : Type} {stores : Prop} {m : M φ α} {w w' : World φ} :
      Built (Op eng stores) m → Ends m w w' → Deed eng w w'
  | surround (w : World φ) (s : Surroundings φ) : Deed eng w (w.surround s)
  | span {name : Bytes} {kind : SpanKind} {q : Nat} {w w' : World φ} :
      Provider.createSpan eng name kind w = .ok (q, w') → Deed eng w w'

/-- The states that a session reaches from `w`. -/
def Reaches (eng : Engine φ) : World φ → World φ → Prop := Relation.ReflTransGen (Deed eng)

/-- Calls into the extension are deeds. -/
theorem Deed.call {natives : CurlNatives φ} {c : Call} (h : Step eng natives (.call c) w w') :
    Deed eng w w' := .work (Op.built_call c) h

theorem Deed.idsKept (h : Deed eng w w') : IdsKept w w' := by
  cases h with
  | work hbuilt hends => exact hbuilt.keeps Op.idsKept hends
  | surround s => exact .of_spans rfl
  | span hcreate => exact .createSpan hcreate

theorem Deed.traced (h : Deed eng w w') (htraced : Traced eng T w) : Traced eng T w' := by
  cases h with
  | work hbuilt hends => exact hbuilt.keeps Op.traced hends htraced
  | surround s => exact htraced.of_shape rfl (.of_spans rfl)
  | span hcreate => exact (htraced.createSpan hcreate).1

theorem Reaches.idsKept (h : Reaches eng w w') : IdsKept w w' := by
  induction h with
  | refl => exact Std.Refl.refl _
  | tail _ hlast ih => exact ih.trans hlast.idsKept

theorem Reaches.traced (h : Reaches eng w w') (htraced : Traced eng T w) : Traced eng T w' := by
  induction h with
  | refl => exact htraced
  | tail _ hlast ih => exact hlast.traced ih

end opentelemetry
