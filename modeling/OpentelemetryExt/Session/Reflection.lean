import OpentelemetryExt.Provider.Elapsed
import OpentelemetryExt.Session.Journal
import OpentelemetryExt.Session.Footprint

open assoc heap stateful growing run

namespace opentelemetry

variable {φ : Type} {eng : Engine φ} {natives : CurlNatives φ} {u v w w' : World φ}

/-- Where a session keeps what it records. -/
structure Anchor where
  request : Nat
  entry : Nat
  resource : Nat
  first : Nat

/-- The state holds just what is in the journal of the session. -/
structure Reflects (eng : Engine φ) (a : Anchor) (w : World φ) (r : Journal) : Prop where
  owns : Owns w (w.key eng) a.request a.entry { spans := List.range' a.first r.spans.length }
  first : (w.slots (w.key eng)).firstSpan = some a.first
  pointer : (w.slots (w.key eng)).resource = some a.resource
  spans : Stretch a.first r.spans w.memory.spans
  attributes : w.memory.resources.cell a.resource = some ⟨r.attributes⟩
  clock : w.clock = r.clock

/-- What the slot of a session points to. -/
def World.anchors (eng : Engine φ) (w : World φ) :
    (Option Nat × Option Nat × Option Nat) × Option Nat :=
  ((w.slots (w.key eng)).pointers, (w.slots (w.key eng)).resource)

theorem anchors_annotate {p : Provider} {f : Slot → Slot} (hp : w.globals.provider = some p)
    (hf : Annotates f) :
    (w.withProvider (p.set (w.key eng) (f (p.slots (w.key eng))))).anchors eng = w.anchors eng := by
  obtain ⟨hrequest, hentry, hresource, hfirst⟩ := hf (p.slots (w.key eng))
  have hslot : (w.withProvider (p.set (w.key eng) (f (p.slots (w.key eng))))).slots (w.key eng) =
      f (w.slots (w.key eng)) := by
    rw [slots_set eng hp, if_pos rfl, World.slots_of_some hp]
  rw [World.anchors, World.key_withProvider, hslot, World.slots_of_some hp, Slot.pointers, hrequest,
    hentry, hresource, hfirst, World.anchors, World.slots_of_some hp]
  rfl

namespace Reflects

variable {a : Anchor} {r : Journal}

theorem length_pos (h : Reflects eng a w r) : 0 < r.spans.length := by
  have hmem := h.owns.first a.first h.first
  rw [List.mem_range'_1] at hmem
  omega

/-- It is all in the memory, what the slot points to, and the clock. -/
theorem of_same {clock : Nat → UInt64} (h : Reflects eng a w r) (hmemory : w'.memory = w.memory)
    (hanchors : w'.anchors eng = w.anchors eng) (hclock : w'.clock = clock) :
    Reflects eng a w' { r with clock := clock } := by
  obtain ⟨hpointers, hresource⟩ := Prod.mk.inj hanchors
  have hslot := hpointers
  simp only [Slot.pointers, Prod.mk.injEq] at hslot
  obtain ⟨hfirst, hrequest, hentry⟩ := hslot
  refine ⟨⟨?_, ?_, ?_, ?_, ?_⟩, ?_, ?_, ?_, ?_, ?_⟩
  · rw [hrequest, h.owns.slot]
  · rw [hentry, h.owns.entry]
  · rw [hmemory, h.owns.message]
  · rw [hmemory, h.owns.cell]
  · rw [hfirst]
    exact h.owns.first
  · rw [hfirst, h.first]
  · rw [hresource, h.pointer]
  · rw [hmemory]
    exact h.spans
  · rw [hmemory, h.attributes]
  · exact hclock

theorem annotate {p : Provider} {f : Slot → Slot} (h : Reflects eng a w r)
    (hp : w.globals.provider = some p) (hf : Annotates f) :
    Reflects eng a (w.withProvider (p.set (w.key eng) (f (p.slots (w.key eng))))) r :=
  h.of_same rfl (anchors_annotate hp hf) h.clock

theorem ticked (h : Reflects eng a w r) : Reflects eng a w.ticked r.tick := by
  refine h.of_same rfl rfl ?_
  rw [World.ticked, h.clock]

theorem surround (h : Reflects eng a w r) (s : Surroundings φ) :
    Reflects eng a (w.surround s) { r with clock := s.clock } := h.of_same rfl rfl rfl

/-- A span of the session is the one with its number in the journal. -/
theorem withSpan (h : Reflects eng a w r) (i : Nat) (f : Span → Span) :
    Reflects eng a (w.withSpan (a.first + i) f) (r.edit i f) := by
  have hlength : (r.edit i f).spans.length = r.spans.length := List.length_modify _ _ _
  refine ⟨?_, h.first, h.pointer, h.spans.modify i f, h.attributes, h.clock⟩
  rw [hlength]
  exact ⟨h.owns.slot, h.owns.entry, h.owns.message, h.owns.cell, h.owns.first⟩

/-- Spans that were there before the session are none of its business. -/
theorem withSpan_lt (h : Reflects eng a w r) {q : Nat} (hq : q < a.first) (f : Span → Span) :
    Reflects eng a (w.withSpan q f) r :=
  ⟨⟨h.owns.slot, h.owns.entry, h.owns.message, h.owns.cell, h.owns.first⟩, h.first, h.pointer,
    h.spans.modify_lt hq f, h.attributes, h.clock⟩

end Reflects

/-- A new span, and the time that it was given. -/
theorem createSpan_value {name : Bytes} {kind : SpanKind} {q : Nat}
    (h : Provider.createSpan eng name kind w = .ok (q, w')) :
    ∃ (rs : Nat) (u : World φ) (p : Provider) (trace_id : Bytes) (uuid : Uuid),
      Provider.getTracer eng w = .ok (rs, u) ∧ u.globals.provider = some p ∧
      Provider.Inherits u.memory (p.slots (u.key eng)).firstSpan trace_id ∧
      Provider.SpanAdded u w' rs q
        { trace_id, name, kind, span_id := uuid.val.take 8, start_time_unix_nano := w.clock 0 } ∧
      w'.clock = w.ticked.clock := by
  obtain ⟨rs, u, htracer, h⟩ := bind_ok_iff.mp h
  obtain ⟨first, u', hfirst, h⟩ := bind_ok_iff.mp h
  obtain ⟨p, hp, rfl, rfl⟩ := Provider.firstOneSpan_ok hfirst
  obtain ⟨trace_id, v, hid, h⟩ := bind_ok_iff.mp h
  obtain ⟨hmemory, hglobals, hppid, hsource⟩ := Provider.traceIdFor_ok hid
  have hsame : u'.clock = w.clock := by
    obtain ⟨p', -, ⟨-, -, rfl⟩ | ⟨-, -, rfl⟩⟩ := Provider.getTracer_ok htracer <;> rfl
  have hclock : v.clock = w.clock := by
    rw [← hsame]
    cases hf : (p.slots (u'.key eng)).firstSpan with
    | none =>
      rw [hf] at hid
      cases hid
      rfl
    | some f =>
      rw [hf] at hid
      obtain ⟨s, x, hread, hreturn⟩ := bind_ok_iff.mp hid
      obtain ⟨rfl, -⟩ := readSpan_ok hread
      cases hreturn
      rfl
  obtain ⟨span_id, v₁, huuid, h⟩ := bind_ok_iff.mp h
  cases huuid
  obtain ⟨start, v₂, htime, h⟩ := bind_ok_iff.mp h
  cases htime
  have hlength : ((v.uuids 0).val.take 8).length = 8 := by simp [(v.uuids 0).2]
  have hlast : w'.clock = fun n => v.clock (n + 1) := by
    obtain ⟨x, y, hget, h⟩ := bind_ok_iff.mp h
    cases hget
    obtain ⟨rs', y, hload, h⟩ := bind_ok_iff.mp h
    obtain ⟨-, rfl⟩ := lift_ok_iff.mp hload
    cases h
    rfl
  have hadded := Provider.addSpan_ok h hlength rfl ⟨rfl, rfl⟩
  refine ⟨rs, u', p, trace_id, v.uuids 0, htracer, hp, hsource, ?_, ?_⟩
  · rw [← hclock]
    exact hadded.of_same hmemory hglobals hppid
  · rw [hlast, World.ticked, hclock]

namespace Reflects

variable {a : Anchor} {r : Journal} {name : Bytes} {kind : SpanKind} {q : Nat}

theorem head (h : Reflects eng a w r) : ∃ first rest, r.spans = first :: rest ∧
    w.memory.spans.cell a.first = some first := by
  have hcell := h.spans.cell 0
  cases hspans : r.spans with
  | nil => exact absurd h.length_pos (by simp [hspans])
  | cons first rest => exact ⟨first, rest, rfl, by simpa [hspans] using hcell⟩

/-- A new span comes after those that are there. -/
theorem createSpan (h : Reflects eng a w r)
    (hcreate : Provider.createSpan eng name kind w = .ok (q, w')) :
    ∃ (first : Span) (uuid : Uuid), w.memory.spans.cell a.first = some first ∧
      q = a.first + r.spans.length ∧ Reflects eng a w' { r.tick with spans := r.spans ++
        [{ Journal.childOf first (r.clock 0) uuid name kind with parent_span_id := [] }] } := by
  obtain ⟨rs, x, p, trace_id, uuid, htracer, hp, hinherits, hadded, hclock⟩ :=
    createSpan_value hcreate
  obtain ⟨p', hp', ⟨-, hentry, rfl⟩ | ⟨hnone, -, -⟩⟩ := Provider.getTracer_ok htracer
  · rw [← World.slots_of_some hp', h.owns.entry] at hentry
    obtain rfl : a.entry = rs := Option.some.inj hentry
    rw [← World.slots_of_some hp, h.first] at hinherits
    obtain ⟨first, hfirst, rfl⟩ := hinherits
    have hpointer : q = a.first + r.spans.length := by rw [hadded.pointer, h.spans.next]
    have hkey : w'.key eng = x.key eng := World.key_congr hadded.ppid
    have hslots : w'.slots = x.slots := by
      rw [World.slots, hadded.globals]
      rfl
    refine ⟨first, uuid, hfirst, hpointer, ⟨⟨?_, ?_, ?_, ?_, ?_⟩, ?_, ?_, ?_, ?_, ?_⟩⟩
    · rw [hkey, hslots, h.owns.slot]
    · rw [hkey, hslots, h.owns.entry]
    · rw [hadded.memory, h.owns.message]
    · rw [hadded.memory, Heap.cell_modify_self, h.owns.cell, hpointer]
      simp [List.range'_concat]
    · rw [hkey, hslots, h.first]
      rintro f ⟨⟩
      simp
    · rw [hkey, hslots, h.first]
    · rw [hkey, hslots, h.pointer]
    · rw [hadded.memory, ← h.clock]
      exact h.spans.alloc _
    · rw [hadded.memory, h.attributes]
      rfl
    · rw [hclock, World.ticked, h.clock]
      rfl
  · rw [← World.slots_of_some hp', h.owns.slot] at hnone
    cases hnone

/-- A child span is a line in the journal. -/
theorem createChildSpan (h : Reflects eng a w r)
    (hcreate : Provider.createChildSpan eng name kind w = .ok (q, w')) :
    ∃ uuid, Reflects eng a w' (r.write (.child uuid name kind)) := by
  obtain ⟨v, f, parent, ⟨p, hp, hslot, hparent⟩, hspan, rfl⟩ := createChildSpan_ok hcreate
  obtain ⟨first, uuid, hfirst, rfl, hv⟩ := h.createSpan hspan
  rw [← World.slots_of_some hp, h.first] at hslot
  obtain rfl : a.first = f := Option.some.inj hslot
  obtain rfl : first = parent := Option.some.inj (hfirst.symm.trans hparent)
  obtain ⟨first', rest, hspans, hfirst'⟩ := h.head
  obtain rfl : first = first' := Option.some.inj (hfirst.symm.trans hfirst')
  refine ⟨uuid, ?_⟩
  have hwrite : r.write (.child uuid name kind) = { r.tick with
      spans := r.spans ++ [Journal.childOf first (r.clock 0) uuid name kind] } := by
    simp only [Journal.write, hspans]
  have hedited := hv.withSpan r.spans.length fun s => { s with parent_span_id := first.span_id }
  rw [Journal.edit, modify_concat] at hedited
  rw [hwrite]
  exact hedited

end Reflects

/-- The state once a resource has been given an attribute. -/
def World.withAttribute (w : World φ) (resource : Nat) (kv : KeyValue) : World φ :=
  w.withMemory { w.memory with resources := w.memory.resources.modify resource fun r =>
    { r with attributes := r.attributes ++ [kv] } }

theorem addResourceAttribute_eq {resource : Nat} {kv : KeyValue}
    (h : Ends (Provider.addResourceAttribute resource kv : M φ Unit) w w') :
    w' = w.withAttribute resource kv := by
  have hdirect : Direct (Provider.addResourceAttribute resource kv : M φ Unit) :=
    .bind .get fun _ => .bind (.lift _) fun _ => .modify _
  obtain ⟨_, hok⟩ := hdirect.ok h
  obtain ⟨x, y, hget, hload⟩ := bind_ok_iff.mp hok
  cases hget
  obtain ⟨r, y, hr, hset⟩ := bind_ok_iff.mp hload
  obtain ⟨-, rfl⟩ := lift_ok_iff.mp hr
  cases hset
  rfl

/-- What has been done to the state is written in the journal. -/
def Writes (eng : Engine φ) (P : Line → Prop) (w w' : World φ) : Prop :=
  ∀ a r, Reflects eng a w r → ∃ lines : List Line,
    (∀ x ∈ lines, P x) ∧ Reflects eng a w' (lines.foldl Journal.write r)

namespace Writes

variable {P : Line → Prop}

theorem of_nothing (h : ∀ a r, Reflects eng a w r → Reflects eng a w' r) : Writes eng P w w' :=
  fun a r hr => ⟨[], List.forall_mem_nil _, h a r hr⟩

instance instRefl : Std.Refl (Writes eng P) := ⟨fun _ => .of_nothing fun _ _ h => h⟩

instance instIsTrans : IsTrans (World φ) (Writes eng P) where
  trans u v w h h' a r hr := by
    obtain ⟨lines, hlines, hv⟩ := h a r hr
    obtain ⟨lines', hlines', hw⟩ := h' a _ hv
    refine ⟨lines ++ lines', List.forall_mem_append.mpr ⟨hlines, hlines'⟩, ?_⟩
    rw [List.foldl_append]
    exact hw

theorem of_line {x : Line} (hx : P x)
    (h : ∀ a r, Reflects eng a w r → Reflects eng a w' (r.write x)) : Writes eng P w w' :=
  fun a r hr => ⟨[x], List.forall_mem_singleton.mpr hx, h a r hr⟩

/-- What is written to a span, if the span is one of the session. -/
theorem withSpan {f : Span → Span} {x : Nat → Line} (hP : ∀ i, P (x i))
    (hline : ∀ (r : Journal) i, r.write (x i) = r.edit i f) (q : Nat) :
    Writes eng P w (w.withSpan q f) := by
  intro a r hr
  rcases Nat.lt_or_ge q a.first with hlt | hge
  · exact ⟨[], List.forall_mem_nil _, hr.withSpan_lt hlt f⟩
  · obtain ⟨i, rfl⟩ := Nat.exists_eq_add_of_le hge
    refine ⟨[x i], List.forall_mem_singleton.mpr (hP i), ?_⟩
    rw [List.foldl_cons, List.foldl_nil, hline]
    exact hr.withSpan i f

/-- The end of a span takes a reading of the clock. -/
theorem ended {f : UInt64 → Span → Span} {x : Nat → Line} (hP : ∀ i, P (x i)) (htick : P .tick)
    (hline : ∀ (r : Journal) i, r.write (x i) = r.tick.edit i (f (r.clock 0))) (q : Nat) :
    Writes eng P w (w.ticked.withSpan q (f (w.clock 0))) := by
  intro a r hr
  rcases Nat.lt_or_ge q a.first with hlt | hge
  · exact ⟨[.tick], List.forall_mem_singleton.mpr htick, hr.ticked.withSpan_lt hlt _⟩
  · obtain ⟨i, rfl⟩ := Nat.exists_eq_add_of_le hge
    refine ⟨[x i], List.forall_mem_singleton.mpr (hP i), ?_⟩
    rw [List.foldl_cons, List.foldl_nil, hline, hr.clock]
    exact hr.ticked.withSpan i _

/-- An attribute of a resource, if it is the one that will be attached. -/
theorem label (resource : Nat) (kv : KeyValue) (hlabel : P (.label kv)) :
    Writes eng P w (w.withAttribute resource kv) := by
  intro a r hr
  have howns : Owns (w.withAttribute resource kv) (w.key eng) a.request a.entry
      { spans := List.range' a.first r.spans.length } :=
    ⟨hr.owns.slot, hr.owns.entry, hr.owns.message, hr.owns.cell, hr.owns.first⟩
  by_cases hresource : a.resource = resource
  · subst hresource
    refine ⟨[.label kv], List.forall_mem_singleton.mpr hlabel,
      ⟨howns, hr.first, hr.pointer, hr.spans, ?_, hr.clock⟩⟩
    rw [World.withAttribute, World.memory_withMemory, Heap.cell_modify_self, hr.attributes]
    rfl
  · refine ⟨[], List.forall_mem_nil _, ⟨howns, hr.first, hr.pointer, hr.spans, ?_, hr.clock⟩⟩
    rw [World.withAttribute, World.memory_withMemory, Heap.cell_modify_ne hresource, hr.attributes]
    rfl

theorem annotate {f : Slot → Slot} (hf : Annotates f) : Keeps (Writes eng P) (modifySlot eng f) := by
  intro w w' h
  obtain ⟨p, hp, rfl⟩ := modifySlot_ends h
  exact .of_nothing fun a r hr => hr.annotate hp hf

end Writes

/-- Each effect writes what it is granted. -/
theorem Effect.writes {α : Type} {d : Details} {g : Grants} {m : M φ α} (h : Effect eng d g m) :
    Keeps (Writes eng (Line.Granted d g)) m := by
  intro w w' hends
  have hsampled (b : Bool) : Annotates fun s => { s with is_sampled := b } :=
    fun _ => ⟨rfl, rfl, rfl, rfl⟩
  cases h with
  | createChildSpan hcreates name kind =>
    intro a r hr
    obtain ⟨q, hcreate⟩ := (Direct.createChildSpan name kind).ok hends
    obtain ⟨uuid, hw'⟩ := hr.createChildSpan hcreate
    exact ⟨[.child uuid name kind], List.forall_mem_singleton.mpr hcreates, hw'⟩
  | describe span kv =>
    obtain ⟨-, rfl⟩ := modifySpan_ends hends
    exact .withSpan (x := fun i => .describe i kv) (fun _ => trivial) (fun _ _ => rfl) span
  | addEvent hnotes span event =>
    obtain ⟨-, rfl⟩ := modifySpan_ends hends
    exact .withSpan (x := fun i => .addEvent i event) (fun _ => hnotes) (fun _ _ => rfl) span
  | date hdate span start =>
    obtain ⟨-, rfl⟩ := modifySpan_ends hends
    exact .withSpan (x := fun i => .date i start) (fun _ => hdate) (fun _ _ => rfl) span
  | okEnd hgranted span =>
    obtain ⟨_, hok⟩ := (Direct.okEnd span).ok hends
    obtain ⟨s, -, rfl⟩ := Provider.okEnd_ok hok
    exact .ended (f := Span.okEnded) (x := .okEnd) (fun _ => hgranted) trivial (fun _ _ => rfl) span
  | errorEnd hgranted span message =>
    obtain ⟨_, hok⟩ := (Direct.errorEnd span message).ok hends
    obtain ⟨s, p, -, hp, rfl⟩ := Provider.errorEnd_ok hok
    refine IsTrans.trans _ _ _ (.ended (f := fun now => Span.errorEnded now message)
      (x := fun i => .errorEnd i message) (fun _ => hgranted) trivial (fun _ _ => rfl) span) ?_
    exact .of_nothing fun a r hr => hr.annotate hp (hsampled true)
  | setSampled _ isSampled => exact Writes.annotate (hsampled isSampled) hends
  | setRedisException _ message =>
    have hmessage : Annotates fun s => { s with redisException := message } :=
      fun _ => ⟨rfl, rfl, rfl, rfl⟩
    exact Writes.annotate hmessage hends
  | assignBaggage key value =>
    have hbaggage : Annotates fun s => { s with baggage := s.baggage.assign key value } :=
      fun _ => ⟨rfl, rfl, rfl, rfl⟩
    exact Writes.annotate hbaggage hends
  | addResourceAttribute resource kv =>
    rw [addResourceAttribute_eq hends]
    exact .label resource kv trivial
  | tick =>
    obtain ⟨_, h⟩ | h := hends <;> cases h
    exact .of_line (x := .tick) trivial fun a r hr => hr.ticked
  | php state =>
    obtain ⟨_, h⟩ | h := hends <;> cases h
    exact .of_nothing fun a r hr => hr.of_same rfl rfl hr.clock
  | headers _ entries =>
    obtain ⟨_, h⟩ | h := hends <;> cases h
    exact .of_nothing fun a r hr => hr.of_same rfl rfl hr.clock

namespace Reflects

variable {a : Anchor} {r : Journal} {e : Event φ}

/-- Every event in the course of a session is a step of its journal. -/
theorem step (h : Reflects eng a w r) (hstep : Step eng natives e w w')
    (hinner : e.Inner eng.cli) (hstarted : Started eng w) :
    ∃ r', Journal.Step e r r' ∧ Reflects eng a w' r' := by
  by_cases hcall : ∃ c, e = .call c
  · obtain ⟨c, rfl⟩ := hcall
    obtain ⟨lines, hlines, hw'⟩ := (Effect.built_call c).keeps Effect.writes hstep a r h
    exact ⟨_, .call c r hlines, hw'⟩
  by_cases hsurround : ∃ s, e = .surround s
  · obtain ⟨s, rfl⟩ := hsurround
    obtain ⟨_, hmodify⟩ | hmodify := hstep <;> cases hmodify
    exact ⟨_, .surround s r, h.surround s⟩
  refine ⟨r, .other r (fun c hc => hcall ⟨c, hc⟩) (fun s hs => hsurround ⟨s, hs⟩), ?_⟩
  obtain ⟨c, hc⟩ | ⟨s, hs, -⟩ | ⟨hcli, ppid, rfl⟩ | rfl := inner_cases hstep hinner hstarted
  · exact absurd ⟨c, hc⟩ hcall
  · exact absurd ⟨s, hs⟩ hsurround
  · refine h.of_same rfl ?_ h.clock
    rw [World.anchors, key_reparent hcli]
    rfl
  · exact h

theorem run {es : List (Event φ)} (h : Reflects eng a v r) (hrun : Run (Step eng natives) v es w)
    (hinner : ∀ e ∈ es, e.Inner eng.cli) (hstarted : Started eng v) :
    Started eng w ∧ ∃ r', Run Journal.Step r es r' ∧ Reflects eng a w r' := by
  induction hrun with
  | nil => exact ⟨hstarted, r, .nil, h⟩
  | @snoc es e t u _ hlast ih =>
    obtain ⟨hstarted, r', hrun', ht⟩ := ih fun e he => hinner e (List.mem_append_left _ he)
    have hinner : e.Inner eng.cli := hinner e (by simp)
    obtain ⟨r'', hstep, hu⟩ := ht.step hlast hinner hstarted
    exact ⟨started_inner hlast hinner hstarted, r'', .snoc hrun' hstep, hu⟩

/-- What would be serialised in the course of a session: the resource is not attached before its
end. -/
theorem serialises (h : Reflects eng a w r) : Serialises eng w [(none, r.spans)] := by
  obtain ⟨p, hp⟩ : ∃ p, w.globals.provider = some p := by
    cases hp : w.globals.provider with
    | some p => exact ⟨p, rfl⟩
    | none =>
      have hslot := h.first
      rw [World.slots, hp] at hslot
      cases hslot
  refine ⟨p, a.request, _, hp, ?_, h.owns.message, ?_⟩
  · rw [← World.slots_of_some hp, h.owns.slot]
  · simp [Memory.serialize, Memory.owned, h.owns.cell, h.spans.filterMap]

/-- With the resource attached, it is what the journal says. -/
theorem attached {payload : List (Option Resource × List Span)} (h : Reflects eng a w r)
    (hattach : attachResource eng w = .ok ((), w')) (hpayload : Serialises eng w' payload) :
    payload = r.message := by
  obtain rfl := h.owns.attachResource h.pointer hattach
  obtain ⟨p, request, cell, hp, hrequest, hcell, rfl⟩ := hpayload
  have hp' : w.globals.provider = some p := hp
  have hslot := h.owns.slot
  rw [World.slots_of_some hp'] at hslot
  obtain rfl : request = a.request := Option.some.inj (hrequest.symm.trans hslot)
  obtain rfl : cell = ⟨[a.entry]⟩ := Option.some.inj (hcell.symm.trans h.owns.message)
  simp [Memory.serialize, Memory.owned, h.owns.cell, h.spans.filterMap, h.attributes, Journal.message]

end Reflects

/-- A session that ends is exported: the collection is on, and the request is sampled or has taken
too long when the clock reads `now`. -/
def Chosen (eng : Engine φ) (now : UInt64) (w : World φ) : Prop :=
  w.globals.enable_collect = true ∧ (sampledFlag eng w = true ∨ ∃ f first, HasFirst eng w f first ∧
    (w.globals.max_time_consuming % 2 ^ 64).toNat ≤
      toMilliseconds (now - first.start_time_unix_nano))

/-- One message is exported if `C` holds, and nothing if it does not. -/
def ExportsIf (C : Prop) (w w' : World φ) (message : List (Option Resource × List Span)) :
    Prop :=
  (C → w'.exported = w.exported ++ [message]) ∧ (¬ C → w'.exported = w.exported)

theorem HasFirst.chosen_iff {f : Nat} {first : Span} {now : UInt64} (h : HasFirst eng w f first) :
    Chosen eng now w ↔ w.globals.enable_collect = true ∧ (sampledFlag eng w = true ∨
      (w.globals.max_time_consuming % 2 ^ 64).toNat ≤
        toMilliseconds (now - first.start_time_unix_nano)) := by
  refine and_congr_right fun _ => or_congr_right ⟨?_, fun hlong => ⟨f, first, h, hlong⟩⟩
  rintro ⟨f', first', hfirst', hlong⟩
  obtain ⟨rfl, rfl⟩ := h.unique hfirst'
  exact hlong

/-- The collection exports what is serialised if the session is chosen by the next reading of the
clock. -/
theorem collectSession_exportsIf {f : Nat} {first : Span}
    {message : List (Option Resource × List Span)} (hfirst : HasFirst eng w f first) (h : collectSession eng w = .ok ((), w'))
    (hmessage : ∀ payload, Serialises eng w payload → payload = message) :
    ExportsIf (Chosen eng (w.clock 0) w) w w' message := by
  rw [ExportsIf, hfirst.chosen_iff]
  obtain ⟨hoff, hnothing⟩ | ⟨hon, sampled, u, hsampled, hexports⟩ := collectSession_cases h
  · rw [hoff]
    exact ⟨fun hchosen => absurd hchosen.1 Bool.false_ne_true, fun _ => hnothing⟩
  · have hiff := isSampled_iff hfirst hsampled
    rw [hon]
    obtain ⟨htrue, payload, hpayload, happended⟩ | ⟨hfalse, hnothing⟩ := hexports
    · obtain rfl := hmessage payload hpayload
      exact ⟨fun _ => happended, fun hnot => absurd ⟨rfl, hiff.mp htrue⟩ hnot⟩
    · refine ⟨fun hchosen => ?_, fun _ => hnothing⟩
      rw [hiff.mpr hchosen.2] at hfalse
      cases hfalse

/-- An event that ends the session does so by `shutdown_tracer`. -/
theorem shutdown_of_stops {e : Event φ} (he : w.sessions.Stops eng.cli e)
    (hstep : Step eng natives e w w') :
    ¬ Refuses eng w.globals ∧ shutdown_tracer eng w = .ok ((), w') := by
  cases e with
  | request_shutdown =>
    obtain ⟨hskip, -⟩ | ⟨hserves, hshutdown⟩ := request_shutdown_ends hstep
    · exact absurd he hskip
    · exact ⟨hserves.not_refuses, hshutdown⟩
  | shutdown_cli_tracer =>
    obtain ⟨hskip, -⟩ | ⟨hoffers, hshutdown⟩ := shutdown_cli_tracer_ends (ends_ignore_iff.mp hstep)
    · exact absurd he hskip
    · exact ⟨hoffers.not_refuses, hshutdown⟩
  | _ => exact he.elim

namespace Reflects

variable {a : Anchor} {r : Journal} {e : Event φ}

theorem hasFirst (h : Reflects eng a w r) : ∃ first, HasFirst eng w a.first first := by
  obtain ⟨p, request, cell, hp, -⟩ := h.serialises
  obtain ⟨first, rest, -, hcell⟩ := h.head
  have hslot := h.first
  rw [World.slots_of_some hp] at hslot
  exact ⟨first, p, hp, hslot, hcell⟩

/-- The end of a session exports what its journal says in the end, if the session is chosen. The
first reading of the clock is the end of the first span. -/
theorem shutdown (h : Reflects eng a w r) (he : w.sessions.Stops eng.cli e)
    (hstep : Step eng natives e w w') :
    ExportsIf (Chosen eng (w.clock 1) w) w w' (r.write (.okEnd 0)).message := by
  obtain ⟨heffective, hshutdown⟩ := shutdown_of_stops he hstep
  obtain ⟨p, u, hp, rfl, hend⟩ := shutdown_tracer_ok hshutdown heffective
  rw [← World.slots_of_some hp, h.first] at hend
  obtain ⟨x, y, z, hok, hattach, hcollect, hsame⟩ := finishSession_collects hend
  obtain ⟨s, -, hxeq⟩ := Provider.okEnd_ok hok
  have hx : Reflects eng a x (r.write (.okEnd 0)) := by
    rw [hxeq, h.clock]
    exact h.ticked.withSpan 0 _
  obtain ⟨first, hfirst⟩ := h.hasFirst
  have hticked : HasFirst eng w.ticked a.first first := hfirst
  have hyeq := hx.owns.attachResource hx.pointer hattach
  rw [hxeq] at hyeq
  have hended : HasFirst eng y a.first (first.okEnded (w.clock 0)) := by
    rw [hyeq]
    exact hticked.withSpan (Span.okEnded (w.clock 0))
  have hexports := collectSession_exportsIf hended hcollect fun payload => hx.attached hattach
  have hchosen : Chosen eng (y.clock 0) y ↔ Chosen eng (w.clock 1) w := by
    rw [hended.chosen_iff, hfirst.chosen_iff, hyeq]
    rfl
  have hexported : y.exported = w.exported := by
    rw [hyeq]
    rfl
  rw [ExportsIf, hchosen, ← hsame, hexported] at hexports
  exact hexports

end Reflects

/-- A journal that has just been begun: it has one span, which was given the first reading of the
clock. -/
structure Journal.Begins (clock : Nat → UInt64) (r : Journal) : Prop where
  spans : ∃ first, r.spans = [first] ∧ first.start_time_unix_nano = clock 0 ∧
    first.end_time_unix_nano = 0 ∧ first.events = []
  clock : r.clock = fun n => clock (n + 1)

theorem Journal.Begins.timely {clock : Nat → UInt64} {r : Journal} (h : r.Begins clock)
    (hforward : Forward clock) : r.Timely (clock 0) := by
  obtain ⟨⟨first, hspans, hstart, hend, -⟩, hclock⟩ := h
  refine ⟨fun hmn => ?_, ?_, fun s hs => ?_⟩
  · rw [hclock]
    exact hforward (Nat.succ_le_succ hmn)
  · simp [hspans, hstart]
  · rw [hspans, List.mem_singleton] at hs
    rw [hs, hclock]
    refine ⟨?_, ?_, .inl hend⟩
    · rw [hstart]
      exact UInt64.le_refl _
    · rw [hstart]
      exact hforward (Nat.zero_le 1)

theorem createFirstSpan_begins {name : Bytes} {kind : SpanKind} {q : Nat}
    (h : Provider.createFirstSpan eng name kind u = .ok (q, v))
    (hclean : ∀ p, u.globals.provider = some p →
      (p.slots (u.key eng)).request = none ∧ (p.slots (u.key eng)).firstSpan = none) :
    ∃ a r, r.Begins u.clock ∧ Reflects eng a v r := by
  obtain ⟨x, p, hspan, hp, rfl⟩ := Provider.createFirstSpan_ok h
  obtain ⟨rs, y, p', trace_id, uuid, htracer, hp', -, hadded, hclock⟩ := createSpan_value hspan
  obtain ⟨p₁, hp₁, ⟨hsome, -, -⟩ | ⟨-, rfl, rfl⟩⟩ := Provider.getTracer_ok htracer
  · rw [(hclean p₁ hp₁).1] at hsome
    cases hsome
  have hkey : x.key eng = u.key eng := World.key_congr hadded.ppid
  have hslot : (x.withProvider (p.set (x.key eng)
      { p.slots (x.key eng) with firstSpan := some q })).slots (x.key eng) =
        { p₁.slots (u.key eng) with
          request := some u.memory.requests.next, resourceSpan := some u.memory.resource_spans.next
          resource := some u.memory.resources.next, firstSpan := some q } := by
    rw [slots_set eng hp, if_pos rfl]
    rw [hadded.globals] at hp
    cases hp
    rw [hkey, Provider.set_self]
  have hpointer : q = u.memory.spans.next := hadded.pointer
  refine ⟨⟨u.memory.requests.next, u.memory.resource_spans.next, u.memory.resources.next, q⟩,
    ⟨[{ trace_id, name, kind, span_id := uuid.val.take 8, start_time_unix_nano := u.clock 0 }],
      Provider.resourceAttributes eng u.globals u.pid, fun n => u.clock (n + 1)⟩,
    ⟨⟨_, rfl, rfl, rfl, rfl⟩, rfl⟩, ⟨⟨?_, ?_, ?_, ?_, ?_⟩, ?_, ?_, ?_, ?_, ?_⟩⟩
  · exact congrArg Slot.request hslot
  · exact congrArg Slot.resourceSpan hslot
  · simp [hadded.memory, World.withRequest]
  · simp [hadded.memory, World.withRequest]
  · rw [World.key_withProvider, hslot]
    rintro f ⟨⟩
    simp
  · exact congrArg Slot.firstSpan hslot
  · exact congrArg Slot.resource hslot
  · rw [World.memory_withProvider, hadded.memory, hpointer]
    exact (Stretch.of_empty _).alloc _
  · simp [hadded.memory, World.withRequest]
  · exact hclock

/-- What the header says goes into the first span. -/
theorem Journal.Begins.edit {clock : Nat → UInt64} {r : Journal} (h : r.Begins clock) (i : Nat)
    {f : Span → Span} (hf : ∀ s : Span, ∃ trace_id parent_span_id, f s = { s with
      trace_id := trace_id, parent_span_id := parent_span_id }) : (r.edit i f).Begins clock := by
  obtain ⟨⟨first, hspans, hstart, hend, hevents⟩, hclock⟩ := h
  refine ⟨?_, hclock⟩
  cases i with
  | zero =>
    obtain ⟨trace_id, parent_span_id, hfirst⟩ := hf first
    refine ⟨f first, by simp [Journal.edit, hspans], ?_, ?_, ?_⟩
    · rw [hfirst]
      exact hstart
    · rw [hfirst]
      exact hend
    · rw [hfirst]
      exact hevents
  | succ i => exact ⟨first, by simp [Journal.edit, hspans], hstart, hend, hevents⟩

theorem parseTraceParent_begins {clock : Nat → UInt64} (header : Bytes) :
    Keeps (Preserves fun w => ∃ a r, Journal.Begins clock r ∧ Reflects eng a w r)
      (Provider.parseTraceParent eng header) := by
  refine parseTraceParent_edits (fun span f hf => ?_) (fun b => ?_) header
  · rintro w w' h ⟨a, r, hbegins, hr⟩
    obtain ⟨-, rfl⟩ := modifySpan_ends h
    rcases Nat.lt_or_ge span a.first with hlt | hge
    · exact ⟨a, r, hbegins, hr.withSpan_lt hlt f⟩
    · obtain ⟨i, rfl⟩ := Nat.exists_eq_add_of_le hge
      exact ⟨a, _, hbegins.edit i hf, hr.withSpan i f⟩
  · rintro w w' h ⟨a, r, hbegins, hr⟩
    obtain ⟨p, hp, rfl⟩ := modifySlot_ends h
    have hsampled : Annotates fun s => { s with is_sampled := b } := fun _ => ⟨rfl, rfl, rfl, rfl⟩
    exact ⟨a, r, hbegins, hr.annotate hp hsampled⟩

/-- A start begins a journal, and only describes after that. -/
theorem start_begins {traceparent tracebaggage : Bytes} {kind : SpanKind} (hkept : Kept u)
    (hstart : start_tracer eng traceparent tracebaggage kind u = .ok ((), v))
    (heffective : ¬ Refuses eng u.globals) : ∃ a r, ∃ lines : List Line, r.Begins u.clock ∧
      (∀ x ∈ lines, x.Granted .none .none) ∧ Reflects eng a v (lines.foldl Journal.write r) := by
  obtain ⟨x, y, z, header, name, kind', q, m, hcore, hcreate, hparse, hbuilt, hrest, -⟩ :=
    start_tracer_effects hstart heffective
  have hclock : x.clock = u.clock := show x.core.clock = _ by rw [hcore]; rfl
  obtain ⟨a, r, hbegins, hr⟩ := parseTraceParent_begins header (.of_ok hparse)
    (createFirstSpan_begins hcreate (reset_clean hkept hcore))
  rw [hclock] at hbegins
  obtain ⟨lines, hlines, hv⟩ := hbuilt.keeps Effect.writes hrest a r hr
  exact ⟨a, r, lines, hbegins, hlines, hv⟩

/-- The event that starts a session does so by `start_tracer`. -/
theorem start_of_step {e : Event φ} (hstarts : u.sessions.Starts eng.cli e)
    (h : Step eng natives e u v) : ∃ x traceparent tracebaggage kind, (x = u ∨ x = u.withStarted) ∧
      ¬ Refuses eng x.globals ∧ start_tracer eng traceparent tracebaggage kind x = .ok ((), v) := by
  cases e with
  | request_init =>
    obtain ⟨hskip, -⟩ | ⟨hserves, hstart⟩ := request_init_ends h
    · exact absurd hstarts hskip
    · exact ⟨u, _, _, _, .inl rfl, hserves.not_refuses, hstart⟩
  | start_cli_tracer args =>
    obtain ⟨hskip, -⟩ | ⟨hoffers, _, _, _, -, hstart⟩ := start_cli_tracer_ends (ends_ignore_iff.mp h)
    · exact absurd hstarts hskip
    · exact ⟨_, _, _, _, .inr rfl, hoffers.not_refuses_started, hstart⟩
  | _ => exact hstarts.elim

/-- Lines that create no span leave their number as it is. -/
theorem length_writes {g : Grants} {d : Details} {lines : List Line} {r : Journal}
    (hcreates : ¬ g.creates) (hlines : ∀ x ∈ lines, x.Granted d g) :
    (lines.foldl Journal.write r).spans.length = r.spans.length := by
  induction lines generalizing r with
  | nil => rfl
  | cons x lines ih =>
    rw [List.foldl_cons, ih fun y hy => hlines y (List.mem_cons_of_mem _ hy)]
    have hx := hlines x List.mem_cons_self
    cases x with
    | child uuid name kind => exact absurd hx hcreates
    | describe i kv => exact List.length_modify _ _ _
    | addEvent i event => exact List.length_modify _ _ _
    | date i start => exact List.length_modify _ _ _
    | okEnd i => exact List.length_modify _ _ _
    | errorEnd i message => exact List.length_modify _ _ _
    | label kv => rfl
    | tick => rfl

theorem Opened.begins (h : Opened eng natives v) : ∃ clock a r, ∃ lines : List Line,
    r.Begins clock ∧ (∀ x ∈ lines, x.Granted .none .none) ∧
      Reflects eng a v (lines.foldl Journal.write r) := by
  obtain ⟨u, traceparent, tracebaggage, kind, hkept, heffective, hstart⟩ := h.start
  exact ⟨u.clock, start_begins hkept hstart heffective⟩

theorem Opened.reflects (h : Opened eng natives v) :
    ∃ a r, r.spans.length = 1 ∧ Reflects eng a v r := by
  obtain ⟨clock, a, r, lines, ⟨⟨first, hspans, -⟩, -⟩, hlines, hv⟩ := h.begins
  refine ⟨a, _, ?_, hv⟩
  rw [length_writes id hlines, hspans]
  rfl

end opentelemetry
