import OpentelemetryExt.Session.Requests

open heap stateful run

namespace opentelemetry

variable {φ : Type} {eng : Engine φ} {natives : CurlNatives φ} {u v w w' : World φ}
variable {lost : Finset Nat} {request rs resource : Nat} {r : ResourceSpans}

/-- There is no session, and of the objects that were allocated only the resources in `lost` are
still there. -/
structure Vacant (eng : Engine φ) (w : World φ) (lost : Finset Nat) : Prop where
  request : (w.slots (w.key eng)).request = none
  firstSpan : (w.slots (w.key eng)).firstSpan = none
  requests : w.memory.requests.live = ∅
  entries : w.memory.resource_spans.live = ∅
  spans : w.memory.spans.live = ∅
  resources : w.memory.resources.live = ↑lost

/-- There is a session, and beside the resources in `lost` only the objects of its request are
there: the message, its entry, the spans of it, and the resource that is to be attached. -/
structure Covered (eng : Engine φ) (w : World φ) (lost : Finset Nat) (request rs resource : Nat)
    (r : ResourceSpans) : Prop where
  owns : Owns w (w.key eng) request rs r
  firstSpan : (w.slots (w.key eng)).firstSpan.isSome
  unattached : r.resource = none
  pointer : (w.slots (w.key eng)).resource = some resource
  requests : w.memory.requests.live = {request}
  entries : w.memory.resource_spans.live = {rs}
  spans : w.memory.spans.live = {q | q ∈ r.spans}
  resources : w.memory.resources.live = insert resource ↑lost
  apart : resource ∉ lost

/-- There is a session with its message. -/
def Occupied (eng : Engine φ) (lost : Finset Nat) (w : World φ) : Prop :=
  ∃ request rs resource r, Covered eng w lost request rs resource r

/-- One or the other. -/
def Resident (eng : Engine φ) (lost : Finset Nat) (w : World φ) : Prop :=
  Vacant eng w lost ∨ Occupied eng lost w

/-- All that this depends on: the layout of the requests, and which objects are there. -/
def World.objects (w : World φ) : (Heap ResourceSpans × Heap ExportTraceServiceRequest) ×
    (Set Nat × Set Nat) × (Option Nat → (Option Nat × Option Nat × Option Nat) × Option Nat) :=
  ((w.memory.resource_spans, w.memory.requests),
    (w.memory.spans.live, w.memory.resources.live),
    fun k => ((w.slots k).pointers, (w.slots k).resource))

/-- An operation creates a child span, or leaves the objects alone. -/
theorem Op.objects {α : Type} {stores : Prop} {m : M φ α} (h : Op eng stores m)
    (hends : Ends m w w') : (w'.objects = w.objects ∧ w'.key eng = w.key eng) ∨
      ∃ name kind q, Provider.createChildSpan eng name kind w = .ok (q, w') := by
  cases h with
  | createChildSpan name kind =>
    obtain ⟨q, hok⟩ := (Direct.createChildSpan name kind).ok hends
    exact .inr ⟨name, kind, q, hok⟩
  | edit span hf =>
    obtain ⟨-, rfl⟩ := modifySpan_ends hends
    refine .inl ⟨Prod.ext rfl (Prod.ext (Prod.ext ?_ rfl) rfl), rfl⟩
    exact Heap.live_modify _ _ _
  | annotate hf =>
    obtain ⟨p, hp, rfl⟩ := modifySlot_ends hends
    refine .inl ⟨Prod.ext rfl (Prod.ext rfl ?_), rfl⟩
    funext k
    change (((_ : World φ).slots k).pointers, ((_ : World φ).slots k).resource) =
      ((w.slots k).pointers, (w.slots k).resource)
    rw [slots_set eng hp]
    split
    · rename_i hk
      obtain ⟨hrequest, hentry, hresource, hfirst⟩ := hf (p.slots (w.key eng))
      rw [hk, World.slots_of_some hp, Slot.pointers, Slot.pointers, hrequest, hentry, hresource, hfirst]
    · rfl
  | addResourceAttribute resource kv =>
    have hkeeps : Keeps (SameOn fun w : World φ => (w.objects, w.key eng))
        (Provider.addResourceAttribute resource kv) := by
      refine .bind (.of_reads .get) fun _ => .bind (.of_reads (.lift _)) fun _ => .modify fun w => ?_
      refine Prod.ext (Prod.ext rfl (Prod.ext (Prod.ext rfl ?_) rfl)) rfl
      exact Heap.live_modify _ _ _
    exact .inl (Prod.mk.inj (hkeeps hends))
  | tick =>
    obtain ⟨_, h⟩ | h := hends <;> cases h
    exact .inl ⟨rfl, rfl⟩
  | php state =>
    obtain ⟨_, h⟩ | h := hends <;> cases h
    exact .inl ⟨rfl, rfl⟩
  | headers _ entries =>
    obtain ⟨_, h⟩ | h := hends <;> cases h
    exact .inl ⟨rfl, rfl⟩

theorem Vacant.of_objects (h : Vacant eng w lost) (hobjects : w'.objects = w.objects)
    (hkey : w'.key eng = w.key eng) : Vacant eng w' lost := by
  simp only [World.objects, Prod.mk.injEq] at hobjects
  obtain ⟨⟨hentries, hrequests⟩, ⟨hspans, hresources⟩, hslots⟩ := hobjects
  have hslot := congrFun hslots (w.key eng)
  simp only [Slot.pointers, Prod.mk.injEq] at hslot
  obtain ⟨⟨hfirst, hrequest, -⟩, -⟩ := hslot
  refine ⟨?_, ?_, ?_, ?_, ?_, ?_⟩
  · rw [hkey, hrequest, h.request]
  · rw [hkey, hfirst, h.firstSpan]
  · rw [hrequests, h.requests]
  · rw [hentries, h.entries]
  · rw [hspans, h.spans]
  · rw [hresources, h.resources]

theorem Covered.of_objects (h : Covered eng w lost request rs resource r)
    (hobjects : w'.objects = w.objects) (hkey : w'.key eng = w.key eng) :
    Covered eng w' lost request rs resource r := by
  simp only [World.objects, Prod.mk.injEq] at hobjects
  obtain ⟨⟨hentries, hrequests⟩, ⟨hspans, hresources⟩, hslots⟩ := hobjects
  have hslot := congrFun hslots (w.key eng)
  simp only [Prod.mk.injEq] at hslot
  obtain ⟨hpointers, hresource⟩ := hslot
  refine ⟨?_, ?_, h.unattached, ?_, ?_, ?_, ?_, ?_, h.apart⟩
  · rw [hkey]
    refine h.owns.of_pointers hpointers ?_ ?_
    · rw [hrequests, h.owns.message]
    · rw [hentries, h.owns.cell]
  · rw [hkey, (Prod.mk.inj hpointers).1]
    exact h.firstSpan
  · rw [hkey, hresource, h.pointer]
  · rw [hrequests, h.requests]
  · rw [hentries, h.entries]
  · rw [hspans, h.spans]
  · rw [hresources, h.resources]

theorem Resident.of_objects (h : Resident eng lost w) (hobjects : w'.objects = w.objects)
    (hkey : w'.key eng = w.key eng) : Resident eng lost w' := by
  obtain hv | ⟨request, rs, resource, r, hh⟩ := h
  · exact .inl (hv.of_objects hobjects hkey)
  · exact .inr ⟨request, rs, resource, r, hh.of_objects hobjects hkey⟩

/-- A new span comes into the entry of the request. -/
theorem Covered.createSpan {name : Bytes} {kind : SpanKind} {q : Nat}
    (h : Covered eng w lost request rs resource r)
    (hcreate : Provider.createSpan eng name kind w = .ok (q, w')) :
    Covered eng w' lost request rs resource { r with spans := r.spans ++ [q] } := by
  obtain ⟨rs', v, p, span, htracer, -, hadded, -⟩ := Provider.createSpan_ok hcreate
  obtain ⟨p', hp', ⟨-, hentry, rfl⟩ | ⟨hnone, -, -⟩⟩ := Provider.getTracer_ok htracer
  · rw [← World.slots_of_some hp', h.owns.entry] at hentry
    obtain rfl : rs = rs' := Option.some.inj hentry
    have hkey : w'.key eng = v.key eng := World.key_congr hadded.ppid
    have hslots : w'.slots = v.slots := by rw [World.slots, hadded.globals]; rfl
    refine ⟨⟨?_, ?_, ?_, ?_, ?_⟩, ?_, h.unattached, ?_, ?_, ?_, ?_, ?_, h.apart⟩
    · rw [hkey, hslots, h.owns.slot]
    · rw [hkey, hslots, h.owns.entry]
    · rw [hadded.memory, h.owns.message]
    · simp [hadded.memory, h.owns.cell]
    · rw [hkey, hslots]
      exact fun f hf => List.mem_append_left _ (h.owns.first f hf)
    · rw [hkey, hslots]
      exact h.firstSpan
    · rw [hkey, hslots, h.pointer]
    · rw [hadded.memory, h.requests]
    · rw [hadded.memory]
      exact (Heap.live_modify _ _ _).trans h.entries
    · rw [hadded.memory, hadded.pointer]
      ext q'
      rw [Heap.live_alloc, h.spans]
      simp only [Set.mem_insert_iff, Set.mem_setOf_eq, List.mem_append, List.mem_singleton]
      exact or_comm
    · rw [hadded.memory, h.resources]
  · rw [← World.slots_of_some hp', h.owns.slot] at hnone
    cases hnone

theorem Covered.createChildSpan {name : Bytes} {kind : SpanKind} {q : Nat}
    (h : Covered eng w lost request rs resource r)
    (hcreate : Provider.createChildSpan eng name kind w = .ok (q, w')) :
    Covered eng w' lost request rs resource { r with spans := r.spans ++ [q] } := by
  obtain ⟨v, f, parent, -, hspan, rfl⟩ := createChildSpan_ok hcreate
  refine (h.createSpan hspan).of_objects (Prod.ext rfl (Prod.ext (Prod.ext ?_ rfl) rfl)) rfl
  exact Heap.live_modify _ _ _

/-- In a session, every operation of hooks, callbacks and SDK calls puts what it allocates into the
message. -/
theorem Op.occupied {α : Type} {stores : Prop} {m : M φ α} (h : Op eng stores m) :
    Keeps (Preserves (Occupied eng lost)) m := by
  rintro w w' hends ⟨request, rs, resource, r, hh⟩
  obtain ⟨hobjects, hkey⟩ | ⟨name, kind, q, hcreate⟩ := h.objects hends
  · exact ⟨request, rs, resource, r, hh.of_objects hobjects hkey⟩
  · exact ⟨request, rs, resource, _, hh.createChildSpan hcreate⟩

/-- Without one, none of them allocates anything. -/
theorem Op.vacant {α : Type} {stores : Prop} {m : M φ α} (h : Op eng stores m) :
    Keeps (Preserves (Vacant eng · lost)) m := by
  intro w w' hends hv
  obtain ⟨hobjects, hkey⟩ | ⟨name, kind, q, hcreate⟩ := h.objects hends
  · exact hv.of_objects hobjects hkey
  · obtain ⟨v, f, parent, ⟨p, hp, hfirst, -⟩, -⟩ := createChildSpan_ok hcreate
    rw [← World.slots_of_some hp, hv.firstSpan] at hfirst
    cases hfirst

theorem Op.holds {α : Type} {stores : Prop} {m : M φ α} (h : Op eng stores m) :
    Keeps (Preserves (Resident eng lost)) m := by
  intro w w' hends hw
  obtain hv | hh := hw
  · exact .inl (h.vacant hends hv)
  · exact .inr (h.occupied hends hh)

/-- What is left of the memory when the request is deleted. -/
theorem Owns.cleaned {k : Option Nat} (h : Owns w k request rs r) :
    w.memory.cleaned (w.slots k) =
      { spans := w.memory.spans.free r.spans
        resource_spans := w.memory.resource_spans.free [rs]
        resources := w.memory.resources.free r.resource.toList
        requests := w.memory.requests.free [request] } := by
  have howned : w.memory.owned ⟨[rs]⟩ = [r] := by simp [Memory.owned, h.cell]
  have hresource : [r].filterMap (fun rs => rs.resource) = r.resource.toList := by
    cases hr : r.resource with
    | none => simp [hr]
    | some x => simp [hr]
  rw [Memory.cleaned, h.slot]
  simp only [h.message, Option.map_some, Option.getD_some, Memory.deleteRequest, howned, hresource,
    List.flatMap_cons, List.flatMap_nil, List.append_nil]

/-- Without a session a reset finds nothing to delete. -/
theorem Vacant.reset (h : Vacant eng w lost) : Vacant eng (w.reset eng) lost := by
  have hmemory : (w.reset eng).memory = w.memory := by
    change w.memory.cleaned (w.slots (w.key eng)) = w.memory
    rw [Memory.cleaned, h.request]
  have hslot : (w.reset eng).slots (w.key eng) = (w.slots (w.key eng)).cleaned eng.cli := by
    rw [World.slots_reset, Function.update_self]
  have hcleaned : ((w.slots (w.key eng)).cleaned eng.cli).request = none ∧
      ((w.slots (w.key eng)).cleaned eng.cli).firstSpan = none := by
    rw [Slot.cleaned, h.request, Option.isSome_none, if_neg Bool.false_ne_true]
    split
    · exact ⟨rfl, h.firstSpan⟩
    · exact ⟨h.request, h.firstSpan⟩
  refine ⟨?_, ?_, ?_, ?_, ?_, ?_⟩
  · exact (congrArg Slot.request hslot).trans hcleaned.1
  · exact (congrArg Slot.firstSpan hslot).trans hcleaned.2
  · rw [hmemory, h.requests]
  · rw [hmemory, h.entries]
  · rw [hmemory, h.spans]
  · rw [hmemory, h.resources]

/-- A reset in the course of a session deletes its request. The resource has not been attached, so
that it stays behind. -/
theorem Covered.reset (h : Covered eng w lost request rs resource r) :
    Vacant eng (w.reset eng) (insert resource lost) := by
  have hmemory : (w.reset eng).memory = w.memory.cleaned (w.slots (w.key eng)) := rfl
  have hslot : (w.reset eng).slots (w.key eng) =
      { resource := some resource, baggage := (w.slots (w.key eng)).baggage.clear } := by
    rw [World.slots_reset, Function.update_self, Slot.cleaned, h.owns.slot, Option.isSome_some,
      if_pos rfl, h.pointer]
  rw [h.owns.cleaned] at hmemory
  refine ⟨congrArg Slot.request hslot, congrArg Slot.firstSpan hslot, ?_, ?_, ?_, ?_⟩
  · rw [hmemory, Heap.live_free, h.requests]
    simp
  · rw [hmemory, Heap.live_free, h.entries]
    simp
  · rw [hmemory, Heap.live_free, h.spans]
    simp
  · rw [hmemory, Heap.live_free, h.resources, h.unattached]
    simp

/-- Without a session, the first span comes with a message of its own. -/
theorem Vacant.createFirstSpan {name : Bytes} {kind : SpanKind} {q : Nat} (h : Vacant eng w lost)
    (hcreate : Provider.createFirstSpan eng name kind w = .ok (q, w')) : Occupied eng lost w' := by
  obtain ⟨v, p, hspan, hp, rfl⟩ := Provider.createFirstSpan_ok hcreate
  obtain ⟨rs, x, p', span, htracer, -, hadded, -⟩ := Provider.createSpan_ok hspan
  obtain ⟨p₁, hp₁, ⟨hsome, -, -⟩ | ⟨-, rfl, rfl⟩⟩ := Provider.getTracer_ok htracer
  · rw [← World.slots_of_some hp₁, h.request] at hsome
    cases hsome
  have hkey : v.key eng = w.key eng := World.key_congr hadded.ppid
  have hslot : (v.withProvider (p.set (v.key eng)
      { p.slots (v.key eng) with firstSpan := some q })).slots (v.key eng) =
        { p₁.slots (w.key eng) with
          request := some w.memory.requests.next, resourceSpan := some w.memory.resource_spans.next
          resource := some w.memory.resources.next, firstSpan := some q } := by
    rw [slots_set eng hp, if_pos rfl]
    rw [hadded.globals] at hp
    cases hp
    rw [hkey, Provider.set_self]
  have hnew : w.memory.resources.next ∉ lost := by
    intro hmem
    rw [← Finset.mem_coe, ← h.resources] at hmem
    exact Heap.next_not_mem_live _ hmem
  refine ⟨w.memory.requests.next, w.memory.resource_spans.next, w.memory.resources.next,
    { spans := [q] }, ⟨?_, ?_, ?_, ?_, ?_⟩, ?_, rfl, ?_, ?_, ?_, ?_, ?_, hnew⟩
  · exact congrArg Slot.request hslot
  · exact congrArg Slot.resourceSpan hslot
  · simp [hadded.memory, World.withRequest]
  · simp [hadded.memory, World.withRequest]
  · intro f hf
    have hq : q = f := Option.some.inj ((congrArg Slot.firstSpan hslot).symm.trans hf)
    exact hq ▸ List.mem_singleton_self q
  · exact congrArg (fun s => s.firstSpan.isSome) hslot
  · exact congrArg Slot.resource hslot
  · simp [hadded.memory, World.withRequest, h.requests]
  · simp [hadded.memory, World.withRequest, h.entries]
  · rw [World.memory_withProvider, hadded.memory, hadded.pointer]
    simp [World.withRequest, h.spans]
  · simp [hadded.memory, World.withRequest, h.resources]

theorem Vacant.of_core (h : Vacant eng w lost) (heq : u.core = w.core) : Vacant eng u lost := by
  have hppid : u.ppid = w.ppid := show u.core.ppid = _ by rw [heq]; rfl
  refine h.of_objects ?_ (World.key_congr hppid)
  rw [World.objects, World.objects, World.memory_core heq, World.slots_core heq]

theorem Occupied.parseTraceParent (header : Bytes) :
    Keeps (Preserves (Occupied eng lost)) (Provider.parseTraceParent eng header) := by
  refine parseTraceParent_keeps (fun span f _ => ?_) (fun b => ?_) header
  · rintro w w' h ⟨request, rs, resource, r, hh⟩
    obtain ⟨-, rfl⟩ := modifySpan_ends h
    refine ⟨request, rs, resource, r, hh.of_objects ?_ rfl⟩
    refine Prod.ext rfl (Prod.ext (Prod.ext ?_ rfl) rfl)
    exact Heap.live_modify _ _ _
  · have hset : Op eng False (Provider.setSampled eng b) := .annotate fun _ => ⟨rfl, rfl, rfl, rfl⟩
    exact hset.occupied

/-- A start loses the resource of the session that it finds. -/
theorem Resident.start {traceparent tracebaggage : Bytes} {kind : SpanKind} (h : Resident eng lost w)
    (hstart : start_tracer eng traceparent tracebaggage kind w = .ok ((), w'))
    (heffective : ¬ Refuses eng w.globals) : ∃ lost' : Finset Nat,
      lost'.card = lost.card + (if (w.slots (w.key eng)).firstSpan.isSome then 1 else 0) ∧
        Occupied eng lost' w' := by
  obtain ⟨u, v, v₁, header, name, kind', q, m, hcore, hcreate, hparse, hbuilt, hrest, -⟩ :=
    start_tracer_ok hstart heffective
  have hfinish {lost' : Finset Nat} (hreset : Vacant eng (w.reset eng) lost') :
      Occupied eng lost' w' := by
    have hv : Occupied eng lost' v := (hreset.of_core hcore).createFirstSpan hcreate
    have hv₁ : Occupied eng lost' v₁ := Occupied.parseTraceParent header (.of_ok hparse) hv
    exact (hbuilt.trans Move.built_op).keeps Op.occupied hrest hv₁
  obtain hv | ⟨request, rs, resource, r, hh⟩ := h
  · refine ⟨lost, ?_, hfinish hv.reset⟩
    rw [hv.firstSpan]
    rfl
  · refine ⟨insert resource lost, ?_, hfinish hh.reset⟩
    rw [Finset.card_insert_of_notMem hh.apart, if_pos hh.firstSpan]

/-- The resource is attached to the entry. -/
theorem Owns.attachResource (h : Owns w (w.key eng) request rs r)
    (hpointer : (w.slots (w.key eng)).resource = some resource)
    (hattach : attachResource eng w = .ok ((), w')) : w' = w.withMemory { w.memory with
      resource_spans := w.memory.resource_spans.modify rs fun rs =>
        { rs with resource := some resource } } := by
  obtain ⟨rs', u, htracer, hrest⟩ := bind_ok_iff.mp hattach
  obtain ⟨resource', u', hresource, hload⟩ := bind_ok_iff.mp hrest
  obtain ⟨s, t, hslot, hpure⟩ := bind_ok_iff.mp hresource
  obtain ⟨p₀, hp₀, rfl, rfl⟩ := slot_ok hslot
  cases hpure
  obtain ⟨_, v, hget, hmodify⟩ := bind_ok_iff.mp hload
  cases hget
  obtain ⟨r', v, hr, hset⟩ := bind_ok_iff.mp hmodify
  obtain ⟨-, rfl⟩ := lift_ok_iff.mp hr
  cases hset
  obtain ⟨p, hp, ⟨-, hentry, rfl⟩ | ⟨hnone, -, -⟩⟩ := Provider.getTracer_ok htracer
  · rw [← World.slots_of_some hp, h.entry] at hentry
    obtain rfl : rs = rs' := Option.some.inj hentry
    rw [← World.slots_of_some hp₀, hpointer]
  · rw [← World.slots_of_some hp, h.slot] at hnone
    cases hnone

/-- The end of a session deletes its message, and the resource with it. -/
theorem Occupied.finish {first : Nat} (h : Occupied eng lost w)
    (hfinish : finishSession eng first w = .ok ((), w')) : Vacant eng w' lost := by
  obtain ⟨⟨⟩, u, hend, hattach⟩ := bind_ok_iff.mp hfinish
  obtain ⟨⟨⟩, x, hattached, hcollect⟩ := bind_ok_iff.mp hattach
  obtain ⟨⟨⟩, v, hcollected, hclean⟩ := bind_ok_iff.mp hcollect
  obtain ⟨⟨⟩, y, hcleaned, hdrop⟩ := bind_ok_iff.mp hclean
  have hbuilt : Built (Move eng { Grants.none with ends := True }) (Provider.okEnd first) :=
    .op (.okEnd trivial first)
  obtain ⟨request, rs, resource, r, hu⟩ : Occupied eng lost u :=
    (hbuilt.trans Move.built_op).keeps Op.occupied (.of_ok hend) h
  have hx := hu.owns.attachResource hu.pointer hattached
  have howns : Owns x (u.key eng) request rs { r with resource := some resource } := by
    rw [hx]
    exact ⟨hu.owns.slot, hu.owns.entry, hu.owns.message, by simp [hu.owns.cell], hu.owns.first⟩
  have hkeeps : Keeps (SameOn fun w : World φ => (w.memory, w.slots, w.ppid)) (collectSession eng) :=
    collectSession_keeps (fun _ => rfl) fun _ _ => rfl
  have hsame := hkeeps (.of_ok hcollected)
  simp only [SameOn, Prod.mk.injEq] at hsame
  obtain ⟨hmemory, hslots, hppid⟩ := hsame
  have hkey : v.key eng = u.key eng := by
    rw [World.key_congr hppid, hx]
    rfl
  obtain ⟨p, hp, rfl⟩ := Provider.clean_ok hcleaned
  have hslot : p.slots (v.key eng) = x.slots (u.key eng) := by
    rw [← World.slots_of_some hp, hslots, hkey]
  have hcleared : (p.slots (v.key eng)).cleaned eng.cli =
      { resource := (x.slots (u.key eng)).resource
        baggage := (x.slots (u.key eng)).baggage.clear } := by
    rw [hslot, Slot.cleaned, howns.slot, Option.isSome_some, if_pos rfl]
  have hleft : (v.cleaned eng p).memory = x.memory.cleaned (x.slots (u.key eng)) := by
    change v.memory.cleaned _ = _
    rw [hmemory, hslot]
  rw [howns.cleaned, hx] at hleft
  have hvacant : Vacant eng (v.cleaned eng p) lost := by
    refine ⟨?_, ?_, ?_, ?_, ?_, ?_⟩
    · rw [World.cleaned, World.slots_of_some rfl]
      change ((p.set (v.key eng) _).slots (v.key eng)).request = none
      rw [Provider.set_self, hcleared]
    · rw [World.cleaned, World.slots_of_some rfl]
      change ((p.set (v.key eng) _).slots (v.key eng)).firstSpan = none
      rw [Provider.set_self, hcleared]
    · rw [hleft, Heap.live_free]
      simp [hu.requests]
    · rw [hleft, Heap.live_free]
      simp [hu.entries]
    · rw [hleft, Heap.live_free]
      simp [hu.spans]
    · rw [hleft, Heap.live_free]
      simp [hu.resources, hu.apart]
  rw [stateful.ite_apply] at hdrop
  split at hdrop
  · cases hdrop
    exact ⟨rfl, rfl, hvacant.requests, hvacant.entries, hvacant.spans, hvacant.resources⟩
  · cases hdrop
    exact hvacant

theorem Resident.shutdown (h : Resident eng lost w) (hshutdown : shutdown_tracer eng w = .ok ((), w'))
    (heffective : ¬ Refuses eng w.globals) : Vacant eng w' lost := by
  obtain ⟨p, u, hp, rfl, hend⟩ := shutdown_tracer_ok hshutdown heffective
  rw [← World.slots_of_some hp] at hend
  have hu : Vacant eng u lost := by
    obtain hv | hh := h
    · rw [hv.firstSpan] at hend
      subst hend
      exact hv
    · obtain ⟨request, rs, resource, r, hholding⟩ := hh
      obtain ⟨first, hfirst⟩ := Option.isSome_iff_exists.mp hholding.firstSpan
      rw [hfirst] at hend
      exact Occupied.finish ⟨request, rs, resource, r, hholding⟩ hend
  exact hu.of_objects rfl rfl

/-- The event starts a session where there is one under way. -/
def Sessions.Restarts (cli : Bool) (t : Sessions) (e : Event φ) : Prop :=
  t.Starts cli e ∧ t.live.getD (fun _ => false) (t.key cli) = true

instance decidableRestarts (cli : Bool) (t : Sessions) (e : Event φ) : Decidable (t.Restarts cli e) :=
  inferInstanceAs (Decidable (_ ∧ _))

/-- How often that happens. -/
def Sessions.count (cli : Bool) (c : Sessions × Nat) (e : Event φ) : Sessions × Nat :=
  (c.1.next cli e, c.2 + if c.1.Restarts cli e then 1 else 0)

def restarts (cli : Bool) (t : Sessions) (es : List (Event φ)) : Nat :=
  (es.foldl (Sessions.count cli) (t, 0)).2

theorem count_fst (cli : Bool) (c : Sessions × Nat) (es : List (Event φ)) :
    (es.foldl (Sessions.count cli) c).1 = es.foldl (Sessions.next cli) c.1 := by
  induction es generalizing c with
  | nil => rfl
  | cons e es ih => exact ih _

/-- The parent stays the same where the key depends on it. -/
def Event.Stays (cli : Bool) : Event φ → Prop
  | .reparent _ => cli = false
  | _ => True

/-- An event loses a resource if it starts a session where there is one, and nothing otherwise. -/
theorem holds_step {e : Event φ} (h : Step eng natives e w w') (hstays : e.Stays eng.cli)
    (hw : Resident eng lost w) : ∃ lost' : Finset Nat, lost'.card =
      lost.card + (if w.sessions.Restarts eng.cli e then 1 else 0) ∧ Resident eng lost' w' := by
  have hlive : w.sessions.live.getD (fun _ => false) (w.sessions.key eng.cli) =
      (w.slots (w.key eng)).firstSpan.isSome := congrFun (live_getD w) _
  have hkept (hnot : ¬ w.sessions.Starts eng.cli e) (hw' : Resident eng lost w') :
      ∃ lost' : Finset Nat, lost'.card =
        lost.card + (if w.sessions.Restarts eng.cli e then 1 else 0) ∧ Resident eng lost' w' :=
    ⟨lost, by rw [if_neg fun hr => hnot hr.1, Nat.add_zero], hw'⟩
  have hstarted {x : World φ} {traceparent tracebaggage : Bytes} {kind : SpanKind}
      (hstarts : w.sessions.Starts eng.cli e) (hx : Resident eng lost x) (hslots : x.slots = w.slots)
      (hkey : x.key eng = w.key eng) (heffective : ¬ Refuses eng x.globals)
      (hstart : start_tracer eng traceparent tracebaggage kind x = .ok ((), w')) :
      ∃ lost' : Finset Nat, lost'.card =
        lost.card + (if w.sessions.Restarts eng.cli e then 1 else 0) ∧ Resident eng lost' w' := by
    obtain ⟨lost', hcard, hoccupied⟩ := hx.start hstart heffective
    refine ⟨lost', ?_, .inr hoccupied⟩
    rw [hcard, hslots, hkey, ← hlive]
    simp only [Sessions.Restarts, hstarts, true_and]
  cases e with
  | call c => exact hkept id ((Op.built_call c).keeps Op.holds h hw)
  | surround s =>
    obtain ⟨_, h⟩ | h := h <;> cases h
    exact hkept id (hw.of_objects rfl rfl)
  | reparent ppid =>
    obtain ⟨_, h⟩ | h := h <;> cases h
    exact hkept id (hw.of_objects rfl (key_reparent hstays w ppid))
  | request_init =>
    obtain ⟨hskip, rfl⟩ | ⟨hserves, hstart⟩ := request_init_ends h
    · exact hkept hskip hw
    · exact hstarted hserves hw rfl rfl hserves.not_refuses hstart
  | request_shutdown =>
    obtain ⟨-, rfl⟩ | ⟨hserves, hshutdown⟩ := request_shutdown_ends h
    · exact hkept id hw
    · exact hkept id (.inl (hw.shutdown hshutdown hserves.not_refuses))
  | start_cli_tracer args =>
    obtain ⟨hskip, rfl⟩ | ⟨hoffers, _, _, _, hargs, hstart⟩ :=
      start_cli_tracer_ends (ends_ignore_iff.mp h)
    · exact hkept hskip hw
    · exact hstarted (x := w.withStarted) ⟨hoffers, by rw [hargs]; rfl⟩ (hw.of_objects rfl rfl) rfl rfl
        hoffers.not_refuses_started hstart
  | shutdown_cli_tracer =>
    obtain ⟨-, rfl⟩ | ⟨hoffers, hshutdown⟩ := shutdown_cli_tracer_ends (ends_ignore_iff.mp h)
    · exact hkept id hw
    · exact hkept id (.inl (hw.shutdown hshutdown hoffers.not_refuses))

theorem vacant_new (hnew : w.globals.provider = none) (hempty : w.memory = {}) : Vacant eng w ∅ := by
  have hslots : w.slots = fun _ => {} := by rw [World.slots, hnew]; rfl
  refine ⟨by rw [hslots], by rw [hslots], ?_, ?_, ?_, ?_⟩
  · rw [hempty]
    exact Heap.live_empty
  · rw [hempty]
    exact Heap.live_empty
  · rw [hempty]
    exact Heap.live_empty
  · rw [hempty, Finset.coe_empty]
    exact Heap.live_empty

/-- What a process holds of the protobuf objects, however it starts and ends sessions and whatever
happens in them (with one parent, in the CLI): those of the message of the current session, if there
is one, and one resource for every start that found a session under way. -/
theorem memory_held {es : List (Event φ)} (hnew : w.globals.provider = none) (hempty : w.memory = {})
    (hrun : Run (Step eng natives) w es w') (hstays : ∀ e ∈ es, e.Stays eng.cli) :
    ∃ lost : Finset Nat, lost.card = restarts eng.cli w.sessions es ∧ Resident eng lost w' := by
  induction hrun with
  | nil => exact ⟨∅, rfl, .inl (vacant_new hnew hempty)⟩
  | @snoc es e t u hfirst hlast ih =>
    obtain ⟨lost, hcard, ht⟩ := ih fun e he => hstays e (List.mem_append_left _ he)
    obtain ⟨lost', hcard', hu⟩ := holds_step hlast (hstays e (by simp)) ht
    refine ⟨lost', ?_, hu⟩
    have hsessions : (es.foldl (Sessions.count eng.cli) (w.sessions, 0)).1 = t.sessions := by
      rw [count_fst, sessions_run hfirst]
    rw [hcard', hcard, restarts, restarts, List.foldl_append, List.foldl_cons, List.foldl_nil,
      Sessions.count, hsessions]

/-- A request that is started a second time before it has ended. -/
theorem memory_held_restart : ∃ w' : World Unit, Run (Step (.bare false) .bare) (World.fresh ())
      [.request_init, .request_init] w' ∧
    ∃ lost : Finset Nat, lost.card = 1 ∧ Resident (.bare false) lost w' := by
  obtain ⟨w', hrun⟩ : ∃ w', Run (Step (.bare false) .bare) (World.fresh ())
      [.request_init, .request_init] w' := run_final _ (by decide +kernel)
  exact ⟨w', hrun, memory_held rfl rfl hrun fun e _ => by cases e <;> trivial⟩

/-- Between complete sessions nothing is left of them. -/
theorem sessions_leave_nothing {es : List (Event φ)} (hnew : w.globals.provider = none)
    (hempty : w.memory = {}) (hrun : Run (Step eng natives) w es w')
    (hphases : es.foldlM (Phase.next eng.cli) .idle = some .idle) : Vacant eng w' ∅ := by
  have hboth : Orderly eng .idle w' ∧ Resident eng ∅ w' := by
    refine hrun.follows (R := fun u phase => Orderly eng phase u ∧ Resident eng ∅ u) hphases
      ⟨orderly_new hnew _, .inl (vacant_new hnew hempty)⟩ ?_
    rintro e t u phase phase' hstep hnext ⟨horderly, hholds⟩
    refine ⟨orderly_step hstep hnext horderly, ?_⟩
    have hstays : e.Stays eng.cli := by
      cases e with
      | reparent ppid => cases phase <;> cases hnext
      | _ => trivial
    obtain ⟨lost, hcard, hu⟩ := holds_step hstep hstays hholds
    have hfresh : ¬ t.sessions.Restarts eng.cli e := by
      rintro ⟨hstarts, hlive⟩
      have hidle : phase = .idle := by
        obtain ⟨s, rfl, -⟩ | ⟨c, rfl, -, -⟩ | ⟨hidle, -⟩ | ⟨-, -, ⟨-, rfl⟩ | ⟨-, rfl⟩⟩ :=
          Phase.next_cases hnext
        · exact hstarts.elim
        · exact hstarts.elim
        · exact hidle
        · exact hstarts.elim
        · exact hstarts.elim
      obtain ⟨resource, past, hspent⟩ := horderly.spent hidle
      rw [live_getD] at hlive
      change ((t.slots (t.key eng)).firstSpan).isSome = true at hlive
      rw [hspent] at hlive
      cases hlive
    rw [if_neg hfresh, Finset.card_empty, Finset.card_eq_zero] at hcard
    exact hcard ▸ hu
  obtain ⟨horderly, hv | ⟨request, rs, resource, r, hh⟩⟩ := hboth
  · exact hv
  · obtain ⟨resource', past, hspent⟩ := horderly.spent rfl
    have hfirst := hh.firstSpan
    rw [hspent] at hfirst
    cases hfirst

end opentelemetry
