import OpentelemetryExt.Provider.Baggage
import OpentelemetryExt.Lib.Relational

open assoc heap stateful relational

namespace opentelemetry

/-- The addresses that the messages of one trace have had, and whether it has a request. -/
structure Holding where
  spans : Set Nat
  resource_spans : Set Nat
  resources : Set Nat
  requests : Set Nat
  live : Prop

namespace Holding

/-- A trace comes to more messages, and to a request. -/
instance instPreorder : Preorder Holding where
  le o o' := (o.spans ⊆ o'.spans ∧ o.resource_spans ⊆ o'.resource_spans ∧
    o.resources ⊆ o'.resources ∧ o.requests ⊆ o'.requests) ∧ (o.live → o'.live)
  le_refl _ := ⟨⟨subset_rfl, subset_rfl, subset_rfl, subset_rfl⟩, id⟩
  le_trans _ _ _ h h' := ⟨⟨h.1.1.trans h'.1.1, h.1.2.1.trans h'.1.2.1, h.1.2.2.1.trans h'.1.2.2.1,
    h.1.2.2.2.trans h'.1.2.2.2⟩, fun hlive => h'.2 (h.2 hlive)⟩

end Holding

/-- The messages of one trace are the same in both memories, and point to no others. -/
structure Memory.Shares (own others : Holding) (before m m' : Memory) : Prop where
  spans : Heap.Shares own.spans others.spans before.spans m.spans m'.spans
  resource_spans : Heap.Shares own.resource_spans others.resource_spans before.resource_spans
    m.resource_spans m'.resource_spans
  resources : Heap.Shares own.resources others.resources before.resources m.resources m'.resources
  requests : Heap.Shares own.requests others.requests before.requests m.requests m'.requests
  message (p : Nat) (request : ExportTraceServiceRequest) : p ∈ own.requests →
    m.requests.cell p = some request → ∀ rs ∈ request.resource_spans, rs ∈ own.resource_spans
  entry (p : Nat) (r : ResourceSpans) : p ∈ own.resource_spans →
    m.resource_spans.cell p = some r →
      (∀ q ∈ r.spans, q ∈ own.spans) ∧ ∀ q, r.resource = some q → q ∈ own.resources

namespace Memory.Shares

variable {own others : Holding} {before m m' : Memory}

theorem modifySpan (h : Memory.Shares own others before m m') {p : Nat} (hp : p ∈ own.spans)
    (f : Span → Span) : Memory.Shares own others before { m with spans := m.spans.modify p f }
      { m' with spans := m'.spans.modify p f } :=
  { h with spans := h.spans.modify hp f }

theorem modifyResource (h : Memory.Shares own others before m m') {p : Nat}
    (hp : p ∈ own.resources) (f : Resource → Resource) :
    Memory.Shares own others before { m with resources := m.resources.modify p f }
      { m' with resources := m'.resources.modify p f } :=
  { h with resources := h.resources.modify hp f }

/-- A new span, in an entry of the trace. -/
theorem addSpan (h : Memory.Shares own others before m m') {rs : Nat}
    (hrs : rs ∈ own.resource_spans) (span : Span) :
    Memory.Shares { own with spans := insert m.spans.next own.spans } others before
      { m with
        spans := m.spans.alloc span
        resource_spans := m.resource_spans.modify rs fun r =>
          { r with spans := r.spans ++ [m.spans.next] } }
      { m' with
        spans := m'.spans.alloc span
        resource_spans := m'.resource_spans.modify rs fun r =>
          { r with spans := r.spans ++ [m'.spans.next] } } where
  spans := h.spans.alloc span
  resource_spans := by
    rw [h.spans.next]
    exact h.resource_spans.modify hrs _
  resources := h.resources
  requests := h.requests
  message := h.message
  entry p r hp hr := by
    by_cases heq : p = rs
    · subst heq
      obtain ⟨r', hr', rfl⟩ := Option.map_eq_some_iff.mp ((Heap.cell_modify_self _ _ _).symm.trans hr)
      obtain ⟨hspans, hresource⟩ := h.entry p r' hp hr'
      refine ⟨fun q hq => ?_, hresource⟩
      rcases List.mem_append.mp hq with hq | hq
      · exact Set.mem_insert_of_mem _ (hspans q hq)
      · rw [List.mem_singleton.mp hq]
        exact Set.mem_insert _ _
    · obtain ⟨hspans, hresource⟩ := h.entry p r hp ((Heap.cell_modify_ne heq).symm.trans hr)
      exact ⟨fun q hq => Set.mem_insert_of_mem _ (hspans q hq), hresource⟩

/-- A new request. -/
theorem newRequest (h : Memory.Shares own others before m m') (resource : Resource) :
    Memory.Shares { own with
        requests := insert m.requests.next own.requests
        resource_spans := insert m.resource_spans.next own.resource_spans
        resources := insert m.resources.next own.resources
        live := True } others before
      { m with
        requests := m.requests.alloc ⟨[m.resource_spans.next]⟩
        resource_spans := m.resource_spans.alloc {}
        resources := m.resources.alloc resource }
      { m' with
        requests := m'.requests.alloc ⟨[m.resource_spans.next]⟩
        resource_spans := m'.resource_spans.alloc {}
        resources := m'.resources.alloc resource } where
  spans := h.spans
  resource_spans := h.resource_spans.alloc {}
  resources := h.resources.alloc resource
  requests := h.requests.alloc _
  message p request hp hrequest rs hrs := by
    rw [Heap.cell_alloc] at hrequest
    by_cases hnew : p = m.requests.next
    · rw [if_pos hnew] at hrequest
      obtain rfl := Option.some.inj hrequest
      rw [List.mem_singleton.mp hrs]
      exact Set.mem_insert _ _
    · rw [if_neg hnew] at hrequest
      exact Set.mem_insert_of_mem _ (h.message p request (hp.resolve_left hnew) hrequest rs hrs)
  entry p r hp hr := by
    rw [Heap.cell_alloc] at hr
    by_cases hnew : p = m.resource_spans.next
    · rw [if_pos hnew] at hr
      obtain rfl := Option.some.inj hr
      exact ⟨fun q hq => absurd hq List.not_mem_nil, fun q hq => absurd hq.symm (Option.some_ne_none q)⟩
    · rw [if_neg hnew] at hr
      obtain ⟨hspans, hresource⟩ := h.entry p r (hp.resolve_left hnew) hr
      exact ⟨hspans, fun q hq => Set.mem_insert_of_mem _ (hresource q hq)⟩

theorem owned_eq (h : Memory.Shares own others before m m') {p : Nat}
    {request : ExportTraceServiceRequest} (hp : p ∈ own.requests)
    (hrequest : m.requests.cell p = some request) : m'.owned request = m.owned request := by
  have hmem := h.message p request hp hrequest
  exact List.filterMap_congr fun rs hrs => h.resource_spans.same rs (hmem rs hrs)

/-- The request goes, with all that it owns. -/
theorem deleteRequest (h : Memory.Shares own others before m m') {p : Nat}
    {request : ExportTraceServiceRequest} (hp : p ∈ own.requests)
    (hrequest : m.requests.cell p = some request) :
    Memory.Shares { own with live := False } others before (m.deleteRequest p request)
      (m'.deleteRequest p request) := by
  have hmem := h.message p request hp hrequest
  have hentry {r : ResourceSpans} (hr : r ∈ m.owned request) :
      (∀ q ∈ r.spans, q ∈ own.spans) ∧ ∀ q, r.resource = some q → q ∈ own.resources := by
    obtain ⟨rs, hrs, hcell⟩ := List.mem_filterMap.mp hr
    exact h.entry rs r (hmem rs hrs) hcell
  have hfreed {α : Type} {u : Heap α} {dead : List Nat} {q : Nat} {a : α}
      (hq : (u.free dead).cell q = some a) : u.cell q = some a := by
    rw [Heap.cell_free] at hq
    split at hq
    · cases hq
    · exact hq
  have howned := h.owned_eq hp hrequest
  constructor
  · unfold Memory.deleteRequest
    rw [howned]
    refine h.spans.free fun q hq => ?_
    obtain ⟨r, hr, hmem⟩ := List.mem_flatMap.mp hq
    exact (hentry hr).1 q hmem
  · exact h.resource_spans.free hmem
  · unfold Memory.deleteRequest
    rw [howned]
    refine h.resources.free fun q hq => ?_
    obtain ⟨r, hr, hres⟩ := List.mem_filterMap.mp hq
    exact (hentry hr).2 q hres
  · refine h.requests.free fun q hq => ?_
    rw [List.mem_singleton.mp hq]
    exact hp
  · exact fun q x hq hx => h.message q x hq (hfreed hx)
  · exact fun q r hq hr => h.entry q r hq (hfreed hr)

end Memory.Shares

/-- The slot of a trace points to messages of the trace. Without a request there is nothing
that a deletion of the request would take with it. -/
structure Slot.Fits (own : Holding) (s : Slot) : Prop where
  request (p : Nat) : s.request = some p → p ∈ own.requests
  resourceSpan (p : Nat) : s.resourceSpan = some p → p ∈ own.resource_spans
  resource (p : Nat) : s.resource = some p → p ∈ own.resources
  firstSpan (p : Nat) : s.firstSpan = some p → p ∈ own.spans
  live : own.live ↔ s.request.isSome
  settled : s.request.isSome ∨ s.baggage.entries = [] ∧ s.redisException = []

variable {φ α β : Type}

/-- The two processes are in the same trace, each under its own key, with the same surroundings.
In the first of them all else is as `before`. -/
structure Twin (eng fpm : Engine φ) (others : Holding) (before : World φ) (own : Holding)
    (w v : World φ) : Prop where
  memory : Memory.Shares own others before.memory w.memory v.memory
  provider : ∃ p q, w.globals.provider = some p ∧
    v.globals = { w.globals with provider := some q } ∧ q.counter = p.counter ∧
    q.slots (v.key fpm) = p.slots (w.key eng) ∧ (p.slots (w.key eng)).Fits own ∧
    ∀ key, key ≠ w.key eng → p.slots key = before.slots key
  clock : v.clock = w.clock
  uuids : v.uuids = w.uuids
  pid : v.pid = w.pid
  erange : v.erange = w.erange
  ppid : w.ppid = before.ppid

variable {eng fpm : Engine φ} {others own : Holding} {before : World φ}

/-- The two programs go the same way in the two processes. -/
abbrev Pairs (eng fpm : Engine φ) (others : Holding) (before : World φ)
    (V : Holding → α → β → Prop) (own : Holding) (m : M φ α) (n : M φ β) : Prop :=
  Relates (Twin eng fpm others before) V own m n

namespace Twin

variable {w v : World φ}

theorem withMemory {own' : Holding} {m m' : Memory} (h : Twin eng fpm others before own w v)
    (hown : own.live ↔ own'.live) (hle : own ≤ own')
    (hm : Memory.Shares own' others before.memory m m') :
    Twin eng fpm others before own' (w.withMemory m) (v.withMemory m') := by
  obtain ⟨p, q, hp, hq, hcounter, hslot, hfits, hothers⟩ := h.provider
  obtain ⟨⟨hspans, hentries, hresources, hrequests⟩, -⟩ := hle
  refine ⟨hm, ⟨p, q, hp, hq, hcounter, hslot, ?_, hothers⟩, h.clock, h.uuids, h.pid, h.erange,
    h.ppid⟩
  exact ⟨fun p hp => hrequests (hfits.request p hp), fun p hp => hentries (hfits.resourceSpan p hp),
    fun p hp => hresources (hfits.resource p hp), fun p hp => hspans (hfits.firstSpan p hp),
    hown.symm.trans hfits.live, hfits.settled⟩

/-- The memory and the slot of the trace change alike. -/
theorem change {own' : Holding} {m m' : Memory} {p q : Provider} {s : Slot}
    (h : Twin eng fpm others before own w v) (hp : w.globals.provider = some p)
    (hq : v.globals.provider = some q)
    (hm : Memory.Shares own' others before.memory m m') (hs : s.Fits own') :
    Twin eng fpm others before own' ((w.withMemory m).withProvider (p.set (w.key eng) s))
      ((v.withMemory m').withProvider (q.set (v.key fpm) s)) := by
  obtain ⟨p', q', hp', hq', hcounter, -, -, hothers⟩ := h.provider
  obtain rfl : p = p' := Option.some.inj (hp.symm.trans hp')
  obtain rfl : q = q' := by
    rw [hq'] at hq
    exact (Option.some.inj hq).symm
  refine ⟨hm, ⟨p.set (w.key eng) s, q.set (v.key fpm) s, rfl, ?_, hcounter, ?_, ?_, ?_⟩, h.clock,
    h.uuids, h.pid, h.erange, h.ppid⟩
  · change ({ v.globals with provider := some (q.set (v.key fpm) s) } : Globals) = _
    rw [hq']
    rfl
  · rw [World.key_withProvider, World.key_withProvider, World.key_withMemory, World.key_withMemory,
      Provider.set_self, Provider.set_self]
  · rw [World.key_withProvider, World.key_withMemory, Provider.set_self]
    exact hs
  · intro key hkey
    rw [World.key_withProvider, World.key_withMemory] at hkey
    rw [Provider.set_ne _ _ hkey]
    exact hothers key hkey

end Twin

namespace Pairs

theorem slot : Pairs eng fpm others before (fun own s s' => s' = s ∧ s.Fits own) own (slot eng)
    (slot fpm) := by
  intro own' hle w v h
  obtain ⟨p, q, hp, hq, hcounter, hslot, hfits, hothers⟩ := h.provider
  have hq' : v.globals.provider = some q := by rw [hq]
  refine ⟨own', le_rfl, ?_⟩
  rw [slot_of_some hp, slot_of_some hq']
  exact ⟨⟨hslot, hfits⟩, h⟩

/-- A change of the slot that keeps to the messages of the trace. -/
theorem modifySlot {g : Slot → Slot} (hg : ∀ own', own ≤ own' → ∀ s : Slot, s.Fits own' →
    (g s).Fits own') :
    Pairs eng fpm others before Same own (modifySlot eng g) (modifySlot fpm g) := by
  intro own' hle w v h
  obtain ⟨p, q, hp, hq, hcounter, hslot, hfits, hothers⟩ := h.provider
  have hq' : v.globals.provider = some q := by rw [hq]
  refine ⟨own', le_rfl, ?_⟩
  rw [modifySlot_of_some g hp, modifySlot_of_some g hq', hslot]
  exact ⟨rfl, h.change hp hq' h.memory (hg own' hle _ hfits)⟩

theorem get_unix_nanoseconds : Pairs eng fpm others before Same own
    (get_unix_nanoseconds : M φ UInt64) get_unix_nanoseconds := by
  intro own' hle w v h
  refine ⟨own', le_rfl, congrFun h.clock.symm 0, h.memory, h.provider, ?_, h.uuids, h.pid,
    h.erange, h.ppid⟩
  exact funext fun n => congrFun h.clock (n + 1)

theorem generate_uuid : Pairs eng fpm others before Same own (generate_uuid : M φ Bytes)
    generate_uuid := by
  intro own' hle w v h
  refine ⟨own', le_rfl, congrArg (fun u : Nat → Uuid => (u 0).val) h.uuids.symm, h.memory,
    h.provider, h.clock, ?_, h.pid, h.erange, h.ppid⟩
  exact funext fun n => congrFun h.uuids (n + 1)

theorem globals : Pairs eng fpm others before (fun _ g g' =>
    g'.max_time_consuming = g.max_time_consuming ∧ g'.sample_ratio_based = g.sample_ratio_based)
    own (globals : M φ Globals) globals := by
  intro own' hle w v h
  obtain ⟨p, q, hp, hq, -⟩ := h.provider
  refine ⟨own', le_rfl, ⟨?_, ?_⟩, h⟩
  · rw [hq]
  · rw [hq]

theorem count : Pairs eng fpm others before Same own (Provider.count : M φ Int) Provider.count := by
  intro own' hle w v h
  obtain ⟨p, q, hp, hq, hcounter, -⟩ := h.provider
  have hq' : v.globals.provider = some q := by rw [hq]
  refine ⟨own', le_rfl, ?_⟩
  rw [Provider.count, bind_apply, bind_apply, provider_of_some hp, provider_of_some hq']
  exact ⟨hcounter.symm, h⟩

theorem erange : Pairs eng fpm others before (fun _ w v => v.erange = w.erange) own
    (get : M φ (World φ)) get := .get fun _ _ _ h => h.erange

theorem readSpan {q : Nat} (hq : q ∈ own.spans) :
    Pairs eng fpm others before Same own (readSpan q : M φ Span) (readSpan q) := by
  intro own' hle w v h
  refine ⟨own', le_rfl, ?_⟩
  have hcell := h.memory.spans.same q (hle.1.1 hq)
  simp only [opentelemetry.readSpan, bind_apply, get_apply, ok_bind, load, hcell]
  cases w.memory.spans.cell q with
  | none => exact rfl
  | some s => exact ⟨rfl, h⟩

theorem modifySpan {q : Nat} (hq : q ∈ own.spans) (f : Span → Span) :
    Pairs eng fpm others before Same own (modifySpan q f : M φ Unit) (modifySpan q f) := by
  refine Relates.bind_same (readSpan hq) fun own' hle _ => .modify fun own'' hle' w v h => ?_
  refine ⟨own'', le_rfl, h.withMemory Iff.rfl le_rfl ?_⟩
  exact h.memory.modifySpan (hle'.1.1 (hle.1.1 hq)) f

theorem addResourceAttribute {resource : Nat} (hresource : resource ∈ own.resources)
    (kv : KeyValue) : Pairs eng fpm others before Same own
      (Provider.addResourceAttribute resource kv : M φ Unit)
      (Provider.addResourceAttribute resource kv) := by
  intro own' hle w v h
  refine ⟨own', le_rfl, ?_⟩
  have hmem := hle.1.2.2.1 hresource
  have hcell := h.memory.resources.same resource hmem
  simp only [Provider.addResourceAttribute, bind_apply, get_apply, ok_bind, load, hcell]
  cases w.memory.resources.cell resource with
  | none => exact rfl
  | some r => exact ⟨rfl, h.withMemory Iff.rfl le_rfl (h.memory.modifyResource hmem _)⟩

/-- What two programs return is the same message of the trace. -/
def Among (f : Holding → Set Nat) (own : Holding) (p p' : Nat) : Prop := p' = p ∧ p ∈ f own

theorem addSpan {rs : Nat} (hrs : rs ∈ own.resource_spans) (span : Span) :
    Pairs eng fpm others before (Among Holding.spans) own (Provider.addSpan rs span : M φ Nat)
      (Provider.addSpan rs span) := by
  intro own' hle w v h
  have hmem := hle.1.2.1 hrs
  have hcell := h.memory.resource_spans.same rs hmem
  simp only [Provider.addSpan, bind_apply, get_apply, ok_bind, load, hcell]
  cases w.memory.resource_spans.cell rs with
  | none => exact ⟨own', le_rfl, rfl⟩
  | some r =>
    have hgrows : own' ≤ { own' with spans := insert w.memory.spans.next own'.spans } :=
      ⟨⟨Set.subset_insert _ _, subset_rfl, subset_rfl, subset_rfl⟩, id⟩
    refine ⟨_, hgrows, ⟨h.memory.spans.next, Set.mem_insert _ _⟩, ?_⟩
    exact h.withMemory Iff.rfl hgrows (h.memory.addSpan hmem span)

/-- Both get the resource of the same platform. -/
theorem resourceAttributes_eq {w v : World φ} (hplatform : fpm.platform_name = eng.platform_name)
    (h : Twin eng fpm others before own w v) :
    Provider.resourceAttributes fpm v.globals v.pid =
      Provider.resourceAttributes eng w.globals w.pid := by
  obtain ⟨p, q, hp, hq, -⟩ := h.provider
  rw [Provider.resourceAttributes, Provider.resourceAttributes, hplatform, hq, h.pid]

/-- The same message, of a request that is there. -/
def AmongLive (f : Holding → Set Nat) (own : Holding) (p p' : Nat) : Prop :=
  Among f own p p' ∧ own.live

theorem newRequest (hplatform : fpm.platform_name = eng.platform_name) :
    Pairs eng fpm others before (AmongLive Holding.resource_spans) own (Provider.newRequest eng)
      (Provider.newRequest fpm) := by
  intro own' hle w v h
  obtain ⟨p, q, hp, hq, hcounter, hslot, hfits, hothers⟩ := h.provider
  have hq' : v.globals.provider = some q := by rw [hq]
  have hresource := resourceAttributes_eq hplatform h
  have hgrows : own' ≤ { own' with
      requests := insert w.memory.requests.next own'.requests
      resource_spans := insert w.memory.resource_spans.next own'.resource_spans
      resources := insert w.memory.resources.next own'.resources
      live := True } :=
    ⟨⟨subset_rfl, Set.subset_insert _ _, Set.subset_insert _ _, Set.subset_insert _ _⟩,
      fun _ => trivial⟩
  refine ⟨_, hgrows, ?_⟩
  rw [Provider.newRequest_of_some hp, Provider.newRequest_of_some hq', World.withRequest,
    World.withRequest, hslot, h.memory.requests.next, h.memory.resource_spans.next,
    h.memory.resources.next, hresource]
  refine ⟨⟨⟨rfl, Set.mem_insert _ _⟩, trivial⟩, h.change hp hq' (h.memory.newRequest _) ?_⟩
  constructor
  · rintro r ⟨⟩
    exact Set.mem_insert _ _
  · rintro r ⟨⟩
    exact Set.mem_insert _ _
  · rintro r ⟨⟩
    exact Set.mem_insert _ _
  · exact fun r hr => hfits.firstSpan r hr
  · exact iff_of_true trivial rfl
  · exact .inl rfl

/-- The entry of the request, or of a new one. -/
theorem getTracer (hplatform : fpm.platform_name = eng.platform_name) :
    Pairs eng fpm others before (AmongLive Holding.resource_spans) own (Provider.getTracer eng)
      (Provider.getTracer fpm) := by
  refine Relates.bind slot fun own' hle s s' hs => ?_
  obtain ⟨rfl, hfits⟩ := hs
  refine .ite Iff.rfl (fun hrequest => ?_) fun _ => newRequest hplatform
  refine .lift (fun _ => Iff.rfl) fun p p' hp hp' own'' hle' => ?_
  obtain rfl : p = p' := Except.ok.inj (hp.symm.trans hp')
  have hmem := hfits.resourceSpan p (deref_eq_ok_iff.mp hp)
  exact ⟨⟨rfl, hle'.1.2.1 hmem⟩, hle'.2 (hfits.live.mpr hrequest)⟩

/-- What the slot says, which both slots say. -/
theorem look {V : Holding → α → α → Prop} {f : Slot → α}
    (hV : ∀ own', own ≤ own' → ∀ s : Slot, s.Fits own' → ∀ own'', own' ≤ own'' → V own'' (f s) (f s)) :
    Pairs eng fpm others before V own (do return f (← opentelemetry.slot eng))
      (do return f (← opentelemetry.slot fpm)) := by
  refine Relates.bind slot fun own' hle s s' hs => ?_
  obtain ⟨rfl, hfits⟩ := hs
  exact .pure fun own'' hle' => hV own' hle _ hfits own'' hle'

/-- A pointer that a program returns is the same on both sides, and null or of the trace. -/
def Pointer (f : Holding → Set Nat) (own : Holding) (p p' : Option Nat) : Prop :=
  p' = p ∧ ∀ q, p = some q → q ∈ f own

theorem firstOneSpan : Pairs eng fpm others before (Pointer Holding.spans) own
    (Provider.firstOneSpan eng) (Provider.firstOneSpan fpm) :=
  look fun _ _ _ hfits _ hle => ⟨rfl, fun q hq => hle.1.1 (hfits.firstSpan q hq)⟩

theorem getResource : Pairs eng fpm others before (Pointer Holding.resources) own
    (Provider.getResource eng) (Provider.getResource fpm) :=
  look fun _ _ _ hfits _ hle => ⟨rfl, fun q hq => hle.1.2.2.1 (hfits.resource q hq)⟩

theorem getRequest : Pairs eng fpm others before (Pointer Holding.requests) own
    (Provider.getRequest eng) (Provider.getRequest fpm) :=
  look fun _ _ _ hfits _ hle => ⟨rfl, fun q hq => hle.1.2.2.2 (hfits.request q hq)⟩

/-- What is behind a pointer that is not null. -/
theorem deref {f : Holding → Set Nat} {p p' : Option Nat}
    (hmono : ∀ own own' : Holding, own ≤ own' → f own ⊆ f own') (h : Pointer f own p p') :
    Pairs eng fpm others before (Among f) own (lift (opentelemetry.deref p) : M φ Nat)
      (lift (opentelemetry.deref p')) := by
  obtain ⟨rfl, hmem⟩ := h
  refine .lift (fun _ => Iff.rfl) fun q q' hq hq' own' hle => ?_
  obtain rfl : q = q' := Except.ok.inj (hq.symm.trans hq')
  exact ⟨rfl, hmono _ _ hle (hmem q (deref_eq_ok_iff.mp hq))⟩

theorem traceIdFor {first first' : Option Nat} (h : Pointer Holding.spans own first first') :
    Pairs eng fpm others before Same own (Provider.traceIdFor first : M φ Bytes)
      (Provider.traceIdFor first') := by
  obtain ⟨rfl, hmem⟩ := h
  cases first' with
  | none => exact generate_uuid
  | some q => exact Relates.bind_same (readSpan (hmem q rfl)) fun _ _ s => .pure_same _

theorem createSpan (hplatform : fpm.platform_name = eng.platform_name) (name : Bytes)
    (kind : SpanKind) : Pairs eng fpm others before (AmongLive Holding.spans) own
      (Provider.createSpan eng name kind) (Provider.createSpan fpm name kind) := by
  refine Relates.bind (getTracer hplatform) fun o₁ h₁ rs rs' hrs => ?_
  obtain ⟨⟨rfl, hmem⟩, hlive⟩ := hrs
  refine Relates.bind firstOneSpan fun o₂ h₂ first first' hfirst => ?_
  refine Relates.bind_same (traceIdFor hfirst) fun o₃ h₃ trace_id => ?_
  refine Relates.bind_same generate_uuid fun o₄ h₄ span_id => ?_
  refine Relates.bind_same get_unix_nanoseconds fun o₅ h₅ start => ?_
  have hle := h₂.trans (h₃.trans (h₄.trans h₅))
  exact (addSpan (hle.1.2.1 hmem) _).mono fun o₆ h₆ _ _ hspan => ⟨hspan, h₆.2 (hle.2 hlive)⟩

/-- Changes of the slot that leave the request, its entry and the resource. -/
theorem modifySlot_pointers {g : Slot → Slot} (hrequest : ∀ s, (g s).request = s.request)
    (hentry : ∀ s, (g s).resourceSpan = s.resourceSpan) (hresource : ∀ s, (g s).resource = s.resource)
    (hfirst : ∀ s p, (g s).firstSpan = some p → s.firstSpan = some p ∨ p ∈ own.spans)
    (hsettled : own.live ∨ ∀ s, (g s).baggage = s.baggage ∧ (g s).redisException = s.redisException) :
    Pairs eng fpm others before Same own (opentelemetry.modifySlot eng g)
      (opentelemetry.modifySlot fpm g) := by
  refine modifySlot fun own' hle s hs => ⟨?_, ?_, ?_, fun p hp => ?_, ?_, ?_⟩
  · rw [hrequest]
    exact hs.request
  · rw [hentry]
    exact hs.resourceSpan
  · rw [hresource]
    exact hs.resource
  · exact (hfirst s p hp).elim (hs.firstSpan p) fun hmem => hle.1.1 hmem
  · rw [hrequest]
    exact hs.live
  · rw [hrequest]
    obtain hlive | hsame := hsettled
    · exact .inl (hs.live.mp (hle.2 hlive))
    · rw [(hsame s).1, (hsame s).2]
      exact hs.settled

theorem createFirstSpan (hplatform : fpm.platform_name = eng.platform_name) (name : Bytes)
    (kind : SpanKind) : Pairs eng fpm others before (AmongLive Holding.spans) own
      (Provider.createFirstSpan eng name kind) (Provider.createFirstSpan fpm name kind) := by
  refine Relates.bind (createSpan hplatform name kind) fun o₁ h₁ span span' hspan => ?_
  obtain ⟨⟨rfl, hmem⟩, hlive⟩ := hspan
  refine Relates.bind_same ?_ fun o₂ h₂ _ => .pure fun o₃ h₃ =>
    ⟨⟨rfl, (h₂.trans h₃).1.1 hmem⟩, (h₂.trans h₃).2 hlive⟩
  refine modifySlot_pointers (fun _ => rfl) (fun _ => rfl) (fun _ => rfl) (fun s p hp => ?_)
    (.inr fun _ => ⟨rfl, rfl⟩)
  obtain rfl := Option.some.inj hp
  exact .inr hmem

theorem setSampled (isSampled : Bool) : Pairs eng fpm others before Same own
    (Provider.setSampled eng isSampled) (Provider.setSampled fpm isSampled) :=
  modifySlot_pointers (fun _ => rfl) (fun _ => rfl) (fun _ => rfl) (fun _ _ => .inl)
    (.inr fun _ => ⟨rfl, rfl⟩)

theorem isSampled : Pairs eng fpm others before Same own (Provider.isSampled eng)
    (Provider.isSampled fpm) := by
  refine Relates.bind slot fun o₁ h₁ s s' hs => ?_
  obtain ⟨rfl, hfits⟩ := hs
  refine .ite Iff.rfl (fun _ => .pure_same true) fun _ => ?_
  have hfirst : Pointer Holding.spans o₁ s'.firstSpan s'.firstSpan := ⟨rfl, hfits.firstSpan⟩
  refine Relates.bind (deref (fun _ _ hle => hle.1.1) hfirst) fun o₂ h₂ p p' hp => ?_
  obtain ⟨rfl, hmem⟩ := hp
  refine Relates.bind_same (readSpan hmem) fun o₃ h₃ first => ?_
  refine Relates.bind_same get_unix_nanoseconds fun o₄ h₄ now => ?_
  refine Relates.bind globals fun o₅ h₅ g g' hg => ?_
  rw [hg.1]
  exact .pure_same _

theorem addBaggage (hlive : own.live) (key value : Bytes) : Pairs eng fpm others before Same own
    (Provider.addBaggage eng key value) (Provider.addBaggage fpm key value) := by
  refine Relates.bind_same ?_ fun o₁ h₁ _ => ?_
  · exact modifySlot_pointers (fun _ => rfl) (fun _ => rfl) (fun _ => rfl) (fun _ _ => .inl)
      (.inl hlive)
  · refine Relates.bind getResource fun o₂ h₂ resource resource' hresource => ?_
    refine Relates.bind (deref (fun _ _ hle => hle.1.2.2.1) hresource) fun o₃ h₃ p p' hp => ?_
    obtain ⟨rfl, hmem⟩ := hp
    exact addResourceAttribute hmem _

theorem parseTraceParent (traceparent : Bytes) : Pairs eng fpm others before Same own
    (Provider.parseTraceParent eng traceparent) (Provider.parseTraceParent fpm traceparent) := by
  refine .ite Iff.rfl (fun _ => ?_) fun _ => ?_
  · dsimp only
    generalize explode (lit "-") traceparent = parts
    rcases parts with _ | ⟨version, _ | ⟨kv1, _ | ⟨kv2, _ | ⟨kv3, _ | ⟨_, _⟩⟩⟩⟩⟩
    case cons.cons.cons.cons.nil =>
      refine Relates.bind erange fun o₁ h₁ w v herange => ?_
      rw [herange]
      refine Relates.bind firstOneSpan fun o₂ h₂ first first' hfirst => ?_
      refine Relates.bind (deref (fun _ _ hle => hle.1.1) hfirst) fun o₃ h₃ p p' hp => ?_
      obtain ⟨rfl, hmem⟩ := hp
      refine Relates.bind_same (.lift_same _) fun o₄ h₄ trace_id => ?_
      refine Relates.bind_same (modifySpan (h₄.1.1 hmem) _) fun o₅ h₅ _ => ?_
      refine Relates.bind_same (.lift_same _) fun o₆ h₆ parent_span_id => ?_
      refine Relates.bind_same (modifySpan ((h₄.trans (h₅.trans h₆)).1.1 hmem) _) fun o₇ h₇ _ => ?_
      exact setSampled _
    all_goals exact .pure_same ()
  · refine Relates.bind globals fun o₁ h₁ g g' hg => ?_
    rw [hg.2]
    refine .ite Iff.rfl (fun _ => setSampled true) fun _ => ?_
    refine Relates.bind_same count fun o₂ h₂ counter => ?_
    refine Relates.bind_same (.lift_same _) fun o₃ h₃ rest => ?_
    exact .ite Iff.rfl (fun _ => setSampled true) fun _ =>
      .ite Iff.rfl (fun _ => setSampled false) fun _ => .pure_same ()

theorem parseBaggage (hlive : own.live) (tracebaggage : Bytes) :
    Pairs eng fpm others before Same own (Provider.parseBaggage eng tracebaggage)
      (Provider.parseBaggage fpm tracebaggage) := by
  refine .ite Iff.rfl (fun _ => .forM fun o₁ h₁ item => ?_) fun _ => .pure_same ()
  generalize explode (lit "=") item = parts
  rcases parts with _ | ⟨key, _ | ⟨value, _ | ⟨_, _⟩⟩⟩
  case cons.cons.nil => exact addBaggage (h₁.2 hlive) key value
  all_goals exact .pure_same ()

theorem formatTraceParentHeader {span : Nat} (hspan : span ∈ own.spans) :
    Pairs eng fpm others before Same own (Provider.formatTraceParentHeader eng span)
      (Provider.formatTraceParentHeader fpm span) := by
  refine Relates.bind_same (readSpan hspan) fun o₁ h₁ s => ?_
  refine Relates.bind_same (.lift_same _) fun o₂ h₂ trace_id => ?_
  refine Relates.bind_same (.lift_same _) fun o₃ h₃ span_id => ?_
  exact Relates.bind_same isSampled fun o₄ h₄ sampled => .pure_same _

theorem errorEnd {span : Nat} (hspan : span ∈ own.spans) (message : Bytes) :
    Pairs eng fpm others before Same own (Provider.errorEnd eng span message)
      (Provider.errorEnd fpm span message) := by
  refine Relates.bind_same get_unix_nanoseconds fun o₁ h₁ now => ?_
  refine Relates.bind_same (modifySpan (h₁.1.1 hspan) _) fun o₂ h₂ _ => ?_
  exact setSampled true

theorem setRedisException (hlive : own.live) (message : Bytes) :
    Pairs eng fpm others before Same own (Provider.setRedisException eng message)
      (Provider.setRedisException fpm message) :=
  modifySlot_pointers (fun _ => rfl) (fun _ => rfl) (fun _ => rfl) (fun _ _ => .inl) (.inl hlive)

theorem isRedisException : Pairs eng fpm others before Same own (Provider.isRedisException eng)
    (Provider.isRedisException fpm) :=
  Relates.bind_same (look fun _ _ _ _ _ _ => rfl) fun o₁ h₁ message => .pure_same _

/-- Two headers of the same entries. -/
def SameEntries (header header' : Bytes) : Prop :=
  ∃ entries entries', List.Perm entries entries' ∧ header = joined entries ∧
    header' = joined entries'

theorem formatBaggageHeader : Pairs eng fpm others before (fun _ => SameEntries) own
    (Provider.formatBaggageHeader eng) (Provider.formatBaggageHeader fpm) := by
  refine Relates.bind slot fun o₁ h₁ s s' hs => ?_
  obtain ⟨rfl, -⟩ := hs
  refine .pure fun _ _ => ⟨(eng.iterate s'.baggage).val, (fpm.iterate s'.baggage).val, ?_, rfl, rfl⟩
  exact (eng.iterate s'.baggage).property.trans (fpm.iterate s'.baggage).property.symm

end Pairs

theorem Memory.Shares.spent {own others : Holding} {before m m' : Memory}
    (h : Memory.Shares own others before m m') :
    Memory.Shares { own with live := False } others before m m' := { h with }

/-- What `clean` leaves of a slot does not depend on the mode, and has no request. -/
theorem Slot.Fits.cleaned {s : Slot} (h : s.Fits own) (cli : Bool) :
    (s.cleaned cli).Fits { own with live := False } ∧ s.cleaned cli = s.cleaned (!cli) := by
  cases hrequest : s.request with
  | some r =>
    have hcleaned (cli : Bool) :
        s.cleaned cli = { resource := s.resource, baggage := s.baggage.clear } := by
      simp [Slot.cleaned, hrequest]
    rw [hcleaned, hcleaned]
    refine ⟨⟨?_, ?_, h.resource, ?_, ?_, .inr ⟨Table.entries_clear _, rfl⟩⟩, rfl⟩
    · rintro p ⟨⟩
    · rintro p ⟨⟩
    · rintro p ⟨⟩
    · exact iff_of_false id Bool.false_ne_true
  | none =>
    have hnone : ¬ s.request.isSome := by
      rw [hrequest]
      exact Bool.false_ne_true
    obtain ⟨hbaggage, hredis⟩ := h.settled.resolve_left hnone
    have hcleaned (cli : Bool) : s.cleaned cli = s := by
      rw [Slot.cleaned, if_neg hnone]
      cases cli with
      | false => rfl
      | true => rw [if_pos rfl, Table.clear_of_nil hbaggage, ← hredis]
    rw [hcleaned, hcleaned]
    exact ⟨⟨h.request, h.resourceSpan, h.resource, h.firstSpan, iff_of_false id hnone, h.settled⟩, rfl⟩

/-- A clean of both. -/
theorem Twin.clean {w v : World φ} (h : Twin eng fpm others before own w v) :
    Outcomes (Twin eng fpm others before { own with live := False }) Eq (Provider.clean eng w)
      (Provider.clean fpm v) := by
  obtain ⟨p, q, hp, hq, hcounter, hslot, hfits, hothers⟩ := h.provider
  have hq' : v.globals.provider = some q := by rw [hq]
  obtain ⟨hcleaned, hmode⟩ := hfits.cleaned eng.cli
  have hsame : (q.slots (v.key fpm)).cleaned fpm.cli = (p.slots (w.key eng)).cleaned eng.cli := by
    rw [hslot]
    by_cases hcli : fpm.cli = eng.cli
    · rw [hcli]
    · rw [hmode, Bool.eq_not_of_ne hcli]
  cases hrequest : (p.slots (w.key eng)).request with
  | none =>
    have hlive {q' : Provider} {key : Option Nat} {m : Memory} (hs : q'.slots key = p.slots (w.key eng)) :
        ∀ r, (q'.slots key).request = some r → (m.requests.cell r).isSome := by
      intro r hr
      rw [hs, hrequest] at hr
      cases hr
    rw [Provider.clean_of_live hp (hlive rfl), Provider.clean_of_live hq' (hlive hslot),
      World.cleaned, World.cleaned, hsame, hslot, Memory.cleaned, Memory.cleaned, hrequest]
    exact ⟨rfl, h.change hp hq' h.memory.spent hcleaned⟩
  | some r =>
    have hmem := hfits.request r hrequest
    have hcell := h.memory.requests.same r hmem
    cases hx : w.memory.requests.cell r with
    | none =>
      rw [Provider.clean_of_dangling hp hrequest hx,
        Provider.clean_of_dangling hq' (hslot ▸ hrequest) (hcell.trans hx)]
      rfl
    | some x =>
      have hlive {q' : Provider} {key : Option Nat} {m : Memory}
          (hs : q'.slots key = p.slots (w.key eng)) (hm : m.requests.cell r = some x) :
          ∀ r, (q'.slots key).request = some r → (m.requests.cell r).isSome := by
        intro r' hr'
        rw [hs, hrequest] at hr'
        obtain rfl := Option.some.inj hr'
        rw [hm]
        rfl
      rw [Provider.clean_of_live hp (hlive rfl hx),
        Provider.clean_of_live hq' (hlive hslot (hcell.trans hx)), World.cleaned, World.cleaned,
        hsame, hslot, Memory.cleaned, Memory.cleaned, hrequest]
      simp only [hx, hcell.trans hx, Option.map_some, Option.getD_some]
      exact ⟨rfl, h.change hp hq' (h.memory.deleteRequest hmem hx) hcleaned⟩

/-- The messages of one trace are the same in both memories, and the second has given out no more
addresses. -/
structure Memory.Alike (own : Holding) (m m' : Memory) : Prop where
  spans : Heap.Alike own.spans m.spans m'.spans
  resource_spans : Heap.Alike own.resource_spans m.resource_spans m'.resource_spans
  resources : Heap.Alike own.resources m.resources m'.resources
  requests : Heap.Alike own.requests m.requests m'.requests
  message (p : Nat) (request : ExportTraceServiceRequest) : p ∈ own.requests →
    m.requests.cell p = some request → ∀ rs ∈ request.resource_spans, rs ∈ own.resource_spans
  entry (p : Nat) (r : ResourceSpans) : p ∈ own.resource_spans →
    m.resource_spans.cell p = some r →
      (∀ q ∈ r.spans, q ∈ own.spans) ∧ ∀ q, r.resource = some q → q ∈ own.resources

theorem Memory.Shares.alike {own others : Holding} {before m m' : Memory}
    (h : Memory.Shares own others before m m') : Memory.Alike own m m' :=
  ⟨h.spans.alike, h.resource_spans.alike, h.resources.alike, h.requests.alike, h.message, h.entry⟩

end opentelemetry
