import OpentelemetryExt.Session.Chain
import OpentelemetryExt.Session.Inner

open heap stateful run

namespace opentelemetry

variable {φ : Type} {eng : Engine φ} {natives : CurlNatives φ} {u v w w' : World φ}

/-- The current request has one resource-spans entry, `rs`, in which the first span `f` comes
first and then all spans that were created since; they are in its trace and have it as their
parent. -/
structure Tree (eng : Engine φ) (w : World φ) (f rs : Nat) (r : ResourceSpans) (rest : List Nat)
    (first : Span) : Prop where
  laid : Laid eng w f rs r
  whole : Whole eng w rs
  spans : r.spans = f :: rest
  spread (q : Nat) : q ∈ rest ↔ f < q ∧ q < w.memory.spans.next
  cell : w.memory.spans.cell f = some first
  children : ∀ q ∈ rest, ∃ s, w.memory.spans.cell q = some s ∧ s.trace_id = first.trace_id ∧
    s.parent_span_id = first.span_id

def IsTree (eng : Engine φ) (w : World φ) : Prop := ∃ f rs r rest first, Tree eng w f rs r rest first

theorem Tree.hasFirst {f rs : Nat} {r : ResourceSpans} {rest : List Nat} {first : Span}
    (h : Tree eng w f rs r rest first) : HasFirst eng w f first := by
  obtain ⟨p, hp, hfirst, -⟩ := h.laid.slot
  exact ⟨p, hp, hfirst, h.cell⟩

theorem Tree.of_shape {f rs : Nat} {r : ResourceSpans} {rest : List Nat} {first : Span}
    (h : Tree eng w f rs r rest first) (hshape : w'.shape = w.shape) (hids : IdsKept w w')
    (hnext : w'.memory.spans.next = w.memory.spans.next) :
    ∃ first', Tree eng w' f rs r rest first' := by
  obtain ⟨first', hcell, htrace, hid, -⟩ := hids f first h.cell
  refine ⟨first', h.laid.of_shape hshape, h.whole.of_shape hshape, h.spans,
    hnext.symm ▸ h.spread, hcell, fun q hq => ?_⟩
  obtain ⟨s, hs, hstrace, hsparent⟩ := h.children q hq
  obtain ⟨s', hs', htrace', -, hparent'⟩ := hids q s hs
  exact ⟨s', hs', by rw [htrace', hstrace, htrace], by rw [hparent', hsparent, hid]⟩

theorem IsTree.of_shape (h : IsTree eng w) (hshape : w'.shape = w.shape) (hids : IdsKept w w')
    (hnext : w'.memory.spans.next = w.memory.spans.next) : IsTree eng w' := by
  obtain ⟨f, rs, r, rest, first, htree⟩ := h
  exact ⟨f, rs, r, rest, htree.of_shape hshape hids hnext⟩

theorem Tree.traced {f rs : Nat} {r : ResourceSpans} {rest : List Nat} {first : Span}
    (h : Tree eng w f rs r rest first) : Traced eng first.trace_id w := by
  refine ⟨f, rs, r, h.laid, fun q hq => ?_⟩
  rw [h.spans] at hq
  rcases List.mem_cons.mp hq with rfl | hq
  · exact ⟨first, h.cell, rfl⟩
  · obtain ⟨s, hs, htrace, -⟩ := h.children q hq
    exact ⟨s, hs, htrace⟩

/-- A new span comes into the request that there is. -/
theorem createSpan_laid {name : Bytes} {kind : SpanKind} {q f rs : Nat} {r : ResourceSpans}
    (hlaid : Laid eng w f rs r) (hwhole : Whole eng w rs)
    (h : Provider.createSpan eng name kind w = .ok (q, v)) :
    Laid eng v f rs { r with spans := r.spans ++ [q] } ∧ Whole eng v rs := by
  obtain ⟨⟨p, hp, hfirst, hrequest, hresource⟩, hcell, hmem⟩ := hlaid
  obtain ⟨rs', u, p', span, htracer, hp', hadded, -⟩ := Provider.createSpan_ok h
  obtain ⟨p₁, hp₁, ⟨-, hrs, rfl⟩ | ⟨hnone, -, -⟩⟩ := Provider.getTracer_ok htracer
  · obtain rfl : p = p₁ := Option.some.inj (hp.symm.trans hp₁)
    obtain rfl : rs = rs' := Option.some.inj (hresource.symm.trans hrs)
    obtain ⟨p₂, request, hp₂, hslot, hrequests⟩ := hwhole
    refine ⟨⟨⟨p, ?_⟩, ?_, ?_⟩, ⟨p₂, request, ?_⟩⟩
    · rw [hadded.globals, World.key_congr hadded.ppid]
      exact ⟨hp, hfirst, hrequest, hresource⟩
    · simp [hadded.memory, hcell]
    · simp [hmem]
    · rw [hadded.globals, World.key_congr hadded.ppid, hadded.memory]
      exact ⟨hp₂, hslot, hrequests⟩
  · obtain rfl : p = p₁ := Option.some.inj (hp.symm.trans hp₁)
    rw [hnone] at hrequest
    cases hrequest

/-- A child span becomes one more child of the first span. -/
theorem Tree.createChildSpan {name : Bytes} {kind : SpanKind} {q f rs : Nat} {r : ResourceSpans}
    {rest : List Nat} {first : Span} (h : Tree eng w f rs r rest first)
    (hcreate : Provider.createChildSpan eng name kind w = .ok (q, w')) :
    Tree eng w' f rs { r with spans := r.spans ++ [q] } (rest ++ [q]) first := by
  obtain ⟨v, f', parent, hfirst, hspan, rfl⟩ := createChildSpan_ok hcreate
  obtain ⟨rfl, rfl⟩ := h.hasFirst.unique hfirst
  obtain ⟨hlaid, hwhole⟩ := createSpan_laid h.laid h.whole hspan
  obtain ⟨-, hnew, s, hs, htrace, -⟩ := h.traced.createSpan hspan
  obtain ⟨span, hspans, hq, -⟩ := createSpan_spans hspan
  have hold {q' : Nat} {t : Span} (ht : w.memory.spans.cell q' = some t) :
      q' ≠ q ∧ (v.withSpan q fun s => { s with parent_span_id := first.span_id }).memory.spans.cell
        q' = some t := by
    have hne : q' ≠ q := by
      rintro rfl
      rw [hnew] at ht
      cases ht
    refine ⟨hne, ?_⟩
    rw [World.withSpan, World.memory_withMemory, Heap.cell_modify_ne hne, hspans,
      Heap.cell_alloc_of_some ht]
  have hnext : (v.withSpan q fun s => { s with parent_span_id := first.span_id }).memory.spans.next =
      q + 1 := by
    rw [World.withSpan, World.memory_withMemory, Heap.next_modify, hspans, hq]
    rfl
  refine ⟨hlaid.of_shape rfl, hwhole.of_shape rfl, ?_, fun q' => ?_, (hold h.cell).2,
    fun q' hq' => ?_⟩
  · rw [h.spans, List.cons_append]
  · have hlt : f < q := hq ▸ Heap.lt_next h.cell
    rw [List.mem_append, List.mem_singleton, h.spread, hnext, ← hq]
    omega
  · rcases List.mem_append.mp hq' with hq' | hq'
    · obtain ⟨t, ht, hids⟩ := h.children q' hq'
      exact ⟨t, (hold ht).2, hids⟩
    · rw [List.mem_singleton.mp hq']
      exact ⟨{ s with parent_span_id := first.span_id }, by simp [World.withSpan, hs], htrace, rfl⟩

/-- Every operation of hooks, callbacks and SDK calls keeps the tree. -/
theorem Op.isTree {α : Type} {stores : Prop} {m : M φ α} (h : Op eng stores m) :
    Keeps (Preserves (IsTree eng)) m := by
  intro w w' hends htree
  have hids : IdsKept w w' := h.idsKept hends
  cases h with
  | createChildSpan name kind =>
    obtain ⟨q, hok⟩ := (Direct.createChildSpan name kind).ok hends
    obtain ⟨f, rs, r, rest, first, htree⟩ := htree
    exact ⟨f, rs, _, _, first, htree.createChildSpan hok⟩
  | edit span hf =>
    have hshape := shape_modifySpan _ _ hends
    obtain ⟨-, rfl⟩ := modifySpan_ends hends
    exact htree.of_shape hshape hids rfl
  | annotate hf =>
    have hshape := shape_modifySlot (fun s => (hf s).2.2.2) (fun s => (hf s).1)
      (fun s => (hf s).2.1) hends
    obtain ⟨p, hp, rfl⟩ := modifySlot_ends hends
    exact htree.of_shape hshape hids rfl
  | addResourceAttribute resource kv =>
    obtain ⟨hspans, hshape⟩ := addResourceAttribute_ends hends
    exact htree.of_shape hshape hids (by rw [hspans])
  | tick =>
    obtain ⟨_, h⟩ | h := hends <;> cases h
    exact htree.of_shape rfl hids rfl
  | php state =>
    obtain ⟨_, h⟩ | h := hends <;> cases h
    exact htree.of_shape rfl hids rfl
  | headers _ entries =>
    obtain ⟨_, h⟩ | h := hends <;> cases h
    exact htree.of_shape rfl hids rfl

theorem next_parseTraceParent (header : Bytes) :
    Keeps (SameOn fun w : World φ => w.memory.spans.next) (Provider.parseTraceParent eng header) := by
  refine parseTraceParent_keeps (fun span f _ w w' h => ?_) (fun b w w' h => ?_) header
  · obtain ⟨-, rfl⟩ := modifySpan_ends h
    rfl
  · obtain ⟨p, hp, rfl⟩ := modifySlot_ends h
    rfl

/-- A session starts with its first span alone, whose ids the incoming header may replace. What
is done before the start is over only describes it. -/
theorem Opened.start_tree (h : Opened eng natives v) : ∃ u f rs r first, ∃ m : M φ Unit,
    Tree eng u f rs r [] first ∧ Built (Move eng .none) m ∧ Ends m u v := by
  obtain ⟨u, traceparent, tracebaggage, kind, hkept, heffective, hstart⟩ := h.start
  obtain ⟨u₁, v₀, v₁, header, name, kind', q, m, hcore, hcreate, hparse, hbuilt, hrest, -⟩ :=
    start_tracer_ok hstart heffective
  obtain ⟨s, rs, r, hfirst, hlen, hlaid, hspans, hwhole⟩ :=
    createFirstSpan_alone hcreate (reset_clean hkept hcore)
  have hshape : v₁.shape = v₀.shape := shape_parseTraceParent header (.of_ok hparse)
  obtain ⟨s', ⟨p, -, -, hcell⟩, -⟩ := Provider.parseTraceParent_length hfirst hlen hparse
  have hspread (q' : Nat) : q' ∈ [] ↔ q < q' ∧ q' < v₁.memory.spans.next := by
    have hnext : v₁.memory.spans.next = q + 1 := by
      obtain ⟨v', p', hspan, -, rfl⟩ := Provider.createFirstSpan_ok hcreate
      obtain ⟨span, hnew, hq, -⟩ := createSpan_spans hspan
      have hsame := next_parseTraceParent header (.of_ok hparse)
      refine Eq.trans hsame ?_
      change v'.memory.spans.next = q + 1
      rw [hnew, hq]
      rfl
    rw [hnext, iff_false_left List.not_mem_nil]
    omega
  have htree : Tree eng v₁ q rs r [] s' :=
    ⟨hlaid.of_shape hshape, hwhole.of_shape hshape, hspans, hspread, hcell,
      fun q hq => absurd hq List.not_mem_nil⟩
  exact ⟨v₁, q, rs, r, s', m, htree, hbuilt, hrest⟩

theorem Opened.isTree (h : Opened eng natives v) : IsTree eng v := by
  obtain ⟨u, f, rs, r, first, m, htree, hbuilt, hends⟩ := h.start_tree
  exact (hbuilt.trans Move.built_op).keeps Op.isTree hends ⟨f, rs, r, [], first, htree⟩

/-- Outside the CLI nothing depends on the parent. -/
theorem key_reparent (hcli : eng.cli = false) (w : World φ) (ppid : Nat) :
    World.key eng { w with ppid := ppid } = w.key eng := by
  simp [World.key, hcli]

theorem IsTree.reparent (h : IsTree eng w) (hcli : eng.cli = false) (ppid : Nat) :
    IsTree eng { w with ppid := ppid } := by
  obtain ⟨f, rs, r, rest, first, hlaid, hwhole, hspans, hspread, hcell, hchildren⟩ := h
  have hkey := key_reparent hcli w ppid
  obtain ⟨hslot, hrs, hmem⟩ := hlaid
  obtain ⟨p, request, hp, hrequest, hrequests⟩ := hwhole
  exact ⟨f, rs, r, rest, first, ⟨hkey ▸ hslot, hrs, hmem⟩,
    ⟨p, request, hp, hkey ▸ hrequest, hrequests⟩, hspans, hspread, hcell, hchildren⟩

/-- Every event in the course of a session keeps the tree. -/
theorem isTree_inner {e : Event φ} (h : Step eng natives e w w') (hinner : e.Inner eng.cli)
    (hstarted : Started eng w) (htree : IsTree eng w) : IsTree eng w' := by
  obtain ⟨c, rfl⟩ | ⟨s, -, rfl⟩ | ⟨hcli, ppid, rfl⟩ | rfl := inner_cases h hinner hstarted
  · exact (Op.built_call c).keeps Op.isTree h htree
  · exact htree.of_shape rfl (.of_spans rfl) rfl
  · exact htree.reparent hcli ppid
  · exact htree

/-- Every state of a session has a tree. -/
theorem isTree_run {es : List (Event φ)} (h : Opened eng natives v)
    (hrun : Run (Step eng natives) v es w) (hinner : ∀ e ∈ es, e.Inner eng.cli) :
    Started eng w ∧ IsTree eng w :=
  inner_run isTree_inner hrun hinner h.started h.isTree

/-- What is exported is a tree: of one resource, with the first span first. -/
def TreeExport (payload : List (Option Resource × List Span)) : Prop :=
  ∃ resource first rest, payload = [(resource, first :: rest)] ∧
    ∀ s ∈ rest, s.trace_id = first.trace_id ∧ s.parent_span_id = first.span_id

theorem filterMap_cells {h : Heap Span} {I : Span → Prop} {qs : List Nat}
    (hcells : ∀ q ∈ qs, ∃ s, h.cell q = some s ∧ I s) : ∀ s ∈ qs.filterMap h.cell, I s := by
  intro s hs
  obtain ⟨q, hq, hcell⟩ := List.mem_filterMap.mp hs
  obtain ⟨s', hcell', hI⟩ := hcells q hq
  obtain rfl : s = s' := Option.some.inj (hcell.symm.trans hcell')
  exact hI

/-- What is serialised of a tree. -/
theorem Tree.serialises {f rs : Nat} {r : ResourceSpans} {rest : List Nat} {first : Span}
    {payload : List (Option Resource × List Span)} (h : Tree eng w f rs r rest first)
    (hpayload : Serialises eng w payload) : payload =
      [(r.resource.bind w.memory.resources.cell, first :: rest.filterMap w.memory.spans.cell)] := by
  obtain ⟨p, request, cell, hp, hrequest, hcell, rfl⟩ := hpayload
  obtain ⟨p', request', hp', hrequest', hcell'⟩ := h.whole
  obtain rfl : p = p' := Option.some.inj (hp.symm.trans hp')
  obtain rfl : request = request' := Option.some.inj (hrequest.symm.trans hrequest')
  obtain rfl : cell = ⟨[rs]⟩ := Option.some.inj (hcell.symm.trans hcell')
  have howned : w.memory.owned ⟨[rs]⟩ = [r] := by simp [Memory.owned, h.laid.cell]
  rw [Memory.serialize, howned, List.map_singleton, h.spans, List.filterMap_cons_some h.cell]

theorem IsTree.serialises {payload : List (Option Resource × List Span)} (h : IsTree eng w)
    (hpayload : Serialises eng w payload) : TreeExport payload := by
  obtain ⟨f, rs, r, rest, first, htree⟩ := h
  exact ⟨_, first, _, htree.serialises hpayload, filterMap_cells htree.children⟩

theorem exported_blind : Blind eng (SameOn (World.exported : World φ → _)) where
  memory _ _ := rfl
  clock _ := rfl
  uuids _ _ := rfl
  slot _ _ _ := rfl

/-- The resource is attached to the one entry of the request. -/
theorem Tree.attachResource {f rs : Nat} {r : ResourceSpans} {rest : List Nat} {first : Span}
    (h : Tree eng w f rs r rest first) (hattach : attachResource eng w = .ok ((), w')) :
    ∃ p, w.globals.provider = some p ∧ w'.memory.resources = w.memory.resources ∧
      Tree eng w' f rs { r with resource := (p.slots (w.key eng)).resource } rest first := by
  obtain ⟨rs', u, htracer, hrest⟩ := bind_ok_iff.mp hattach
  obtain ⟨resource, u', hresource, hload⟩ := bind_ok_iff.mp hrest
  obtain ⟨s, t, hslot, hpure⟩ := bind_ok_iff.mp hresource
  obtain ⟨p₀, hp₀, rfl, rfl⟩ := slot_ok hslot
  cases hpure
  obtain ⟨_, v, hget, hmodify⟩ := bind_ok_iff.mp hload
  cases hget
  obtain ⟨r', v, hr, hset⟩ := bind_ok_iff.mp hmodify
  obtain ⟨-, rfl⟩ := lift_ok_iff.mp hr
  cases hset
  obtain ⟨⟨p, hp, hfirst, hrequest, hrs⟩, hcell, hmem⟩ := h.laid
  obtain ⟨p', hp', ⟨-, hrs', rfl⟩ | ⟨hnone, -, -⟩⟩ := Provider.getTracer_ok htracer
  · obtain rfl : p = p' := Option.some.inj (hp.symm.trans hp')
    obtain rfl : rs = rs' := Option.some.inj (hrs.symm.trans hrs')
    obtain rfl : p = p₀ := Option.some.inj (hp.symm.trans hp₀)
    have hcell' : (v.memory.resource_spans.modify rs fun rs =>
        { rs with resource := (p.slots (v.key eng)).resource }).cell rs =
          some { r with resource := (p.slots (v.key eng)).resource } := by
      rw [Heap.cell_modify_self, hcell, Option.map_some]
    exact ⟨p, hp, rfl, ⟨⟨p, hp, hfirst, hrequest, hrs⟩, hcell', hmem⟩, h.whole, h.spans, h.spread,
      h.cell, h.children⟩
  · obtain rfl : p = p' := Option.some.inj (hp.symm.trans hp')
    rw [hnone] at hrequest
    cases hrequest

theorem IsTree.okEnd {f : Nat} (h : IsTree eng w) (hok : Provider.okEnd f w = .ok ((), w')) :
    IsTree eng w' := by
  have hbuilt : Built (Move eng { Grants.none with ends := True }) (Provider.okEnd f) :=
    .op (.okEnd trivial f)
  exact (hbuilt.trans Move.built_op).keeps Op.isTree (.of_ok hok) h

/-- The end of a session ends the first span, attaches the resource, and then exports the message,
if it does. -/
theorem IsTree.ends (h : IsTree eng w) (heffective : ¬ Refuses eng w.globals)
    (hshutdown : shutdown_tracer eng w = .ok ((), w')) : ∃ f s x y, HasFirst eng w f s ∧
      Provider.okEnd f w = .ok ((), x) ∧ attachResource eng x = .ok ((), y) ∧ IsTree eng y ∧
        (w'.exported = w.exported ∨
          ∃ payload, w'.exported = w.exported ++ [payload] ∧ Serialises eng y payload) := by
  obtain ⟨f, rs, r, rest, first, htree⟩ := h
  obtain ⟨p, u, hp, rfl, hend⟩ := shutdown_tracer_ok hshutdown heffective
  obtain ⟨p', hp', hfirst, -⟩ := htree.hasFirst
  obtain rfl : p = p' := Option.some.inj (hp.symm.trans hp')
  simp only [hfirst] at hend
  obtain ⟨x, y, hok, hattach, hexported⟩ := finishSession_exports hend
  obtain ⟨f', rs', r', rest', first', hx⟩ := IsTree.okEnd ⟨_, _, _, _, _, htree⟩ hok
  obtain ⟨p', -, -, hy⟩ := hx.attachResource hattach
  have hblind : Blind eng (SameOn World.exported) := exported_blind
  have hsame : y.exported = w.exported :=
    (hblind.spanwise.attachResource (.of_ok hattach)).trans (hblind.spanwise.okEnd _ (.of_ok hok))
  rw [hsame] at hexported
  refine ⟨f, first, x, y, htree.hasFirst, hok, hattach, ⟨_, _, _, _, _, hy⟩, ?_⟩
  rcases hexported with hsame | ⟨payload, hpayload, happended⟩
  · exact .inl hsame
  · exact .inr ⟨payload, happended, hpayload⟩

theorem IsTree.shutdown (h : IsTree eng w) (heffective : ¬ Refuses eng w.globals)
    (hshutdown : shutdown_tracer eng w = .ok ((), w')) : w'.exported = w.exported ∨
      ∃ payload, w'.exported = w.exported ++ [payload] ∧ TreeExport payload := by
  obtain ⟨f, s, x, y, -, -, -, hy, hsame | ⟨payload, happended, hpayload⟩⟩ :=
    h.ends heffective hshutdown
  · exact .inl hsame
  · exact .inr ⟨payload, happended, hy.serialises hpayload⟩

/-- The events that end a session do so by `shutdown_tracer`. -/
theorem shutdown_of_step {e : Event φ} (he : e = .request_shutdown ∨ e = .shutdown_cli_tracer)
    (h : Step eng natives e w w') :
    w' = w ∨ ¬ Refuses eng w.globals ∧ shutdown_tracer eng w = .ok ((), w') := by
  rcases he with rfl | rfl
  · obtain ⟨-, rfl⟩ | ⟨hserves, hshutdown⟩ := request_shutdown_ends h
    · exact .inl rfl
    · exact .inr ⟨hserves.not_refuses, hshutdown⟩
  · obtain ⟨-, rfl⟩ | ⟨hoffers, hshutdown⟩ := shutdown_cli_tracer_ends (ends_ignore_iff.mp h)
    · exact .inl rfl
    · exact .inr ⟨hoffers.not_refuses, hshutdown⟩

/-- Exported traces are trees. In every state of a session the request has one resource-spans
entry; all its spans are in the trace of the first one, and all but the first have the first as
their parent; and so it is with what the end of the session exports. -/
theorem exported_trees {es : List (Event φ)} (hopened : Opened eng natives v)
    (hrun : Run (Step eng natives) v es w) (hinner : ∀ e ∈ es, e.Inner eng.cli) :
    IsTree eng w ∧ ∀ e w', e = .request_shutdown ∨ e = .shutdown_cli_tracer →
      Step eng natives e w w' → w'.exported = w.exported ∨
        ∃ payload, w'.exported = w.exported ++ [payload] ∧ TreeExport payload := by
  obtain ⟨-, htree⟩ := isTree_run hopened hrun hinner
  refine ⟨htree, fun e w' he hstep => ?_⟩
  obtain rfl | ⟨heffective, hshutdown⟩ := shutdown_of_step he hstep
  · exact .inl rfl
  · exact htree.shutdown heffective hshutdown

/-- A request in which a command is traced. -/
theorem exported_trees_request : ∃ v w : World Unit,
    Opened (.connected false) .bare v ∧ Run (Step (.connected false) .bare) v getInRequest w ∧
      w.memory.spans.next = 2 ∧ IsTree (.connected false) w := by
  have hplayed : ((final (Event.run (.connected false) .bare .request_init) (World.fresh ())).any
      fun v => (getInRequest.foldlM (fun w e => final (Event.run (.connected false) .bare e) w) v).any
        fun w => w.memory.spans.next == 2) = true := by decide +kernel
  obtain ⟨v, hstart, hplayed⟩ := (Option.any_eq_true _ _).mp hplayed
  obtain ⟨w, hrest, hspans⟩ := (Option.any_eq_true _ _).mp hplayed
  have hopened : Opened (.connected false) .bare v :=
    ⟨World.fresh (), [], _, .request_init, rfl, .nil, ⟨rfl, Bool.false_ne_true⟩,
      ends_iff_final.mpr hstart⟩
  have hrun : Run (Step (.connected false) .bare) v getInRequest w :=
    Run.of_foldlM (fun _ _ _ hlast => ends_iff_final.mpr hlast) hrest
  exact ⟨v, w, hopened, hrun, beq_iff_eq.mp hspans,
    (exported_trees hopened hrun getInRequest_inner).1⟩

end opentelemetry
