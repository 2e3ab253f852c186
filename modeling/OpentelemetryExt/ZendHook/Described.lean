import OpentelemetryExt.Provider.Agreement
import OpentelemetryExt.ZendHook.Extraction

open heap stateful

namespace opentelemetry

variable {φ : Type} {eng : Engine φ} {u v w w' : World φ} {q : Nat}

/-- The span has these attributes, and has not been given a status. -/
def Described (q : Nat) (attributes : List KeyValue) (w : World φ) : Prop :=
  ∃ s, w.memory.spans.cell q = some s ∧ s.attributes = attributes ∧ s.status = {}

/-- What happens to the span is that these attributes are appended. -/
def Gets (q : Nat) (kvs : List KeyValue) (w w' : World φ) : Prop :=
  ∀ s, w.memory.spans.cell q = some s → ∃ s', w'.memory.spans.cell q = some s' ∧
    s'.attributes = s.attributes ++ kvs ∧ s'.status = s.status

theorem Described.gets {attributes kvs : List KeyValue} (h : Described q attributes w)
    (hgets : Gets q kvs w w') : Described q (attributes ++ kvs) w' := by
  obtain ⟨s, hs, rfl, hstatus⟩ := h
  obtain ⟨s', hs', hattributes, hkept⟩ := hgets s hs
  exact ⟨s', hs', hattributes, hkept.trans hstatus⟩

theorem Described.unique {attributes attributes' : List KeyValue} (h : Described q attributes w)
    (h' : Described q attributes' w) : attributes = attributes' := by
  obtain ⟨s, hs, rfl, -⟩ := h
  obtain ⟨s', hs', rfl, -⟩ := h'
  rw [Option.some.inj (hs.symm.trans hs')]

theorem Gets.of_cell (h : w'.memory.spans.cell q = w.memory.spans.cell q) : Gets q [] w w' :=
  fun s hs => ⟨s, h.trans hs, (List.append_nil _).symm, rfl⟩

theorem Gets.trans {kvs kvs' : List KeyValue} (h : Gets q kvs u v) (h' : Gets q kvs' v w) :
    Gets q (kvs ++ kvs') u w := by
  intro s hs
  obtain ⟨s₁, hs₁, hattributes₁, hstatus₁⟩ := h s hs
  obtain ⟨s₂, hs₂, hattributes₂, hstatus₂⟩ := h' s₁ hs₁
  refine ⟨s₂, hs₂, ?_, hstatus₂.trans hstatus₁⟩
  rw [hattributes₂, hattributes₁, List.append_assoc]

theorem gets_of_reads {α : Type} {m : M φ α} (hreads : Reads m) (h : Ends m w w') :
    Gets q [] w w' := .of_cell (by rw [hreads h])

theorem gets_addAttribute {kv : KeyValue} (h : Ends (addAttribute q kv) w w') :
    Gets q [kv] w w' := by
  obtain ⟨-, rfl⟩ := modifySpan_ends h
  intro s hs
  refine ⟨{ s with attributes := s.attributes ++ [kv] }, ?_, rfl, rfl⟩
  rw [World.withSpan, World.memory_withMemory, Heap.cell_modify_self, hs]
  rfl

theorem gets_addAttributes {kvs : List KeyValue} (h : Ends (kvs.forM (addAttribute q)) w w') :
    Gets q kvs w w' := by
  induction kvs generalizing w with
  | nil => exact gets_of_reads (.pure _) h
  | cons kv kvs ih =>
    obtain ⟨_, v, hfirst, hrest⟩ | hleft := ends_bind_iff.mp h
    · exact (gets_addAttribute (.of_ok hfirst)).trans (ih hrest)
    · exact (Direct.modifySpan _ _ w w' hleft).elim

theorem gets_modifyPhp {php : φ} (h : Ends (modifyPhp php) w w') : Gets q [] w w' := by
  obtain rfl := h.eq_of_ok rfl
  exact .of_cell rfl

/-- Some attributes are appended, all of which satisfy `P`. -/
def GetsOnly (P : KeyValue → Prop) (q : Nat) (w w' : World φ) : Prop :=
  ∃ kvs, Gets q kvs w w' ∧ ∀ kv ∈ kvs, P kv

instance instReflGetsOnly (P : KeyValue → Prop) : Std.Refl (GetsOnly (φ := φ) P q) :=
  ⟨fun _ => ⟨[], .of_cell rfl, fun _ h => absurd h List.not_mem_nil⟩⟩

instance instTransGetsOnly (P : KeyValue → Prop) : IsTrans (World φ) (GetsOnly P q) := by
  refine ⟨fun _ _ _ ⟨kvs, h, hkvs⟩ ⟨kvs', h', hkvs'⟩ => ⟨kvs ++ kvs', h.trans h', ?_⟩⟩
  exact List.forall_mem_append.mpr ⟨hkvs, hkvs'⟩

variable {P : KeyValue → Prop}

theorem getsOnly_addAttribute {kv : KeyValue} (h : P kv) :
    Keeps (GetsOnly P q) (addAttribute q kv : M φ Unit) :=
  fun _ _ hends => ⟨[kv], gets_addAttribute hends, fun _ hkv => List.mem_singleton.mp hkv ▸ h⟩

theorem getsOnly_zend_call_method {obj : Zval} {name : String} {params : List Zval} :
    Keeps (GetsOnly P q) (zend_call_method eng obj name params) := by
  unfold zend_call_method
  split
  · refine .bind (.of_reads .get) fun w => ?_
    split
    · refine .bind (fun _ _ h => ?_) fun _ => .of_reads (.pure _)
      exact ⟨[], gets_modifyPhp h, fun _ h => absurd h List.not_mem_nil⟩
    · exact .of_reads .unwind
  · exact .of_reads (.lift _)

/-- Attributes with other keys do not matter to one key. -/
theorem withKey_eq_nil {key : Bytes} {kvs : List KeyValue} (h : ∀ kv ∈ kvs, kv.key ≠ key) :
    withKey key kvs = [] := by
  rw [withKey, List.filter_eq_nil_iff]
  exact fun kv hkv => by simpa using h kv hkv

theorem withKey_append_kvs (key : Bytes) (kvs kvs' : List KeyValue) :
    withKey key (kvs ++ kvs') = withKey key kvs ++ withKey key kvs' := List.filter_append ..

theorem key_of_peerAttribute (eng : Engine φ) (host : Bytes) :
    (peerAttribute eng host).key = lit "net.peer.ip" ∨
      (peerAttribute eng host).key = lit "net.peer.name" := by
  unfold peerAttribute
  split
  · exact .inl rfl
  · exact .inr rfl

theorem key_of_stackAttribute {callers : List (Option ZendFunction)} {kv : KeyValue}
    (h : kv ∈ stackAttribute callers) : kv.key = lit "code.stacktrace" := by
  unfold stackAttribute at h
  dsimp only at h
  split_ifs at h
  · rw [List.mem_singleton.mp h]
    rfl
  · cases h

theorem cell_of_spanAdded {rs : Nat} {span : Span} (h : Provider.SpanAdded w w' rs q span) :
    w'.memory.spans.cell q = some span := by
  rw [h.memory, h.pointer]
  exact Heap.cell_alloc_self _ _

/-- A new span has neither attributes nor a status. -/
theorem described_createSpan {name : Bytes} {kind : SpanKind}
    (h : Provider.createSpan eng name kind w = .ok (q, w')) : Described q [] w' := by
  obtain ⟨rs, u, -, h⟩ := bind_ok_iff.mp h
  obtain ⟨first, u₁, -, h⟩ := bind_ok_iff.mp h
  obtain ⟨id, u₂, -, h⟩ := bind_ok_iff.mp h
  obtain ⟨uuid, u₃, huuid, h⟩ := bind_ok_iff.mp h
  obtain ⟨start, u₄, -, h⟩ := bind_ok_iff.mp h
  cases huuid
  have hlen : ((u₂.uuids 0).val.take 8).length = 8 := by simp [(u₂.uuids 0).2]
  have hadded := Provider.addSpan_ok h hlen rfl ⟨rfl, rfl⟩
  exact ⟨_, cell_of_spanAdded hadded, rfl, rfl⟩

theorem described_createChildSpan {name : Bytes} {kind : SpanKind}
    (h : Provider.createChildSpan eng name kind w = .ok (q, w')) : Described q [] w' := by
  obtain ⟨v, f, first, -, hcreate, rfl⟩ := createChildSpan_ok h
  obtain ⟨s, hs, hattributes, hstatus⟩ := described_createSpan hcreate
  refine ⟨{ s with parent_span_id := first.span_id }, ?_, hattributes, hstatus⟩
  rw [World.withSpan, World.memory_withMemory, Heap.cell_modify_self, hs]
  rfl

theorem described_openSpan {execute_data : ExecuteData} {kind : SpanKind} {kvs : List KeyValue}
    (h : openSpan eng execute_data kind kvs w = .ok (q, w')) :
    Described q (kvs ++ stackAttribute execute_data.callers) w' := by
  obtain ⟨q', v, hcreate, h⟩ := bind_ok_iff.mp h
  obtain ⟨⟨⟩, v', hadd, hreturn⟩ := bind_ok_iff.mp h
  cases hreturn
  exact (described_createChildSpan hcreate).gets (gets_addAttributes (.of_ok hadd))

end opentelemetry
