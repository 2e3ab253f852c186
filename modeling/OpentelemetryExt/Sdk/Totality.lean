import OpentelemetryExt.Sdk
import OpentelemetryExt.Provider.Baggage
import OpentelemetryExt.Session.Verdicts
import OpentelemetryExt.Provider.Elapsed
import OpentelemetryExt.ZendHook.Target

open heap stateful

namespace opentelemetry

variable {φ : Type} {eng : Engine φ} {w w' : World φ} {q f rs : Nat} {r : ResourceSpans}

/-- A tracer is active: the current request has its spans, its first span and its resource. -/
structure Active (eng : Engine φ) (w : World φ) (f rs : Nat) (r : ResourceSpans) : Prop where
  laid : Laid eng w f rs r
  first : Live f w
  ready : Ready eng w

theorem Active.opens (h : Active eng w f rs r) : Opens eng w := by
  obtain ⟨⟨p, hp, hfirst, -, hrs⟩, hcell, -⟩ := h.laid
  obtain ⟨s, hs⟩ := h.first
  exact ⟨p, f, s, hp, hfirst, hs, fun _ => ⟨rs, r, hrs, hcell⟩⟩

theorem Active.has_provider (h : Active eng w f rs r) : is_has_provider w = .ok (true, w) := by
  obtain ⟨⟨p, hp, -⟩, -⟩ := h.laid
  apply is_has_provider_of_some
  rw [hp]
  rfl

/-- The text that an attribute gets of a value. -/
def valueText (eng : Engine φ) (php : φ) (value : Zval) : Bytes :=
  match value with
  | .array _ => c_str (eng.json_encode php value)
  | .string s => c_str s
  | _ => c_str (convert_to_string eng php value)

theorem attributeText_eq (value : Zval) (w : World φ) :
    attributeText eng value w = .ok (valueText eng w.php value, w) := by
  cases value <;> rfl

/-- The key and the value of a well-formed entry: an array that has both, the key as a string. -/
def entryParts (entry : ArrayKey × Zval) : Option (Bytes × Zval) :=
  match entry.2 with
  | .array entries =>
    match zend_hash_str_find entries (lit "key"), zend_hash_str_find entries (lit "value") with
    | some (.string key), some value => some (c_str key, value)
    | _, _ => none
  | _ => none

/-- The attribute of a well-formed entry. -/
def spanAttribute (eng : Engine φ) (php : φ) (entry : ArrayKey × Zval) : Option KeyValue :=
  (entryParts entry).map fun parts => ⟨parts.1, .string (valueText eng php parts.2)⟩

theorem addSpanAttribute_of_parts {entry : ArrayKey × Zval} {parts : Bytes × Zval}
    (h : entryParts entry = some parts) (w : World φ) : addSpanAttribute eng q entry w =
      addAttribute q ⟨parts.1, .string (valueText eng w.php parts.2)⟩ w := by
  obtain ⟨index, zval⟩ := entry
  cases zval with
  | array entries =>
    simp only [entryParts] at h
    split at h
    · rename_i key value hkey hvalue
      cases h
      simp only [addSpanAttribute, Z_ARRVAL_P, bind_apply, lift_ok, ok_bind, hkey, hvalue, deref_some,
        Z_STRVAL_P, attributeText_eq]
    · cases h
  | _ => cases h

/-- An entry that the loop gets past is well-formed. -/
theorem parts_of_addSpanAttribute {entry : ArrayKey × Zval}
    (h : addSpanAttribute eng q entry w = .ok ((), w')) : (entryParts entry).isSome := by
  obtain ⟨entries, u₁, harray, hrest₁⟩ := bind_ok_iff.mp h
  obtain ⟨value, u₂, hvalue, hrest₂⟩ := bind_ok_iff.mp hrest₁
  obtain ⟨zkey, u₃, hkey, hrest₃⟩ := bind_ok_iff.mp hrest₂
  obtain ⟨key, u₄, hstring, -⟩ := bind_ok_iff.mp hrest₃
  have harray' := (lift_ok_iff.mp harray).1
  have hvalue' := deref_eq_ok_iff.mp (lift_ok_iff.mp hvalue).1
  have hkey' := deref_eq_ok_iff.mp (lift_ok_iff.mp hkey).1
  have hstring' := (lift_ok_iff.mp hstring).1
  obtain ⟨index, zval⟩ := entry
  cases zval with
  | array items =>
    cases harray'
    cases zkey with
    | string s => simp [entryParts, hkey', hvalue']
    | _ => cases hstring'
  | _ => cases harray'

/-- The loop over entries that are all well-formed adds their attributes. -/
theorem addSpanAttributes_eq (eng : Engine φ) {entries : List (ArrayKey × Zval)} (hlive : Live q w)
    (hall : ∀ entry ∈ entries, (entryParts entry).isSome) :
    entries.forM (addSpanAttribute eng q) w =
      (entries.filterMap (spanAttribute eng w.php)).forM (addAttribute q) w := by
  induction entries generalizing w with
  | nil => rfl
  | cons entry entries ih =>
    obtain ⟨parts, hparts⟩ := Option.isSome_iff_exists.mp (hall entry List.mem_cons_self)
    have hattribute : spanAttribute eng w.php entry =
        some ⟨parts.1, .string (valueText eng w.php parts.2)⟩ := by rw [spanAttribute, hparts]; rfl
    obtain ⟨s, hs⟩ := hlive
    have hadd : addAttribute q ⟨parts.1, .string (valueText eng w.php parts.2)⟩ w = .ok ((), _) :=
      modifySpan_of_some _ hs
    have hlive' := (acts_addAttribute (φ := φ) q _).keeps ⟨s, hs⟩ hadd
    rw [List.filterMap_cons_some hattribute, forM_cons, forM_cons, bind_apply, bind_apply,
      addSpanAttribute_of_parts hparts, hadd, ok_bind, ok_bind]
    exact ih hlive' fun entry hmem => hall entry (List.mem_cons_of_mem _ hmem)

theorem parts_of_addSpanAttributes {entries : List (ArrayKey × Zval)}
    (h : entries.forM (addSpanAttribute eng q) w = .ok ((), w')) :
    ∀ entry ∈ entries, (entryParts entry).isSome := by
  induction entries generalizing w with
  | nil => simp
  | cons entry entries ih =>
    rw [forM_cons] at h
    obtain ⟨⟨⟩, u, hfirst, hrest⟩ := bind_ok_iff.mp h
    exact List.forall_mem_cons.mpr ⟨parts_of_addSpanAttribute hfirst, ih hrest⟩

/-- What happens to the spans is that the span at `q` gets these attributes. -/
structure Attaches (q : Nat) (kvs : List KeyValue) (w w' : World φ) : Prop where
  provider : w.globals.provider.isSome → w'.globals.provider.isSome
  lists : w'.memory.resource_spans = w.memory.resource_spans
  others (p : Nat) : p ≠ q → w'.memory.spans.cell p = w.memory.spans.cell p
  span (s : Span) : w.memory.spans.cell q = some s →
    ∃ s', w'.memory.spans.cell q = some s' ∧ s'.attributes = s.attributes ++ kvs

theorem Attaches.of_spans {kvs : List KeyValue} {g : Span → Span}
    (hprovider : w.globals.provider.isSome → w'.globals.provider.isSome)
    (hlists : w'.memory.resource_spans = w.memory.resource_spans)
    (hspans : w'.memory.spans = w.memory.spans.modify q g)
    (hg : ∀ s, (g s).attributes = s.attributes ++ kvs) : Attaches q kvs w w' where
  provider := hprovider
  lists := hlists
  others p hp := by
    rw [hspans]
    exact Heap.cell_modify_ne hp
  span s hs := by
    refine ⟨g s, ?_, hg s⟩
    rw [hspans, Heap.cell_modify_self, hs]
    rfl

theorem Attaches.trans {kvs kvs' : List KeyValue} {u : World φ} (h : Attaches q kvs w u)
    (h' : Attaches q kvs' u w') : Attaches q (kvs ++ kvs') w w' where
  provider hp := h'.provider (h.provider hp)
  lists := h'.lists.trans h.lists
  others p hp := (h'.others p hp).trans (h.others p hp)
  span s hs := by
    obtain ⟨s₁, hs₁, hattributes₁⟩ := h.span s hs
    obtain ⟨s₂, hs₂, hattributes₂⟩ := h'.span s₁ hs₁
    exact ⟨s₂, hs₂, by rw [hattributes₂, hattributes₁, List.append_assoc]⟩

theorem attaches_addAttributes {kvs : List KeyValue}
    (h : kvs.forM (addAttribute q) w = .ok ((), w')) : Attaches q kvs w w' := by
  induction kvs generalizing w with
  | nil =>
    cases h
    exact ⟨id, rfl, fun _ _ => rfl, fun s hs => ⟨s, hs, (List.append_nil _).symm⟩⟩
  | cons kv kvs ih =>
    rw [forM_cons] at h
    obtain ⟨⟨⟩, u, hfirst, hrest⟩ := bind_ok_iff.mp h
    obtain ⟨-, rfl⟩ := modifySpan_ends (.of_ok hfirst)
    have hadd : Attaches q [kv] w (w.withSpan q fun s => { s with attributes := s.attributes ++ [kv] }) :=
      .of_spans id rfl rfl fun _ => rfl
    exact hadd.trans (ih hrest)

/-- How a span that user code adds is ended. -/
def addSpanEnd (eng : Engine φ) (q : Nat) (args : AddSpanArgs) : M φ Unit :=
  if args.status_code.bmod (2 ^ 32) = 2 then Provider.errorEnd eng q (c_str args.status_message)
  else Provider.okEnd q

theorem attaches_addSpanEnd {args : AddSpanArgs} (h : addSpanEnd eng q args w = .ok ((), w')) :
    Attaches q [] w w' := by
  unfold addSpanEnd at h
  split at h
  · obtain ⟨s, p, -, -, rfl⟩ := Provider.errorEnd_ok h
    exact .of_spans (fun _ => rfl) rfl rfl fun s => (List.append_nil _).symm
  · obtain ⟨s, -, rfl⟩ := Provider.okEnd_ok h
    exact .of_spans id rfl rfl fun s => (List.append_nil _).symm

/-- The request has one span more, with these attributes, and no other span has changed. -/
structure AddsSpan (rs q : Nat) (kvs : List KeyValue) (w w' : World φ) : Prop where
  new : w.memory.spans.cell q = none
  lists : w'.memory.resource_spans =
    w.memory.resource_spans.modify rs fun r => { r with spans := r.spans ++ [q] }
  others (p : Nat) : p ≠ q → w'.memory.spans.cell p = w.memory.spans.cell p
  span : ∃ s, w'.memory.spans.cell q = some s ∧ s.attributes = kvs

theorem AddsSpan.attach {kvs kvs' : List KeyValue} {u : World φ} (h : AddsSpan rs q kvs w u)
    (h' : Attaches q kvs' u w') : AddsSpan rs q (kvs ++ kvs') w w' where
  new := h.new
  lists := h'.lists.trans h.lists
  others p hp := (h'.others p hp).trans (h.others p hp)
  span := by
    obtain ⟨s, hs, rfl⟩ := h.span
    exact h'.span s hs

theorem addsSpan_createChildSpan {name : Bytes} {kind : SpanKind} (hlaid : Laid eng w f rs r)
    (h : Provider.createChildSpan eng name kind w = .ok (q, w')) :
    AddsSpan rs q [] w w' ∧ w'.globals = w.globals := by
  obtain ⟨s, hs, hattributes, -⟩ := described_createChildSpan h
  obtain ⟨v, f', first, -, hcreate, rfl⟩ := createChildSpan_ok h
  obtain ⟨⟨p, hp, -, hrequest, hrs⟩, -⟩ := hlaid
  obtain ⟨rs', span, hrs', hadded⟩ := spanAdded_of_createSpan hp hrequest hcreate
  obtain rfl : rs = rs' := Option.some.inj (hrs.symm.trans hrs')
  refine ⟨⟨?_, ?_, fun p' hp' => ?_, s, hs, hattributes⟩, hadded.globals⟩
  · rw [hadded.pointer]
    exact w.memory.spans.fresh _ le_rfl
  · rw [World.withSpan, World.memory_withMemory, hadded.memory]
  · rw [World.withSpan, World.memory_withMemory, Heap.cell_modify_ne hp', hadded.memory]
    rw [hadded.pointer] at hp'
    exact Heap.cell_alloc_ne hp'

/-- The part of `opentelemetry_add_span` after the arguments have been parsed. -/
def addSpanBody (eng : Engine φ) (args : AddSpanArgs) : M φ Bool := do
  let span ← Provider.createChildSpan eng (c_str args.name) (args.kind.bmod (2 ^ 32))
  modifySpan span fun s => { s with
    start_time_unix_nano := UInt64.ofInt args.start_time_unix_nano }
  args.attributes.forM (addSpanAttribute eng span)
  addSpanEnd eng span args
  return true

theorem opentelemetry_add_span_eq (h : is_has_provider w = .ok (true, w)) (args : AddSpanArgs) :
    opentelemetry_add_span eng (some args) w = addSpanBody eng args w := by
  unfold opentelemetry_add_span addSpanBody addSpanEnd
  rw [bind_apply, h, ok_bind]
  by_cases hcode : args.status_code.bmod (2 ^ 32) = 2
  · simp only [if_pos hcode, if_true]
  · simp only [if_neg hcode, if_true]

theorem addSpanEnd_returns (eng : Engine φ) (h : Live q w)
    (hprovider : w.globals.provider.isSome) (args : AddSpanArgs) : Returns (addSpanEnd eng q args) w := by
  obtain ⟨s, hs⟩ := h
  unfold addSpanEnd
  split
  · exact errorEnd_returns eng hs hprovider _
  · exact okEnd_returns hs

theorem Attaches.live {kvs : List KeyValue} (h : Attaches q kvs w w') (hlive : Live q w) :
    Live q w' := by
  obtain ⟨s, hs⟩ := hlive
  obtain ⟨s', hs', -⟩ := h.span s hs
  exact ⟨s', hs'⟩

/-- With well-formed entries the call returns true and has added the span. -/
theorem addSpanBody_returns (h : Active eng w f rs r) {args : AddSpanArgs}
    (hall : ∀ entry ∈ args.attributes, (entryParts entry).isSome) :
    ∃ q w', addSpanBody eng args w = .ok (true, w') ∧
      AddsSpan rs q (args.attributes.filterMap (spanAttribute eng w.php)) w w' := by
  obtain ⟨q, v, hcreate⟩ := h.opens.createChildSpan (c_str args.name) (args.kind.bmod (2 ^ 32))
  obtain ⟨hnew, hglobals⟩ := addsSpan_createChildSpan h.laid hcreate
  obtain ⟨s, hs⟩ := live_of_createChildSpan hcreate
  have hphp : v.php = w.php := php_blind.spanwise.createChildSpan _ _ (.of_ok hcreate)
  let u := v.withSpan q fun s => { s with
    start_time_unix_nano := UInt64.ofInt args.start_time_unix_nano }
  have hset : modifySpan q (fun s => { s with
      start_time_unix_nano := UInt64.ofInt args.start_time_unix_nano }) v = .ok ((), u) :=
    modifySpan_of_some _ hs
  have hstart : Attaches q [] v u := .of_spans id rfl rfl fun s => (List.append_nil _).symm
  have hlive : Live q u := hstart.live ⟨s, hs⟩
  have hacts := acts_addAttributes (φ := φ) q (args.attributes.filterMap (spanAttribute eng w.php))
  obtain ⟨⟨⟩, u', hadd, -⟩ := (hacts.returns_iff hlive u.php).mpr rfl
  have hloop : args.attributes.forM (addSpanAttribute eng q) u = .ok ((), u') := by
    rw [addSpanAttributes_eq eng hlive hall, ← hadd]
    exact congrArg (fun php =>
      (args.attributes.filterMap (spanAttribute eng php)).forM (addAttribute q) u) hphp
  have hattaches := attaches_addAttributes hadd
  have hprovider : u.globals.provider.isSome := by
    obtain ⟨⟨p, hp, -⟩, -⟩ := h.laid
    change v.globals.provider.isSome
    rw [hglobals, hp]
    rfl
  obtain ⟨⟨⟩, w', hend⟩ := addSpanEnd_returns eng (hattaches.live hlive)
    (hattaches.provider hprovider) args
  refine ⟨q, w', ?_, ?_⟩
  · refine bind_ok_iff.mpr ⟨q, v, hcreate, bind_ok_iff.mpr ⟨(), u, hset, ?_⟩⟩
    exact bind_ok_iff.mpr ⟨(), u', hloop, bind_ok_iff.mpr ⟨(), w', hend, rfl⟩⟩
  · have hall := ((hnew.attach hstart).attach hattaches).attach (attaches_addSpanEnd hend)
    simpa using hall

theorem addSpanBody_parts {args : AddSpanArgs} {accepted : Bool}
    (h : addSpanBody eng args w = .ok (accepted, w')) :
    accepted = true ∧ ∀ entry ∈ args.attributes, (entryParts entry).isSome := by
  obtain ⟨q, v, -, hrest₁⟩ := bind_ok_iff.mp h
  obtain ⟨⟨⟩, u, -, hrest₂⟩ := bind_ok_iff.mp hrest₁
  obtain ⟨⟨⟩, u', hloop, hrest₃⟩ := bind_ok_iff.mp hrest₂
  obtain ⟨⟨⟩, v', -, hreturn⟩ := bind_ok_iff.mp hrest₃
  cases hreturn
  exact ⟨rfl, parts_of_addSpanAttributes hloop⟩

/-- The attribute of an entry of an event, if it has a string for its key. -/
def eventAttribute (eng : Engine φ) (php : φ) (entry : ArrayKey × Zval) : Option KeyValue :=
  match entry.1 with
  | .str key => some ⟨c_str key, .string (valueText eng php entry.2)⟩
  | .index _ => none

theorem eventAttributes_eq (attributes : List (ArrayKey × Zval)) (w : World φ) :
    eventAttributes eng attributes w = .ok (attributes.filterMap (eventAttribute eng w.php), w) := by
  induction attributes with
  | nil => rfl
  | cons entry attributes ih =>
    obtain ⟨key, value⟩ := entry
    cases key with
    | str key =>
      simp only [eventAttributes, bind_apply, attributeText_eq, ok_bind, ih, pure_apply]
      rfl
    | index i =>
      simp only [eventAttributes, ih]
      rfl

/-- The calls of user code whose arguments are not checked further, with arguments that have been
parsed. An argument that was left out is `none`. -/
inductive UserCall where
  | add_span (args : AddSpanArgs)
  | add_event (name : Bytes) (attributes : List (ArrayKey × Zval))
  | add_baggage (key value : Option Bytes)

/-- What the calls need of their arguments. -/
def UserCall.WellFormed : UserCall → Prop
  | .add_span args => ∀ entry ∈ args.attributes, (entryParts entry).isSome
  | .add_event _ _ => True
  | .add_baggage key value => key.isSome ∧ value.isSome

/-- The call comes to its end. A span is added with the attributes of its well-formed entries, or
nothing is and the call returns false; an event is added to the first span. -/
def UserCall.Total (eng : Engine φ) (f rs : Nat) (w : World φ) : UserCall → Prop
  | .add_span args =>
    (∃ q w', opentelemetry_add_span eng (some args) w = .ok (true, w') ∧
      AddsSpan rs q (args.attributes.filterMap (spanAttribute eng w.php)) w w') ∨
    ∃ w', opentelemetry_add_span eng (some args) w = .ok (false, w') ∧ w'.memory = w.memory
  | .add_event name attributes =>
    ∃ w' s e, opentelemetry_add_event eng (some (name, attributes)) w = .ok (true, w') ∧
      w.memory.spans.cell f = some s ∧
      w'.memory.spans.cell f = some { s with events := s.events ++ [e] } ∧
      e.attributes = attributes.filterMap (eventAttribute eng w.php)
  | .add_baggage key value =>
    ∃ accepted w', opentelemetry_add_baggage eng (some (key, value)) w = .ok (accepted, w')

theorem add_event_total (h : Active eng w f rs r) (name : Bytes) (attributes : List (ArrayKey × Zval)) :
    (UserCall.add_event name attributes).Total eng f rs w := by
  obtain ⟨s, hs⟩ := h.first
  obtain ⟨⟨p, hp, hfirst, -⟩, -⟩ := h.laid
  have hfirstSpan : Provider.firstOneSpan eng w = .ok (some f, w) := by
    simp only [Provider.firstOneSpan, bind_apply, slot_of_some hp, ok_bind, pure_apply, hfirst]
  have hattributes : eventAttributes eng attributes w.ticked =
      .ok (attributes.filterMap (eventAttribute eng w.php), w.ticked) := eventAttributes_eq attributes _
  have hcell : w.ticked.memory.spans.cell f = some s := hs
  let e : SpanEvent := ⟨c_str name, w.clock 0, attributes.filterMap (eventAttribute eng w.php)⟩
  let g : Span → Span := fun s => { s with events := s.events ++ [e] }
  refine ⟨w.ticked.withSpan f g, s, e, ?_, hs, ?_, rfl⟩
  · refine bind_ok_iff.mpr ⟨true, w, h.has_provider, ?_⟩
    refine bind_ok_iff.mpr ⟨some f, w, hfirstSpan, bind_ok_iff.mpr ⟨f, w, rfl, ?_⟩⟩
    refine bind_ok_iff.mpr ⟨w.clock 0, w.ticked, rfl, bind_ok_iff.mpr ⟨_, w.ticked, hattributes, ?_⟩⟩
    exact bind_ok_iff.mpr ⟨(), _, modifySpan_of_some g hcell, rfl⟩
  · rw [World.withSpan, World.memory_withMemory, Heap.cell_modify_self, hcell]
    rfl

theorem add_baggage_total_iff (h : Active eng w f rs r) (key value : Option Bytes) :
    (UserCall.add_baggage key value).Total eng f rs w ↔ key.isSome ∧ value.isSome := by
  simp only [UserCall.Total, opentelemetry_add_baggage, bind_apply, h.has_provider, ok_bind, if_true]
  cases key with
  | none => simp [stringArgument]
  | some key =>
    cases value with
    | none => simp [stringArgument]
    | some value =>
      obtain ⟨w', hadd, -⟩ := Provider.addBaggage_of_ready h.ready (c_str key) (c_str value)
      simp [stringArgument, hadd]

theorem add_span_total_iff (h : Active eng w f rs r) (args : AddSpanArgs) :
    (UserCall.add_span args).Total eng f rs w ↔
      ∀ entry ∈ args.attributes, (entryParts entry).isSome := by
  have hbody : opentelemetry_add_span eng (some args) w = addSpanBody eng args w :=
    opentelemetry_add_span_eq h.has_provider args
  simp only [UserCall.Total, hbody]
  constructor
  · rintro (⟨q, w', hcall, -⟩ | ⟨w', hcall, -⟩)
    · exact (addSpanBody_parts hcall).2
    · exact (addSpanBody_parts hcall).2
  · exact fun hall => .inl (addSpanBody_returns h hall)

/-- A request with a first span and nothing else. -/
def servedWorld : World Unit :=
  { World.fresh () with
    globals := { provider := some ⟨0, fun _ =>
      { request := some 0, resourceSpan := some 0, resource := some 0, firstSpan := some 0 }⟩ }
    memory := {
      requests := Heap.empty.alloc ⟨[0]⟩
      resource_spans := Heap.empty.alloc ⟨none, [0]⟩
      resources := Heap.empty.alloc ⟨[]⟩
      spans := Heap.empty.alloc (begunSpan 5) } }

theorem active_servedWorld : Active (.bare false) servedWorld 0 0 ⟨none, [0]⟩ :=
  ⟨⟨⟨_, rfl, rfl, rfl, rfl⟩, rfl, List.mem_singleton_self 0⟩, ⟨_, rfl⟩, ⟨_, 0, ⟨[]⟩, rfl, rfl, rfl⟩⟩

/-- A span with such an argument for its attributes. -/
def spanCall (attributes : List (ArrayKey × Zval)) : UserCall :=
  .add_span ⟨lit "s", 1, 5, 1, [], attributes⟩

/-- `[['key' => 'k', 'value' => 1]]`. -/
def oneEntry : List (ArrayKey × Zval) :=
  [(.index 0, .array [(.str (lit "key"), .string (lit "k")), (.str (lit "value"), .long 1)])]

end opentelemetry
