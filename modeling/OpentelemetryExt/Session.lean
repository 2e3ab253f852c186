import OpentelemetryExt.Sdk
import OpentelemetryExt.ZendHook.Redis
import OpentelemetryExt.ZendHook.Memcached
import OpentelemetryExt.ZendHook.Pdo
import OpentelemetryExt.ZendHook.Mysqli
import OpentelemetryExt.ZendHook.Yar
import OpentelemetryExt.ZendHook.Curl
import OpentelemetryExt.ZendHook.Error

open assoc stateful

namespace opentelemetry

variable {φ : Type} (eng : Engine φ)

/-- Changes to a span that leave its ids alone. -/
def Edits (f : Span → Span) : Prop :=
  ∀ s, (f s).trace_id = s.trace_id ∧ (f s).span_id = s.span_id ∧
    (f s).parent_span_id = s.parent_span_id

/-- Changes to a slot that leave its pointers alone. -/
def Annotates (f : Slot → Slot) : Prop :=
  ∀ s, (f s).request = s.request ∧ (f s).resourceSpan = s.resourceSpan ∧
    (f s).resource = s.resource ∧ (f s).firstSpan = s.firstSpan

/-- What hooks, callbacks and SDK calls do to the state: everything they change, they
change by these operations. Only the hooks of curl write to the header store. -/
inductive Op (stores : Prop) : ∀ {α : Type}, M φ α → Prop
  | createChildSpan (name : Bytes) (kind : SpanKind) :
      Op stores (Provider.createChildSpan eng name kind)
  | edit (span : Nat) {f : Span → Span} (hf : Edits f) : Op stores (modifySpan span f)
  | annotate {f : Slot → Slot} (hf : Annotates f) : Op stores (modifySlot eng f)
  | addResourceAttribute (resource : Nat) (kv : KeyValue) :
      Op stores (Provider.addResourceAttribute resource kv)
  | tick : Op stores get_unix_nanoseconds
  | php (state : φ) : Op stores (modifyPhp state)
  | headers (h : stores) (entries : List (ArrayKey × Zval)) : Op stores (setCurlHeader entries)

namespace Op

variable {eng} {stores : Prop}

theorem reads_globals : Reads (globals : M φ Globals) := .bind .get fun _ => .pure _

theorem reads_provider : Reads (provider : M φ Provider) := .bind reads_globals fun _ => .lift _

theorem reads_slot : Reads (slot eng) :=
  .bind reads_provider fun _ => .bind (.bind .get fun _ => .pure _) fun _ => .pure _

theorem reads_is_has_provider : Reads (is_has_provider : M φ Bool) :=
  .bind reads_globals fun _ => .pure _

theorem reads_readSpan (p : Nat) : Reads (readSpan p : M φ Span) := .bind .get fun _ => .lift _

theorem reads_firstOneSpan : Reads (Provider.firstOneSpan eng) := .bind reads_slot fun _ => .pure _

theorem reads_getResource : Reads (Provider.getResource eng) := .bind reads_slot fun _ => .pure _

theorem reads_find_server_string (key : Bytes) : Reads (find_server_string key : M φ Bytes) := by
  refine .bind .get fun w => ?_
  cases w.server key with
  | some value => exact .lift _
  | none => exact .pure _

theorem reads_find_server_zval (key : String) : Reads (find_server_zval key : M φ (Option Zval)) :=
  .bind .get fun _ => .pure _

theorem reads_json_encode (value : Zval) : Reads (opentelemetry_json_encode eng value) :=
  .bind .get fun _ => .pure _

theorem reads_argumentText (p : Zval) : Reads (argumentText eng p) := .bind .get fun _ => .pure _

theorem reads_attributeText (value : Zval) : Reads (attributeText eng value) := by
  cases value with
  | array entries => exact reads_json_encode _
  | string s => exact .pure _
  | _ => exact .bind .get fun _ => .pure _

theorem reads_eventAttributes (entries : List (ArrayKey × Zval)) :
    Reads (eventAttributes eng entries) := by
  induction entries with
  | nil => exact .pure _
  | cons e rest ih =>
    obtain ⟨key | key, value⟩ := e
    · exact ih
    · exact .bind (reads_attributeText _) fun _ => .bind ih fun _ => .pure _

theorem reads_getRedisException : Reads (Provider.getRedisException eng) :=
  .bind reads_slot fun _ => .pure _

theorem reads_formatBaggageHeader : Reads (Provider.formatBaggageHeader eng) :=
  .bind reads_slot fun _ => .pure _

theorem reads_curlHeader : Reads (curlHeader : M φ _) := by
  refine .bind reads_globals fun g => ?_
  cases g.curl_header with
  | some entries => exact .pure _
  | none => exact .lift _

end Op

/-- What a piece of the code may do beyond describing spans. -/
structure Grants where
  /-- It creates spans. -/
  creates : Prop
  /-- It writes to the header store. -/
  stores : Prop
  /-- It ends spans. -/
  ends : Prop
  /-- It sets or clears the redis exception. -/
  raises : Prop
  /-- It decides about sampling otherwise than by the end of a span. -/
  samples : Prop

/-- Code that only describes spans. -/
def Grants.none : Grants := ⟨False, False, False, False, False⟩

/-- Changes to a span that neither identify nor end it. -/
def Notes (f : Span → Span) : Prop :=
  Edits f ∧ ∀ s, (f s).status = s.status ∧ (f s).end_time_unix_nano = s.end_time_unix_nano

/-- The operations that hooks, callbacks and SDK calls are made of, by what they are granted. -/
inductive Move (g : Grants) : ∀ {α : Type}, M φ α → Prop
  | createChildSpan (h : g.creates) (name : Bytes) (kind : SpanKind) :
      Move g (Provider.createChildSpan eng name kind)
  | note (span : Nat) {f : Span → Span} (hf : Notes f) : Move g (modifySpan span f)
  | okEnd (h : g.ends) (span : Nat) : Move g (Provider.okEnd span)
  | errorEnd (h : g.ends) (span : Nat) (message : Bytes) :
      Move g (Provider.errorEnd eng span message)
  | setSampled (h : g.samples) (isSampled : Bool) : Move g (Provider.setSampled eng isSampled)
  | setRedisException (h : g.raises) (message : Bytes) :
      Move g (Provider.setRedisException eng message)
  | assignBaggage (key value : Bytes) :
      Move g (modifySlot eng fun s => { s with baggage := s.baggage.assign key value })
  | addResourceAttribute (resource : Nat) (kv : KeyValue) :
      Move g (Provider.addResourceAttribute resource kv)
  | tick : Move g get_unix_nanoseconds
  | php (state : φ) : Move g (modifyPhp state)
  | headers (h : g.stores) (entries : List (ArrayKey × Zval)) : Move g (setCurlHeader entries)

namespace Move

variable {eng} {g : Grants}

/-- Every move is made of operations. -/
theorem built_op {α : Type} {m : M φ α} (h : Move eng g m) : Built (Op eng g.stores) m := by
  have hannotate {f : Slot → Slot} (hf : Annotates f) :
      Built (Op eng g.stores) (modifySlot eng f) := .op (.annotate hf)
  cases h with
  | createChildSpan _ name kind => exact .op (.createChildSpan name kind)
  | note span hf => exact .op (.edit span hf.1)
  | okEnd _ span =>
    refine .bind (.op (.edit span fun s => ?_)) fun _ => .bind (.op .tick) fun _ =>
      .op (.edit span fun _ => ⟨rfl, rfl, rfl⟩)
    split <;> exact ⟨rfl, rfl, rfl⟩
  | errorEnd _ span message =>
    exact .bind (.op .tick) fun _ => .bind (.op (.edit span fun _ => ⟨rfl, rfl, rfl⟩)) fun _ =>
      hannotate fun _ => ⟨rfl, rfl, rfl, rfl⟩
  | setSampled _ isSampled => exact hannotate fun _ => ⟨rfl, rfl, rfl, rfl⟩
  | setRedisException _ message => exact hannotate fun _ => ⟨rfl, rfl, rfl, rfl⟩
  | assignBaggage key value => exact hannotate fun _ => ⟨rfl, rfl, rfl, rfl⟩
  | addResourceAttribute resource kv => exact .op (.addResourceAttribute resource kv)
  | tick => exact .op .tick
  | php state => exact .op (.php state)
  | headers h entries => exact .op (.headers h entries)

end Move

/-- What a piece of the code may write to spans beside attributes. -/
structure Details where
  /-- It gives spans a start. -/
  dates : Prop
  /-- It adds events to spans. -/
  notes : Prop

/-- Code that only adds attributes. -/
def Details.none : Details := ⟨False, False⟩

/-- The same operations, each with what it writes. -/
inductive Effect (d : Details) (g : Grants) : ∀ {α : Type}, M φ α → Prop
  | createChildSpan (h : g.creates) (name : Bytes) (kind : SpanKind) :
      Effect d g (Provider.createChildSpan eng name kind)
  | describe (span : Nat) (kv : KeyValue) : Effect d g (addAttribute span kv)
  | addEvent (h : d.notes) (span : Nat) (event : SpanEvent) :
      Effect d g (modifySpan span fun s => { s with events := s.events ++ [event] })
  | date (h : d.dates) (span : Nat) (start : UInt64) :
      Effect d g (modifySpan span fun s => { s with start_time_unix_nano := start })
  | okEnd (h : g.ends) (span : Nat) : Effect d g (Provider.okEnd span)
  | errorEnd (h : g.ends) (span : Nat) (message : Bytes) :
      Effect d g (Provider.errorEnd eng span message)
  | setSampled (h : g.samples) (isSampled : Bool) : Effect d g (Provider.setSampled eng isSampled)
  | setRedisException (h : g.raises) (message : Bytes) :
      Effect d g (Provider.setRedisException eng message)
  | assignBaggage (key value : Bytes) :
      Effect d g (modifySlot eng fun s => { s with baggage := s.baggage.assign key value })
  | addResourceAttribute (resource : Nat) (kv : KeyValue) :
      Effect d g (Provider.addResourceAttribute resource kv)
  | tick : Effect d g get_unix_nanoseconds
  | php (state : φ) : Effect d g (modifyPhp state)
  | headers (h : g.stores) (entries : List (ArrayKey × Zval)) : Effect d g (setCurlHeader entries)

namespace Effect

variable {eng} {d : Details} {g : Grants}

theorem move {α : Type} {m : M φ α} (h : Effect eng d g m) : Move eng g m := by
  cases h with
  | createChildSpan h name kind => exact .createChildSpan h name kind
  | describe span kv => exact .note span ⟨fun _ => ⟨rfl, rfl, rfl⟩, fun _ => ⟨rfl, rfl⟩⟩
  | addEvent _ span event => exact .note span ⟨fun _ => ⟨rfl, rfl, rfl⟩, fun _ => ⟨rfl, rfl⟩⟩
  | date _ span start => exact .note span ⟨fun _ => ⟨rfl, rfl, rfl⟩, fun _ => ⟨rfl, rfl⟩⟩
  | okEnd h span => exact .okEnd h span
  | errorEnd h span message => exact .errorEnd h span message
  | setSampled h isSampled => exact .setSampled h isSampled
  | setRedisException h message => exact .setRedisException h message
  | assignBaggage key value => exact .assignBaggage key value
  | addResourceAttribute resource kv => exact .addResourceAttribute resource kv
  | tick => exact .tick
  | php state => exact .php state
  | headers h entries => exact .headers h entries

/-- What is made of these is made of moves. -/
theorem built_move {α : Type} {m : M φ α} (h : Built (Effect eng d g) m) : Built (Move eng g) m :=
  h.trans fun heffect => .op heffect.move

theorem built_addAttribute (span : Nat) (kv : KeyValue) :
    Built (Effect eng d g) (addAttribute span kv) := .op (.describe span kv)

theorem built_addAttributes (span : Nat) (kvs : List KeyValue) :
    Built (Effect eng d g) (kvs.forM (addAttribute span)) := .forM fun kv => built_addAttribute span kv

theorem built_isSampled : Built (Effect eng d g) (Provider.isSampled eng) := by
  refine .bind (.reads Op.reads_slot) fun s => .ite (.pure _) ?_
  exact .bind (.reads (.lift _)) fun _ => .bind (.reads (Op.reads_readSpan _)) fun _ =>
    .bind (.op .tick) fun _ => .bind (.reads Op.reads_globals) fun _ => .pure _

theorem built_formatTraceParentHeader (span : Nat) :
    Built (Effect eng d g) (Provider.formatTraceParentHeader eng span) :=
  .bind (.reads (Op.reads_readSpan _)) fun _ => .bind (.reads (.lift _)) fun _ =>
    .bind (.reads (.lift _)) fun _ => .bind built_isSampled fun _ => .pure _

theorem built_addBaggage (key value : Bytes) :
    Built (Effect eng d g) (Provider.addBaggage eng key value) :=
  .bind (.op (.assignBaggage _ _)) fun _ => .bind (.reads Op.reads_getResource) fun _ =>
    .bind (.reads (.lift _)) fun _ => .op (.addResourceAttribute _ _)

theorem built_parseBaggage (tracebaggage : Bytes) :
    Built (Effect eng d g) (Provider.parseBaggage eng tracebaggage) := by
  refine .ite (.forM fun item => ?_) (.pure _)
  split
  · exact built_addBaggage _ _
  · exact .pure _

theorem built_zend_call_method (obj : Zval) (name : String) (params : List Zval) :
    Built (Effect eng d g) (zend_call_method eng obj name params) := by
  unfold zend_call_method
  split
  · refine .bind (.reads .get) fun w => ?_
    split
    · exact .bind (.op (.php _)) fun _ => .pure _
    · exact .reads .unwind
  · exact .reads (.lift _)

end Effect

namespace Move

variable {eng} {g : Grants}

theorem built_addAttribute (span : Nat) (kv : KeyValue) : Built (Move eng g) (addAttribute span kv) :=
  Effect.built_move (Effect.built_addAttribute (d := .none) span kv)

theorem built_addAttributes (span : Nat) (kvs : List KeyValue) :
    Built (Move eng g) (kvs.forM (addAttribute span)) :=
  Effect.built_move (Effect.built_addAttributes (d := .none) span kvs)

theorem built_formatTraceParentHeader (span : Nat) :
    Built (Move eng g) (Provider.formatTraceParentHeader eng span) :=
  Effect.built_move (Effect.built_formatTraceParentHeader (d := .none) span)

theorem built_parseBaggage (tracebaggage : Bytes) :
    Built (Move eng g) (Provider.parseBaggage eng tracebaggage) :=
  Effect.built_move (Effect.built_parseBaggage (d := .none) tracebaggage)

theorem built_zend_call_method (obj : Zval) (name : String) (params : List Zval) :
    Built (Move eng g) (zend_call_method eng obj name params) :=
  Effect.built_move (Effect.built_zend_call_method (d := .none) obj name params)

end Move

/-- Code that creates a span, goes on as it is granted, and returns the span. -/
def Spawns (g : Grants) (m : M φ Nat) : Prop :=
  ∃ name kind f, m = Provider.createChildSpan eng name kind >>= f ∧
    ∀ span, Built (Move eng g) (f span) ∧ Yields span (f span)

/-- The same for code made of any operations. -/
def SpawnsBy (P : ∀ {α : Type}, M φ α → Prop) (m : M φ Nat) : Prop :=
  ∃ name kind f, m = Provider.createChildSpan eng name kind >>= f ∧
    ∀ span, Built P (f span) ∧ Yields span (f span)

namespace SpawnsBy

variable {eng} {P : ∀ {α : Type}, M φ α → Prop}

theorem bind {m : M φ Nat} {f : Nat → M φ Nat} (hm : SpawnsBy eng P m)
    (hbuilt : ∀ span, Built P (f span)) (hyields : ∀ span, Yields span (f span)) :
    SpawnsBy eng P (m >>= f) := by
  obtain ⟨name, kind, h, rfl, hrest⟩ := hm
  refine ⟨name, kind, fun span => h span >>= f, bind_assoc _ _ _, fun span => ?_⟩
  refine ⟨.bind (hrest span).1 hbuilt, fun w a w' hend => ?_⟩
  obtain ⟨b, u, hfirst, hlast⟩ := bind_ok_iff.mp hend
  obtain rfl : b = span := (hrest span).2 hfirst
  exact hyields b hlast

theorem built {m : M φ Nat} (hm : SpawnsBy eng P m)
    (hcreate : ∀ name kind, P (Provider.createChildSpan eng name kind)) : Built P m := by
  obtain ⟨name, kind, f, rfl, hrest⟩ := hm
  exact .bind (.op (hcreate name kind)) fun span => (hrest span).1

end SpawnsBy

namespace Effect

variable {eng} {d : Details} {g : Grants}

theorem built_spawns (hcreates : g.creates) {m : M φ Nat} (hm : SpawnsBy eng (Effect eng d g) m) :
    Built (Effect eng d g) m := hm.built (.createChildSpan hcreates)

theorem spawns {m : M φ Nat} (hm : SpawnsBy eng (Effect eng d g) m) : Spawns eng g m := by
  obtain ⟨name, kind, f, rfl, hrest⟩ := hm
  exact ⟨name, kind, f, rfl, fun span => ⟨Effect.built_move (hrest span).1, (hrest span).2⟩⟩

theorem spawns_openSpan (execute_data : ExecuteData) (kind : SpanKind) (kvs : List KeyValue) :
    SpawnsBy eng (Effect eng d g) (openSpan eng execute_data kind kvs) :=
  ⟨_, _, _, rfl, fun span =>
    ⟨.bind (built_addAttributes _ _) fun _ => .pure _, .bind fun _ => .pure _⟩⟩

end Effect

variable {eng} in
theorem Spawns.built {g : Grants} {m : M φ Nat} (hcreates : g.creates) (hm : Spawns eng g m) :
    Built (Move eng g) m := SpawnsBy.built hm (.createChildSpan hcreates)

variable {eng} in
theorem Spawns.openSpan {g : Grants} (execute_data : ExecuteData) (kind : SpanKind)
    (kvs : List KeyValue) : Spawns eng g (openSpan eng execute_data kind kvs) :=
  Effect.spawns (Effect.spawns_openSpan (d := .none) _ _ _)

end opentelemetry
