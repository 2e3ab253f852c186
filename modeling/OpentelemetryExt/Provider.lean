import OpentelemetryExt.World
import OpentelemetryExt.Lib.Assoc
import OpentelemetryExt.Lib.Rounding

open assoc heap stateful rounding

namespace opentelemetry

variable {φ : Type} (eng : Engine φ)

/-- `long % int`. The quotient of the least `long` by `-1` is out of range. -/
def remainder (a b : Int) : Except Fault Int :=
  if b = 0 then .error .divisionByZero
  else if a = -2 ^ 63 ∧ b = -1 then .error .overflow
  else .ok (a.tmod b)

/-- `time_consuming /= 1e6`: the nanoseconds become a `double`, so does the
quotient, and the result is truncated. -/
def toMilliseconds (nanoseconds : UInt64) : Nat :=
  ⌊toFloat 53 (toFloat 53 nanoseconds.toNat / 1000000)⌋₊

namespace Provider

def getRequest : M φ (Option Nat) := do return (← slot eng).request

def getResource : M φ (Option Nat) := do return (← slot eng).resource

/-- The attributes named by the `resource_attributes` setting. -/
def configuredAttributes (resource_attributes : Bytes) : List KeyValue :=
  if resource_attributes = [] then []
  else (explode (lit ",") resource_attributes).filterMap fun item =>
    match explode (lit "=") item with
    | [key, value] => if key ≠ [] ∧ value ≠ [] then some ⟨key, .string value⟩ else none
    | _ => none

/-- The attributes of a new resource. -/
def resourceAttributes (g : Globals) (pid : Nat) : List KeyValue :=
  [string_attribute "service.name" (c_str g.service_name),
    string_attribute "net.host.ip" g.ipv4,
    string_attribute "net.host.name" (c_str g.hostname),
    string_attribute "os.type" eng.platform_name,
    string_attribute "process.pid" (to_string pid),
    string_attribute "telemetry.sdk.language" (lit "php")] ++
  configuredAttributes (c_str g.resource_attributes)

/-- A request with one resource-spans entry, and the resource to be attached to it later. -/
def newRequest : M φ Nat := do
  let w ← get
  let m := w.memory
  let request := m.requests.next
  let resourceSpan := m.resource_spans.next
  let resource := m.resources.next
  modifyMemory fun m => { m with
    requests := m.requests.alloc ⟨[resourceSpan]⟩
    resource_spans := m.resource_spans.alloc {}
    resources := m.resources.alloc ⟨resourceAttributes eng w.globals w.pid⟩ }
  modifySlot eng fun s => { s with
    request := some request, resourceSpan := some resourceSpan, resource := some resource }
  return resourceSpan

def getTracer : M φ Nat := do
  let s ← slot eng
  if s.request.isSome then lift (deref s.resourceSpan) else newRequest eng

def firstOneSpan : M φ (Option Nat) := do return (← slot eng).firstSpan

def latestSpan : M φ Span := do readSpan (← lift (deref (← firstOneSpan eng)))

/-- `add_instrumentation_library_spans()->add_spans()`, with the fields the span is given. -/
def addSpan (resourceSpan : Nat) (span : Span) : M φ Nat := do
  let m := (← get).memory
  let _ ← lift (load m.resource_spans resourceSpan)
  modifyMemory fun m => { m with
    spans := m.spans.alloc span
    resource_spans := m.resource_spans.modify resourceSpan fun rs =>
      { rs with spans := rs.spans ++ [m.spans.next] } }
  return m.spans.next

/-- The trace id of a new span: that of the first span, or a new one. -/
def traceIdFor (firstSpan : Option Nat) : M φ Bytes :=
  match firstSpan with
  | some first => do return (← readSpan first).trace_id
  | none => generate_uuid

def createSpan (name : Bytes) (kind : SpanKind) : M φ Nat := do
  let resource_span ← getTracer eng
  let trace_id ← traceIdFor (← firstOneSpan eng)
  let span_id ← generate_uuid
  let start ← get_unix_nanoseconds
  addSpan resource_span
    { trace_id, name, kind, span_id := span_id.take 8, start_time_unix_nano := start }

def createFirstSpan (name : Bytes) (kind : SpanKind) : M φ Nat := do
  let span ← createSpan eng name kind
  modifySlot eng fun s => { s with firstSpan := some span }
  return span

/-- A span under the first span: its callers take the parent's id before they create it. -/
def createChildSpan (name : Bytes) (kind : SpanKind) : M φ Nat := do
  let parentId := (← latestSpan eng).span_id
  let span ← createSpan eng name kind
  modifySpan span fun s => { s with parent_span_id := parentId }
  return span

/-- The comparison converts a negative `max_time_consuming` to a huge unsigned value. -/
def isSampled : M φ Bool := do
  let s ← slot eng
  if s.is_sampled then return true
  else
    let first ← readSpan (← lift (deref s.firstSpan))
    let now ← get_unix_nanoseconds
    let g ← globals
    return decide ((g.max_time_consuming % 2 ^ 64).toNat ≤
      toMilliseconds (now - first.start_time_unix_nano))

def setSampled (isSampled : Bool) : M φ Unit :=
  modifySlot eng fun s => { s with is_sampled := isSampled }

/-- `request->Clear(); delete request;`. -/
def deleteRequest (p : Nat) : M φ Unit := do
  let request ← lift (load (← get).memory.requests p)
  modifyMemory fun m => m.deleteRequest p request

/-- The `resource` pointer survives in both branches. In the CLI the baggage and the redis
exception go even when there is no request. -/
def clean : M φ Unit := do
  let s ← slot eng
  if let some request := s.request then
    deleteRequest request
    modifySlot eng fun s => { s with
      resourceSpan := none, firstSpan := none, request := none, is_sampled := false }
  if eng.cli ∨ s.request.isSome then
    modifySlot eng fun s => { s with baggage := s.baggage.clear, redisException := [] }

def addResourceAttribute (resource : Nat) (kv : KeyValue) : M φ Unit := do
  let _ ← lift (load (← get).memory.resources resource)
  modifyMemory fun m => { m with
    resources := m.resources.modify resource fun r => { r with attributes := r.attributes ++ [kv] } }

def addBaggage (key value : Bytes) : M φ Unit := do
  modifySlot eng fun s => { s with baggage := s.baggage.assign key value }
  addResourceAttribute (← lift (deref (← getResource eng))) ⟨key, .string value⟩

def getBaggage : M φ RobinMap := do return (← slot eng).baggage

/-- The counter after `increase`. -/
def nextCount (counter : Int) : Int := (if counter > 10000000 then 0 else counter) + 1

def increase : M φ Unit := do
  let p ← provider
  setProvider { p with counter := nextCount p.counter }

def count : M φ Int := do return (← provider).counter

def parseTraceParent (traceparent : Bytes) : M φ Unit := do
  if traceparent ≠ [] then
    match explode (lit "-") traceparent with
    | [_, kv1, kv2, kv3] =>
      let erange := (← get).erange
      let span ← lift (deref (← firstOneSpan eng))
      let trace_id ← lift (copyBytes (Hex.decode erange kv1) 16)
      modifySpan span fun s => { s with trace_id := trace_id }
      let parent_span_id ← lift (copyBytes (Hex.decode erange kv2) 8)
      modifySpan span fun s => { s with parent_span_id := parent_span_id }
      setSampled eng (kv3 == lit "01")
    | _ => return
  else
    let ratio := (← globals).sample_ratio_based
    if ratio = 1 then setSampled eng true
    else
      let rest ← lift (remainder (← count) ratio)
      if rest = 0 then setSampled eng true
      else if ratio = 0 then setSampled eng false

def parseBaggage (tracebaggage : Bytes) : M φ Unit := do
  if tracebaggage ≠ [] then
    (explode (lit ",") tracebaggage).forM fun item =>
      match explode (lit "=") item with
      | [key, value] => addBaggage eng key value
      | _ => return

/-- `traceId(*span)` and `spanId(*span)` encode a fixed number of bytes. -/
def formatTraceParentHeader (span : Nat) : M φ Bytes := do
  let s ← readSpan span
  let trace_id ← lift (copyBytes s.trace_id 16)
  let span_id ← lift (copyBytes s.span_id 8)
  let sampled ← isSampled eng
  return lit "00-" ++ Hex.encode trace_id ++ lit "-" ++ Hex.encode span_id ++ lit "-" ++
    lit (if sampled then "01" else "00")

def formatBaggageHeader : M φ Bytes := do
  let s ← slot eng
  let entries := (eng.iterate s.baggage).val.map fun (key, value) => key ++ lit "=" ++ value
  return (lit ",").intercalate entries

def okEnd (span : Nat) : M φ Unit := do
  modifySpan span fun s => if s.status.code = .unset then { s with status := ⟨.ok, []⟩ } else s
  let now ← get_unix_nanoseconds
  modifySpan span fun s => { s with end_time_unix_nano := now }

def errorEnd (span : Nat) (message : Bytes) : M φ Unit := do
  let now ← get_unix_nanoseconds
  modifySpan span fun s => { s with status := ⟨.error, message⟩, end_time_unix_nano := now }
  setSampled eng true

def getRedisException : M φ Bytes := do return (← slot eng).redisException

def setRedisException (message : Bytes) : M φ Unit :=
  modifySlot eng fun s => { s with redisException := message }

def clearRedisException : M φ Unit := setRedisException eng []

def isRedisException : M φ Bool := do return (← getRedisException eng) ≠ []

end Provider

end opentelemetry
