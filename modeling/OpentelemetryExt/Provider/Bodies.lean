import OpentelemetryExt.Core

open assoc heap stateful

namespace opentelemetry

/-- A `tsl::robin_map` from pids. -/
abbrev PidMap (V : Type) := Nat → Option V

namespace PidMap

variable {V : Type}

/-- What `operator[]` refers to: the entry, or one that it makes. -/
def sub (m : PidMap V) (ppid : Nat) (value : V) : V := (m ppid).getD value

def insert (m : PidMap V) (ppid : Nat) (value : V) : PidMap V := Function.update m ppid (some value)

/-- The map once `operator[]` has been used. -/
def touch (m : PidMap V) (ppid : Nat) (value : V) : PidMap V := m.insert ppid (m.sub ppid value)

def erase (m : PidMap V) (ppid : Nat) : PidMap V := Function.update m ppid none

end PidMap

/-- The members of `Provider`: those outside the CLI, and the maps for the CLI. -/
structure Members where
  counter : Int := 0
  resourceSpan : Option Nat := none
  resource : Option Nat := none
  resourceSpans : PidMap (Option Nat) := fun _ => none
  resources : PidMap (Option Nat) := fun _ => none
  request : Option Nat := none
  requests : PidMap (Option Nat) := fun _ => none
  firstSpan : Option Nat := none
  firstSpans : PidMap (Option Nat) := fun _ => none
  is_sampled : Bool := false
  sampled_map : PidMap Bool := fun _ => none
  redisExceptions : PidMap Bytes := fun _ => none
  redisException : Bytes := []
  baggage : RobinMap := {}
  baggage_map : PidMap RobinMap := fun _ => none

/-- Programs over the process and the members of its provider. -/
abbrev Body (φ α : Type) := Prog (World φ × Members) Fault α

variable {φ : Type} (eng : Engine φ)

-- The operations of the provider, each with a body for the CLI and one for all else.
namespace Bodies

def members : Body φ Members := do return (← get).2

def modifyMembers (f : Members → Members) : Body φ Unit := modify fun s => (s.1, f s.2)

def get_current_ppid : Body φ Nat := do return (← get).1.ppid

def getRequest : Body φ (Option Nat) := do
  if ¬ eng.cli then return (← members).request
  else
    let ppid ← get_current_ppid
    let m ← members
    if (m.requests ppid).isSome ∧ m.requests.sub ppid none ≠ none then
      return m.requests.sub ppid none
    else return none

def getResource : Body φ (Option Nat) := do
  if ¬ eng.cli then return (← members).resource
  else
    let ppid ← get_current_ppid
    modifyMembers fun m => { m with resources := m.resources.touch ppid none }
    return (← members).resources.sub ppid none

/-- What both bodies of `getTracer` make: a request, its entry and the resource. -/
def newMessages : M φ (Nat × Nat × Nat) := do
  let w ← get
  let m := w.memory
  let resourceSpan := m.resource_spans.next
  modifyMemory fun m => { m with
    requests := m.requests.alloc ⟨[resourceSpan]⟩
    resource_spans := m.resource_spans.alloc {}
    resources := m.resources.alloc ⟨Provider.resourceAttributes eng w.globals w.pid⟩ }
  return (m.requests.next, resourceSpan, m.resources.next)

def getTracer : Body φ (Option Nat) := do
  if ¬ eng.cli then
    if (← members).request.isSome then return (← members).resourceSpan
    else
      let (request, resourceSpan, resource) ← onFirst (newMessages eng)
      modifyMembers fun m => { m with
        request := some request, resourceSpan := some resourceSpan, resource := some resource }
      return (← members).resourceSpan
  else
    let ppid ← get_current_ppid
    if ((← members).requests ppid).isSome then
      modifyMembers fun m => { m with resourceSpans := m.resourceSpans.touch ppid none }
      return (← members).resourceSpans.sub ppid none
    else
      let (request, resourceSpan, resource) ← onFirst (newMessages eng)
      modifyMembers fun m => { m with
        requests := m.requests.insert ppid (some request)
        resourceSpans := m.resourceSpans.insert ppid (some resourceSpan)
        resources := m.resources.insert ppid (some resource) }
      return (← members).resourceSpans.sub ppid none

def firstOneSpan : Body φ (Option Nat) := do
  if ¬ eng.cli then return (← members).firstSpan
  else
    let ppid ← get_current_ppid
    let m ← members
    if (m.firstSpans ppid).isSome then return m.firstSpans.sub ppid none
    else return none

def createSpan (name : Bytes) (kind : SpanKind) : Body φ Nat := do
  let resource_span ← lift (deref (← getTracer eng))
  let firstSpan ← firstOneSpan eng
  let trace_id ← onFirst (Provider.traceIdFor firstSpan)
  let span_id ← onFirst generate_uuid
  let start ← onFirst get_unix_nanoseconds
  onFirst (Provider.addSpan resource_span
    { trace_id, name, kind, span_id := span_id.take 8, start_time_unix_nano := start })

def setFirstSpan (span : Nat) : Body φ Unit := do
  if ¬ eng.cli then modifyMembers fun m => { m with firstSpan := some span }
  else
    let ppid ← get_current_ppid
    modifyMembers fun m => { m with firstSpans := m.firstSpans.insert ppid (some span) }

def createFirstSpan (name : Bytes) (kind : SpanKind) : Body φ Nat := do
  let span ← createSpan eng name kind
  setFirstSpan eng span
  return span

/-- Whether `isSampled` finds the flag set. -/
def sampledFlag : Body φ Bool := do
  if ¬ eng.cli then return (← members).is_sampled
  else
    let ppid ← get_current_ppid
    let m ← members
    return (m.sampled_map ppid).isSome && m.sampled_map.sub ppid false

def isSampled : Body φ Bool := do
  if ← sampledFlag eng then return true
  else
    let firstSpan ← lift (deref (← firstOneSpan eng))
    let first ← onFirst (readSpan firstSpan)
    let now ← onFirst get_unix_nanoseconds
    let g ← onFirst globals
    return decide ((g.max_time_consuming % 2 ^ 64).toNat ≤
      toMilliseconds (now - first.start_time_unix_nano))

def setSampled (isSampled : Bool) : Body φ Unit := do
  if ¬ eng.cli then modifyMembers fun m => { m with is_sampled := isSampled }
  else
    let ppid ← get_current_ppid
    modifyMembers fun m => { m with sampled_map := m.sampled_map.insert ppid isSampled }

/-- The part of `clean` that deletes the request of a CLI trace. -/
def cleanRequest (ppid : Nat) : Body φ Unit := do
  if ((← members).requests ppid).isSome then
    modifyMembers fun m => { m with
      sampled_map := m.sampled_map.erase ppid
      firstSpans := m.firstSpans.erase ppid
      resourceSpans := m.resourceSpans.erase ppid }
    let request ← lift (deref ((← members).requests.sub ppid none))
    onFirst (Provider.deleteRequest request)
    modifyMembers fun m => { m with requests := m.requests.erase ppid }
  else return

def cleanBaggage (ppid : Nat) : Body φ Unit := do
  if ((← members).baggage_map ppid).isSome then
    modifyMembers fun m => { m with
      baggage_map := m.baggage_map.insert ppid (m.baggage_map.sub ppid {}).clear }
  else return

def cleanRedisException (ppid : Nat) : Body φ Unit := do
  if ((← members).redisExceptions ppid).isSome then
    modifyMembers fun m => { m with redisExceptions := m.redisExceptions.erase ppid }
  else return

def clean : Body φ Unit := do
  if ¬ eng.cli then
    match (← members).request with
    | some request =>
      modifyMembers fun m => { m with resourceSpan := none, firstSpan := none }
      onFirst (Provider.deleteRequest request)
      modifyMembers fun m => { m with
        request := none, is_sampled := false
        baggage := m.baggage.clear, redisException := [] }
    | none => return
  else
    let ppid ← get_current_ppid
    cleanRequest ppid
    cleanBaggage ppid
    cleanRedisException ppid

def assignBaggage (key value : Bytes) : Body φ Unit := do
  if ¬ eng.cli then modifyMembers fun m => { m with baggage := m.baggage.assign key value }
  else
    let ppid ← get_current_ppid
    modifyMembers fun m => { m with
      baggage_map := m.baggage_map.insert ppid ((m.baggage_map.sub ppid {}).assign key value) }

def addBaggage (key value : Bytes) : Body φ Unit := do
  assignBaggage eng key value
  let resource ← lift (deref (← getResource eng))
  onFirst (Provider.addResourceAttribute resource ⟨key, .string value⟩)

def parseTraceParent (traceparent : Bytes) : Body φ Unit := do
  if traceparent ≠ [] then
    match explode (lit "-") traceparent with
    | [_, kv1, kv2, kv3] =>
      let erange := (← get).1.erange
      let span ← lift (deref (← firstOneSpan eng))
      let trace_id ← lift (copyBytes (Hex.decode erange kv1) 16)
      onFirst (modifySpan span fun s => { s with trace_id := trace_id })
      let parent_span_id ← lift (copyBytes (Hex.decode erange kv2) 8)
      onFirst (modifySpan span fun s => { s with parent_span_id := parent_span_id })
      setSampled eng (kv3 == lit "01")
    | _ => return
  else
    let ratio := (← onFirst globals).sample_ratio_based
    if ratio = 1 then setSampled eng true
    else
      let rest ← lift (remainder (← members).counter ratio)
      if rest = 0 then setSampled eng true
      else if ratio = 0 then setSampled eng false
      else return

def parseBaggage (tracebaggage : Bytes) : Body φ Unit := do
  if tracebaggage ≠ [] then
    (explode (lit ",") tracebaggage).forM fun item =>
      match explode (lit "=") item with
      | [key, value] => addBaggage eng key value
      | _ => return
  else return

def formatTraceParentHeader (span : Nat) : Body φ Bytes := do
  let s ← onFirst (readSpan span)
  let trace_id ← lift (copyBytes s.trace_id 16)
  let span_id ← lift (copyBytes s.span_id 8)
  let sampled ← isSampled eng
  return lit "00-" ++ Hex.encode trace_id ++ lit "-" ++ Hex.encode span_id ++ lit "-" ++
    lit (if sampled then "01" else "00")

/-- The copy of the baggage that `formatBaggageHeader` makes. -/
def baggageValue : Body φ RobinMap := do
  if ¬ eng.cli then return (← members).baggage
  else
    let ppid ← get_current_ppid
    modifyMembers fun m => { m with baggage_map := m.baggage_map.touch ppid {} }
    return (← members).baggage_map.sub ppid {}

def formatBaggageHeader : Body φ Bytes := do
  let baggage ← baggageValue eng
  let entries := (eng.iterate baggage).val.map fun (key, value) => key ++ lit "=" ++ value
  return (lit ",").intercalate entries

def errorEnd (span : Nat) (message : Bytes) : Body φ Unit := do
  let now ← onFirst get_unix_nanoseconds
  onFirst (modifySpan span fun s =>
    { s with status := ⟨.error, message⟩, end_time_unix_nano := now })
  setSampled eng true

def getRedisException : Body φ Bytes := do
  if ¬ eng.cli then return (← members).redisException
  else
    let ppid ← get_current_ppid
    let m ← members
    if (m.redisExceptions ppid).isSome ∧ m.redisExceptions.sub ppid [] ≠ [] then
      return m.redisExceptions.sub ppid []
    else return []

def setRedisException (message : Bytes) : Body φ Unit := do
  if ¬ eng.cli then modifyMembers fun m => { m with redisException := message }
  else
    let ppid ← get_current_ppid
    modifyMembers fun m => { m with redisExceptions := m.redisExceptions.insert ppid message }

def clearRedisException : Body φ Unit := setRedisException eng []

def isRedisException : Body φ Bool := do return (← getRedisException eng) ≠ []

end Bodies

end opentelemetry
