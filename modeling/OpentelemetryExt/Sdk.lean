import OpentelemetryExt.Core

open heap stateful

namespace opentelemetry

variable {φ : Type} (eng : Engine φ)

/-- A `char *` argument that becomes a `std::string`. A null pointer throws. -/
def stringArgument : Option Bytes → Except Fault Bytes
  | some s => .ok (c_str s)
  | none => .error .exception

/-- The arguments are those `zend_parse_parameters` stored; `none` when it failed. -/
def opentelemetry_start_cli_tracer (args : Option (Option Bytes × Option Bytes × SpanKind)) :
    M φ Bool := do
  let g ← globals
  if ¬ eng.cli ∨ ¬ g.cli_enable ∨ g.is_started_cli_tracer then return false
  match args with
  | none => return false
  | some (traceparent, baggage, kind) =>
    modifyGlobals fun g => { g with is_started_cli_tracer := true }
    start_tracer eng (c_str (traceparent.getD [])) (c_str (baggage.getD [])) kind
    return true

def opentelemetry_shutdown_cli_tracer : M φ Bool := do
  let g ← globals
  if ¬ eng.cli ∨ ¬ g.cli_enable ∨ ¬ g.is_started_cli_tracer then return false
  shutdown_tracer eng
  return true

def opentelemetry_get_traceparent : M φ Bytes := do
  if ← is_has_provider then
    let first ← lift (deref (← Provider.firstOneSpan eng))
    return c_str (← Provider.formatTraceParentHeader eng first)
  return []

def opentelemetry_get_baggage : M φ Bytes := do
  if ← is_has_provider then return c_str (← Provider.formatBaggageHeader eng)
  return []

def opentelemetry_add_baggage (args : Option (Option Bytes × Option Bytes)) : M φ Bool := do
  if ← is_has_provider then
    match args with
    | none => return false
    | some (key, value) =>
      let key ← lift (stringArgument key)
      let value ← lift (stringArgument value)
      Provider.addBaggage eng key value
      return true
  return false

def opentelemetry_set_sample_ratio_based (args : Option Int) : M φ Unit := do
  if ← is_has_provider then
    if let some ratio_based := args then
      if ratio_based = 0 then Provider.setSampled eng false
      else if ratio_based = 1 then Provider.setSampled eng true
      else
        let traceparent ← find_server_string (lit "HTTP_TRACEPARENT")
        if traceparent = [] then
          let rest ← lift (remainder (← Provider.count) (← globals).sample_ratio_based)
          if rest = 0 then Provider.setSampled eng true

def opentelemetry_get_unix_nano : M φ UInt64 := get_unix_nanoseconds

/-- The text of an attribute value that user code passed. -/
def attributeText (value : Zval) : M φ Bytes := do
  match value with
  | .array _ => opentelemetry_json_encode eng value
  | .string s => return c_str s
  | _ => return c_str (convert_to_string eng (← get).php value)

/-- One entry of the `attributes` argument of `opentelemetry_add_span`. -/
def addSpanAttribute (span : Nat) (entry : ArrayKey × Zval) : M φ Unit := do
  let entries ← lift (Z_ARRVAL_P entry.2)
  let value ← lift (deref (zend_hash_str_find entries (lit "value")))
  let key ← lift (deref (zend_hash_str_find entries (lit "key")))
  let key ← lift (Z_STRVAL_P key)
  addAttribute span ⟨key, .string (← attributeText eng value)⟩

structure AddSpanArgs where
  name : Bytes
  kind : Int
  start_time_unix_nano : Int
  status_code : Int
  status_message : Bytes
  attributes : List (ArrayKey × Zval)

def opentelemetry_add_span (args : Option AddSpanArgs) : M φ Bool := do
  if ← is_has_provider then
    match args with
    | none => return false
    | some args =>
      let span ← Provider.createChildSpan eng (c_str args.name) (args.kind.bmod (2 ^ 32))
      modifySpan span fun s => { s with
        start_time_unix_nano := UInt64.ofInt args.start_time_unix_nano }
      args.attributes.forM (addSpanAttribute eng span)
      if args.status_code.bmod (2 ^ 32) = 2 then
        Provider.errorEnd eng span (c_str args.status_message)
      else Provider.okEnd span
      return true
  return false

def opentelemetry_add_resource_attribute (args : Option (Bytes × Bytes)) : M φ Bool := do
  if ← is_has_provider then
    match args with
    | none => return false
    | some (key, value) =>
      let resource ← lift (deref (← Provider.getResource eng))
      Provider.addResourceAttribute resource ⟨c_str key, .string (c_str value)⟩
      return true
  return false

def opentelemetry_add_attribute (args : Option (Bytes × Bytes)) : M φ Bool := do
  if ← is_has_provider then
    match args with
    | none => return false
    | some (key, value) =>
      let first ← lift (deref (← Provider.firstOneSpan eng))
      addAttribute first ⟨c_str key, .string (c_str value)⟩
      return true
  return false

/-- The attributes of an event: the entries with string keys. -/
def eventAttributes : List (ArrayKey × Zval) → M φ (List KeyValue)
  | [] => return []
  | (.str key, value) :: rest => do
    let text ← attributeText eng value
    return ⟨c_str key, .string text⟩ :: (← eventAttributes rest)
  | (.index _, _) :: rest => eventAttributes rest

def opentelemetry_add_event (args : Option (Bytes × List (ArrayKey × Zval))) : M φ Bool := do
  if ← is_has_provider then
    match args with
    | none => return false
    | some (name, attributes) =>
      let first ← lift (deref (← Provider.firstOneSpan eng))
      let time ← get_unix_nanoseconds
      let kvs ← eventAttributes eng attributes
      modifySpan first fun s => { s with events := s.events ++ [⟨c_str name, time, kvs⟩] }
      return true
  return false

end opentelemetry
