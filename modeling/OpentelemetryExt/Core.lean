import OpentelemetryExt.Provider

open heap stateful

namespace opentelemetry

variable {φ : Type} (eng : Engine φ)

def is_has_provider : M φ Bool := do return (← globals).provider.isSome

theorem is_has_provider_of_some {w : World φ} (h : w.globals.provider.isSome) :
    is_has_provider w = .ok (true, w) := by
  simp [is_has_provider, globals_apply, h]

def find_server_zval (key : String) : M φ (Option Zval) := do return (← get).server (lit key)

/-- `find_server_string`: the empty string when the key is missing. -/
def find_server_string (key : Bytes) : M φ Bytes := do
  match (← get).server key with
  | some server_value => lift (Z_STRVAL_P server_value)
  | none => return []

def opentelemetry_json_encode (value : Zval) : M φ Bytes := do
  return c_str (eng.json_encode (← get).php value)

def exporterOpenTelemetry : M φ Unit := do
  let p ← lift (deref (← Provider.getRequest eng))
  let m := (← get).memory
  let request ← lift (load m.requests p)
  modify fun w => { w with exported := w.exported ++ [m.serialize request] }

def clean_consumers : M φ Unit := do
  let name := (← globals).message_queue_name
  modify fun w => { w with queues := w.queues.filter fun q => some q ≠ name }

/-- The creation of the queue may throw, which is caught; the consumers are then not started. -/
def init_consumers : M φ Unit := do
  let g ← globals
  if g.is_init_consumers then return
  let w ← get
  let name := match g.message_queue_name with
    | some name => if c_str name = [] then lit "opentelemetry_" ++ to_string w.pid else name
    | none => lit "opentelemetry_" ++ to_string w.pid
  modifyGlobals fun g => { g with message_queue_name := some name }
  clean_consumers
  modifyGlobals fun g => { g with is_init_consumers := true }
  if eng.cli then modifyGlobals fun g => { g with consumer_nums := g.cli_consumer_nums }
  let g ← globals
  modify fun w => { w with queueFails := fun n => w.queueFails (n + 1) }
  if w.queueFails 0 then return
  modify fun w => { w with
    queues := w.queues ++ [name], consumers := w.consumers + g.consumer_nums.toNat }

/-- `opentelemetry_module_init`, without the log directory and the hooks. The name and the
address of the host come from outside. -/
def opentelemetry_module_init (hostname ipv4 : Bytes) : M φ Unit := do
  let g ← globals
  if ¬ g.enable ∨ eng.cli ∧ ¬ g.cli_enable then return
  let name := lit "opentelemetry_" ++ to_string (← get).pid
  modifyGlobals fun g => { g with
    message_queue_name := some name, hostname := hostname, ipv4 := ipv4 }
  if ¬ eng.cli then init_consumers eng

def ensureProvider : M φ Unit := do
  if ¬ (← is_has_provider) then setProvider {}

/-- The provider of the session, with a clean slot, and an empty header store. -/
def resetProvider : M φ Unit := do
  ensureProvider
  Provider.clean eng
  Provider.increase
  modifyGlobals fun g => { g with curl_header := some [] }

/-- Outside the CLI the built-in service name gives way to a `$_SERVER` entry. -/
def serviceNameFromServer : M φ Unit := do
  let g ← globals
  if ¬ eng.cli ∧ c_str g.service_name = lit "opentelemetry" then
    let service_name ← find_server_string (c_str g.service_name_key)
    if service_name ≠ [] then modifyGlobals fun g => { g with service_name := service_name }

/-- The first span of a CLI session. -/
def startCliSpan (traceparent tracebaggage : Bytes) (kind : SpanKind) : M φ Unit := do
  let uri ← find_server_string (lit "SCRIPT_NAME")
  let argv ← lift (deref (← find_server_zval "argv"))
  let kind := if kind = .unspecified then .internal else kind
  let span ← Provider.createFirstSpan eng uri kind
  Provider.parseTraceParent eng traceparent
  Provider.parseBaggage eng tracebaggage
  addAttribute span (string_attribute "process.executable.name" uri)
  addAttribute span (string_attribute "process.command_args" (← opentelemetry_json_encode eng argv))
  addAttribute span (string_attribute "process.pid" (to_string (← get).pid))

/-- The parameters of a `POST` request. -/
def postAttribute (span : Nat) (request_method : Bytes) : M φ Unit := do
  if request_method = lit "POST" then
    if let some post := (← get).post then
      addAttribute span (string_attribute "http.params" (← opentelemetry_json_encode eng post))

/-- The attributes of a request's first span. -/
def requestAttributes (span : Nat) (request_uri : Bytes) : M φ Unit := do
  let request_method ← find_server_string (lit "REQUEST_METHOD")
  let _request_query ← find_server_string (lit "QUERY_STRING")
  let request_http_host ← find_server_string (lit "HTTP_HOST")
  let request_http_port ← find_server_string (lit "SERVER_PORT")
  let request_user_agent ← find_server_string (lit "HTTP_USER_AGENT")
  let request_remote_ip ← find_server_string (lit "REMOTE_ADDR")
  addAttribute span (string_attribute "http.method" request_method)
  postAttribute eng span request_method
  addAttribute span (string_attribute "http.host" request_http_host)
  addAttribute span (string_attribute "http.target" request_uri)
  addAttribute span (string_attribute "http.client_ip" request_remote_ip)
  addAttribute span (string_attribute "http.user_agent" request_user_agent)
  addAttribute span (string_attribute "net.host.ip" (← globals).ipv4)
  addAttribute span (int64_attribute "net.host.port" (strtol 10 request_http_port))

/-- The first span of a request. The trace context comes from the request's headers, not
from the arguments of `start_tracer`. -/
def startRequestSpan (kind : SpanKind) : M φ Unit := do
  let request_uri ← find_server_string (lit "REQUEST_URI")
  let uri := request_uri.takeWhile (· ≠ 63)
  let traceparent ← find_server_string (lit "HTTP_TRACEPARENT")
  let tracebaggage ← find_server_string (lit "HTTP_BAGGAGE")
  let span ← Provider.createFirstSpan eng uri kind
  Provider.parseTraceParent eng traceparent
  Provider.parseBaggage eng tracebaggage
  requestAttributes eng span request_uri

def start_tracer (traceparent tracebaggage : Bytes) (kind : SpanKind) : M φ Unit := do
  let g ← globals
  if eng.cli ∧ (¬ g.cli_enable ∨ ¬ g.is_started_cli_tracer) then return
  init_consumers eng
  resetProvider eng
  serviceNameFromServer eng
  if eng.cli then startCliSpan eng traceparent tracebaggage kind else startRequestSpan eng kind

/-- `getTracer()->set_allocated_resource(getResource())`. -/
def attachResource : M φ Unit := do
  let rs ← Provider.getTracer eng
  let resource ← Provider.getResource eng
  let _ ← lift (load (← get).memory.resource_spans rs)
  modifyMemory fun m => { m with
    resource_spans := m.resource_spans.modify rs fun rs => { rs with resource := resource } }

/-- The export of a session that is sampled. -/
def collectSession : M φ Unit := do
  if (← globals).enable_collect then
    if ← Provider.isSampled eng then exporterOpenTelemetry eng

/-- The end of a session that has a first span. -/
def finishSession (first : Nat) : M φ Unit := do
  Provider.okEnd first
  attachResource eng
  collectSession eng
  Provider.clean eng
  if eng.cli then modifyGlobals fun g => { g with provider := none }

def shutdown_tracer : M φ Unit := do
  let g ← globals
  if eng.cli ∧ (¬ g.cli_enable ∨ ¬ g.is_started_cli_tracer) then
    modifyGlobals fun g => { g with is_started_cli_tracer := false }
  else
    if let some first := ← Provider.firstOneSpan eng then finishSession eng first
    modifyGlobals fun g => { g with is_started_cli_tracer := false, curl_header := none }

def opentelemetry_request_init : M φ Unit := do
  if ¬ (← globals).enable ∨ eng.cli then return
  start_tracer eng [] [] .server

def opentelemetry_request_shutdown : M φ Unit := do
  if ¬ (← globals).enable ∨ eng.cli then return
  shutdown_tracer eng

end opentelemetry
