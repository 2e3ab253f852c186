import OpentelemetryExt.ZendHook.Traced

open stateful

namespace opentelemetry

variable {φ : Type} (eng : Engine φ)

/-- `YAR_OPT_HEADER`. -/
def YAR_OPT_HEADER : Int := 1 <<< 4

/-- The trace context is handed to the client as request headers. -/
def yarHeaders (execute_data : ExecuteData) (span : Nat) : M φ Unit := do
  let traceparent ← Provider.formatTraceParentHeader eng span
  let headers ← lift (add_next_index_string (.array []) (lit "traceparent: " ++ traceparent))
  let baggage ← Provider.formatBaggageHeader eng
  let headers ← lift (add_next_index_string headers (lit "baggage: " ++ baggage))
  let _ ← zend_call_method eng execute_data.This "setopt" [.long YAR_OPT_HEADER, headers]

/-- One turn of the loop over the arguments. -/
def yarCommand (execute_data : ExecuteData) (span : Nat) (command : Bytes) (i : Nat) :
    M φ Bytes := do
  let p ← lift (ZEND_CALL_ARG execute_data i)
  match p with
  | .array _ => return command ++ (← opentelemetry_json_encode eng p)
  | .string s =>
    if i = 1 then addAttribute span (string_attribute "rpc.method" (c_str s))
    return command ++ (c_str s).map tolower ++ lit " "
  | _ => return command ++ (← argumentText eng p).map tolower ++ lit " "

def yarCall (execute_data : ExecuteData) (span : Nat) (command : Bytes) : M φ Unit := do
  addAttribute span (string_attribute "rpc.call" (statementText command))
  if let .object _ _ := execute_data.This then
    if let some uri := eng.read_property (← get).php execute_data.This (lit "_uri") then
      addAttribute span (string_attribute "rpc.service" (← lift (Z_STRVAL_P uri)))

def yarClientEnter (execute_data : ExecuteData) : M φ Nat := do
  let span ← openSpan eng execute_data .client []
  addAttribute span (string_attribute "rpc.system" (lit "yar"))
  yarHeaders eng execute_data span
  let command ← (List.range' 1 (ZEND_CALL_NUM_ARGS execute_data)).foldlM
    (yarCommand eng execute_data span) []
  if command ≠ [] then yarCall eng execute_data span command
  return span

def yarLeave (_ : ExecuteData) (span : Nat) : M φ Unit := Provider.okEnd span

def opentelemetry_yar_client_handler (originals : Bytes → Option (Handler φ)) : Handler φ :=
  tracedHandler (yarClientEnter eng) yarLeave fun execute_data => originals execute_data.cmd

/-- The server's handler writes one attribute outside the test for a provider. -/
def yarServerEnter (execute_data : ExecuteData) : M φ (Option Nat) := do
  let span ← enterHandler (fun execute_data => openSpan eng execute_data .server []) execute_data
  addAttribute (← lift (readLocal span)) (string_attribute "rpc.system" (lit "yar"))
  return span

def opentelemetry_yar_server_handler (originals : Bytes → Option (Handler φ)) : Handler φ :=
  fun execute_data => do
    let span ← yarServerEnter eng execute_data
    let return_value ← callOriginal (originals execute_data.cmd) execute_data
    leaveHandler yarLeave execute_data span
    return return_value

end opentelemetry
