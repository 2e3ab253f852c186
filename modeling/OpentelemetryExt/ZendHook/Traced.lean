import OpentelemetryExt.Core

open stateful

namespace opentelemetry

/-- A handler of an internal function: from the call frame to `return_value`. -/
abbrev Handler (φ : Type) := ExecuteData → M φ Zval

variable {φ : Type} (eng : Engine φ)

def ExecuteData.class_name (execute_data : ExecuteData) : Bytes :=
  c_str (execute_data.func.scope.getD [])

def ExecuteData.function_name (execute_data : ExecuteData) : Bytes :=
  c_str (execute_data.func.function_name.getD [])

/-- The key under which the original handler was saved. -/
def ExecuteData.cmd (execute_data : ExecuteData) : Bytes := execute_data.function_name.map tolower

/-- The stack trace of the callers, if it is not empty. -/
def stackAttribute (callers : List (Option ZendFunction)) : List KeyValue :=
  let code_stacktrace := find_code_stacktrace callers
  if code_stacktrace ≠ [] then [string_attribute "code.stacktrace" code_stacktrace] else []

/-- The opening of a traced call: a span under the first span, with `kvs` and the stack trace. -/
def openSpan (execute_data : ExecuteData) (kind : SpanKind) (kvs : List KeyValue) : M φ Nat := do
  let span ← Provider.createChildSpan eng execute_data.func.name kind
  (kvs ++ stackAttribute execute_data.callers).forM (addAttribute span)
  return span

/-- The local variable `Span *span`, assigned only where a span was created. -/
def readLocal : Option Nat → Except Fault Nat
  | some span => .ok span
  | none => .error .uninitialised

/-- The part of a handler before the original call. -/
def enterHandler (enter : ExecuteData → M φ Nat) (execute_data : ExecuteData) :
    M φ (Option Nat) := do
  if ← is_has_provider then return some (← enter execute_data)
  return none

/-- The part of a handler after the original call has returned. -/
def leaveHandler (leave : ExecuteData → Nat → M φ Unit) (execute_data : ExecuteData)
    (span : Option Nat) : M φ Unit := do
  if ← is_has_provider then leave execute_data (← lift (readLocal span))

/-- The call through a table of saved handlers; without an entry nothing is called. -/
def callOriginal (original : Option (Handler φ)) (execute_data : ExecuteData) : M φ Zval :=
  match original with
  | some handler => handler execute_data
  | none => return .null

/-- The shape that the handlers of traced methods share. -/
def tracedHandler (enter : ExecuteData → M φ Nat) (leave : ExecuteData → Nat → M φ Unit)
    (original : ExecuteData → Option (Handler φ)) : Handler φ := fun execute_data => do
  let span ← enterHandler enter execute_data
  let return_value ← callOriginal (original execute_data) execute_data
  leaveHandler leave execute_data span
  return return_value

/-- `zend_call_method`. A missing method is a core error, which unwinds. -/
def zend_call_method (obj : Zval) (name : String) (params : List Zval) : M φ Zval := do
  match obj with
  | .object _ _ =>
    match eng.call_method (← get).php obj (lit name) params with
    | some (result, php) =>
      modifyPhp php
      return result
    | none => unwind
  | _ => lift (.error .wrongType)

/-- A host is recorded as an address when it reads as one. -/
def peerAttribute (host : Bytes) : KeyValue :=
  if eng.inet_addr (c_str host) then string_attribute "net.peer.ip" host
  else string_attribute "net.peer.name" host

/-- The `IS_ARRAY` test, then the string form of anything else. -/
def argumentText (p : Zval) : M φ Bytes := do
  return c_str (convert_to_string eng (← get).php p)

/-- `command` once all arguments are appended. -/
def statementText (command : Bytes) : Bytes := trim (command.map tolower)

end opentelemetry
