import OpentelemetryExt.ZendHook.Traced

open stateful

namespace opentelemetry

variable {φ : Type} (eng : Engine φ)

def E_ERROR : Nat := 1
def E_WARNING : Nat := 2
def E_PARSE : Nat := 4
def E_NOTICE : Nat := 8
def E_CORE_ERROR : Nat := 16
def E_CORE_WARNING : Nat := 32
def E_COMPILE_ERROR : Nat := 64
def E_COMPILE_WARNING : Nat := 128
def E_USER_ERROR : Nat := 256
def E_USER_WARNING : Nat := 512
def E_USER_NOTICE : Nat := 1024
def E_STRICT : Nat := 2048
def E_RECOVERABLE_ERROR : Nat := 4096
def E_DEPRECATED : Nat := 8192
def E_USER_DEPRECATED : Nat := 16384

def errorLevel (type : Nat) : Bytes :=
  if type ∈ [E_ERROR, E_PARSE, E_CORE_ERROR, E_COMPILE_ERROR, E_USER_ERROR,
      E_RECOVERABLE_ERROR] then lit "PHP_ERROR_FATAL"
  else if type ∈ [E_WARNING, E_CORE_WARNING, E_COMPILE_WARNING, E_USER_WARNING] then
    lit "PHP_ERROR_WARNING"
  else if type ∈ [E_NOTICE, E_USER_NOTICE, E_STRICT, E_DEPRECATED, E_USER_DEPRECATED] then
    lit "PHP_ERROR_NOTICE"
  else lit "PHP_ERROR_" ++ to_string type

/-- Whether the configured level lets an error of this level be collected. -/
def isCollector (error_level level : Bytes) : Bool :=
  if is_equal (lit "E_NONE") error_level then false
  else if is_equal (lit "E_ERROR") error_level ∧
      (level = lit "PHP_ERROR_WARNING" ∨ level = lit "PHP_ERROR_NOTICE") then false
  else if is_equal (lit "E_WARNING") error_level ∧ level = lit "PHP_ERROR_NOTICE" then false
  else true

/-- What the engine passes to the error callback; `callers` is `EG(current_execute_data)`. -/
structure ErrorArgs where
  type : Nat
  error_filename : Bytes
  error_lineno : Nat
  message : Bytes
  error_reporting : Nat
  callers : List (Option ZendFunction)

/-- The name of the function the engine was in, else that of the first span. -/
def currentFunctionName (callers : List (Option ZendFunction)) : M φ Bytes := do
  match callers with
  | some func :: _ => return func.name
  | _ => return (← readSpan (← lift (deref (← Provider.firstOneSpan eng)))).name

def errorAttributes (args : ErrorArgs) : List KeyValue :=
  let error_message := c_str args.message
  let stacktrace := c_str args.error_filename ++ lit ":" ++ to_string args.error_lineno
  [string_attribute "exception.type" (errorLevel args.type)] ++
    (if error_message ≠ [] then [string_attribute "exception.message" error_message] else []) ++
    [string_attribute "exception.stacktrace" stacktrace] ++ stackAttribute args.callers

/-- An error outside any named function also marks the first span. -/
def endErrorSpan (args : ErrorArgs) (span : Nat) : M φ Unit := do
  let error_message := c_str args.message
  if args.error_reporting &&& args.type ≠ 0 then
    if find_code_stacktrace args.callers = [] then
      Provider.errorEnd eng (← lift (deref (← Provider.firstOneSpan eng))) error_message
    Provider.errorEnd eng span error_message
  else Provider.okEnd span

/-- The span of a collected error. -/
def collectError (args : ErrorArgs) : M φ Unit := do
  let function_name ← currentFunctionName eng args.callers
  let function_name :=
    if function_name = [] then lit "unknow_function_name" else function_name
  let span ← Provider.createChildSpan eng function_name .internal
  (errorAttributes args).forM (addAttribute span)
  endErrorSpan eng args span

/-- The error callback. `original` may bail out, as it does for a fatal error. -/
def opentelemetry_error_cb (original : ErrorArgs → M φ Unit) (args : ErrorArgs) : M φ Unit := do
  if isCollector (← globals).error_level (errorLevel args.type) then
    if ← is_has_provider then collectError eng args
  original args

/-- The properties of an exception object that the hook reads. -/
structure ExceptionArgs where
  exception : Zval
  class_name : Bytes
  callers : List (Option ZendFunction)

/-- A property of the exception; the four it reads are declared by every exception class. -/
def exceptionProperty (exception : Zval) (name : String) : M φ Zval := do
  lift (deref (eng.read_property (← get).php exception (lit name)))

def traceException (args : ExceptionArgs) : M φ Unit := do
  let message ← lift (Z_STRVAL_P (← exceptionProperty eng args.exception "message"))
  let file ← lift (Z_STRVAL_P (← exceptionProperty eng args.exception "file"))
  let _code ← exceptionProperty eng args.exception "code"
  let line ← lift (Z_LVAL_P (← exceptionProperty eng args.exception "line"))
  let function_name ← currentFunctionName eng args.callers
  let span ← Provider.createChildSpan eng function_name .internal
  Provider.errorEnd eng span message
  addAttribute span (string_attribute "exception.type" (c_str args.class_name))
  addAttribute span (string_attribute "exception.message" message)
  addAttribute span (string_attribute "exception.stacktrace" (file ++ lit ":" ++ to_string line))
  if c_str args.class_name = lit "RedisException" then Provider.setRedisException eng message
  addAttribute span (string_attribute "code.stacktrace" (find_code_stacktrace args.callers))

/-- From PHP 8 on the hook only passes the exception on. A null exception is passed when the
engine rethrows. -/
def opentelemetry_throw_exception_hook (original : Option ExceptionArgs → M φ Unit)
    (exception : Option ExceptionArgs) : M φ Unit := do
  if eng.php_version_id < 80000 then
    if ← is_has_provider then
      if let some args := exception then traceException eng args
  original exception

end opentelemetry
