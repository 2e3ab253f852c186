import OpentelemetryExt.ZendHook.Traced

open stateful

namespace opentelemetry

variable {φ : Type} (eng : Engine φ)

/-- `Z_MYSQLI_P`, followed down to the connection: null when there is none yet. The object
must be a mysqli link. -/
def Z_MYSQLI_P (obj : Zval) : M φ (Option MysqlndConnData) := do
  match obj with
  | .object handle _ =>
    match eng.mysqli_link (← get).php handle with
    | some data => return data
    | none => lift (.error .wrongType)
  | _ => lift (.error .wrongType)

/-- The statement is the first argument of a method and the second of a function. -/
def mysqliStatement (execute_data : ExecuteData) : Except Fault (Option Zval) :=
  let arg_count := ZEND_CALL_NUM_ARGS execute_data
  if execute_data.class_name = lit "mysqli" then
    if arg_count ≠ 0 then some <$> ZEND_CALL_ARG execute_data 1 else pure none
  else
    if 1 < arg_count then some <$> ZEND_CALL_ARG execute_data 2 else pure none

/-- The link: `$this` of a method. A function is taken to have it as its first argument.
Without mysqlnd the code is not compiled in. -/
def mysqliLink (execute_data : ExecuteData) : M φ (Option MysqlndConnData) := do
  if ¬ eng.mysqlnd then return none
  else if execute_data.class_name = lit "mysqli" then Z_MYSQLI_P eng execute_data.This
  else
    let obj ← lift (ZEND_CALL_ARG execute_data 1)
    match obj with
    | .null => return none
    | _ => Z_MYSQLI_P eng obj

/-- The server of a link. `std::string` is built from the host name's pointer. -/
def mysqliServer (data : MysqlndConnData) : Except Fault (List KeyValue) := do
  match data.hostname with
  | none => .error .exception
  | some hostname =>
    return [string_attribute "net.transport" (lit "IP.TCP"), peerAttribute eng (c_str hostname),
      int64_attribute "net.peer.port" data.port]

def mysqliAttributes (statement : Option Zval) (mysqli : Option MysqlndConnData) :
    Except Fault (List KeyValue) := do
  let text := match statement with
    | some (.string s) => [string_attribute "db.statement" (c_str s)]
    | _ => []
  match mysqli with
  | some data => return text ++ (← mysqliServer eng data)
  | none => return text

def mysqliEnter (execute_data : ExecuteData) : M φ Nat := do
  let span ← openSpan eng execute_data .client [string_attribute "db.system" (lit "mysql")]
  let statement ← lift (mysqliStatement execute_data)
  let mysqli ← mysqliLink eng execute_data
  (← lift (mysqliAttributes eng statement mysqli)).forM (addAttribute span)
  return span

def mysqliLeave (_ : ExecuteData) (span : Nat) : M φ Unit := Provider.okEnd span

def opentelemetry_mysqli_handler (originals : Bytes → Option (Handler φ)) : Handler φ :=
  tracedHandler (mysqliEnter eng) mysqliLeave fun execute_data => originals execute_data.cmd

end opentelemetry
