import OpentelemetryExt.ZendHook.Traced

open stateful

namespace opentelemetry

variable {φ : Type} (eng : Engine φ)

/-- The tokens between the matches of a one-character regular expression, as
`sregex_token_iterator` with submatch `-1` lists them: a text after the last match counts
only when it is not empty. -/
def regexTokens (separator : UInt8) (source : Bytes) : List Bytes :=
  let parts := source.splitOn separator
  if 1 < parts.length ∧ parts.getLast? = some [] then parts.dropLast else parts

/-- `db_type`: the driver's name, copied into 64 bytes without a look at its length. -/
def driverName (driver_name : Bytes) : Except Fault Bytes :=
  if driver_name.length < 64 then .ok (c_str driver_name) else .error .outOfBounds

/-- The attributes one item of a data source stands for. `mysqlPrefix` adds the keys that
follow the driver's prefix directly. -/
def sourceItem (mysqlPrefix : Bool) (item : Bytes) : List KeyValue :=
  match regexTokens 61 item with
  | key :: value :: _ =>
    let isKey (name : String) := key = lit name ∨ mysqlPrefix ∧ key = lit ("mysql:" ++ name)
    if isKey "host" then [peerAttribute eng value]
    else if isKey "port" then [int64_attribute "net.peer.port" (strtol 10 (c_str value))]
    else if isKey "dbname" then [string_attribute "db.name" value]
    else []
  | _ => []

def sourceAttributes (mysqlPrefix : Bool) (source : Bytes) : List KeyValue :=
  [string_attribute "db.connection_string" source] ++
    (regexTokens 59 source).flatMap (sourceItem eng mysqlPrefix) ++
    [string_attribute "net.transport" (lit "IP.TCP")]

/-- `Z_PDO_DBH_P` and `Z_PDO_STMT_P`: the object must be of that class. -/
def Z_PDO_DBH_P (self : Zval) : M φ PdoDbh := do
  match self with
  | .object handle _ =>
    match eng.pdo_dbh (← get).php handle with
    | some dbh => return dbh
    | none => lift (.error .wrongType)
  | _ => lift (.error .wrongType)

def Z_PDO_STMT_P (self : Zval) : M φ PdoStmt := do
  match self with
  | .object handle _ =>
    match eng.pdo_stmt (← get).php handle with
    | some stmt => return stmt
    | none => lift (.error .wrongType)
  | _ => lift (.error .wrongType)

/-- The first argument: the statement, or the data source of a constructor call, which is
returned. A constructor call also has its user name read, whatever was passed. -/
def pdoArguments (execute_data : ExecuteData) (span : Nat) : M φ Bytes := do
  if ZEND_CALL_NUM_ARGS execute_data = 0 then return []
  let p ← lift (ZEND_CALL_ARG execute_data 1)
  match p with
  | .string s =>
    if execute_data.function_name ≠ lit "__construct" then
      addAttribute span (string_attribute "db.statement" (c_str s))
      return []
    else
      let user ← lift (Z_STRVAL_P (← lift (ZEND_CALL_ARG execute_data 2)))
      addAttribute span (string_attribute "db.user" user)
      return c_str s
  | _ => return []

def pdoOperation (function_name : Bytes) : List KeyValue :=
  if function_name = lit "__construct" then [string_attribute "db.operation" (lit "connect")]
  else if function_name = lit "begintransaction" then
    [string_attribute "db.operation" (lit "begin")]
  else if function_name = lit "rollback" then [string_attribute "db.operation" (lit "rollback")]
  else if function_name = lit "commit" then [string_attribute "db.operation" (lit "commit")]
  else []

/-- What the connection tells: driver, user and, from the data source, the server. -/
def pdoConnection (dbh : PdoDbh) (source : Bytes) : Except Fault (List KeyValue) := do
  let db_type ← match dbh.driver with
    | some (some driver_name) => some <$> driverName driver_name
    | _ => pure none
  let system := (db_type.map (string_attribute "db.system")).toList
  let user := (dbh.username.map fun s => string_attribute "db.user" (c_str s)).toList
  let source := match dbh.data_source with
    | some data_source => if db_type.getD [] ≠ [] then c_str data_source else source
    | none => source
  let server := if source ≠ [] then sourceAttributes eng true source else []
  let fallback := if db_type.isNone then [string_attribute "db.system" (lit "mysql")] else []
  return system ++ user ++ server ++ fallback

def pdoEnter (execute_data : ExecuteData) : M φ Nat := do
  let span ← openSpan eng execute_data .client []
  let source ← pdoArguments execute_data span
  (pdoOperation execute_data.function_name).forM (addAttribute span)
  let dbh ← Z_PDO_DBH_P eng execute_data.This
  (← lift (pdoConnection eng dbh source)).forM (addAttribute span)
  return span

/-- The message of an error: state, native code and text, as far as the driver gives them. -/
def pdoErrorMessage (pdo_err : Bytes) (fetch_err : Option (List Zval)) :
    Except Fault (Option Bytes) := do
  match fetch_err with
  | none => return none
  | some items =>
    let native_code ← match items[0]? with
      | some item => Z_LVAL_P item
      | none => pure 0
    match items[1]? with
    | none => return none
    | some item =>
      let supp ← Z_STRVAL_P item
      return some (lit "SQLSTATE[" ++ c_str pdo_err ++ lit "] [" ++ to_string native_code ++
        lit "] " ++ supp)

/-- `PDO_ERR_NONE`. -/
def isError (error_code : Bytes) : Bool := ¬ is_equal error_code (lit "00000")

def pdoLeave (execute_data : ExecuteData) (span : Nat) : M φ Unit := do
  let dbh ← Z_PDO_DBH_P eng execute_data.This
  let pdo_err :=
    if isError dbh.error_code then some dbh.error_code else dbh.query_stmt.filter isError
  match pdo_err with
  | none => Provider.okEnd span
  | some pdo_err =>
    match ← lift (pdoErrorMessage pdo_err dbh.fetch_err) with
    | some message => Provider.errorEnd eng span message
    | none => Provider.okEnd span

def opentelemetry_pdo_handler (originals : Bytes → Option (Handler φ)) : Handler φ :=
  tracedHandler (pdoEnter eng) (pdoLeave eng) fun execute_data => originals execute_data.cmd

/-- A statement's connection. Its driver and user are read through `dbh` without a test. -/
def pdoStatementConnection (stmt : PdoStmt) : Except Fault (List KeyValue) := do
  let query_string ← match stmt.query_string with
    | some s => pure (c_str s)
    | none => .error .exception
  let dbh ← deref stmt.dbh
  let driver ← deref dbh.driver
  let db_type ← match driver with
    | some driver_name => some <$> driverName driver_name
    | none => pure none
  let system := string_attribute "db.system" (db_type.getD (lit "mysql"))
  let user := (dbh.username.map fun s => string_attribute "db.user" (c_str s)).toList
  let identity := if db_type.isSome then system :: user else user ++ [system]
  let server := match dbh.data_source with
    | some data_source =>
      if db_type.getD [] ≠ [] then sourceAttributes eng false (c_str data_source) else []
    | none => []
  return string_attribute "db.statement" query_string :: identity ++ server

def pdoStatementEnter (execute_data : ExecuteData) : M φ Nat := do
  let span ← openSpan eng execute_data .client []
  let stmt ← Z_PDO_STMT_P eng execute_data.This
  (← lift (pdoStatementConnection eng stmt)).forM (addAttribute span)
  return span

def pdoStatementLeave (execute_data : ExecuteData) (span : Nat) : M φ Unit := do
  let stmt ← Z_PDO_STMT_P eng execute_data.This
  if isError stmt.error_code then
    let _ ← lift (deref stmt.dbh)
    match ← lift (pdoErrorMessage stmt.error_code stmt.fetch_err) with
    | some message => Provider.errorEnd eng span message
    | none =>
      Provider.errorEnd eng span (lit "SQLSTATE[" ++ c_str stmt.error_code ++ lit "]")
  else Provider.okEnd span

def opentelemetry_pdo_statement_handler (originals : Bytes → Option (Handler φ)) : Handler φ :=
  tracedHandler (pdoStatementEnter eng) (pdoStatementLeave eng) fun execute_data =>
    originals execute_data.cmd

end opentelemetry
