import OpentelemetryExt.ZendHook.Traced

open stateful

namespace opentelemetry

variable {φ : Type} (eng : Engine φ)

def mecStrKeysCommands : List Bytes :=
  ["set", "setbykey", "setmulti", "setmultibykey", "add", "addbykey", "replace", "replacebykey",
    "append", "appendbykey", "prepend", "prependbykey", "cas", "casbykey", "get", "getbykey",
    "getmulti", "getmultibykey", "getallkeys", "delete", "deletebykey", "deletemulti",
    "deletemultibykey", "increment", "incrementbykey", "decrement", "decrementbykey"].map lit

def mecHitKeysCommands : List Bytes :=
  ["get", "getbykey", "getmulti", "getmultibykey", "getallkeys"].map lit

/-- The server that holds a key, asked of the object itself. -/
def memcachedServer (execute_data : ExecuteData) (span : Nat) (str : Bytes) : M φ Unit := do
  let server ← zend_call_method eng execute_data.This "getserverbykey" [.string str]
  if let .array entries := server then
    let host ← lift (Z_STRVAL_P (← lift (deref (zend_hash_str_find entries (lit "host")))))
    let port ← lift (Z_LVAL_P (← lift (deref (zend_hash_str_find entries (lit "port")))))
    addAttribute span (string_attribute "net.transport" (lit "IP.TCP"))
    addAttribute span (peerAttribute eng host)
    addAttribute span (int64_attribute "net.peer.port" port)

/-- One turn of the loop over the arguments. -/
def memcachedCommand (execute_data : ExecuteData) (span : Nat) (command : Bytes) (i : Nat) :
    M φ Bytes := do
  let p ← lift (ZEND_CALL_ARG execute_data i)
  match p with
  | .array _ => return command ++ (← opentelemetry_json_encode eng p)
  | .string _ =>
    let str ← argumentText eng p
    if i = 1 then
      addAttribute span (string_attribute "db.cache.key" str)
      if execute_data.cmd ∈ mecStrKeysCommands then memcachedServer eng execute_data span str
    return command ++ str ++ lit " "
  | _ => return command ++ (← argumentText eng p) ++ lit " "

def memcachedEnter (execute_data : ExecuteData) : M φ Nat := do
  let cmd := execute_data.cmd
  let span ← openSpan eng execute_data .client
    [string_attribute "db.system" (lit "memcached"), string_attribute "db.operation" cmd]
  let command ← (List.range' 1 (ZEND_CALL_NUM_ARGS execute_data)).foldlM
    (memcachedCommand eng execute_data span) (cmd ++ lit " ")
  addAttribute span (string_attribute "db.statement" (statementText command))
  return span

def memcachedLeave (execute_data : ExecuteData) (span : Nat) : M φ Unit := do
  let zval_result ← zend_call_method eng execute_data.This "getresultmessage" []
  match zval_result with
  | .string message =>
    let result := c_str message
    if result = lit "SUCCESS" then
      if execute_data.cmd ∈ mecHitKeysCommands then
        addAttribute span (bool_attribute "db.cache.hit" true)
      Provider.okEnd span
    else if result = lit "NOT FOUND" then
      addAttribute span (bool_attribute "db.cache.hit" false)
      Provider.okEnd span
    else Provider.errorEnd eng span result
  | _ => Provider.errorEnd eng span (lit "UN_KNOW")

def opentelemetry_memcached_handler (originals : Bytes → Option (Handler φ)) : Handler φ :=
  tracedHandler (memcachedEnter eng) (memcachedLeave eng) fun execute_data =>
    originals execute_data.cmd

end opentelemetry
