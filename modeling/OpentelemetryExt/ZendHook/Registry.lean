import OpentelemetryExt.Lib.Interpose
import OpentelemetryExt.ZendHook.Transparent

open interpose

namespace opentelemetry

variable {H : Type}

/-- The `handler` of an internal function: a hook, or what a module of the engine installed. -/
inductive HandlerPtr (H : Type) where
  | null
  | hook (e : EntryPoint)
  | original (h : H)

structure InternalFunction (H : Type) where
  func : ZendFunction
  handler : HandlerPtr H

instance instHookableInternalFunction : Hookable (InternalFunction H) (HandlerPtr H) where
  handler := InternalFunction.handler
  withHandler a f := { f with handler := a }
  handler_withHandler _ _ := rfl
  withHandler_handler _ := rfl
  withHandler_withHandler _ _ _ := rfl

/-- The key of a class in `class_table`, none for `function_table`, and that of a function. -/
abbrev Place := Option Bytes × Bytes

/-- Where a replaced handler is saved: one of the `opentelemetry_original_curl_*` pointers, or
an entry of one of the `opentelemetry_*_original_handler_map`s. -/
inductive Saved where
  | curl_exec
  | curl_setopt
  | curl_setopt_array
  | curl_close
  | yar_client (cmd : Bytes)
  | yar_server (cmd : Bytes)
  | memcached (cmd : Bytes)
  | redis (cmd : Bytes)
  | rediscluster (cmd : Bytes)
  | pdo (cmd : Bytes)
  | pdo_statement (cmd : Bytes)
  | mysqli (cmd : Bytes)
deriving DecidableEq

/-- The pointers are null when the process starts, and the maps are empty. -/
def Saved.initial : Saved → Option (HandlerPtr H)
  | .curl_exec | .curl_setopt | .curl_setopt_array | .curl_close => some .null
  | _ => none

inductive CallbackPtr where
  | null
  | hook
  | original (n : Nat)
deriving DecidableEq

/-- `zend_error_cb` or `zend_throw_exception_hook`, beside the variable that saves it. -/
structure Callback where
  current : CallbackPtr
  original : CallbackPtr := .null

def Callback.register (c : Callback) : Callback := ⟨.hook, c.current⟩

def Callback.unregister (c : Callback) : Callback := { c with current := c.original }

abbrev Hookings (H : Type) := List (Hooking Place Saved (HandlerPtr H))

abbrev Handlers (H : Type) := interpose.State Place Saved (InternalFunction H) (HandlerPtr H)

/-- The tables of the engine, and the static variables of the `zend_hook_*` files. -/
structure Registry (H : Type) where
  handlers : Handlers H
  zend_error_cb : Callback
  zend_throw_exception_hook : Callback
  clientKeysCommands : List Bytes := []
  serverKeysCommands : List Bytes := []
  mecKeysCommands : List Bytes := []
  redisKeysCommands : List Bytes := []
  pdoKeysCommands : List Bytes := []
  pdoStmKeysCommands : List Bytes := []
  mysqliKeysCommands : List Bytes := []

namespace Registry

def hook (xs : Hookings H) (s : Registry H) : Registry H :=
  { s with handlers := hookAll xs s.handlers }

def unhook (xs : Hookings H) (s : Registry H) : Registry H :=
  { s with handlers := unhookAll .null xs s.handlers }

end Registry

/-- The items of a loop over the methods of a class, or over functions. -/
def hookings (class_name : Option Bytes) (saved : Bytes → Saved) (e : EntryPoint)
    (commands : List Bytes) : Hookings H :=
  commands.map fun item => ⟨(class_name, item), saved item, .hook e⟩

def curlHookings : Hookings H :=
  [⟨(none, lit "curl_exec"), .curl_exec, .hook .curl_exec⟩,
    ⟨(none, lit "curl_setopt"), .curl_setopt, .hook .curl_setopt⟩,
    ⟨(none, lit "curl_setopt_array"), .curl_setopt_array, .hook .curl_setopt_array⟩,
    ⟨(none, lit "curl_close"), .curl_close, .hook .curl_close⟩]

def yarHookings (client server : List Bytes) : Hookings H :=
  hookings (some (lit "yar_client")) .yar_client .yar_client client ++
    hookings (some (lit "yar_server")) .yar_server .yar_server server

def memcachedHookings (commands : List Bytes) : Hookings H :=
  hookings (some (lit "memcached")) .memcached .memcached commands

def redisHookings (commands : List Bytes) : Hookings H :=
  hookings (some (lit "redis")) .redis .redis commands ++
    hookings (some (lit "rediscluster")) .rediscluster .redis commands

def pdoHookings (commands : List Bytes) : Hookings H :=
  hookings (some (lit "pdo")) .pdo .pdo commands

def pdoStatementHookings (commands : List Bytes) : Hookings H :=
  hookings (some (lit "pdostatement")) .pdo_statement .pdo_statement commands

def mysqliHookings (commands : List Bytes) : Hookings H :=
  hookings none .mysqli .mysqli commands

def clientKeysCommands : List Bytes := [lit "__call"]

def serverKeysCommands : List Bytes := [lit "__construct"]

def mecKeysCommands : List Bytes :=
  ["set", "setbykey", "setmulti", "setmultibykey", "add", "addbykey", "replace", "replacebykey",
    "append", "appendbykey", "prepend", "prependbykey", "cas", "casbykey", "get", "getbykey",
    "getmulti", "getmultibykey", "getallkeys", "delete", "deletebykey", "deletemulti",
    "deletemultibykey", "increment", "incrementbykey", "decrement", "decrementbykey", "getstats",
    "ispersistent", "ispristine", "flush", "flushbuffers", "getdelayed", "getdelayedbykey",
    "fetch", "fetchall", "getserverlist", "resetserverlist", "getversion", "quit",
    "setsaslauthdata", "touch", "touchbykey"].map lit

def pdoKeysCommands : List Bytes :=
  ["__construct", "begintransaction", "rollback", "commit", "exec", "query"].map lit

def pdoStmKeysCommands : List Bytes := [lit "execute"]

def mysqliKeysCommands : List Bytes :=
  ["mysqli_affected_rows", "mysqli_autocommit", "mysqli_change_user", "mysqli_character_set_name",
    "mysqli_close", "mysqli_commit", "mysqli_connect_errno", "mysqli_connect_error",
    "mysqli_connect", "mysqli_data_seek", "mysqli_debug", "mysqli_dump_debug_info",
    "mysqli_errno", "mysqli_error_list", "mysqli_error", "mysqli_fetch_all", "mysqli_fetch_array",
    "mysqli_fetch_assoc", "mysqli_fetch_field_direct", "mysqli_fetch_field",
    "mysqli_fetch_fields", "mysqli_fetch_lengths", "mysqli_fetch_object", "mysqli_fetch_row",
    "mysqli_field_count", "mysqli_field_seek", "mysqli_field_tell", "mysqli_free_result",
    "mysqli_get_charset", "mysqli_get_client_info", "mysqli_get_client_stats",
    "mysqli_get_client_version", "mysqli_get_connection_stats", "mysqli_get_host_info",
    "mysqli_get_proto_info", "mysqli_get_server_info", "mysqli_get_server_version", "mysqli_info",
    "mysqli_init", "mysqli_insert_id", "mysql_kill", "mysqli_more_results", "mysqli_multi_query",
    "mysqli_next_result", "mysqli_num_fields", "mysqli_num_rows", "mysqli_options", "mysqli_ping",
    "mysqli_prepare", "mysqli_query", "mysqli_real_connect", "mysqli_real_escape_string",
    "mysqli_real_query", "mysqli_reap_async_query", "mysqli_refresh", "mysqli_rollback",
    "mysqli_select_db", "mysqli_set_charset", "mysqli_set_local_infile_default",
    "mysqli_set_local_infile_handler", "mysqli_sqlstate", "mysqli_ssl_set", "mysqli_stat",
    "mysqli_stmt_init", "mysqli_store_result", "mysqli_thread_id", "mysqli_thread_safe",
    "mysqli_use_result", "mysqli_warning_count"].map lit

def register_zend_hook_error (s : Registry H) : Registry H :=
  { s with zend_error_cb := s.zend_error_cb.register }

def unregister_zend_hook_error (s : Registry H) : Registry H :=
  { s with zend_error_cb := s.zend_error_cb.unregister }

def register_zend_hook_exception (s : Registry H) : Registry H :=
  { s with zend_throw_exception_hook := s.zend_throw_exception_hook.register }

def unregister_zend_hook_exception (s : Registry H) : Registry H :=
  { s with zend_throw_exception_hook := s.zend_throw_exception_hook.unregister }

def register_zend_hook_curl (s : Registry H) : Registry H := s.hook curlHookings

def unregister_zend_hook_curl (s : Registry H) : Registry H := s.unhook curlHookings

def register_zend_hook_yar (s : Registry H) : Registry H :=
  { s with clientKeysCommands := clientKeysCommands, serverKeysCommands := serverKeysCommands }.hook
    (yarHookings clientKeysCommands serverKeysCommands)

def unregister_zend_hook_yar (s : Registry H) : Registry H :=
  { s.unhook (yarHookings s.clientKeysCommands s.serverKeysCommands) with
    clientKeysCommands := [], serverKeysCommands := [] }

def register_zend_hook_memcached (s : Registry H) : Registry H :=
  { s with mecKeysCommands := mecKeysCommands }.hook (memcachedHookings mecKeysCommands)

def unregister_zend_hook_memcached (s : Registry H) : Registry H :=
  { s.unhook (memcachedHookings s.mecKeysCommands) with mecKeysCommands := [] }

def register_zend_hook_redis (s : Registry H) : Registry H :=
  { s with redisKeysCommands := redisKeysCommands }.hook (redisHookings redisKeysCommands)

def unregister_zend_hook_redis (s : Registry H) : Registry H :=
  { s.unhook (redisHookings s.redisKeysCommands) with redisKeysCommands := [] }

def register_zend_hook_pdo (s : Registry H) : Registry H :=
  { s with pdoKeysCommands := pdoKeysCommands }.hook (pdoHookings pdoKeysCommands)

def unregister_zend_hook_pdo (s : Registry H) : Registry H :=
  { s.unhook (pdoHookings s.pdoKeysCommands) with pdoKeysCommands := [] }

def register_zend_hook_pdo_statement (s : Registry H) : Registry H :=
  { s with pdoStmKeysCommands := pdoStmKeysCommands }.hook
    (pdoStatementHookings pdoStmKeysCommands)

def unregister_zend_hook_pdo_statement (s : Registry H) : Registry H :=
  { s.unhook (pdoStatementHookings s.pdoStmKeysCommands) with pdoStmKeysCommands := [] }

def register_zend_hook_mysqli (s : Registry H) : Registry H :=
  { s with mysqliKeysCommands := mysqliKeysCommands }.hook (mysqliHookings mysqliKeysCommands)

def unregister_zend_hook_mysqli (s : Registry H) : Registry H :=
  { s.unhook (mysqliHookings s.mysqliKeysCommands) with mysqliKeysCommands := [] }

/-- The settings that choose the hooks. -/
structure EnableFlags where
  enable_error : Bool
  enable_exception : Bool
  enable_curl : Bool
  enable_yar : Bool
  enable_memcached : Bool
  enable_redis : Bool
  enable_mysql : Bool

variable (flags : EnableFlags)

def register_zend_hook (s : Registry H) : Registry H :=
  let s := if flags.enable_error then register_zend_hook_error s else s
  let s := if flags.enable_exception then register_zend_hook_exception s else s
  let s := if flags.enable_curl then register_zend_hook_curl s else s
  let s := if flags.enable_yar then register_zend_hook_yar s else s
  let s := if flags.enable_memcached then register_zend_hook_memcached s else s
  let s := if flags.enable_redis then register_zend_hook_redis s else s
  if flags.enable_mysql then
    register_zend_hook_mysqli (register_zend_hook_pdo_statement (register_zend_hook_pdo s))
  else s

def unregister_zend_hook (s : Registry H) : Registry H :=
  let s := if flags.enable_error then unregister_zend_hook_error s else s
  let s := if flags.enable_exception then unregister_zend_hook_exception s else s
  let s := if flags.enable_curl then unregister_zend_hook_curl s else s
  let s := if flags.enable_yar then unregister_zend_hook_yar s else s
  let s := if flags.enable_memcached then unregister_zend_hook_memcached s else s
  let s := if flags.enable_redis then unregister_zend_hook_redis s else s
  if flags.enable_mysql then
    unregister_zend_hook_mysqli (unregister_zend_hook_pdo_statement (unregister_zend_hook_pdo s))
  else s

/-- The pointer that a hook calls for its frame; nothing is called where the maps have none. -/
def Registry.original (s : Registry H) (execute_data : ExecuteData) :
    EntryPoint → Option (HandlerPtr H)
  | .curl_exec => s.handlers.saved .curl_exec
  | .curl_setopt => s.handlers.saved .curl_setopt
  | .curl_setopt_array => s.handlers.saved .curl_setopt_array
  | .curl_close => s.handlers.saved .curl_close
  | .redis =>
    if execute_data.class_name = lit "Redis" then s.handlers.saved (.redis execute_data.cmd)
    else if execute_data.class_name = lit "RedisCluster" then
      s.handlers.saved (.rediscluster execute_data.cmd)
    else none
  | .memcached => s.handlers.saved (.memcached execute_data.cmd)
  | .pdo => s.handlers.saved (.pdo execute_data.cmd)
  | .pdo_statement => s.handlers.saved (.pdo_statement execute_data.cmd)
  | .mysqli => s.handlers.saved (.mysqli execute_data.cmd)
  | .yar_client => s.handlers.saved (.yar_client execute_data.cmd)
  | .yar_server => s.handlers.saved (.yar_server execute_data.cmd)

end opentelemetry
