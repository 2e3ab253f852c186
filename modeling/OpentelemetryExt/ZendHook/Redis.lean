import OpentelemetryExt.ZendHook.Traced

open stateful

namespace opentelemetry

variable {φ : Type} (eng : Engine φ)

def redisKeysCommands : List Bytes :=
  ["connect", "dump", "exists", "expire", "expireat", "move", "persist", "pexpire", "pexpireat",
    "pttl", "rename", "renamenx", "sort", "ttl", "type", "append", "bitcount", "bitfield", "decr",
    "decrby", "get", "getbit", "getrange", "getset", "incr", "incrby", "incrbyfloat", "psetex",
    "set", "setbit", "setex", "setnx", "setrange", "strlen", "bitop", "hdel", "hexists", "hget",
    "hgetall", "hincrby", "hincrbyfloat", "hkeys", "hlen", "hmget", "hmset", "hscan", "hset",
    "hsetnx", "hvals", "hstrlen", "lindex", "linsert", "llen", "lpop", "lpush", "lpushx", "lrange",
    "lrem", "lset", "ltrim", "rpop", "rpush", "rpushx", "sadd", "scard", "sismember", "smembers",
    "spop", "srandmember", "srem", "sscan", "zadd", "zcard", "zcount", "zincrby", "zrange",
    "zrangebyscore", "zrank", "zrem", "zremrangebyrank", "zremrangebyscore", "zrevrange",
    "zrevrangebyscore", "zrevrank", "zscore", "zscan", "zrangebylex", "zrevrangebylex",
    "zremrangebylex", "zlexcount", "pfadd", "watch", "geoadd", "geohash", "geopos", "geodist",
    "georadius", "georadiusbymember"].map lit

/-- The address of the server, asked of the object itself. -/
def redisPeer (execute_data : ExecuteData) (span : Nat) : M φ Unit := do
  let zval_host ← zend_call_method eng execute_data.This "gethost" []
  let zval_port ← zend_call_method eng execute_data.This "getport" []
  match zval_host, zval_port with
  | .string host, .long port =>
    addAttribute span (peerAttribute eng (c_str host))
    addAttribute span (int64_attribute "net.peer.port" port)
  | _, _ => return

/-- What the argument at position `i` adds to the attributes; a `connect` has its host first
and its port second. -/
def redisArgument (cmd : Bytes) (span i : Nat) (p : Zval) (str : Bytes) : M φ Unit := do
  if i = 1 ∧ ¬ is_equal cmd (lit "connect") then
    addAttribute span (string_attribute "db.cache.key" str)
  else if i = 1 ∧ is_equal cmd (lit "connect") then
    addAttribute span (peerAttribute eng str)
  else if i = 2 ∧ is_equal cmd (lit "connect") then
    match p with
    | .undef => return
    | _ => addAttribute span (int64_attribute "net.peer.port" (← lift (stoll str)))

/-- One turn of the loop over the arguments. -/
def redisCommand (execute_data : ExecuteData) (span : Nat) (command : Bytes) (i : Nat) :
    M φ Bytes := do
  let p ← lift (ZEND_CALL_ARG execute_data i)
  match p with
  | .array _ => return command ++ (← opentelemetry_json_encode eng p)
  | _ =>
    let str ← argumentText eng p
    redisArgument eng execute_data.cmd span i p str
    return command ++ str.map tolower ++ lit " "

def redisEnter (execute_data : ExecuteData) : M φ Nat := do
  let cmd := execute_data.cmd
  let span ← openSpan eng execute_data .client
    [string_attribute "db.system" (lit "redis"), string_attribute "db.operation" cmd]
  addAttribute span (string_attribute "net.transport" (lit "IP.TCP"))
  if redisKeysCommands.contains cmd then redisPeer eng execute_data span
  let command ← (List.range' 1 (ZEND_CALL_NUM_ARGS execute_data)).foldlM
    (redisCommand eng execute_data span) (cmd ++ lit " ")
  addAttribute span (string_attribute "db.statement" (statementText command))
  return span

def redisLeave (_ : ExecuteData) (span : Nat) : M φ Unit := do
  if ← Provider.isRedisException eng then
    Provider.errorEnd eng span (← Provider.getRedisException eng)
    Provider.clearRedisException eng
  else Provider.okEnd span

/-- The tables of saved handlers, one for each class. -/
structure RedisOriginals (φ : Type) where
  redis : Bytes → Option (Handler φ)
  rediscluster : Bytes → Option (Handler φ)

def RedisOriginals.find (originals : RedisOriginals φ) (execute_data : ExecuteData) :
    Option (Handler φ) :=
  if execute_data.class_name = lit "Redis" then originals.redis execute_data.cmd
  else if execute_data.class_name = lit "RedisCluster" then originals.rediscluster execute_data.cmd
  else none

def opentelemetry_redis_handler (originals : RedisOriginals φ) : Handler φ :=
  tracedHandler (redisEnter eng) (redisLeave eng) originals.find

end opentelemetry
