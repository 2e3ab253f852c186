import OpentelemetryExt.ZendHook.Redis
import OpentelemetryExt.ZendHook.Memcached
import OpentelemetryExt.ZendHook.Pdo
import OpentelemetryExt.ZendHook.Mysqli
import OpentelemetryExt.ZendHook.Yar
import OpentelemetryExt.ZendHook.Curl

open stateful

namespace opentelemetry

variable {φ : Type} (eng : Engine φ)

/-- The handlers that the hooks have replaced, in the tables where they are saved. -/
structure Originals (φ : Type) where
  curl : CurlOriginals φ
  redis : RedisOriginals φ
  memcached : Bytes → Option (Handler φ)
  pdo : Bytes → Option (Handler φ)
  pdo_statement : Bytes → Option (Handler φ)
  mysqli : Bytes → Option (Handler φ)
  yar_client : Bytes → Option (Handler φ)
  yar_server : Bytes → Option (Handler φ)

inductive EntryPoint where
  | curl_exec
  | curl_setopt
  | curl_setopt_array
  | curl_close
  | redis
  | memcached
  | pdo
  | pdo_statement
  | mysqli
  | yar_client
  | yar_server
deriving DecidableEq, Repr

namespace EntryPoint

def handler (originals : Originals φ) : EntryPoint → Handler φ
  | curl_exec => opentelemetry_curl_exec_handler eng originals.curl
  | curl_setopt => opentelemetry_curl_setopt_handler eng originals.curl
  | curl_setopt_array => opentelemetry_curl_setopt_array_handler eng originals.curl
  | curl_close => opentelemetry_curl_close_handler eng originals.curl
  | redis => opentelemetry_redis_handler eng originals.redis
  | memcached => opentelemetry_memcached_handler eng originals.memcached
  | pdo => opentelemetry_pdo_handler eng originals.pdo
  | pdo_statement => opentelemetry_pdo_statement_handler eng originals.pdo_statement
  | mysqli => opentelemetry_mysqli_handler eng originals.mysqli
  | yar_client => opentelemetry_yar_client_handler eng originals.yar_client
  | yar_server => opentelemetry_yar_server_handler eng originals.yar_server

/-- The handler saved for the function of a frame. -/
def saved (originals : Originals φ) (execute_data : ExecuteData) :
    EntryPoint → Option (Handler φ)
  | curl_exec => some originals.curl.curl_exec
  | curl_setopt => some originals.curl.curl_setopt
  | curl_setopt_array => some originals.curl.curl_setopt_array
  | curl_close => some originals.curl.curl_close
  | redis => originals.redis.find execute_data
  | memcached => originals.memcached execute_data.cmd
  | pdo => originals.pdo execute_data.cmd
  | pdo_statement => originals.pdo_statement execute_data.cmd
  | mysqli => originals.mysqli execute_data.cmd
  | yar_client => originals.yar_client execute_data.cmd
  | yar_server => originals.yar_server execute_data.cmd

end EntryPoint

variable {eng} {w : World φ} {execute_data : ExecuteData}

/-- Without a provider before and after the call, a traced method runs as its original. -/
theorem tracedHandler_of_none {enter : ExecuteData → M φ Nat}
    {leave : ExecuteData → Nat → M φ Unit} {original : ExecuteData → Option (Handler φ)}
    {f : Handler φ} (hw : w.globals.provider = none) (hsaved : original execute_data = some f)
    (hnull : ∀ w', Ends (f execute_data) w w' → w'.globals.provider = none) :
    tracedHandler enter leave original execute_data w = f execute_data w := by
  simp only [tracedHandler, enterHandler, is_has_provider, bind_apply, globals_apply, ok_bind,
    pure_apply, hw, hsaved, callOriginal, Option.isSome_none, Bool.false_eq_true, if_false]
  cases hf : f execute_data w with
  | error e => rfl
  | ok r =>
    have hafter : r.2.globals.provider = none := hnull r.2 (.of_ok hf)
    simp [leaveHandler, is_has_provider, globals_apply, hafter]

/-- The server's handler of Yar goes through its unassigned local before anything else. -/
theorem yar_server_of_none {originals : Bytes → Option (Handler φ)}
    (hw : w.globals.provider = none) :
    opentelemetry_yar_server_handler eng originals execute_data w =
      .error (.fault .uninitialised) := by
  simp [opentelemetry_yar_server_handler, yarServerEnter, enterHandler, is_has_provider,
    globals_apply, hw, readLocal]

/-- Whatever is saved for the frame, the hook runs as it does, as long as it keeps the
provider null. -/
def Transparent (eng : Engine φ) (e : EntryPoint) (execute_data : ExecuteData) (w : World φ) :
    Prop :=
  ∀ (originals : Originals φ) (f : Handler φ), e.saved originals execute_data = some f →
    (∀ w', Ends (f execute_data) w w' → w'.globals.provider = none) →
      e.handler eng originals execute_data w = f execute_data w

/-- While there is no provider, the hooks of all entry points but one are transparent. -/
theorem transparent_iff (e : EntryPoint) (execute_data : ExecuteData)
    (hw : w.globals.provider = none) :
    Transparent eng e execute_data w ↔ e ≠ .yar_server := by
  constructor
  · rintro h rfl
    let f : Handler φ := fun _ => return .null
    let table : Bytes → Option (Handler φ) := fun _ => some f
    have hsame := h ⟨⟨f, f, f, f⟩, ⟨table, table⟩, table, table, table, table, table, table⟩ f rfl
      fun w' hends => by rw [Reads.pure _ hends, hw]
    rw [EntryPoint.handler, yar_server_of_none hw] at hsame
    cases hsame
  · intro hne originals f hsaved hnull
    have hhas : is_has_provider w = .ok (false, w) := by
      simp [is_has_provider, globals_apply, hw]
    cases e with
    | yar_server => exact absurd rfl hne
    | redis => exact tracedHandler_of_none hw hsaved hnull
    | memcached =>
      rw [EntryPoint.handler, opentelemetry_memcached_handler]
      exact tracedHandler_of_none hw hsaved hnull
    | pdo =>
      rw [EntryPoint.handler, opentelemetry_pdo_handler]
      exact tracedHandler_of_none hw hsaved hnull
    | pdo_statement =>
      rw [EntryPoint.handler, opentelemetry_pdo_statement_handler]
      exact tracedHandler_of_none hw hsaved hnull
    | mysqli =>
      rw [EntryPoint.handler, opentelemetry_mysqli_handler]
      exact tracedHandler_of_none hw hsaved hnull
    | yar_client =>
      rw [EntryPoint.handler, opentelemetry_yar_client_handler]
      exact tracedHandler_of_none hw hsaved hnull
    | curl_exec =>
      cases hsaved
      simp [EntryPoint.handler, opentelemetry_curl_exec_handler, hhas]
    | curl_setopt =>
      cases hsaved
      simp [EntryPoint.handler, opentelemetry_curl_setopt_handler, hhas]
    | curl_setopt_array =>
      cases hsaved
      simp [EntryPoint.handler, opentelemetry_curl_setopt_array_handler, hhas]
    | curl_close =>
      cases hsaved
      simp [EntryPoint.handler, opentelemetry_curl_close_handler, hhas]

/-- A call of a method of this class, without arguments. -/
def methodFrame (scope function_name : String) : ExecuteData where
  func := ⟨some (lit function_name), some (lit scope), false⟩
  args := []
  This := .object 1 (lit scope)
  callers := []

/-- `$redis->get('k')`. -/
def getFrame : ExecuteData := { methodFrame "Redis" "get" with args := [.string (lit "k")] }

/-- An engine whose cache objects name their server. -/
def Engine.connected (cli : Bool) : Engine Unit := { Engine.bare cli with
  call_method := fun _ _ name _ =>
    if name = lit "gethost" then some (.string (lit "127.0.0.1"), ())
    else if name = lit "getport" then some (.long 6379, ())
    else if name = lit "getserverbykey" then some (.array [(.str (lit "host"),
      .string (lit "127.0.0.1")), (.str (lit "port"), .long 11211)], ())
    else none }

theorem transparent_redis_get :
    Transparent (.bare false) .redis (methodFrame "Redis" "get") (World.fresh ()) ↔
      EntryPoint.redis ≠ .yar_server :=
  transparent_iff (w := World.fresh ()) .redis _ rfl

/-- Creating a `Yar_Server` without a tracer writes through a wild pointer. -/
theorem not_transparent_yar_server :
    ¬ Transparent (.bare false) .yar_server (methodFrame "Yar_Server" "__construct")
      (World.fresh ()) := by
  intro h
  let f : Handler Unit := fun _ => return .null
  let table : Bytes → Option (Handler Unit) := fun _ => some f
  have hsame := h ⟨⟨f, f, f, f⟩, ⟨table, table⟩, table, table, table, table, table, table⟩ f rfl
    fun w' hends => by rw [Reads.pure _ hends]; rfl
  cases hsame

end opentelemetry
