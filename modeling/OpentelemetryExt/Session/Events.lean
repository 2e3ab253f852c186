import OpentelemetryExt.Session.Hooks
import OpentelemetryExt.Lib.Run

open stateful run

namespace opentelemetry

variable {φ : Type} (eng : Engine φ)

/-- Functions of the curl extension: they run no PHP code and know nothing of the tracer. -/
structure CurlNatives (φ : Type) where
  curl_setopt : ExecuteData → φ → Zval × φ
  curl_setopt_array : ExecuteData → φ → Zval × φ
  curl_close : ExecuteData → φ → Zval × φ
  curl_exec : ExecuteData → φ → Zval × φ

/-- Natives that do nothing. -/
def CurlNatives.bare : CurlNatives φ where
  curl_setopt _ php := (.null, php)
  curl_setopt_array _ php := (.null, php)
  curl_close _ php := (.null, php)
  curl_exec _ php := (.null, php)

def native (f : ExecuteData → φ → Zval × φ) : Handler φ := fun execute_data => do
  let (return_value, php) := f execute_data (← get).php
  modifyPhp php
  return return_value

def CurlNatives.originals (natives : CurlNatives φ) : CurlOriginals φ where
  curl_exec := native natives.curl_exec
  curl_setopt := native natives.curl_setopt
  curl_setopt_array := native natives.curl_setopt_array
  curl_close := native natives.curl_close

/-- The handlers whose original may run PHP code before it returns. -/
inductive Hook where
  | redis
  | memcached
  | pdo
  | pdo_statement
  | mysqli
  | yar_client
  | yar_server
  | curl_exec
deriving DecidableEq, Repr

/-- The part of a handler before its original is called. -/
def Hook.enter (natives : CurlNatives φ) (hook : Hook) (execute_data : ExecuteData) :
    M φ (Option Nat) :=
  match hook with
  | redis => enterHandler (redisEnter eng) execute_data
  | memcached => enterHandler (memcachedEnter eng) execute_data
  | pdo => enterHandler (pdoEnter eng) execute_data
  | pdo_statement => enterHandler (pdoStatementEnter eng) execute_data
  | mysqli => enterHandler (mysqliEnter eng) execute_data
  | yar_client => enterHandler (yarClientEnter eng) execute_data
  | yar_server => yarServerEnter eng execute_data
  | curl_exec => do
    if ← is_has_provider then
      match execute_data.args with
      | [zid] =>
        match curlHandle eng zid with
        | some cid => curlExecEnter eng natives.originals execute_data zid cid
        | none => return none
      | _ => return none
    else return none

/-- The part after it has returned. `span` is the local variable of the handler. -/
def Hook.leave (hook : Hook) (execute_data : ExecuteData) (return_value : Zval)
    (span : Option Nat) : M φ Unit :=
  match hook with
  | redis => leaveHandler (redisLeave eng) execute_data span
  | memcached => leaveHandler (memcachedLeave eng) execute_data span
  | pdo => leaveHandler (pdoLeave eng) execute_data span
  | pdo_statement => leaveHandler (pdoStatementLeave eng) execute_data span
  | mysqli => leaveHandler mysqliLeave execute_data span
  | yar_client | yar_server => leaveHandler yarLeave execute_data span
  | curl_exec =>
    match execute_data.args, span with
    | [zid], some span => curlExecLeave eng execute_data zid return_value span
    | _, _ => return

inductive SdkCall where
  | get_traceparent
  | get_baggage
  | add_baggage (args : Option (Option Bytes × Option Bytes))
  | set_sample_ratio_based (args : Option Int)
  | get_unix_nano
  | add_span (args : Option AddSpanArgs)
  | add_resource_attribute (args : Option (Bytes × Bytes))
  | add_attribute (args : Option (Bytes × Bytes))
  | add_event (args : Option (Bytes × List (ArrayKey × Zval)))

/-- The SDK call that records a span. -/
def SdkCall.Adds : SdkCall → Prop
  | add_span _ => True
  | _ => False

/-- The SDK call that adds an event. -/
def SdkCall.Notes : SdkCall → Prop
  | add_event _ => True
  | _ => False

/-- The SDK call that decides about sampling. -/
def SdkCall.Samples : SdkCall → Prop
  | set_sample_ratio_based _ => True
  | _ => False

def SdkCall.run : SdkCall → M φ Unit
  | get_traceparent => do let _ ← opentelemetry_get_traceparent eng
  | get_baggage => do let _ ← opentelemetry_get_baggage eng
  | add_baggage args => do let _ ← opentelemetry_add_baggage eng args
  | set_sample_ratio_based args => opentelemetry_set_sample_ratio_based eng args
  | get_unix_nano => do let _ ← opentelemetry_get_unix_nano
  | add_span args => do let _ ← opentelemetry_add_span eng args
  | add_resource_attribute args => do let _ ← opentelemetry_add_resource_attribute eng args
  | add_attribute args => do let _ ← opentelemetry_add_attribute eng args
  | add_event args => do let _ ← opentelemetry_add_event eng args

/-- One entry into the extension between the start and the end of a session. The two halves
of a hooked call are separate, with anything in between. -/
inductive Call where
  | enter (hook : Hook) (execute_data : ExecuteData)
  | leave (hook : Hook) (execute_data : ExecuteData) (return_value : Zval) (span : Option Nat)
  | curl_setopt (execute_data : ExecuteData)
  | curl_setopt_array (execute_data : ExecuteData)
  | curl_close (execute_data : ExecuteData)
  | error (args : ErrorArgs)
  | exception (args : Option ExceptionArgs)
  | sdk (call : SdkCall)

def Call.run (natives : CurlNatives φ) : Call → M φ Unit
  | enter hook execute_data => do let _ ← hook.enter eng natives execute_data
  | leave hook execute_data return_value span => hook.leave eng execute_data return_value span
  | curl_setopt execute_data => do
    let _ ← opentelemetry_curl_setopt_handler eng natives.originals execute_data
  | curl_setopt_array execute_data => do
    let _ ← opentelemetry_curl_setopt_array_handler eng natives.originals execute_data
  | curl_close execute_data => do
    let _ ← opentelemetry_curl_close_handler eng natives.originals execute_data
  | error args => opentelemetry_error_cb eng (fun _ => return) args
  | exception args => opentelemetry_throw_exception_hook eng (fun _ => return) args
  | sdk call => call.run eng

/-- The hooks that write to the header store: none but those of curl. -/
def Hook.Stores : Hook → Prop
  | curl_exec => True
  | _ => False

def Call.Stores : Call → Prop
  | enter hook _ => hook.Stores
  | curl_setopt _ | curl_setopt_array _ | curl_close _ => True
  | _ => False

/-- Outside of curl, the first half of a hooked call opens its span, and no more. -/
def Hook.enters (hook : Hook) : Grants :=
  { Grants.none with creates := True, stores := hook.Stores }

/-- The second half ends it. That of Redis clears the exception. -/
def Hook.leaves (hook : Hook) : Grants :=
  { Grants.none with ends := True, raises := hook = .redis }

def Call.grants : Call → Grants
  | enter hook _ => hook.enters
  | leave hook _ _ _ => hook.leaves
  | curl_setopt _ | curl_setopt_array _ | curl_close _ => { Grants.none with stores := True }
  | error _ => { Grants.none with creates := True, ends := True }
  | exception _ => { Grants.none with creates := True, ends := True, raises := True }
  | sdk _ => { Grants.none with creates := True, ends := True, samples := True }

/-- A span that is added by an SDK call says itself when it has started. -/
def Call.details : Call → Details
  | sdk call => ⟨call.Adds, call.Notes⟩
  | _ => .none

theorem Call.grants_stores (c : Call) : c.grants.stores = c.Stores := by
  cases c <;> rfl

/-- What may change around the extension at any time. -/
structure Surroundings (φ : Type) where
  clock : Nat → UInt64
  uuids : Nat → Uuid
  pid : Nat
  server : Bytes → Option Zval
  post : Option Zval
  erange : Bool
  queueFails : Nat → Bool
  php : φ

def World.surround (w : World φ) (s : Surroundings φ) : World φ :=
  { w with
    clock := s.clock, uuids := s.uuids, pid := s.pid, server := s.server, post := s.post
    erange := s.erange, queueFails := s.queueFails, php := s.php }

inductive Event (φ : Type) where
  | call (c : Call)
  | surround (s : Surroundings φ)
  | reparent (ppid : Nat)
  | request_init
  | request_shutdown
  | start_cli_tracer (args : Option (Option Bytes × Option Bytes × SpanKind))
  | shutdown_cli_tracer

def Event.run (natives : CurlNatives φ) : Event φ → M φ Unit
  | call c => c.run eng natives
  | surround s => modify fun w => w.surround s
  | reparent ppid => modify fun w => { w with ppid := ppid }
  | request_init => opentelemetry_request_init eng
  | request_shutdown => opentelemetry_request_shutdown eng
  | start_cli_tracer args => do let _ ← opentelemetry_start_cli_tracer eng args
  | shutdown_cli_tracer => do let _ ← opentelemetry_shutdown_cli_tracer eng

/-- One event of the process, whether the code returns or PHP unwinds past it. -/
def Step (natives : CurlNatives φ) (e : Event φ) : World φ → World φ → Prop :=
  Ends (e.run eng natives)

theorem step_final {natives : CurlNatives φ} {e : Event φ} {w : World φ}
    (h : (final (e.run eng natives) w).isSome) :
    Step eng natives e w ((final (e.run eng natives) w).get h) := ends_final h

/-- A run that is computed. -/
theorem run_final {natives : CurlNatives φ} {es : List (Event φ)} {w : World φ}
    (h : (es.foldlM (fun w e => final (Event.run eng natives e) w) w).isSome) :
    ∃ v, Run (Step eng natives) w es v := by
  obtain ⟨v, hfold⟩ := Option.isSome_iff_exists.mp h
  exact ⟨v, Run.of_foldlM (fun _ _ _ hlast => ends_iff_final.mpr hlast) hfold⟩

namespace Effect

variable {eng} {natives : CurlNatives φ} {d : Details} {g : Grants}

theorem built_native (f : ExecuteData → φ → Zval × φ) (execute_data : ExecuteData) :
    Built (Effect eng d g) (native f execute_data) :=
  .bind (.reads .get) fun _ => .bind (.op (.php _)) fun _ => .pure _

theorem built_enter (hook : Hook) (execute_data : ExecuteData) :
    Built (Effect eng d hook.enters) (hook.enter eng natives execute_data) := by
  cases hook with
  | redis => exact built_enterSpan trivial spawns_redisEnter _
  | memcached => exact built_enterSpan trivial spawns_memcachedEnter _
  | pdo => exact built_enterSpan trivial spawns_pdoEnter _
  | pdo_statement => exact built_enterSpan trivial spawns_pdoStatementEnter _
  | mysqli => exact built_enterSpan trivial spawns_mysqliEnter _
  | yar_client => exact built_enterSpan trivial spawns_yarClientEnter _
  | yar_server => exact built_yarServerEnter trivial _
  | curl_exec =>
    refine .bind (.reads Op.reads_is_has_provider) fun _ => .ite ?_ (.pure _)
    split
    · split
      · exact built_curlExecEnter trivial trivial (built_native _) _ _ _
      · exact .pure _
    · exact .pure _

theorem built_leave (hook : Hook) (execute_data : ExecuteData) (return_value : Zval)
    (span : Option Nat) :
    Built (Effect eng d hook.leaves) (hook.leave eng execute_data return_value span) := by
  cases hook with
  | redis => exact built_leaveHandler (built_redisLeave trivial rfl) _ _
  | memcached => exact built_leaveHandler (built_memcachedLeave trivial) _ _
  | pdo => exact built_leaveHandler (built_pdoLeave trivial) _ _
  | pdo_statement => exact built_leaveHandler (built_pdoStatementLeave trivial) _ _
  | mysqli => exact built_leaveHandler (built_mysqliLeave trivial) _ _
  | yar_client => exact built_leaveHandler (built_yarLeave trivial) _ _
  | yar_server => exact built_leaveHandler (built_yarLeave trivial) _ _
  | curl_exec =>
    dsimp only [Hook.leave]
    split
    · exact built_curlExecLeave trivial _ _ _ _
    · exact .pure _

theorem built_addSpanAttribute (span : Nat) (entry : ArrayKey × Zval) :
    Built (Effect eng d g) (addSpanAttribute eng span entry) := by
  unfold addSpanAttribute
  refine .bind (.reads (.lift _)) fun entries => .bind (.reads (.lift _)) fun value => ?_
  refine .bind (.reads (.lift _)) fun key => .bind (.reads (.lift _)) fun key => ?_
  exact .bind (.reads (Op.reads_attributeText value)) fun _ => built_addAttribute _ _

theorem built_add_span (hdates : d.dates) (hcreates : g.creates) (hends : g.ends) (args : AddSpanArgs) :
    Built (Effect eng d g) (do
    let span ← Provider.createChildSpan eng (c_str args.name) (args.kind.bmod (2 ^ 32))
    modifySpan span fun s => { s with
      start_time_unix_nano := UInt64.ofInt args.start_time_unix_nano }
    args.attributes.forM (addSpanAttribute eng span)
    if args.status_code.bmod (2 ^ 32) = 2 then
      Provider.errorEnd eng span (c_str args.status_message)
    else Provider.okEnd span
    return true) := by
  refine .bind (.op (.createChildSpan hcreates _ _)) fun _ =>
    .bind (.op (.date hdates _ _)) fun _ =>
      .bind (.forM fun _ => built_addSpanAttribute _ _) fun _ => ?_
  exact .ite (.bind (.op (.errorEnd hends _ _)) fun _ => .pure _)
    (.bind (.op (.okEnd hends _)) fun _ => .pure _)

theorem built_sdk (call : SdkCall) (hadds : call.Adds → d.dates ∧ g.creates ∧ g.ends)
    (hnotes : call.Notes → d.notes) (hsamples : call.Samples → g.samples) :
    Built (Effect eng d g) (call.run eng) := by
  cases call with
  | get_traceparent =>
    exact .bind (.bind (.reads Op.reads_is_has_provider) fun _ =>
      .ite (.bind (.reads Op.reads_firstOneSpan) fun _ => .bind (.reads (.lift _)) fun _ =>
        .bind (built_formatTraceParentHeader _) fun _ => .pure _) (.pure _)) fun _ => .pure _
  | get_baggage =>
    exact .bind (.bind (.reads Op.reads_is_has_provider) fun _ =>
      .ite (.bind (.reads Op.reads_formatBaggageHeader) fun _ => .pure _) (.pure _)) fun _ => .pure _
  | add_baggage args =>
    refine .bind (.bind (.reads Op.reads_is_has_provider) fun _ => .ite ?_ (.pure _)) fun _ => .pure _
    cases args with
    | none => exact .pure _
    | some args =>
      exact .bind (.reads (.lift _)) fun _ => .bind (.reads (.lift _)) fun _ =>
        .bind (built_addBaggage _ _) fun _ => .pure _
  | set_sample_ratio_based args =>
    refine .bind (.reads Op.reads_is_has_provider) fun _ => .ite ?_ (.pure _)
    cases args with
    | none => exact .pure _
    | some ratio_based =>
      have hset (isSampled : Bool) : Built (Effect eng d g) (Provider.setSampled eng isSampled) :=
        .op (.setSampled (hsamples trivial) isSampled)
      refine .ite (hset false) (.ite (hset true) ?_)
      refine .bind (.reads (Op.reads_find_server_string _)) fun _ => .ite ?_ (.pure _)
      exact .bind (.bind (.reads Op.reads_provider) fun _ => .pure _) fun _ =>
        .bind (.reads Op.reads_globals) fun _ => .bind (.reads (.lift _)) fun _ =>
          .ite (hset true) (.pure _)
  | get_unix_nano => exact .bind (.op .tick) fun _ => .pure _
  | add_span args =>
    refine .bind (.bind (.reads Op.reads_is_has_provider) fun _ => .ite ?_ (.pure _)) fun _ => .pure _
    cases args with
    | none => exact .pure _
    | some args => exact built_add_span (hadds trivial).1 (hadds trivial).2.1 (hadds trivial).2.2 args
  | add_resource_attribute args =>
    refine .bind (.bind (.reads Op.reads_is_has_provider) fun _ => .ite ?_ (.pure _)) fun _ => .pure _
    cases args with
    | none => exact .pure _
    | some args =>
      exact .bind (.reads Op.reads_getResource) fun _ => .bind (.reads (.lift _)) fun _ =>
        .bind (.op (.addResourceAttribute _ _)) fun _ => .pure _
  | add_attribute args =>
    refine .bind (.bind (.reads Op.reads_is_has_provider) fun _ => .ite ?_ (.pure _)) fun _ => .pure _
    cases args with
    | none => exact .pure _
    | some args =>
      exact .bind (.reads Op.reads_firstOneSpan) fun _ => .bind (.reads (.lift _)) fun _ =>
        .bind (built_addAttribute _ _) fun _ => .pure _
  | add_event args =>
    refine .bind (.bind (.reads Op.reads_is_has_provider) fun _ => .ite ?_ (.pure _)) fun _ => .pure _
    cases args with
    | none => exact .pure _
    | some args =>
      exact .bind (.reads Op.reads_firstOneSpan) fun _ => .bind (.reads (.lift _)) fun _ =>
        .bind (.op .tick) fun _ => .bind (.reads (Op.reads_eventAttributes _)) fun _ =>
          .bind (.op (.addEvent (hnotes trivial) _ _)) fun _ => .pure _

/-- Every call into the extension is made of the effects it is granted. -/
theorem built_call (c : Call) : Built (Effect eng c.details c.grants) (c.run eng natives) := by
  cases c with
  | enter hook execute_data => exact .bind (built_enter _ _) fun _ => .pure _
  | leave hook execute_data return_value span => exact built_leave _ _ _ _
  | curl_setopt execute_data =>
    exact .bind (built_curl_setopt trivial (built_native _) _) fun _ => .pure _
  | curl_setopt_array execute_data =>
    exact .bind (built_curl_setopt_array trivial (built_native _) _) fun _ => .pure _
  | curl_close execute_data =>
    exact .bind (built_curl_close trivial (built_native _) _) fun _ => .pure _
  | error args =>
    refine .bind (.reads Op.reads_globals) fun _ => .ite ?_ (.pure _)
    exact .bind (.reads Op.reads_is_has_provider) fun _ =>
      .ite (.bind (built_collectError trivial trivial _) fun _ => .pure _) (.pure _)
  | exception args =>
    refine .ite ?_ (.pure _)
    refine .bind (.reads Op.reads_is_has_provider) fun _ => .ite ?_ (.pure _)
    cases args with
    | none => exact .pure _
    | some args => exact .bind (built_traceException trivial trivial trivial _) fun _ => .pure _
  | sdk call => exact built_sdk call (fun hadds => ⟨hadds, trivial, trivial⟩) id fun _ => trivial

end Effect

namespace Move

variable {eng} {natives : CurlNatives φ} {g : Grants}

theorem built_native (f : ExecuteData → φ → Zval × φ) (execute_data : ExecuteData) :
    Built (Move eng g) (native f execute_data) :=
  Effect.built_move (Effect.built_native (d := .none) _ _)

theorem built_addSpanAttribute (span : Nat) (entry : ArrayKey × Zval) :
    Built (Move eng g) (addSpanAttribute eng span entry) :=
  Effect.built_move (Effect.built_addSpanAttribute (d := .none) _ _)

theorem built_sdk (call : SdkCall) (hadds : call.Adds → g.creates ∧ g.ends)
    (hsamples : call.Samples → g.samples) : Built (Move eng g) (call.run eng) :=
  Effect.built_move (Effect.built_sdk (d := ⟨True, True⟩) call (fun h => ⟨trivial, hadds h⟩)
    (fun _ => trivial) hsamples)

/-- Every call into the extension is made of the moves it is granted. -/
theorem built_call (c : Call) : Built (Move eng c.grants) (c.run eng natives) :=
  Effect.built_move (Effect.built_call c)

end Move

/-- Every call into the extension is made of the operations. -/
theorem Op.built_call {eng : Engine φ} {natives : CurlNatives φ} (c : Call) :
    Built (Op eng c.Stores) (c.run eng natives) := by
  rw [← c.grants_stores]
  exact (Move.built_call c).trans Move.built_op

end opentelemetry
