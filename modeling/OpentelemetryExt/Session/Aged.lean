import OpentelemetryExt.Session.Overlooked
import OpentelemetryExt.Session.Guard
import OpentelemetryExt.Provider.Relay

open assoc stateful run

namespace opentelemetry

variable {φ : Type}

/-- What a baggage map held each time it was cleared. -/
abbrev Fillings := List (List (Bytes × Bytes))

/-- The engine to which every map has these fillings behind it. -/
def Engine.after (eng : Engine φ) (past : Fillings) : Engine φ :=
  eng.listing fun m => eng.iterate (m.after past)

def Slot.aged (past : Fillings) (s : Slot) : Slot := { s with baggage := s.baggage.after past }

/-- The world in which the current baggage map has these fillings behind it. -/
def World.aged (eng : Engine φ) (past : Fillings) (w : World φ) : World φ :=
  { w with globals := { w.globals with
      provider := w.globals.provider.map fun p =>
        p.set (w.key eng) ((p.slots (w.key eng)).aged past) } }

variable {eng : Engine φ} {past : Fillings} {w : World φ}

theorem key_aged (w : World φ) : (w.aged eng past).key eng = w.key eng := rfl

theorem convert_to_string_after (php : φ) (value : Zval) :
    convert_to_string (eng.after past) php value = convert_to_string eng php value := by
  fun_induction convert_to_string eng php value with
  | case11 target ih => exact ih
  | _ => rfl

theorem aged_of_none (h : w.globals.provider = none) :
    (w.aged eng past).globals.provider = none := by
  rw [World.aged, h, Option.map_none]

theorem aged_of_some {p : Provider} (h : w.globals.provider = some p) :
    (w.aged eng past).globals.provider =
      some (p.set (w.key eng) ((p.slots (w.key eng)).aged past)) := by
  rw [World.aged, h, Option.map_some]

theorem aged_withProvider (w : World φ) (p : Provider) :
    (w.withProvider p).aged eng past =
      (w.aged eng past).withProvider (p.set (w.key eng) ((p.slots (w.key eng)).aged past)) := rfl

theorem World.aged_nil (w : World φ) : w.aged eng [] = w := by
  have hprovider : (w.globals.provider.map fun p =>
      p.set (w.key eng) ((p.slots (w.key eng)).aged [])) = w.globals.provider := by
    cases w.globals.provider with
    | none => rfl
    | some p => exact congrArg some (Provider.set_slots_self p _)
  rw [World.aged, hprovider]

namespace Aged

theorem globals_bind {β : Type} {f f' : Globals → M φ β}
    (h : ∀ w : World φ, Echoes (World.aged eng past) (f (w.aged eng past).globals) (f' w.globals)) :
    Echoes (World.aged eng past) (globals >>= f) (globals >>= f') := fun w => h w w

theorem slot_bind {β : Type} {f f' : Slot → M φ β}
    (h : ∀ s : Slot, Echoes (World.aged eng past) (f (s.aged past)) (f' s)) :
    Echoes (World.aged eng past) (slot eng >>= f) (slot eng >>= f') := by
  intro w
  cases hp : w.globals.provider with
  | none => rw [bind_apply, bind_apply, slot_of_none hp, slot_of_none (aged_of_none hp)]; rfl
  | some p =>
    rw [bind_apply, bind_apply, slot_of_some hp, slot_of_some (aged_of_some hp),
      key_aged, Provider.set_self]
    exact h _ w

theorem modifySlot {f : Slot → Slot} (h : ∀ s : Slot, f (s.aged past) = (f s).aged past) :
    Unaware (World.aged eng past) (modifySlot eng f) := by
  intro w
  cases hp : w.globals.provider with
  | none => rw [modifySlot_of_none f hp, modifySlot_of_none f (aged_of_none hp)]; rfl
  | some p =>
    rw [modifySlot_of_some f hp, modifySlot_of_some f (aged_of_some hp), key_aged, through,
      aged_withProvider, Provider.set_self, Provider.set_self, h, Provider.set_set, Provider.set_set]

theorem is_has_provider : Unaware (World.aged eng past) (is_has_provider : M φ Bool) := by
  refine globals_bind fun w => ?_
  rw [World.aged, Option.isSome_map]
  exact .pure _

theorem count : Unaware (World.aged eng past) (Provider.count : M φ Int) := by
  intro w
  cases hp : w.globals.provider with
  | none =>
    rw [Provider.count, bind_apply, bind_apply, provider_of_none hp,
      provider_of_none (aged_of_none hp)]
    rfl
  | some p =>
    rw [Provider.count, bind_apply, bind_apply, provider_of_some hp,
      provider_of_some (aged_of_some hp)]
    rfl

theorem increase : Unaware (World.aged eng past) (Provider.increase : M φ Unit) := by
  intro w
  cases hp : w.globals.provider with
  | none =>
    rw [Provider.increase, bind_apply, bind_apply, provider_of_none hp,
      provider_of_none (aged_of_none hp)]
    rfl
  | some p => rw [Provider.increase_of_some hp, Provider.increase_of_some (aged_of_some hp)]; rfl

theorem readSpan (q : Nat) : Unaware (World.aged eng past) (readSpan q : M φ Span) :=
  .get_bind (fun _ => rfl) fun _ => .lift _

theorem modifySpan (q : Nat) (f : Span → Span) :
    Unaware (World.aged eng past) (modifySpan q f : M φ Unit) :=
  .bind (readSpan q) fun _ => .modify fun _ => rfl

theorem addAttribute (q : Nat) (kv : KeyValue) :
    Unaware (World.aged eng past) (addAttribute q kv : M φ Unit) := modifySpan q _

theorem addAttributes (q : Nat) (kvs : List KeyValue) :
    Unaware (World.aged eng past) (kvs.forM (opentelemetry.addAttribute q) : M φ Unit) :=
  .forM fun _ => addAttribute q _

theorem getRedisException : Unaware (World.aged eng past) (Provider.getRedisException eng) :=
  slot_bind fun _ => .pure _

/-- Second halves of hooked calls overlook the past of the map: they do not look at it. -/
theorem overlooked : Overlooked eng (fun _ => True) (World.aged eng past) where
  php _ := rfl
  modifyPhp _ := .modify fun _ => rfl
  get_unix_nanoseconds _ := rfl
  is_has_provider := is_has_provider
  getRedisException := getRedisException
  setRedisException _ := modifySlot fun _ => rfl
  setSampled _ := modifySlot fun _ => rfl
  modifySpan _ := modifySpan _

theorem getRequest : Unaware (World.aged eng past) (Provider.getRequest eng) :=
  slot_bind fun _ => .pure _

theorem getResource : Unaware (World.aged eng past) (Provider.getResource eng) :=
  slot_bind fun _ => .pure _

theorem firstOneSpan : Unaware (World.aged eng past) (Provider.firstOneSpan eng) :=
  slot_bind fun _ => .pure _

theorem newRequest : Unaware (World.aged eng past) (Provider.newRequest eng) :=
  .get_bind (fun _ => rfl) fun _ => .bind (.modify fun _ => rfl) fun _ =>
    .bind (modifySlot fun _ => rfl) fun _ => .pure _

theorem getTracer : Unaware (World.aged eng past) (Provider.getTracer eng) :=
  slot_bind fun _ => .ite (.lift _) newRequest

theorem addSpan (resourceSpan : Nat) (span : Span) :
    Unaware (World.aged eng past) (Provider.addSpan resourceSpan span : M φ Nat) :=
  .get_bind (fun _ => rfl) fun _ => .bind (.lift _) fun _ => .bind (.modify fun _ => rfl) fun _ =>
    .pure _

theorem traceIdFor (first : Option Nat) :
    Unaware (World.aged eng past) (Provider.traceIdFor first : M φ Bytes) := by
  cases first with
  | some first => exact .bind (readSpan first) fun _ => .pure _
  | none => exact fun _ => rfl

theorem createSpan (name : Bytes) (kind : SpanKind) :
    Unaware (World.aged eng past) (Provider.createSpan eng name kind) :=
  .bind getTracer fun _ => .bind firstOneSpan fun _ => .bind (traceIdFor _) fun _ =>
    .bind (fun _ => rfl) fun _ => .bind (fun _ => rfl) fun _ => addSpan _ _

theorem createFirstSpan (name : Bytes) (kind : SpanKind) :
    Unaware (World.aged eng past) (Provider.createFirstSpan eng name kind) :=
  .bind (createSpan name kind) fun _ => .bind (modifySlot fun _ => rfl) fun _ => .pure _

theorem createChildSpan (name : Bytes) (kind : SpanKind) :
    Unaware (World.aged eng past) (Provider.createChildSpan eng name kind) :=
  .bind (.bind firstOneSpan fun _ => .bind (.lift _) fun _ => readSpan _) fun _ =>
    .bind (createSpan name kind) fun _ => .bind (modifySpan _ _) fun _ => .pure _

theorem isSampled : Unaware (World.aged eng past) (Provider.isSampled eng) :=
  slot_bind fun _ => .ite (.pure _) (.bind (.lift _) fun _ => .bind (readSpan _) fun _ =>
    .bind (fun _ => rfl) fun _ => globals_bind fun _ => .pure _)

theorem addResourceAttribute (resource : Nat) (kv : KeyValue) :
    Unaware (World.aged eng past) (Provider.addResourceAttribute resource kv : M φ Unit) :=
  .get_bind (fun _ => rfl) fun _ => .bind (.lift _) fun _ => .modify fun _ => rfl

theorem addBaggage (key value : Bytes) :
    Unaware (World.aged eng past) (Provider.addBaggage eng key value) :=
  .bind (modifySlot fun _ => rfl) fun _ => .bind getResource fun _ => .bind (.lift _) fun _ =>
    addResourceAttribute _ _

theorem parseBaggage (tracebaggage : Bytes) :
    Unaware (World.aged eng past) (Provider.parseBaggage eng tracebaggage) := by
  refine .ite (.forM fun item => ?_) (.pure _)
  split
  · exact addBaggage _ _
  · exact .pure _

theorem parseTraceParent (traceparent : Bytes) :
    Unaware (World.aged eng past) (Provider.parseTraceParent eng traceparent) := by
  refine .ite ?_ (globals_bind fun _ => .ite (overlooked.setSampled true) ?_)
  · split
    · exact .get_bind (fun _ => rfl) fun _ => .bind firstOneSpan fun _ => .bind (.lift _) fun _ =>
        .bind (.lift _) fun _ => .bind (modifySpan _ _) fun _ => .bind (.lift _) fun _ =>
          .bind (modifySpan _ _) fun _ => overlooked.setSampled _
    · exact .pure _
  · exact .bind count fun _ => .bind (.lift _) fun _ => .ite (overlooked.setSampled true)
      (.ite (overlooked.setSampled false) (.pure _))

theorem formatTraceParentHeader (span : Nat) :
    Unaware (World.aged eng past) (Provider.formatTraceParentHeader eng span) :=
  .bind (readSpan span) fun _ => .bind (.lift _) fun _ => .bind (.lift _) fun _ =>
    .bind isSampled fun _ => .pure _

/-- Here the past of the map counts, and the other engine knows of it. -/
theorem formatBaggageHeader : Echoes (World.aged eng past) (Provider.formatBaggageHeader eng)
    (Provider.formatBaggageHeader (eng.after past)) := slot_bind fun _ => .pure _

theorem openSpan (execute_data : ExecuteData) (kind : SpanKind) (kvs : List KeyValue) :
    Unaware (World.aged eng past) (openSpan eng execute_data kind kvs) :=
  .bind (createChildSpan _ _) fun _ => .bind (addAttributes _ _) fun _ => .pure _

theorem enterHandler {enter enter' : ExecuteData → M φ Nat}
    (h : ∀ execute_data, Echoes (World.aged eng past) (enter execute_data) (enter' execute_data))
    (execute_data : ExecuteData) : Echoes (World.aged eng past)
      (enterHandler enter execute_data) (enterHandler enter' execute_data) :=
  .bind is_has_provider fun _ => .ite (.bind (h execute_data) fun _ => .pure _) (.pure _)

theorem argumentText (p : Zval) : Echoes (World.aged eng past) (argumentText eng p)
    (argumentText (eng.after past) p) := by
  refine .read_bind fun w => ?_
  rw [convert_to_string_after]
  exact .pure _

theorem redisPeer (execute_data : ExecuteData) (span : Nat) :
    Unaware (World.aged eng past) (redisPeer eng execute_data span) := by
  refine .bind (overlooked.zend_call_method _ _ _) fun host =>
    .bind (overlooked.zend_call_method _ _ _) fun port => ?_
  split
  · exact .bind (addAttribute _ _) fun _ => addAttribute _ _
  · exact .pure _

theorem redisArgument (cmd : Bytes) (span i : Nat) (p : Zval) (str : Bytes) :
    Unaware (World.aged eng past) (redisArgument eng cmd span i p str) := by
  refine .ite (addAttribute _ _) (.ite (addAttribute _ _) (.ite ?_ (.pure _)))
  split
  · exact .pure _
  · exact .bind (.lift _) fun _ => addAttribute _ _

theorem redisCommand (execute_data : ExecuteData) (span : Nat) (command : Bytes) (i : Nat) :
    Echoes (World.aged eng past) (redisCommand eng execute_data span command i)
      (redisCommand (eng.after past) execute_data span command i) := by
  refine .bind (.lift _) fun p => ?_
  split
  · exact .bind (overlooked.json_encode _) fun _ => .pure _
  · exact .bind (argumentText _) fun _ => .bind (redisArgument _ _ _ _ _) fun _ => .pure _

theorem redisEnter (execute_data : ExecuteData) :
    Echoes (World.aged eng past) (redisEnter eng execute_data)
      (redisEnter (eng.after past) execute_data) := by
  refine .bind (openSpan _ _ _) fun span => .bind (addAttribute _ _) fun _ => ?_
  exact .ite
    (.bind (redisPeer _ _) fun _ => .bind (.foldlM (redisCommand _ _) _) fun _ =>
      .bind (addAttribute _ _) fun _ => .pure _)
    (.bind (.foldlM (redisCommand _ _) _) fun _ => .bind (addAttribute _ _) fun _ => .pure _)

theorem memcachedServer (execute_data : ExecuteData) (span : Nat) (str : Bytes) :
    Unaware (World.aged eng past) (memcachedServer eng execute_data span str) := by
  refine .bind (overlooked.zend_call_method _ _ _) fun server => ?_
  split
  · exact .bind (.lift _) fun _ => .bind (.lift _) fun _ => .bind (.lift _) fun _ =>
      .bind (.lift _) fun _ => .bind (addAttribute _ _) fun _ => .bind (addAttribute _ _) fun _ =>
        addAttribute _ _
  · exact .pure _

theorem memcachedCommand (execute_data : ExecuteData) (span : Nat) (command : Bytes) (i : Nat) :
    Echoes (World.aged eng past) (memcachedCommand eng execute_data span command i)
      (memcachedCommand (eng.after past) execute_data span command i) := by
  refine .bind (.lift _) fun p => ?_
  split
  · exact .bind (overlooked.json_encode _) fun _ => .pure _
  · exact .bind (argumentText _) fun _ => .ite (.bind (addAttribute _ _) fun _ =>
      .ite (.bind (memcachedServer _ _ _) fun _ => .pure _) (.pure _)) (.pure _)
  · exact .bind (argumentText _) fun _ => .pure _

theorem memcachedEnter (execute_data : ExecuteData) :
    Echoes (World.aged eng past) (memcachedEnter eng execute_data)
      (memcachedEnter (eng.after past) execute_data) :=
  .bind (openSpan _ _ _) fun span => .bind (.foldlM (memcachedCommand execute_data span) _)
    fun _ => .bind (addAttribute _ _) fun _ => .pure _

theorem pdoArguments (execute_data : ExecuteData) (span : Nat) :
    Unaware (World.aged eng past) (pdoArguments execute_data span : M φ Bytes) := by
  refine .ite (.pure _) (.bind (.lift _) fun p => ?_)
  split
  · exact .ite (.bind (addAttribute _ _) fun _ => .pure _) (.bind (.lift _) fun _ =>
      .bind (.lift _) fun _ => .bind (addAttribute _ _) fun _ => .pure _)
  · exact .pure _

theorem pdoEnter (execute_data : ExecuteData) :
    Unaware (World.aged eng past) (pdoEnter eng execute_data) :=
  .bind (openSpan _ _ _) fun _ => .bind (pdoArguments _ _) fun _ =>
    .bind (addAttributes _ _) fun _ => .bind (overlooked.Z_PDO_DBH_P _) fun _ =>
      .bind (.lift _) fun _ => .bind (addAttributes _ _) fun _ => .pure _

theorem pdoStatementEnter (execute_data : ExecuteData) :
    Unaware (World.aged eng past) (pdoStatementEnter eng execute_data) :=
  .bind (openSpan _ _ _) fun _ => .bind (overlooked.Z_PDO_STMT_P _) fun _ =>
    .bind (.lift _) fun _ => .bind (addAttributes _ _) fun _ => .pure _

theorem Z_MYSQLI_P (obj : Zval) : Unaware (World.aged eng past) (Z_MYSQLI_P eng obj) := by
  cases obj with
  | object handle class_name =>
    refine .get_bind (fun _ => rfl) fun w => ?_
    split
    · exact .pure _
    · exact .lift _
  | _ => exact fun _ => rfl

theorem mysqliLink (execute_data : ExecuteData) :
    Unaware (World.aged eng past) (mysqliLink eng execute_data) := by
  refine .ite (.pure _) (.ite (Z_MYSQLI_P _) (.bind (.lift _) fun obj => ?_))
  split
  · exact .pure _
  · exact Z_MYSQLI_P _

theorem mysqliEnter (execute_data : ExecuteData) :
    Unaware (World.aged eng past) (mysqliEnter eng execute_data) :=
  .bind (openSpan _ _ _) fun _ => .bind (.lift _) fun _ => .bind (mysqliLink _) fun _ =>
    .bind (.lift _) fun _ => .bind (addAttributes _ _) fun _ => .pure _

theorem yarHeaders (execute_data : ExecuteData) (span : Nat) :
    Echoes (World.aged eng past) (yarHeaders eng execute_data span)
      (yarHeaders (eng.after past) execute_data span) :=
  .bind (formatTraceParentHeader _) fun _ => .bind (.lift _) fun _ =>
    .bind formatBaggageHeader fun _ => .bind (.lift _) fun _ =>
      .bind (overlooked.zend_call_method _ _ _) fun _ => .pure _

theorem yarCommand (execute_data : ExecuteData) (span : Nat) (command : Bytes) (i : Nat) :
    Echoes (World.aged eng past) (yarCommand eng execute_data span command i)
      (yarCommand (eng.after past) execute_data span command i) := by
  refine .bind (.lift _) fun p => ?_
  split
  · exact .bind (overlooked.json_encode _) fun _ => .pure _
  · exact .ite (.bind (addAttribute _ _) fun _ => .pure _) (.pure _)
  · exact .bind (argumentText _) fun _ => .pure _

theorem yarCall (execute_data : ExecuteData) (span : Nat) (command : Bytes) :
    Unaware (World.aged eng past) (yarCall eng execute_data span command) := by
  refine .bind (addAttribute _ _) fun _ => ?_
  split
  · refine .get_bind (fun _ => rfl) fun w => ?_
    split
    · exact .bind (.lift _) fun _ => addAttribute _ _
    · exact .pure _
  · exact .pure _

theorem yarClientEnter (execute_data : ExecuteData) :
    Echoes (World.aged eng past) (yarClientEnter eng execute_data)
      (yarClientEnter (eng.after past) execute_data) :=
  .bind (openSpan _ _ _) fun span => .bind (addAttribute _ _) fun _ =>
    .bind (yarHeaders _ _) fun _ => .bind (.foldlM (yarCommand execute_data span) _) fun _ =>
      .ite (.bind (yarCall _ _ _) fun _ => .pure _) (.pure _)

theorem yarServerEnter (execute_data : ExecuteData) :
    Unaware (World.aged eng past) (yarServerEnter eng execute_data) :=
  .bind (enterHandler (fun _ => openSpan _ _ _) _) fun _ => .bind (.lift _) fun _ =>
    .bind (addAttribute _ _) fun _ => .pure _

theorem curlHeader : Unaware (World.aged eng past) (curlHeader : M φ _) := by
  refine globals_bind fun w => ?_
  rw [World.aged]
  cases w.globals.curl_header with
  | some entries => exact .pure _
  | none => exact .lift _

theorem storeHeader (cid : Nat) (value : Zval) :
    Unaware (World.aged eng past) (storeHeader cid value : M φ Unit) :=
  .bind curlHeader fun _ => .modify fun _ => rfl

theorem recordedUrl (zid : Zval) : Unaware (World.aged eng past) (recordedUrl eng zid) :=
  .get_bind (fun _ => rfl) fun _ => .bind (.lift _) fun _ => .bind (.lift _) fun _ =>
    .bind (.lift _) fun _ => .ite (.pure _) (.pure _)

theorem curlSpan (url : Url) : Unaware (World.aged eng past) (curlSpan eng url) :=
  .bind (createChildSpan _ _) fun _ => .bind (addAttribute _ _) fun _ =>
    .bind (addAttribute _ _) fun _ => .bind (addAttribute _ _) fun _ => .pure _

theorem curlHeaders (cid span : Nat) (option : Option Zval) :
    Echoes (World.aged eng past) (curlHeaders eng cid span option)
      (curlHeaders (eng.after past) cid span option) :=
  .bind (formatTraceParentHeader _) fun _ => .bind (.lift _) fun _ =>
    .bind formatBaggageHeader fun _ => .bind (.lift _) fun _ =>
      .ite (.bind (storeHeader _ _) fun _ => .pure _) (.pure _)

theorem native (f : ExecuteData → φ → Zval × φ) (execute_data : ExecuteData) :
    Unaware (World.aged eng past) (native f execute_data) :=
  .get_bind (fun _ => rfl) fun _ => .bind (overlooked.modifyPhp _) fun _ => .pure _

section

variable {originals : CurlOriginals φ}

theorem curl_setopt
    (h : ∀ execute_data, Unaware (World.aged eng past) (originals.curl_setopt execute_data))
    (execute_data : ExecuteData) : Unaware (World.aged eng past)
      (opentelemetry_curl_setopt_handler eng originals execute_data) := by
  refine .bind is_has_provider fun _ => .ite (h _) ?_
  split
  · split
    · refine .ite (.bind (.lift _) fun _ => h _) ?_
      split
      · exact .ite (.bind (storeHeader _ _) fun _ => h _) (h _)
      · exact .bind (.pure _) fun _ => h _
    · exact .pure _
  · exact .pure _

theorem curl_setopt_array
    (h : ∀ execute_data, Unaware (World.aged eng past) (originals.curl_setopt_array execute_data))
    (execute_data : ExecuteData) : Unaware (World.aged eng past)
      (opentelemetry_curl_setopt_array_handler eng originals execute_data) := by
  refine .bind is_has_provider fun _ => .ite (h _) ?_
  split
  · split
    · dsimp only
      split
      · exact .bind (storeHeader _ _) fun _ => h _
      · exact h _
    · exact .pure _
  · exact .pure _

theorem curl_close
    (h : ∀ execute_data, Unaware (World.aged eng past) (originals.curl_close execute_data))
    (execute_data : ExecuteData) : Unaware (World.aged eng past)
      (opentelemetry_curl_close_handler eng originals execute_data) := by
  refine .bind is_has_provider fun _ => .ite (h _) ?_
  split
  · split
    · exact .bind curlHeader fun _ => .bind (.modify fun _ => rfl) fun _ => h _
    · exact .pure _
  · exact .pure _

theorem curlExecEnter
    (h : ∀ execute_data, Unaware (World.aged eng past) (originals.curl_setopt execute_data))
    (execute_data : ExecuteData) (zid : Zval) (cid : Nat) : Echoes (World.aged eng past)
      (curlExecEnter eng originals execute_data zid cid)
      (curlExecEnter (eng.after past) originals execute_data zid cid) := by
  refine .bind (recordedUrl _) fun url => .bind curlHeader fun _ => ?_
  cases url with
  | none => exact .pure _
  | some url =>
    exact .bind (curlSpan _) fun _ => .bind (curlHeaders _ _ _) fun _ =>
      .bind (overlooked.json_encode _) fun _ => .bind (addAttribute _ _) fun _ =>
        .bind (.bind (curl_setopt h _) fun _ => .pure _) fun _ => .pure _

end

/-- First halves show the past of the map, if at all, only in headers. -/
theorem enter (natives : CurlNatives φ) (hook : Hook) (execute_data : ExecuteData) :
    Echoes (World.aged eng past) (hook.enter eng natives execute_data)
      (hook.enter (eng.after past) natives execute_data) := by
  cases hook with
  | redis => exact enterHandler redisEnter _
  | memcached => exact enterHandler memcachedEnter _
  | pdo => exact enterHandler pdoEnter _
  | pdo_statement => exact enterHandler pdoStatementEnter _
  | mysqli => exact enterHandler mysqliEnter _
  | yar_client => exact enterHandler yarClientEnter _
  | yar_server => exact yarServerEnter _
  | curl_exec =>
    refine .bind is_has_provider fun _ => .ite ?_ (.pure _)
    split
    · rename_i zid _
      rw [show curlHandle (eng.after past) zid = curlHandle eng zid from rfl]
      split
      · exact curlExecEnter (native _) _ _ _
      · exact .pure _
    · exact .pure _

theorem currentFunctionName (callers : List (Option ZendFunction)) :
    Unaware (World.aged eng past) (currentFunctionName eng callers) := by
  unfold opentelemetry.currentFunctionName
  split
  · exact .pure _
  · exact .bind firstOneSpan fun _ => .bind (.lift _) fun _ => .bind (readSpan _) fun _ => .pure _

theorem exceptionProperty (exception : Zval) (name : String) :
    Unaware (World.aged eng past) (exceptionProperty eng exception name) :=
  .get_bind (fun _ => rfl) fun _ => .lift _

theorem endErrorSpan (args : ErrorArgs) (span : Nat) :
    Unaware (World.aged eng past) (endErrorSpan eng args span) :=
  .ite (.ite (.bind firstOneSpan fun _ => .bind (.lift _) fun _ =>
      .bind (overlooked.errorEnd trivial _) fun _ => overlooked.errorEnd trivial _)
    (overlooked.errorEnd trivial _)) (overlooked.okEnd trivial)

theorem collectError (args : ErrorArgs) :
    Unaware (World.aged eng past) (collectError eng args) :=
  .bind (currentFunctionName _) fun _ => .bind (createChildSpan _ _) fun _ =>
    .bind (addAttributes _ _) fun _ => endErrorSpan _ _

theorem error_cb (args : ErrorArgs) :
    Unaware (World.aged eng past) (opentelemetry_error_cb eng (fun _ => return) args) :=
  globals_bind fun _ => .ite (.bind is_has_provider fun _ =>
    .ite (.bind (collectError _) fun _ => .pure _) (.pure _)) (.pure _)

theorem traceException (args : ExceptionArgs) :
    Unaware (World.aged eng past) (traceException eng args) := by
  refine .bind (exceptionProperty _ _) fun _ => .bind (.lift _) fun _ =>
    .bind (exceptionProperty _ _) fun _ => .bind (.lift _) fun _ =>
    .bind (exceptionProperty _ _) fun _ => .bind (exceptionProperty _ _) fun _ =>
    .bind (.lift _) fun _ => .bind (currentFunctionName _) fun _ =>
    .bind (createChildSpan _ _) fun _ => .bind (overlooked.errorEnd trivial _) fun _ => ?_
  refine .bind (addAttribute _ _) fun _ => .bind (addAttribute _ _) fun _ =>
    .bind (addAttribute _ _) fun _ => ?_
  exact .ite (.bind (overlooked.setRedisException _) fun _ => addAttribute _ _) (addAttribute _ _)

theorem throw_exception_hook (exception : Option ExceptionArgs) : Unaware (World.aged eng past)
    (opentelemetry_throw_exception_hook eng (fun _ => return) exception) := by
  refine .ite (.bind is_has_provider fun _ => .ite ?_ (.pure _)) (.pure _)
  cases exception with
  | some args => exact .bind (traceException args) fun _ => .pure _
  | none => exact .pure _

theorem attributeText (value : Zval) : Echoes (World.aged eng past) (attributeText eng value)
    (attributeText (eng.after past) value) := by
  unfold opentelemetry.attributeText
  split
  · exact overlooked.json_encode _
  · exact .pure _
  · exact argumentText _

theorem addSpanAttribute (span : Nat) (entry : ArrayKey × Zval) :
    Echoes (World.aged eng past) (addSpanAttribute eng span entry)
      (addSpanAttribute (eng.after past) span entry) :=
  .bind (.lift _) fun _ => .bind (.lift _) fun _ => .bind (.lift _) fun _ => .bind (.lift _) fun _ =>
    .bind (attributeText _) fun _ => addAttribute _ _

theorem eventAttributes (entries : List (ArrayKey × Zval)) :
    Echoes (World.aged eng past) (eventAttributes eng entries)
      (eventAttributes (eng.after past) entries) := by
  induction entries with
  | nil => exact .pure _
  | cons e rest ih =>
    obtain ⟨key | key, value⟩ := e
    · exact ih
    · exact .bind (attributeText _) fun _ => .bind ih fun _ => .pure _

theorem find_server_string (key : Bytes) :
    Unaware (World.aged eng past) (find_server_string key : M φ Bytes) := by
  refine .get_bind (fun _ => rfl) fun w => ?_
  cases w.server key with
  | some value => exact .lift _
  | none => exact .pure _

theorem set_sample_ratio_based (args : Option Int) : Unaware (World.aged eng past)
    (opentelemetry_set_sample_ratio_based eng args) := by
  refine .bind is_has_provider fun _ => .ite ?_ (.pure _)
  cases args with
  | none => exact .pure _
  | some ratio_based =>
    exact .ite (overlooked.setSampled false) (.ite (overlooked.setSampled true)
      (.bind (find_server_string _) fun _ => .ite (.bind count fun _ => globals_bind fun _ =>
        .bind (.lift _) fun _ => .ite (overlooked.setSampled true) (.pure _)) (.pure _)))

theorem add_span (args : Option AddSpanArgs) : Echoes (World.aged eng past)
    (opentelemetry_add_span eng args) (opentelemetry_add_span (eng.after past) args) := by
  refine .bind is_has_provider fun _ => .ite ?_ (.pure _)
  cases args with
  | none => exact .pure _
  | some args =>
    exact .bind (createChildSpan _ _) fun _ => .bind (modifySpan _ _) fun _ =>
      .bind (.forM fun _ => addSpanAttribute _ _) fun _ =>
        .ite (.bind (overlooked.errorEnd trivial _) fun _ => .pure _)
          (.bind (overlooked.okEnd trivial) fun _ => .pure _)

theorem sdk (call : SdkCall) :
    Echoes (World.aged eng past) (call.run eng) (call.run (eng.after past)) := by
  have hguarded {α : Type} {a : α} {m m' : M φ α} (h : Echoes (World.aged eng past) m m') :
      Echoes (World.aged eng past)
        (do
          if ← opentelemetry.is_has_provider then m
          else return a)
        (do
          if ← opentelemetry.is_has_provider then m'
          else return a) := .bind is_has_provider fun _ => .ite h (.pure _)
  cases call with
  | get_traceparent =>
    exact .bind (hguarded (.bind firstOneSpan fun _ => .bind (.lift _) fun _ =>
      .bind (formatTraceParentHeader _) fun _ => .pure _)) fun _ => .pure _
  | get_baggage =>
    exact .bind (hguarded (.bind formatBaggageHeader fun _ => .pure _)) fun _ => .pure _
  | add_baggage args =>
    refine .bind (hguarded ?_) fun _ => .pure _
    cases args with
    | none => exact .pure _
    | some args =>
      exact .bind (.lift _) fun _ => .bind (.lift _) fun _ => .bind (addBaggage _ _) fun _ => .pure _
  | set_sample_ratio_based args => exact set_sample_ratio_based args
  | get_unix_nano => exact .bind (fun _ => rfl) fun _ => .pure _
  | add_span args => exact .bind (add_span args) fun _ => .pure _
  | add_resource_attribute args =>
    refine .bind (hguarded ?_) fun _ => .pure _
    cases args with
    | none => exact .pure _
    | some args =>
      exact .bind getResource fun _ => .bind (.lift _) fun _ =>
        .bind (addResourceAttribute _ _) fun _ => .pure _
  | add_attribute args =>
    refine .bind (hguarded ?_) fun _ => .pure _
    cases args with
    | none => exact .pure _
    | some args =>
      exact .bind firstOneSpan fun _ => .bind (.lift _) fun _ => .bind (addAttribute _ _) fun _ =>
        .pure _
  | add_event args =>
    refine .bind (hguarded ?_) fun _ => .pure _
    cases args with
    | none => exact .pure _
    | some args =>
      exact .bind firstOneSpan fun _ => .bind (.lift _) fun _ => .bind (fun _ => rfl) fun _ =>
        .bind (eventAttributes _) fun _ => .bind (modifySpan _ _) fun _ => .pure _

/-- What a call does and what comes of it does not depend on the past of the map, if the engine
lists it in the same order. -/
theorem call (natives : CurlNatives φ) (c : Call) :
    Echoes (World.aged eng past) (c.run eng natives) (c.run (eng.after past) natives) := by
  cases c with
  | enter hook execute_data => exact .bind (enter natives hook execute_data) fun _ => .pure _
  | leave hook execute_data return_value span =>
    exact overlooked.leave (fun _ _ => trivial) execute_data return_value
  | curl_setopt execute_data => exact .bind (curl_setopt (native _) _) fun _ => .pure _
  | curl_setopt_array execute_data => exact .bind (curl_setopt_array (native _) _) fun _ => .pure _
  | curl_close execute_data => exact .bind (curl_close (native _) _) fun _ => .pure _
  | error args => exact error_cb args
  | exception args => exact throw_exception_hook args
  | sdk c => exact sdk c

theorem clean : Unaware (World.aged eng past) (Provider.clean eng) := by
  refine slot_bind fun s => ?_
  obtain ⟨request, _, _, _, _, _, _⟩ := s
  have hclear : Unaware (World.aged eng past) (opentelemetry.modifySlot eng fun s =>
      { s with baggage := s.baggage.clear, redisException := [] }) := by
    refine modifySlot fun s => ?_
    simp only [Slot.aged, Table.clear_after]
  cases request with
  | some request =>
    refine .bind (.get_bind (fun _ => rfl) fun _ => .bind (.lift _) fun _ => .modify fun _ => rfl)
      fun _ => .bind (modifySlot fun _ => rfl) fun _ => .ite hclear (.pure _)
  | none => exact .ite hclear (.pure _)

theorem init_consumers : Unaware (World.aged eng past) (init_consumers eng) := by
  refine globals_bind fun _ => .ite (.pure _) (.get_bind (fun _ => rfl) fun w =>
    .bind (.modify fun _ => rfl) fun _ => .bind (globals_bind fun _ => .modify fun _ => rfl) fun _ =>
      .bind (.modify fun _ => rfl) fun _ => .ite (.bind (.modify fun _ => rfl) fun _ => ?_) ?_)
  · exact globals_bind fun _ => .bind (.modify fun _ => rfl) fun _ =>
      .ite (.pure _) (.modify fun _ => rfl)
  · exact globals_bind fun _ => .bind (.modify fun _ => rfl) fun _ =>
      .ite (.pure _) (.modify fun _ => rfl)

theorem serviceNameFromServer :
    Unaware (World.aged eng past) (serviceNameFromServer eng : M φ Unit) :=
  globals_bind fun _ => .ite (.bind (find_server_string _) fun _ =>
    .ite (.modify fun _ => rfl) (.pure _)) (.pure _)

theorem postAttribute (span : Nat) (request_method : Bytes) :
    Unaware (World.aged eng past) (postAttribute eng span request_method) := by
  refine .ite (.get_bind (fun _ => rfl) fun w => ?_) (.pure _)
  cases w.post with
  | some post => exact .bind (overlooked.json_encode _) fun _ => addAttribute _ _
  | none => exact .pure _

theorem requestAttributes (span : Nat) (request_uri : Bytes) :
    Unaware (World.aged eng past) (requestAttributes eng span request_uri) :=
  .bind (find_server_string _) fun _ => .bind (find_server_string _) fun _ =>
    .bind (find_server_string _) fun _ => .bind (find_server_string _) fun _ =>
    .bind (find_server_string _) fun _ => .bind (find_server_string _) fun _ =>
    .bind (addAttribute _ _) fun _ => .bind (postAttribute _ _) fun _ =>
    .bind (addAttribute _ _) fun _ => .bind (addAttribute _ _) fun _ =>
    .bind (addAttribute _ _) fun _ => .bind (addAttribute _ _) fun _ =>
    globals_bind fun _ => .bind (addAttribute _ _) fun _ => addAttribute _ _

theorem startRequestSpan (kind : SpanKind) :
    Unaware (World.aged eng past) (startRequestSpan eng kind) :=
  .bind (find_server_string _) fun _ => .bind (find_server_string _) fun _ =>
    .bind (find_server_string _) fun _ => .bind (createFirstSpan _ _) fun _ =>
    .bind (parseTraceParent _) fun _ => .bind (parseBaggage _) fun _ => requestAttributes _ _

theorem attachResource : Unaware (World.aged eng past) (attachResource eng) :=
  .bind getTracer fun _ => .bind getResource fun _ => .get_bind (fun _ => rfl) fun _ =>
    .bind (.lift _) fun _ => .modify fun _ => rfl

theorem exporterOpenTelemetry : Unaware (World.aged eng past) (exporterOpenTelemetry eng) :=
  .bind getRequest fun _ => .bind (.lift _) fun _ => .get_bind (fun _ => rfl) fun _ =>
    .bind (.lift _) fun _ => .modify fun _ => rfl

theorem collectSession : Unaware (World.aged eng past) (collectSession eng) :=
  globals_bind fun _ => .ite (.bind isSampled fun _ => .ite exporterOpenTelemetry (.pure _)) (.pure _)

theorem finishSession (first : Nat) : Unaware (World.aged eng past) (finishSession eng first) :=
  .bind (overlooked.okEnd trivial) fun _ => .bind attachResource fun _ =>
    .bind collectSession fun _ => .bind clean fun _ => .ite (.modify fun _ => rfl) (.pure _)

theorem shutdown_tracer : Unaware (World.aged eng past) (shutdown_tracer eng) := by
  refine globals_bind fun _ => .ite (.modify fun _ => rfl) (.bind firstOneSpan fun first => ?_)
  cases first with
  | some first => exact .bind (finishSession first) fun _ => .modify fun _ => rfl
  | none => exact .modify fun _ => rfl

theorem resetProvider {p : Provider} (hp : w.globals.provider = some p) :
    resetProvider eng (w.aged eng past) = through (World.aged eng past) (resetProvider eng w) := by
  have hensure {v : World φ} (hv : v.globals.provider.isSome) : ensureProvider v = .ok ((), v) := by
    rw [ensureProvider, bind_apply, is_has_provider_of_some hv]
    rfl
  have hrest : Unaware (World.aged eng past) (do
      Provider.clean eng
      Provider.increase
      modifyGlobals fun g => { g with curl_header := some [] }) :=
    .bind clean fun _ => .bind increase fun _ => .modify fun _ => rfl
  refine Echoes.bind_at ?_ fun _ t _ => hrest t
  rw [hensure (by rw [aged_of_some hp]; rfl), hensure (by rw [hp]; rfl)]
  rfl

/-- A start cleans up a provider that is there. -/
theorem start_tracer {p : Provider} (hcli : eng.cli = false) (hp : w.globals.provider = some p)
    (traceparent tracebaggage : Bytes) (kind : SpanKind) :
    start_tracer eng traceparent tracebaggage kind (w.aged eng past) =
      through (World.aged eng past) (start_tracer eng traceparent tracebaggage kind w) := by
  have hstart (v : World φ) : opentelemetry.start_tracer eng traceparent tracebaggage kind v =
      (opentelemetry.init_consumers eng >>= fun _ => opentelemetry.resetProvider eng >>= fun _ =>
        opentelemetry.serviceNameFromServer eng >>= fun _ =>
          opentelemetry.startRequestSpan eng kind) v := by
    simp [opentelemetry.start_tracer, globals_apply, hcli]
  rw [hstart, hstart]
  refine Echoes.bind_at (init_consumers w) fun _ u hinit => ?_
  have hprovider : u.core.globals.provider = w.core.globals.provider := by
    rw [init_consumers_core (.of_ok hinit)]
  refine Echoes.bind_at (resetProvider (hprovider.trans hp)) fun _ v _ => ?_
  exact Echoes.bind serviceNameFromServer (fun _ => startRequestSpan kind) v

theorem event {natives : CurlNatives φ} (hcli : eng.cli = false)
    (hw : w.globals.provider.isSome) (e : Event φ) : e.run eng natives (w.aged eng past) =
      through (World.aged eng past) (e.run (eng.after past) natives w) := by
  cases e with
  | call c => exact call natives c w
  | surround s => rfl
  | reparent ppid =>
    have hkey (v : World φ) : v.key eng = none := by
      rw [World.key, hcli]
      rfl
    simp [Event.run, World.aged, hkey, through]
  | request_init =>
    obtain ⟨p, hp⟩ := Option.isSome_iff_exists.mp hw
    have hinit (eng : Engine φ) (hcli : eng.cli = false) (v : World φ) :
        Event.run eng natives .request_init v = if v.globals.enable = true
          then opentelemetry.start_tracer eng [] [] .server v else .ok ((), v) := by
      simp only [Event.run, opentelemetry_request_init, bind_apply, globals_apply, ok_bind, hcli]
      by_cases henable : v.globals.enable = true <;> simp [henable]
    rw [hinit eng hcli, hinit (eng.after past) hcli]
    by_cases henable : w.globals.enable = true
    · rw [if_pos henable, if_pos (show (w.aged eng past).globals.enable = true from henable)]
      exact start_tracer hcli hp _ _ _
    · rw [if_neg henable, if_neg (show ¬ (w.aged eng past).globals.enable = true from henable)]
      rfl
  | request_shutdown => exact globals_bind (fun _ => .ite (.pure _) shutdown_tracer) w
  | start_cli_tracer args =>
    have hskip (eng : Engine φ) (hcli : eng.cli = false) (v : World φ) :
        opentelemetry_start_cli_tracer eng args v = .ok (false, v) := by
      simp [opentelemetry_start_cli_tracer, globals_apply, hcli]
    exact Echoes.bind_at (by rw [hskip eng hcli, hskip (eng.after past) hcli]; rfl) fun _ _ _ => rfl
  | shutdown_cli_tracer =>
    have hskip (eng : Engine φ) (hcli : eng.cli = false) (v : World φ) :
        opentelemetry_shutdown_cli_tracer eng v = .ok (false, v) := by
      simp [opentelemetry_shutdown_cli_tracer, globals_apply, hcli]
    exact Echoes.bind_at (by rw [hskip eng hcli, hskip (eng.after past) hcli]; rfl) fun _ _ _ => rfl

end Aged

variable (eng) in
/-- Outside the CLI a provider stays. -/
theorem provider_kept {natives : CurlNatives φ} {e : Event φ} {w' : World φ} (hcli : eng.cli = false)
    (h : Step eng natives e w w') (hw : w.globals.provider.isSome) : w'.globals.provider.isSome := by
  have hlive (v : World φ) : v.globals.provider.isSome = v.sessions.live.isSome := by
    rw [World.sessions, Option.isSome_map]
  have hclosed (t : Sessions) : (t.closed false).live.isSome = t.live.isSome := by
    unfold Sessions.closed
    cases t.live with
    | none => rfl
    | some live =>
      dsimp only
      split <;> rfl
  rw [hlive] at hw ⊢
  rw [sessions_step h, hcli]
  cases e with
  | call _ | surround _ | reparent _ => exact hw
  | request_init =>
    dsimp only [Sessions.next]
    split
    · rfl
    · exact hw
  | request_shutdown =>
    dsimp only [Sessions.next]
    split
    · rwa [hclosed]
    · exact hw
  | start_cli_tracer args => rwa [Sessions.next, if_neg (by simp)]
  | shutdown_cli_tracer => rwa [Sessions.next, if_neg (by simp)]

/-- A process whose baggage map has been filled before goes the way of one whose map has not, under
an engine that lists the map accordingly. -/
theorem aged_run {natives : CurlNatives φ} {es : List (Event φ)} {u : World φ}
    (hcli : eng.cli = false) (hw : w.globals.provider.isSome) :
    Run (Step eng natives) (w.aged eng past) es u ↔
      ∃ v, Run (Step (eng.after past) natives) w es v ∧ v.aged eng past = u :=
  run_image_iff (fun e _ _ hs => Echoes.ends_iff (Aged.event hcli hs e))
    (fun _ _ _ hs hstep => provider_kept (eng.after past) hcli hstep hs) hw

end opentelemetry
