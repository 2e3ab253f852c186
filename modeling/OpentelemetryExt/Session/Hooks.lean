import OpentelemetryExt.Session

open stateful

namespace opentelemetry

variable {φ : Type} {eng : Engine φ} {d : Details} {g : Grants} {originals : CurlOriginals φ}

namespace Move

theorem reads_Z_PDO_DBH_P (self : Zval) : Reads (Z_PDO_DBH_P eng self) := by
  unfold Z_PDO_DBH_P
  split
  · refine .bind .get fun w => ?_
    split
    · exact .pure _
    · exact .lift _
  · exact .lift _

theorem reads_Z_PDO_STMT_P (self : Zval) : Reads (Z_PDO_STMT_P eng self) := by
  unfold Z_PDO_STMT_P
  split
  · refine .bind .get fun w => ?_
    split
    · exact .pure _
    · exact .lift _
  · exact .lift _

theorem reads_Z_MYSQLI_P (obj : Zval) : Reads (Z_MYSQLI_P eng obj) := by
  unfold Z_MYSQLI_P
  split
  · refine .bind .get fun w => ?_
    split
    · exact .pure _
    · exact .lift _
  · exact .lift _

theorem reads_mysqliLink (execute_data : ExecuteData) : Reads (mysqliLink eng execute_data) := by
  unfold mysqliLink
  split
  · exact .pure _
  split
  · exact reads_Z_MYSQLI_P _
  · refine .bind (.lift _) fun obj => ?_
    split
    · exact .pure _
    · exact reads_Z_MYSQLI_P _

theorem reads_recordedUrl (zid : Zval) : Reads (recordedUrl eng zid) :=
  .bind .get fun _ => .bind (.lift _) fun _ => .bind (.lift _) fun _ => .bind (.lift _) fun _ => by
    split
    · exact .pure _
    · exact .pure _

theorem reads_curlErrorMessage (zid : Zval) : Reads (curlErrorMessage eng zid) := by
  refine .bind .get fun _ => .bind (.lift _) fun _ => ?_
  split
  · exact .pure _
  · refine .bind (.lift _) fun _ => ?_
    dsimp only
    split
    · exact .pure _
    · exact .pure _

theorem reads_currentFunctionName (callers : List (Option ZendFunction)) :
    Reads (currentFunctionName eng callers) := by
  unfold currentFunctionName
  split
  · exact .pure _
  · exact .bind Op.reads_firstOneSpan fun _ => .bind (.lift _) fun _ =>
      .bind (Op.reads_readSpan _) fun _ => .pure _

theorem reads_exceptionProperty (exception : Zval) (name : String) :
    Reads (exceptionProperty eng exception name) := .bind .get fun _ => .lift _

end Move

/-- Setting an option is made of what its original is, and of what is done to the header store. -/
theorem built_setopt {P : ∀ {α : Type}, M φ α → Prop}
    (hstore : ∀ cid value, Built P (storeHeader cid value))
    (h : ∀ execute_data, Built P (originals.curl_setopt execute_data)) (execute_data : ExecuteData) :
    Built P (opentelemetry_curl_setopt_handler eng originals execute_data) := by
  refine .bind (.reads Op.reads_is_has_provider) fun _ => .ite (h _) ?_
  split
  · split
    · refine .ite (.bind (.reads (.lift _)) fun _ => h _) ?_
      split
      · exact .ite (.bind (hstore _ _) fun _ => h _) (h _)
      · exact .bind (.pure _) fun _ => h _
    · exact .pure _
  · exact .pure _

namespace Effect

theorem built_enterHandler {enter : ExecuteData → M φ Nat}
    (h : ∀ execute_data, Built (Effect eng d g) (enter execute_data)) (execute_data : ExecuteData) :
    Built (Effect eng d g) (enterHandler enter execute_data) :=
  .bind (.reads Op.reads_is_has_provider) fun _ =>
    .ite (.bind (h execute_data) fun _ => .pure _) (.pure _)

theorem built_enterSpan (hcreates : g.creates) {enter : ExecuteData → M φ Nat}
    (h : ∀ execute_data, SpawnsBy eng (Effect eng d g) (enter execute_data))
    (execute_data : ExecuteData) : Built (Effect eng d g) (enterHandler enter execute_data) :=
  built_enterHandler (fun execute_data => built_spawns hcreates (h execute_data)) _

theorem built_leaveHandler {leave : ExecuteData → Nat → M φ Unit}
    (h : ∀ execute_data span, Built (Effect eng d g) (leave execute_data span))
    (execute_data : ExecuteData) (span : Option Nat) :
    Built (Effect eng d g) (leaveHandler leave execute_data span) :=
  .bind (.reads Op.reads_is_has_provider) fun _ =>
    .ite (.bind (.reads (.lift _)) fun _ => h execute_data _) (.pure _)

theorem built_redisPeer (execute_data : ExecuteData) (span : Nat) :
    Built (Effect eng d g) (redisPeer eng execute_data span) := by
  refine .bind (built_zend_call_method _ _ _) fun host =>
    .bind (built_zend_call_method _ _ _) fun port => ?_
  split
  · exact .bind (built_addAttribute _ _) fun _ => built_addAttribute _ _
  · exact .pure _

theorem built_redisArgument (cmd : Bytes) (span i : Nat) (p : Zval) (str : Bytes) :
    Built (Effect eng d g) (redisArgument eng cmd span i p str) := by
  refine .ite (built_addAttribute _ _) (.ite (built_addAttribute _ _) (.ite ?_ (.pure _)))
  split
  · exact .pure _
  · exact .bind (.reads (.lift _)) fun _ => built_addAttribute _ _

theorem built_redisCommand (execute_data : ExecuteData) (span : Nat) (command : Bytes) (i : Nat) :
    Built (Effect eng d g) (redisCommand eng execute_data span command i) := by
  refine .bind (.reads (.lift _)) fun p => ?_
  split
  · exact .bind (.reads (Op.reads_json_encode _)) fun _ => .pure _
  · exact .bind (.reads (Op.reads_argumentText _)) fun _ =>
      .bind (built_redisArgument _ _ _ _ _) fun _ => .pure _

theorem spawns_redisEnter (execute_data : ExecuteData) :
    SpawnsBy eng (Effect eng d g) (redisEnter eng execute_data) := by
  refine (spawns_openSpan _ _ _).bind (fun span => .bind (built_addAttribute _ _) fun _ => ?_)
    fun span => .bind fun _ => ?_
  · have hrest : Built (Effect eng d g) (do
        let command ← (List.range' 1 (ZEND_CALL_NUM_ARGS execute_data)).foldlM
          (redisCommand eng execute_data span) (execute_data.cmd ++ lit " ")
        addAttribute span (string_attribute "db.statement" (statementText command))
        return span) :=
      .bind (.foldlM (built_redisCommand execute_data span) _) fun _ =>
        .bind (built_addAttribute _ _) fun _ => .pure _
    exact .ite (.bind (built_redisPeer _ _) fun _ => hrest) hrest
  · exact .ite (.bind fun _ => .bind fun _ => .bind fun _ => .pure _)
      (.bind fun _ => .bind fun _ => .pure _)

theorem built_redisLeave (hends : g.ends) (hraises : g.raises) (execute_data : ExecuteData) (span : Nat) :
    Built (Effect eng d g) (redisLeave eng execute_data span) :=
  .bind (.bind (.reads Op.reads_getRedisException) fun _ => .pure _) fun _ =>
    .ite (.bind (.reads Op.reads_getRedisException) fun _ => .bind (.op (.errorEnd hends _ _)) fun _ =>
      .op (.setRedisException hraises _)) (.op (.okEnd hends _))

theorem built_memcachedServer (execute_data : ExecuteData) (span : Nat) (str : Bytes) :
    Built (Effect eng d g) (memcachedServer eng execute_data span str) := by
  refine .bind (built_zend_call_method _ _ _) fun server => ?_
  split
  · exact .bind (.reads (.lift _)) fun _ => .bind (.reads (.lift _)) fun _ =>
      .bind (.reads (.lift _)) fun _ => .bind (.reads (.lift _)) fun _ =>
        .bind (built_addAttribute _ _) fun _ => .bind (built_addAttribute _ _) fun _ =>
          built_addAttribute _ _
  · exact .pure _

theorem built_memcachedCommand (execute_data : ExecuteData) (span : Nat) (command : Bytes)
    (i : Nat) : Built (Effect eng d g) (memcachedCommand eng execute_data span command i) := by
  refine .bind (.reads (.lift _)) fun p => ?_
  split
  · exact .bind (.reads (Op.reads_json_encode _)) fun _ => .pure _
  · exact .bind (.reads (Op.reads_argumentText _)) fun str =>
      .ite (.bind (built_addAttribute _ _) fun _ =>
        .ite (.bind (built_memcachedServer _ _ _) fun _ => .pure _) (.pure _)) (.pure _)
  · exact .bind (.reads (Op.reads_argumentText _)) fun _ => .pure _

theorem spawns_memcachedEnter (execute_data : ExecuteData) :
    SpawnsBy eng (Effect eng d g) (memcachedEnter eng execute_data) :=
  (spawns_openSpan _ _ _).bind
    (fun span => .bind (.foldlM (built_memcachedCommand execute_data span) _) fun _ =>
      .bind (built_addAttribute _ _) fun _ => .pure _)
    fun _ => .bind fun _ => .bind fun _ => .pure _

theorem built_memcachedLeave (hends : g.ends) (execute_data : ExecuteData) (span : Nat) :
    Built (Effect eng d g) (memcachedLeave eng execute_data span) := by
  refine .bind (built_zend_call_method _ _ _) fun result => ?_
  split
  · exact .ite
      (.ite (.bind (built_addAttribute _ _) fun _ => .op (.okEnd hends _)) (.op (.okEnd hends _)))
      (.ite (.bind (built_addAttribute _ _) fun _ => .op (.okEnd hends _)) (.op (.errorEnd hends _ _)))
  · exact .op (.errorEnd hends _ _)

theorem built_pdoArguments (execute_data : ExecuteData) (span : Nat) :
    Built (Effect eng d g) (pdoArguments execute_data span) := by
  refine .ite (.pure _) (.bind (.reads (.lift _)) fun p => ?_)
  split
  · exact .ite (.bind (built_addAttribute _ _) fun _ => .pure _)
      (.bind (.reads (.lift _)) fun _ => .bind (.reads (.lift _)) fun _ =>
        .bind (built_addAttribute _ _) fun _ => .pure _)
  · exact .pure _

theorem spawns_pdoEnter (execute_data : ExecuteData) :
    SpawnsBy eng (Effect eng d g) (pdoEnter eng execute_data) :=
  (spawns_openSpan _ _ _).bind
    (fun _ => .bind (built_pdoArguments _ _) fun _ => .bind (built_addAttributes _ _) fun _ =>
      .bind (.reads (Move.reads_Z_PDO_DBH_P _)) fun _ => .bind (.reads (.lift _)) fun _ =>
        .bind (built_addAttributes _ _) fun _ => .pure _)
    fun _ => .bind fun _ => .bind fun _ => .bind fun _ => .bind fun _ => .bind fun _ => .pure _

theorem built_pdoLeave (hends : g.ends) (execute_data : ExecuteData) (span : Nat) :
    Built (Effect eng d g) (pdoLeave eng execute_data span) := by
  refine .bind (.reads (Move.reads_Z_PDO_DBH_P _)) fun dbh => ?_
  dsimp only
  split
  · exact .op (.okEnd hends _)
  · refine .bind (.reads (.lift _)) fun message => ?_
    split
    · exact .op (.errorEnd hends _ _)
    · exact .op (.okEnd hends _)

theorem spawns_pdoStatementEnter (execute_data : ExecuteData) :
    SpawnsBy eng (Effect eng d g) (pdoStatementEnter eng execute_data) :=
  (spawns_openSpan _ _ _).bind
    (fun _ => .bind (.reads (Move.reads_Z_PDO_STMT_P _)) fun _ => .bind (.reads (.lift _)) fun _ =>
      .bind (built_addAttributes _ _) fun _ => .pure _)
    fun _ => .bind fun _ => .bind fun _ => .bind fun _ => .pure _

theorem built_pdoStatementLeave (hends : g.ends) (execute_data : ExecuteData) (span : Nat) :
    Built (Effect eng d g) (pdoStatementLeave eng execute_data span) := by
  refine .bind (.reads (Move.reads_Z_PDO_STMT_P _)) fun stmt => .ite ?_ (.op (.okEnd hends _))
  refine .bind (.reads (.lift _)) fun _ => .bind (.reads (.lift _)) fun message => ?_
  split
  · exact .op (.errorEnd hends _ _)
  · exact .op (.errorEnd hends _ _)

theorem spawns_mysqliEnter (execute_data : ExecuteData) :
    SpawnsBy eng (Effect eng d g) (mysqliEnter eng execute_data) :=
  (spawns_openSpan _ _ _).bind
    (fun _ => .bind (.reads (.lift _)) fun _ => .bind (.reads (Move.reads_mysqliLink _)) fun _ =>
      .bind (.reads (.lift _)) fun _ => .bind (built_addAttributes _ _) fun _ => .pure _)
    fun _ => .bind fun _ => .bind fun _ => .bind fun _ => .bind fun _ => .pure _

theorem built_mysqliLeave (hends : g.ends) (execute_data : ExecuteData) (span : Nat) :
    Built (Effect eng d g) (mysqliLeave execute_data span) := .op (.okEnd hends span)

theorem built_yarLeave (hends : g.ends) (execute_data : ExecuteData) (span : Nat) :
    Built (Effect eng d g) (yarLeave execute_data span) := .op (.okEnd hends span)

theorem built_yarHeaders (execute_data : ExecuteData) (span : Nat) :
    Built (Effect eng d g) (yarHeaders eng execute_data span) :=
  .bind (built_formatTraceParentHeader _) fun _ => .bind (.reads (.lift _)) fun _ =>
    .bind (.reads Op.reads_formatBaggageHeader) fun _ => .bind (.reads (.lift _)) fun _ =>
      .bind (built_zend_call_method _ _ _) fun _ => .pure _

theorem built_yarCommand (execute_data : ExecuteData) (span : Nat) (command : Bytes) (i : Nat) :
    Built (Effect eng d g) (yarCommand eng execute_data span command i) := by
  refine .bind (.reads (.lift _)) fun p => ?_
  split
  · exact .bind (.reads (Op.reads_json_encode _)) fun _ => .pure _
  · exact .ite (.bind (built_addAttribute _ _) fun _ => .pure _) (.pure _)
  · exact .bind (.reads (Op.reads_argumentText _)) fun _ => .pure _

theorem built_yarCall (execute_data : ExecuteData) (span : Nat) (command : Bytes) :
    Built (Effect eng d g) (yarCall eng execute_data span command) := by
  refine .bind (built_addAttribute _ _) fun _ => ?_
  split
  · refine .bind (.reads .get) fun w => ?_
    split
    · exact .bind (.reads (.lift _)) fun _ => built_addAttribute _ _
    · exact .pure _
  · exact .pure _

theorem spawns_yarClientEnter (execute_data : ExecuteData) :
    SpawnsBy eng (Effect eng d g) (yarClientEnter eng execute_data) :=
  (spawns_openSpan _ _ _).bind
    (fun span => .bind (built_addAttribute _ _) fun _ => .bind (built_yarHeaders _ _) fun _ =>
      .bind (.foldlM (built_yarCommand execute_data span) _) fun _ =>
        .ite (.bind (built_yarCall _ _ _) fun _ => .pure _) (.pure _))
    fun _ => .bind fun _ => .bind fun _ => .bind fun _ => .ite (.bind fun _ => .pure _) (.pure _)

theorem built_yarServerEnter (hcreates : g.creates) (execute_data : ExecuteData) :
    Built (Effect eng d g) (yarServerEnter eng execute_data) :=
  .bind (built_enterSpan hcreates (fun _ => spawns_openSpan _ _ _) _) fun _ =>
    .bind (.reads (.lift _)) fun _ => .bind (built_addAttribute _ _) fun _ => .pure _

theorem built_storeHeader (hstores : g.stores) (cid : Nat) (value : Zval) :
    Built (Effect eng d g) (storeHeader cid value) :=
  .bind (.reads Op.reads_curlHeader) fun _ => .op (.headers hstores _)

theorem spawns_curlSpan (url : Url) : SpawnsBy eng (Effect eng d g) (curlSpan eng url) :=
  ⟨_, _, _, rfl, fun _ => ⟨.bind (built_addAttribute _ _) fun _ => .bind (built_addAttribute _ _)
    fun _ => .bind (built_addAttribute _ _) fun _ => .pure _,
    .bind fun _ => .bind fun _ => .bind fun _ => .pure _⟩⟩

theorem built_curlHeaders (hstores : g.stores) (cid span : Nat) (option : Option Zval) :
    Built (Effect eng d g) (curlHeaders eng cid span option) :=
  .bind (built_formatTraceParentHeader _) fun _ => .bind (.reads (.lift _)) fun _ =>
    .bind (.reads Op.reads_formatBaggageHeader) fun _ => .bind (.reads (.lift _)) fun _ =>
      .ite (.bind (built_storeHeader hstores _ _) fun _ => .pure _) (.pure _)

theorem built_curl_setopt (hstores : g.stores)
    (h : ∀ execute_data, Built (Effect eng d g) (originals.curl_setopt execute_data))
    (execute_data : ExecuteData) :
    Built (Effect eng d g) (opentelemetry_curl_setopt_handler eng originals execute_data) :=
  built_setopt (built_storeHeader hstores) h _

theorem built_curl_setopt_array (hstores : g.stores)
    (h : ∀ execute_data, Built (Effect eng d g) (originals.curl_setopt_array execute_data))
    (execute_data : ExecuteData) :
    Built (Effect eng d g) (opentelemetry_curl_setopt_array_handler eng originals execute_data) := by
  refine .bind (.reads Op.reads_is_has_provider) fun _ => .ite (h _) ?_
  split
  · split
    · dsimp only
      split
      · exact .bind (built_storeHeader hstores _ _) fun _ => h _
      · exact h _
    · exact .pure _
  · exact .pure _

theorem built_curl_close (hstores : g.stores)
    (h : ∀ execute_data, Built (Effect eng d g) (originals.curl_close execute_data))
    (execute_data : ExecuteData) :
    Built (Effect eng d g) (opentelemetry_curl_close_handler eng originals execute_data) := by
  refine .bind (.reads Op.reads_is_has_provider) fun _ => .ite (h _) ?_
  split
  · split
    · exact .bind (.reads Op.reads_curlHeader) fun _ => .bind (.op (.headers hstores _)) fun _ => h _
    · exact .pure _
  · exact .pure _

theorem built_curlExecEnter (hcreates : g.creates) (hstores : g.stores)
    (h : ∀ execute_data, Built (Effect eng d g) (originals.curl_setopt execute_data))
    (execute_data : ExecuteData) (zid : Zval) (cid : Nat) :
    Built (Effect eng d g) (curlExecEnter eng originals execute_data zid cid) := by
  refine .bind (.reads (Move.reads_recordedUrl _)) fun url =>
    .bind (.reads Op.reads_curlHeader) fun _ => ?_
  dsimp only
  split
  · exact .pure _
  · exact .bind (built_spawns hcreates (spawns_curlSpan _)) fun _ =>
      .bind (built_curlHeaders hstores _ _ _) fun _ =>
      .bind (.reads (Op.reads_json_encode _)) fun _ => .bind (built_addAttribute _ _) fun _ =>
        .bind (.bind (built_curl_setopt hstores h _) fun _ => .pure _) fun _ => .pure _

theorem built_curlOutcome (hends : g.ends) (zid return_value : Zval) (span : Nat) (http_code : Int) :
    Built (Effect eng d g) (curlOutcome eng zid return_value span http_code) :=
  .ite (.bind (.reads (Move.reads_curlErrorMessage _)) fun _ => .op (.errorEnd hends _ _))
    (.ite (.bind (.reads (.lift _)) fun _ => .bind (built_addAttribute _ _) fun _ =>
        .bind (.reads (.lift _)) fun _ => .op (.errorEnd hends _ _))
      (.ite (.bind (.reads (.lift _)) fun _ => built_addAttribute _ _) (.pure _)))

theorem built_curlExecLeave (hends : g.ends) (execute_data : ExecuteData) (zid return_value : Zval)
    (span : Nat) :
    Built (Effect eng d g) (curlExecLeave eng execute_data zid return_value span) :=
  .bind (built_addAttributes _ _) fun _ => .bind (.reads .get) fun _ =>
    .bind (.reads (.lift _)) fun _ => .bind (.reads (.lift _)) fun _ =>
      .bind (built_addAttribute _ _) fun _ => .bind (.reads (.lift _)) fun _ =>
        .bind (built_addAttribute _ _) fun _ => .bind (.reads (Op.reads_json_encode _)) fun _ =>
          .bind (built_addAttribute _ _) fun _ =>
            .bind (.forM fun _ => .bind (.reads (.lift _)) fun _ => built_addAttribute _ _) fun _ =>
              .bind (built_curlOutcome hends _ _ _ _) fun _ => .op (.okEnd hends _)

theorem built_endErrorSpan (hends : g.ends) (args : ErrorArgs) (span : Nat) :
    Built (Effect eng d g) (endErrorSpan eng args span) :=
  .ite (.ite (.bind (.reads Op.reads_firstOneSpan) fun _ => .bind (.reads (.lift _)) fun _ =>
      .bind (.op (.errorEnd hends _ _)) fun _ => .op (.errorEnd hends _ _)) (.op (.errorEnd hends _ _)))
    (.op (.okEnd hends _))

theorem built_collectError (hcreates : g.creates) (hends : g.ends) (args : ErrorArgs) :
    Built (Effect eng d g) (collectError eng args) :=
  .bind (.reads (Move.reads_currentFunctionName _)) fun _ =>
    .bind (.op (.createChildSpan hcreates _ _)) fun _ =>
      .bind (built_addAttributes _ _) fun _ => built_endErrorSpan hends _ _

/-- What is noted about an exception once its span is ended. -/
theorem built_exceptionAttributes (hraises : g.raises) (args : ExceptionArgs) (message file : Bytes)
    (line : Int) (span : Nat) : Built (Effect eng d g) (do
      addAttribute span (string_attribute "exception.type" (c_str args.class_name))
      addAttribute span (string_attribute "exception.message" message)
      addAttribute span
        (string_attribute "exception.stacktrace" (file ++ lit ":" ++ to_string line))
      if c_str args.class_name = lit "RedisException" then Provider.setRedisException eng message
      addAttribute span (string_attribute "code.stacktrace" (find_code_stacktrace args.callers))) := by
  refine .bind (built_addAttribute _ _) fun _ => .bind (built_addAttribute _ _) fun _ =>
    .bind (built_addAttribute _ _) fun _ => ?_
  exact .ite (.bind (.op (.setRedisException hraises _)) fun _ => built_addAttribute _ _)
    (built_addAttribute _ _)

theorem built_traceException (hcreates : g.creates) (hends : g.ends) (hraises : g.raises)
    (args : ExceptionArgs) : Built (Effect eng d g) (traceException eng args) :=
  .bind (.reads (Move.reads_exceptionProperty _ _)) fun _ => .bind (.reads (.lift _)) fun _ =>
    .bind (.reads (Move.reads_exceptionProperty _ _)) fun _ => .bind (.reads (.lift _)) fun _ =>
      .bind (.reads (Move.reads_exceptionProperty _ _)) fun _ =>
        .bind (.reads (Move.reads_exceptionProperty _ _)) fun _ => .bind (.reads (.lift _)) fun _ =>
          .bind (.reads (Move.reads_currentFunctionName _)) fun _ =>
            .bind (.op (.createChildSpan hcreates _ _)) fun _ => .bind (.op (.errorEnd hends _ _)) fun _ =>
              built_exceptionAttributes hraises args _ _ _ _

end Effect

namespace Move

theorem spawns_redisEnter (execute_data : ExecuteData) :
    Spawns eng g (redisEnter eng execute_data) :=
  Effect.spawns (Effect.spawns_redisEnter (d := .none) _)

theorem spawns_memcachedEnter (execute_data : ExecuteData) :
    Spawns eng g (memcachedEnter eng execute_data) :=
  Effect.spawns (Effect.spawns_memcachedEnter (d := .none) _)

theorem spawns_pdoEnter (execute_data : ExecuteData) : Spawns eng g (pdoEnter eng execute_data) :=
  Effect.spawns (Effect.spawns_pdoEnter (d := .none) _)

theorem spawns_pdoStatementEnter (execute_data : ExecuteData) :
    Spawns eng g (pdoStatementEnter eng execute_data) :=
  Effect.spawns (Effect.spawns_pdoStatementEnter (d := .none) _)

theorem spawns_mysqliEnter (execute_data : ExecuteData) :
    Spawns eng g (mysqliEnter eng execute_data) :=
  Effect.spawns (Effect.spawns_mysqliEnter (d := .none) _)

theorem spawns_yarClientEnter (execute_data : ExecuteData) :
    Spawns eng g (yarClientEnter eng execute_data) :=
  Effect.spawns (Effect.spawns_yarClientEnter (d := .none) _)

theorem spawns_curlSpan (url : Url) : Spawns eng g (curlSpan eng url) :=
  Effect.spawns (Effect.spawns_curlSpan (d := .none) _)

theorem built_curlHeaders (hstores : g.stores) (cid span : Nat) (option : Option Zval) :
    Built (Move eng g) (curlHeaders eng cid span option) :=
  Effect.built_move (Effect.built_curlHeaders (d := .none) hstores _ _ _)

theorem built_curl_setopt (hstores : g.stores)
    (h : ∀ execute_data, Built (Move eng g) (originals.curl_setopt execute_data))
    (execute_data : ExecuteData) :
    Built (Move eng g) (opentelemetry_curl_setopt_handler eng originals execute_data) :=
  built_setopt (fun cid value =>
    Effect.built_move (Effect.built_storeHeader (d := .none) hstores cid value)) h _

theorem built_exceptionAttributes (hraises : g.raises) (args : ExceptionArgs) (message file : Bytes)
    (line : Int) (span : Nat) : Built (Move eng g) (do
      addAttribute span (string_attribute "exception.type" (c_str args.class_name))
      addAttribute span (string_attribute "exception.message" message)
      addAttribute span
        (string_attribute "exception.stacktrace" (file ++ lit ":" ++ to_string line))
      if c_str args.class_name = lit "RedisException" then Provider.setRedisException eng message
      addAttribute span (string_attribute "code.stacktrace" (find_code_stacktrace args.callers))) :=
  Effect.built_move (Effect.built_exceptionAttributes (d := .none) hraises _ _ _ _ _)

end Move

end opentelemetry
