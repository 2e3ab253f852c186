import OpentelemetryExt.ZendHook.Extraction
import OpentelemetryExt.Session.Verdicts

open heap stateful

namespace opentelemetry

variable {φ : Type} {eng : Engine φ} {originals : CurlOriginals φ} {w x w' : World φ}
  {execute_data : ExecuteData} {zid return_value : Zval} {q : Nat} {http_code : Int}

/-- The tracer is there and has the span. -/
def Recording (q : Nat) (w : World φ) : Prop := Live q w ∧ w.globals.provider.isSome

/-- The status of the span, and what PHP is in. -/
def World.course (q : Nat) (w : World φ) : φ × Option StatusCode :=
  (w.php, (w.memory.spans.cell q).map fun s => s.status.code)

theorem recording_withSpan (f : Span → Span) (h : Recording q w) :
    Recording q (w.withSpan q f) ∧ (w.withSpan q f).course q =
      (w.php, (w.memory.spans.cell q).map fun s => (f s).status.code) := by
  obtain ⟨⟨s, hs⟩, hhas⟩ := h
  have hcell : (w.withSpan q f).memory.spans.cell q = some (f s) := by
    rw [World.withSpan, World.memory_withMemory, Heap.cell_modify_self, hs]
    rfl
  refine ⟨⟨⟨f s, hcell⟩, hhas⟩, ?_⟩
  rw [World.course, hcell, hs]
  rfl

theorem acts_note (q : Nat) (kv : KeyValue) :
    Acts (Recording q) (World.course q) Eq (addAttribute q kv : M φ Unit) := by
  refine .of_total fun w h => ?_
  obtain ⟨s, hs⟩ := h.1
  obtain ⟨hrecording, hcourse⟩ := recording_withSpan
    (fun s => { s with attributes := s.attributes ++ [kv] }) h
  exact ⟨(), _, modifySpan_of_some _ hs, hrecording, hcourse⟩

/-- An end without an error leaves an error. -/
def okStatus (code : StatusCode) : StatusCode := if code = .unset then .ok else code

theorem acts_okEnd (q : Nat) : Acts (Recording q) (World.course q)
    (fun x y => y = (x.1, x.2.map okStatus)) (Provider.okEnd q : M φ Unit) := by
  refine .of_update fun w h => ?_
  obtain ⟨s, hs⟩ := h.1
  obtain ⟨⟨⟩, w', hok⟩ := okEnd_returns hs
  obtain ⟨-, -, rfl⟩ := Provider.okEnd_ok hok
  have hticked : Recording q w.ticked := h
  obtain ⟨hrecording, hcourse⟩ := recording_withSpan (fun s => { s with
    status := if s.status.code = .unset then ⟨.ok, []⟩ else s.status
    end_time_unix_nano := w.clock 0 }) hticked
  refine ⟨(), _, hok, hrecording, hcourse.trans ?_⟩
  have hcode (s : Span) : (if s.status.code = .unset then (⟨.ok, []⟩ : Status)
      else s.status).code = okStatus s.status.code := by
    unfold okStatus
    split <;> rfl
  simp only [World.course, Option.map_map, Function.comp_def, hcode]
  rfl

theorem acts_errorEnd (q : Nat) (message : Bytes) : Acts (Recording q) (World.course q)
    (fun x y => y = (x.1, x.2.map fun _ => .error)) (Provider.errorEnd eng q message) := by
  refine .of_update fun w h => ?_
  obtain ⟨s, hs⟩ := h.1
  obtain ⟨⟨⟩, w', hok⟩ := errorEnd_returns eng hs h.2 message
  obtain ⟨-, p, -, hp, rfl⟩ := Provider.errorEnd_ok hok
  have hticked : Recording q w.ticked := h
  obtain ⟨hrecording, hcourse⟩ := recording_withSpan (fun s => { s with
    status := ⟨.error, message⟩, end_time_unix_nano := w.clock 0 }) hticked
  refine ⟨(), _, hok, ⟨hrecording.1, rfl⟩, hcourse.trans ?_⟩
  simp only [World.course, Option.map_map, Function.comp_def]
  rfl

/-- The text of the error, as far as it depends on the state. -/
def curlErrorText (eng : Engine φ) (zid : Zval) (php : φ) : Except Fault Bytes := do
  let curl_error ← Z_STRVAL_P (eng.curl_error php zid)
  if curl_error ≠ [] then return curl_error
  let error := (← Z_LVAL_P (eng.curl_errno php zid)).bmod (2 ^ 32)
  match error_maps.lookup error with
  | some name => return lit name
  | none => return lit "CURLE_OTHER_CODE:" ++ to_string error

theorem curlErrorMessage_apply (w : World φ) :
    curlErrorMessage eng zid w = lift (curlErrorText eng zid w.php) w := by
  simp only [curlErrorMessage, curlErrorText, bind_apply, get_apply, ok_bind]
  cases Z_STRVAL_P (eng.curl_error w.php zid) with
  | error e => rfl
  | ok text =>
    simp only [lift_ok, ok_bind]
    by_cases htext : text = []
    · simp only [htext, ne_eq, not_true_eq_false, if_false]
      cases Z_LVAL_P (eng.curl_errno w.php zid) with
      | error e => rfl
      | ok v =>
        simp only [bind_apply, lift_ok, ok_bind]
        cases error_maps.lookup (v.bmod (2 ^ 32)) with
        | some name => rfl
        | none => rfl
    · simp only [ne_eq, htext, not_false_eq_true, if_true]
      rfl

/-- What the documentation of `curl_getinfo`, `curl_error` and `curl_errno` says of the types of
what they give. -/
structure Reports (eng : Engine φ) (php : φ) (zid : Zval) (http_code : Int) : Prop where
  info : ∃ info ip, eng.curl_getinfo php zid = .array info ∧
    zend_hash_str_find info (lit "http_code") = some (.long http_code) ∧
    zend_hash_str_find info (lit "primary_ip") = some (.string ip) ∧
    ∀ timing ∈ curlTimings, ∃ d, zend_hash_str_find info (lit timing.2) = some (.double d)
  error : ∃ text, eng.curl_error php zid = .string text
  errno : ∃ n, eng.curl_errno php zid = .long n

/-- The value is a string, as a body is. -/
def IsString (z : Zval) : Prop := ∃ s, z = .string s

theorem isString_iff {z : Zval} : IsString z ↔ ∃ s, Z_STRVAL_P z = .ok s := by
  constructor
  · rintro ⟨s, rfl⟩
    exact ⟨_, rfl⟩
  · rintro ⟨s, h⟩
    cases z with
    | string t => exact ⟨t, rfl⟩
    | _ => cases h

/-- Where the result is read as a string. -/
def ReadsResult (http_code : Int) : Prop := http_code = 200 ∨ 400 ≤ http_code

theorem Reports.errorText {php : φ} (h : Reports eng php zid http_code) :
    ∃ text, curlErrorText eng zid php = .ok text := by
  obtain ⟨text, htext⟩ := h.error
  obtain ⟨n, hn⟩ := h.errno
  unfold curlErrorText
  rw [htext, hn]
  simp only [Z_STRVAL_P, Z_LVAL_P, ok_bind]
  by_cases hempty : c_str text = []
  · simp only [hempty, ne_eq, not_true_eq_false, if_false]
    cases error_maps.lookup (n.bmod (2 ^ 32)) with
    | some name => exact ⟨_, rfl⟩
    | none => exact ⟨_, rfl⟩
  · simp only [ne_eq, hempty, not_false_eq_true, if_true]
    exact ⟨_, rfl⟩

/-- The status of a span of a call with this code, if it had `code` before. -/
def responseStatus (http_code : Int) (code : StatusCode) : StatusCode :=
  if http_code = 0 ∨ 400 ≤ http_code then .error else code

theorem acts_curlOutcome (q : Nat) (zid return_value : Zval) (http_code : Int) :
    Acts (Recording q) (World.course q)
      (fun x y => (http_code = 0 → ∃ text, curlErrorText eng zid x.1 = .ok text) ∧
        (ReadsResult http_code → IsString return_value) ∧
          y = (x.1, x.2.map (responseStatus http_code)))
      (curlOutcome eng zid return_value q http_code) := by
  have hbody (text : Bytes) : Acts (Recording q) (World.course q) Eq
      (addAttribute q (string_attribute "http.response.body" text) : M φ Unit) := acts_note q _
  have herror : Acts (Recording q) (World.course q)
      (fun x y => ∃ text, curlErrorText eng zid x.1 = .ok text ∧ y = (x.1, x.2.map fun _ => .error))
      (curlErrorMessage eng zid >>= Provider.errorEnd eng q) :=
    .query (r := fun x => curlErrorText eng zid x.1) curlErrorMessage_apply
      fun text => acts_errorEnd q text
  unfold curlOutcome
  by_cases hzero : http_code = 0
  · have hreads : ¬ ReadsResult http_code := by unfold ReadsResult; omega
    have hstatus : responseStatus http_code = fun _ => .error := funext fun _ => if_pos (.inl hzero)
    rw [if_pos hzero, hstatus]
    refine herror.congr fun x y => ?_
    simp only [iff_true_intro hzero, hreads, false_imp_iff, true_imp_iff, true_and, exists_and_right]
  rw [if_neg hzero]
  by_cases hbad : 400 ≤ http_code
  · have hreads : ReadsResult http_code := .inr hbad
    have hstatus : responseStatus http_code = fun _ => .error := funext fun _ => if_pos (.inr hbad)
    rw [if_pos hbad, hstatus]
    refine (Acts.lift fun text => (hbody text).bind fun _ => .lift fun text =>
      acts_errorEnd q text).congr fun x y => ?_
    simp only [hzero, hreads, isString_iff, false_imp_iff, true_imp_iff, true_and]
    constructor
    · rintro ⟨text, htext, z, rfl, _, -, hy⟩
      exact ⟨⟨text, htext⟩, hy⟩
    · rintro ⟨⟨text, htext⟩, hy⟩
      exact ⟨text, htext, x, rfl, text, htext, hy⟩
  have hstatus : responseStatus http_code = id := funext fun _ => if_neg (by omega)
  have hsame (x y : φ × Option StatusCode) : x = y ↔ y = (x.1, x.2.map id) := by
    rw [Option.map_id, id, eq_comm]
  rw [if_neg hbad, hstatus]
  by_cases hfound : http_code = 200
  · have hreads : ReadsResult http_code := .inl hfound
    rw [if_pos hfound]
    refine (Acts.lift fun text => hbody text).congr fun x y => ?_
    simp only [hzero, hreads, isString_iff, false_imp_iff, true_imp_iff, true_and, ← hsame]
    exact ⟨fun ⟨text, htext, hxy⟩ => ⟨⟨text, htext⟩, hxy⟩,
      fun ⟨⟨text, htext⟩, hxy⟩ => ⟨text, htext, hxy⟩⟩
  · have hreads : ¬ ReadsResult http_code := by unfold ReadsResult; omega
    rw [if_neg hfound]
    refine (Acts.pure ()).congr fun x y => ?_
    simp only [hzero, hreads, false_imp_iff, true_and, ← hsame]

theorem infoEntry_eq {info : List (ArrayKey × Zval)} {key : String} {z : Zval}
    (h : zend_hash_str_find info (lit key) = some z) : infoEntry info key = .ok z := by
  rw [infoEntry, h]
  rfl

/-- What the second half asks of the array that `curl_getinfo` gives. -/
def Informs (z : Zval) (http_code : Int) : Prop :=
  ∃ info, Z_ARRVAL_P z = .ok info ∧ (infoEntry info "http_code" >>= Z_LVAL_P) = .ok http_code ∧
    (∃ ip, (infoEntry info "primary_ip" >>= Z_STRVAL_P) = .ok ip) ∧
    ∀ timing ∈ curlTimings, ∃ d, (infoEntry info timing.2 >>= Z_DVAL_P) = .ok d

theorem acts_curlExecLeave (eng : Engine φ) (q : Nat) (execute_data : ExecuteData)
    (zid return_value : Zval) :
    Acts (Recording q) (World.course q)
      (fun x y => ∃ http_code, Informs (eng.curl_getinfo x.1 zid) http_code ∧
        (http_code = 0 → ∃ text, curlErrorText eng zid x.1 = .ok text) ∧
        (ReadsResult http_code → IsString return_value) ∧
          y = (x.1, x.2.map fun code => okStatus (responseStatus http_code code)))
      (curlExecLeave eng execute_data zid return_value q) := by
  have hstack : Acts (Recording q) (World.course q) Eq
      ((stackAttribute execute_data.callers).forM (addAttribute q) : M φ Unit) :=
    .forM fun kv => acts_note q kv
  have htiming (info : List (ArrayKey × Zval)) (timing : String × String) :
      Acts (Recording q) (World.course q)
        (fun x y => (∃ d, (infoEntry info timing.2 >>= Z_DVAL_P) = .ok d) ∧ x = y)
        (do addAttribute q (double_attribute timing.1
          (← lift (infoEntry info timing.2 >>= Z_DVAL_P))) : M φ Unit) := by
    refine (Acts.lift fun d => acts_note q _).congr fun x y => ?_
    rw [exists_and_right]
  have hencode (value : Zval) (w : World φ) : opentelemetry_json_encode eng value w =
      lift (.ok (c_str (eng.json_encode w.php value))) w := rfl
  refine (hstack.bind fun _ => .get_bind (D := fun (z x y : φ × Option StatusCode) => ∃ http_code,
    Informs (eng.curl_getinfo z.1 zid) http_code ∧
      (http_code = 0 → ∃ text, curlErrorText eng zid x.1 = .ok text) ∧
      (ReadsResult http_code → IsString return_value) ∧
        y = (x.1, x.2.map fun code => okStatus (responseStatus http_code code)))
    fun w => ?_).congr fun x y => ?_
  · refine (Acts.lift fun info => .lift fun http_code => (acts_note q _).bind fun _ => .lift fun ip =>
      (acts_note q _).bind fun _ => .query (r := fun x => .ok (c_str (eng.json_encode x.1 _)))
        (hencode _) fun text => (acts_note q _).bind fun _ =>
          (Acts.forM_of (htiming info)).bind fun _ =>
            (acts_curlOutcome q zid return_value http_code).bind fun _ => acts_okEnd q).congr fun x y => ?_
    constructor
    · rintro ⟨info, hinfo, http_code, hcode, _, rfl, ip, hip, _, rfl, text, -, _, rfl, _,
        ⟨htimings, rfl⟩, _, ⟨herror, hread, rfl⟩, rfl⟩
      refine ⟨http_code, ⟨info, hinfo, hcode, ⟨ip, hip⟩, htimings⟩, herror, hread, ?_⟩
      rw [Option.map_map]
      rfl
    · rintro ⟨http_code, ⟨info, hinfo, hcode, ⟨ip, hip⟩, htimings⟩, herror, hread, rfl⟩
      refine ⟨info, hinfo, http_code, hcode, _, rfl, ip, hip, _, rfl, _, rfl, _, rfl, _,
        ⟨htimings, rfl⟩, _, ⟨herror, hread, rfl⟩, ?_⟩
      rw [Option.map_map]
      rfl
  · simp

theorem Reports.informs {php : φ} (h : Reports eng php zid http_code) :
    Informs (eng.curl_getinfo php zid) http_code := by
  obtain ⟨info, ip, hinfo, hcode, hip, htimings⟩ := h.info
  refine ⟨info, by rw [hinfo]; rfl, by rw [infoEntry_eq hcode]; rfl,
    ⟨c_str ip, by rw [infoEntry_eq hip]; rfl⟩, fun timing htiming => ?_⟩
  obtain ⟨d, hd⟩ := htimings timing htiming
  exact ⟨d, by rw [infoEntry_eq hd]; rfl⟩

theorem Informs.unique {z : Zval} {code code' : Int} (h : Informs z code) (h' : Informs z code') :
    code = code' := by
  obtain ⟨info, hinfo, hcode, -⟩ := h
  obtain ⟨info', hinfo', hcode', -⟩ := h'
  obtain rfl := Except.ok.inj (hinfo.symm.trans hinfo')
  exact Except.ok.inj (hcode.symm.trans hcode')

/-- The status of the span of a call with this code. -/
def spanStatus (http_code : Int) : StatusCode :=
  if http_code = 0 ∨ 400 ≤ http_code then .error else .ok

theorem okStatus_responseStatus (http_code : Int) :
    okStatus (responseStatus http_code .unset) = spanStatus http_code := by
  unfold responseStatus spanStatus
  split <;> rfl

/-- With what curl reports as documented, the second half returns exactly when it does not read a
result as a string that is none, and then the span has the status of the response. -/
theorem curlExecLeave_iff (execute_data : ExecuteData) (return_value : Zval) (hfresh : x.FreshAt q)
    (hprovider : x.globals.provider.isSome) (h : Reports eng x.php zid http_code) :
    (∃ w', curlExecLeave eng execute_data zid return_value q x = .ok ((), w') ∧
      (w'.memory.spans.cell q).map (fun s => s.status.code) = some (spanStatus http_code)) ↔
    (ReadsResult http_code → IsString return_value) := by
  obtain ⟨s, hs, hstatus, -⟩ := hfresh
  have hacts := (acts_curlExecLeave eng q execute_data zid return_value).returns_iff
    (s := x) ⟨⟨s, hs⟩, hprovider⟩
  have hunset : (x.course q).2 = some .unset := by
    rw [World.course, hs, Option.map_some, hstatus]
  constructor
  · rintro ⟨w', hok, -⟩
    obtain ⟨code, hinforms, -, hread, -⟩ := (hacts _).mp ⟨(), w', hok, rfl⟩
    rwa [h.informs.unique hinforms]
  · intro hread
    obtain ⟨⟨⟩, w', hok, hview⟩ := (hacts _).mpr
      ⟨http_code, h.informs, fun _ => h.errorText, hread, rfl⟩
    refine ⟨w', hok, (congrArg Prod.snd hview).trans ?_⟩
    rw [hunset, Option.map_some, okStatus_responseStatus]

/-- A call of `curl_exec` with a provider, up to the return of the original, with the span that
was opened for it. -/
structure Transferred (eng : Engine φ) (originals : CurlOriginals φ) (execute_data : ExecuteData)
    (zid return_value : Zval) (span : Option Nat) (w x : World φ) : Prop where
  provider : w.globals.provider.isSome
  args : execute_data.args = [zid]
  returned : ∃ cid u, curlHandle eng zid = some cid ∧
    curlExecEnter eng originals execute_data zid cid w = .ok (span, u) ∧
      originals.curl_exec execute_data u = .ok (return_value, x)
  /-- Neither the tracer nor the span is gone, and the span is not ended. -/
  kept : ∀ q ∈ span, x.globals.provider.isSome ∧ x.FreshAt q

/-- The hook gives the result of the original back, ends the span with the status of the response
and leaves the other spans as the original has left them. -/
def Handles (eng : Engine φ) (originals : CurlOriginals φ) (execute_data : ExecuteData)
    (return_value : Zval) (span : Option Nat) (http_code : Int) (w x : World φ) : Prop :=
  ∃ w', opentelemetry_curl_exec_handler eng originals execute_data w = .ok (return_value, w') ∧
    ∀ q ∈ span, Closed q x w' ∧
      (w'.memory.spans.cell q).map (fun s => s.status.code) = some (spanStatus http_code)

theorem Transferred.handler_eq {span : Option Nat}
    (h : Transferred eng originals execute_data zid return_value span w x) :
    opentelemetry_curl_exec_handler eng originals execute_data w = (do
      if let some span := span then curlExecLeave eng execute_data zid return_value span
      return return_value) x := by
  obtain ⟨cid, u, hcid, henter, hreturned⟩ := h.returned
  unfold opentelemetry_curl_exec_handler
  rw [bind_apply, is_has_provider_of_some h.provider]
  simp only [ok_bind, not_true_eq_false, if_false, h.args, hcid]
  rw [bind_apply, henter, ok_bind, bind_apply, hreturned]
  rfl

theorem Transferred.handles_recorded_iff
    (h : Transferred eng originals execute_data zid return_value (some q) w x)
    (hreports : Reports eng x.php zid http_code) :
    Handles eng originals execute_data return_value (some q) http_code w x ↔
      (ReadsResult http_code → IsString return_value) := by
  obtain ⟨hprovider, hfresh⟩ := h.kept q rfl
  rw [← curlExecLeave_iff execute_data return_value hfresh hprovider hreports, Handles, h.handler_eq]
  constructor
  · rintro ⟨w', hok, hstatus⟩
    obtain ⟨⟨⟩, v, hleave, hreturn⟩ := bind_ok_iff.mp hok
    cases hreturn
    exact ⟨w', hleave, (hstatus q rfl).2⟩
  · rintro ⟨w', hleave, hstatus⟩
    refine ⟨w', bind_ok_iff.mpr ⟨(), w', hleave, rfl⟩, fun q' hq' => ?_⟩
    cases hq'
    exact ⟨(Closes.curlExecLeave execute_data zid return_value q).returns hleave, hstatus⟩

/-- Whatever `curl_exec` returns and curl reports: the call is handled exactly when the result is
a string, or the code is one for which the hook does not look at it. -/
theorem handles_iff {span : Option Nat}
    (h : Transferred eng originals execute_data zid return_value span w x)
    (hreports : Reports eng x.php zid http_code) :
    Handles eng originals execute_data return_value span http_code w x ↔
      (span.isSome → http_code = 200 ∨ 400 ≤ http_code → IsString return_value) := by
  cases span with
  | none =>
    refine iff_of_true ⟨x, ?_, fun q hq => ?_⟩ fun hsome => ?_
    · rw [h.handler_eq]
      rfl
    · cases hq
    · cases hsome
  | some q =>
    rw [h.handles_recorded_iff hreports]
    exact ⟨fun hread _ => hread, fun hread => hread rfl⟩

/-- A handle on `http://a/`, of which curl reports what it does after a response. -/
def respondingEngine (http_code : Int) : Engine Unit :=
  { Engine.bare false with
    parse_long := fun z => match z with
      | .long v => some v
      | _ => none
    curl_getinfo := fun _ _ => .array ([(.str (lit "url"), .string (lit "http://a/")),
      (.str (lit "http_code"), .long http_code), (.str (lit "primary_ip"), .string (lit "1.2.3.4"))] ++
      curlTimings.map fun timing => (.str (lit timing.2), .double 0))
    curl_error := fun _ _ => .string []
    curl_errno := fun _ _ => .long 0
    php_url_parse := fun _ => some ⟨some (lit "http"), some (lit "a"), none, none⟩ }

theorem reports_respondingEngine (http_code : Int) (zid : Zval) :
    Reports (respondingEngine http_code) () zid http_code where
  info := by
    refine ⟨_, _, rfl, rfl, rfl, fun timing htiming => ⟨0, ?_⟩⟩
    simp only [curlTimings, List.mem_cons, List.not_mem_nil, or_false] at htiming
    obtain rfl | rfl | rfl | rfl | rfl | rfl := htiming <;> rfl
  error := ⟨_, rfl⟩
  errno := ⟨_, rfl⟩

/-- A transfer with this result. -/
def transfer (return_value : Zval) : CurlOriginals Unit :=
  { CurlNatives.bare.originals with curl_exec := fun _ => pure return_value }

def handleFrame : ExecuteData := ⟨⟨none, none, false⟩, [.object 7 (lit "CurlHandle")], .undef, []⟩

theorem transferred_tracedWorld (http_code : Int) (return_value : Zval) : ∃ q x,
    Transferred (respondingEngine http_code) (transfer return_value) handleFrame
      (.object 7 (lit "CurlHandle")) return_value (some q) tracedWorld x := by
  refine ⟨_, _, rfl, rfl, ⟨_, _, rfl, rfl, rfl⟩, ?_⟩
  rintro q hq
  cases hq
  exact ⟨rfl, _, rfl, rfl, rfl⟩

theorem handles_iff_body : ∃ q x,
    Transferred (respondingEngine 200) (transfer (.string (lit "ok"))) handleFrame
      (.object 7 (lit "CurlHandle")) (.string (lit "ok")) (some q) tracedWorld x ∧
    (Handles (respondingEngine 200) (transfer (.string (lit "ok"))) handleFrame (.string (lit "ok"))
      (some q) 200 tracedWorld x ↔ ((some q).isSome → (200 : Int) = 200 ∨ 400 ≤ (200 : Int) →
        IsString (.string (lit "ok")))) := by
  obtain ⟨q, x, h⟩ := transferred_tracedWorld 200 (.string (lit "ok"))
  exact ⟨q, x, h, handles_iff h (reports_respondingEngine 200 _)⟩

/-- The page is written to the output (no `CURLOPT_RETURNTRANSFER`), `curl_exec` returns `true`. -/
theorem not_handles_true : ∃ q x,
    Transferred (respondingEngine 200) (transfer (.bool true)) handleFrame
      (.object 7 (lit "CurlHandle")) (.bool true) (some q) tracedWorld x ∧
    ¬ Handles (respondingEngine 200) (transfer (.bool true)) handleFrame (.bool true) (some q) 200
      tracedWorld x := by
  obtain ⟨q, x, h⟩ := transferred_tracedWorld 200 (.bool true)
  refine ⟨q, x, h, fun hhandles => ?_⟩
  have hstring := (h.handles_recorded_iff (reports_respondingEngine 200 _)).mp hhandles (.inl rfl)
  obtain ⟨s, hs⟩ := hstring
  cases hs

end opentelemetry
