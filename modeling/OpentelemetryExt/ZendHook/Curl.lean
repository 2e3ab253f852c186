import OpentelemetryExt.ZendHook.Traced
import OpentelemetryExt.Lib.Assoc

open assoc stateful

namespace opentelemetry

variable {φ : Type} (eng : Engine φ)

def CURLOPT_HTTPHEADER : Int := 10023

/-- The option number the hook itself uses for its own header list. -/
def OPENTELEMETRY_CURLOPT_HTTPHEADER : Int := 9923

/-- `error_maps`. -/
def error_maps : List (Int × String) :=
  [(1, "CURLE_UNSUPPORTED_PROTOCOL"), (2, "CURLE_FAILED_INIT"), (3, "CURLE_URL_MALFORMAT"),
    (4, "CURLE_URL_MALFORMAT_USER"), (5, "CURLE_COULDNT_RESOLVE_PROXY"),
    (6, "CURLE_COULDNT_RESOLVE_HOST"), (7, "CURLE_COULDNT_CONNECT"),
    (8, "CURLE_FTP_WEIRD_SERVER_REPLY"), (9, "CURLE_REMOTE_ACCESS_DENIED"),
    (11, "CURLE_FTP_WEIRD_PASS_REPLY"), (13, "CURLE_FTP_WEIRD_PASV_REPLY"),
    (14, "CURLE_FTP_WEIRD_227_FORMAT"), (15, "CURLE_FTP_CANT_GET_HOST"),
    (17, "CURLE_FTP_COULDNT_SET_TYPE"), (18, "CURLE_PARTIAL_FILE"),
    (19, "CURLE_FTP_COULDNT_RETR_FILE"), (21, "CURLE_QUOTE_ERROR"),
    (22, "CURLE_HTTP_RETURNED_ERROR"), (23, "CURLE_WRITE_ERROR"), (25, "CURLE_UPLOAD_FAILED"),
    (26, "CURLE_READ_ERROR"), (27, "CURLE_OUT_OF_MEMORY"), (28, "CURLE_OPERATION_TIMEDOUT"),
    (30, "CURLE_FTP_PORT_FAILED"), (31, "CURLE_FTP_COULDNT_USE_REST"), (33, "CURLE_RANGE_ERROR"),
    (34, "CURLE_HTTP_POST_ERROR"), (35, "CURLE_SSL_CONNECT_ERROR"),
    (36, "CURLE_BAD_DOWNLOAD_RESUME"), (37, "CURLE_FILE_COULDNT_READ_FILE"),
    (38, "CURLE_LDAP_CANNOT_BIND"), (39, "CURLE_LDAP_SEARCH_FAILED"),
    (41, "CURLE_FUNCTION_NOT_FOUND"), (42, "CURLE_ABORTED_BY_CALLBACK"),
    (43, "CURLE_BAD_FUNCTION_ARGUMENT"), (45, "CURLE_INTERFACE_FAILED"),
    (47, "CURLE_TOO_MANY_REDIRECTS"), (48, "CURLE_UNKNOWN_TELNET_OPTION"),
    (49, "CURLE_TELNET_OPTION_SYNTAX"), (51, "CURLE_PEER_FAILED_VERIFICATION"),
    (52, "CURLE_GOT_NOTHING"), (53, "CURLE_SSL_ENGINE_NOTFOUND"),
    (54, "CURLE_SSL_ENGINE_SETFAILED"), (55, "CURLE_SEND_ERROR"), (56, "CURLE_RECV_ERROR"),
    (58, "CURLE_SSL_CERTPROBLEM"), (59, "CURLE_SSL_CIPHER"), (60, "CURLE_SSL_CACERT"),
    (61, "CURLE_BAD_CONTENT_ENCODING"), (62, "CURLE_LDAP_INVALID_URL"),
    (63, "CURLE_FILESIZE_EXCEEDED"), (64, "CURLE_USE_SSL_FAILED"), (65, "CURLE_SEND_FAIL_REWIND"),
    (66, "CURLE_SSL_ENGINE_INITFAILED"), (67, "CURLE_LOGIN_DENIED"), (68, "CURLE_TFTP_NOTFOUND"),
    (69, "CURLE_TFTP_PERM"), (70, "CURLE_REMOTE_DISK_FULL"), (71, "CURLE_TFTP_ILLEGAL"),
    (72, "CURLE_TFTP_UNKNOWNID"), (73, "CURLE_REMOTE_FILE_EXISTS"), (74, "CURLE_TFTP_NOSUCHUSER"),
    (75, "CURLE_CONV_FAILED"), (76, "CURLE_CONV_REQD"), (77, "CURLE_SSL_CACERT_BADFILE"),
    (78, "CURLE_REMOTE_FILE_NOT_FOUND"), (79, "CURLE_SSH"), (80, "CURLE_SSL_SHUTDOWN_FAILED"),
    (81, "CURLE_AGAIN"), (82, "CURLE_SSL_CRL_BADFILE"), (83, "CURLE_SSL_ISSUER_ERROR"),
    (84, "CURLE_FTP_PRET_FAILED"), (85, "CURLE_RTSP_CSEQ_ERROR"), (86, "CURLE_RTSP_SESSION_ERROR"),
    (87, "CURLE_FTP_BAD_FILE_LIST"), (88, "CURLE_CHUNK_FAILED")]

/-- The handlers that were in the function table before. -/
structure CurlOriginals (φ : Type) where
  curl_exec : Handler φ
  curl_setopt : Handler φ
  curl_setopt_array : Handler φ
  curl_close : Handler φ

/-- The handle argument: an object of class `CurlHandle` from PHP 8 on, a resource before. -/
def curlHandle (z : Zval) : Option Nat :=
  match z with
  | .object handle class_name =>
    if 80000 ≤ eng.php_version_id ∧ class_name = lit "CurlHandle" then some handle else none
  | .resource handle => if eng.php_version_id < 80000 then some handle else none
  | _ => none

/-- `Z_ARRVAL_P(&OPENTELEMETRY_G(curl_header))`. -/
def curlHeader : M φ (List (ArrayKey × Zval)) := do
  match (← globals).curl_header with
  | some entries => return entries
  | none => lift (.error .dangling)

def setCurlHeader (entries : List (ArrayKey × Zval)) : M φ Unit :=
  modifyGlobals fun g => { g with curl_header := some entries }

/-- `add_index_zval` on the header store. -/
def storeHeader (cid : Nat) (value : Zval) : M φ Unit := do
  setCurlHeader (assign (.index cid) value (← curlHeader))

/-- The URL the handle is about to call, when it is one that is traced. -/
def recordedUrl (zid : Zval) : M φ (Option Url) := do
  let url_info ← lift (Z_ARRVAL_P (eng.curl_getinfo (← get).php zid))
  let url_str ← lift (Z_STRVAL_P (← lift (deref (zend_hash_str_find url_info (lit "url")))))
  if starts_with (lit "http://") url_str ∨ starts_with (lit "https://") url_str then
    return (eng.php_url_parse url_str).filter fun url => url.scheme.isSome ∧ url.host.isSome
  return none

/-- The query is only appended when it does not contain the empty string. -/
def httpTarget (url : Url) : Bytes :=
  match url.query with
  | some query =>
    if is_contain [] query then c_str (url.path.getD [])
    else c_str (url.path.getD []) ++ lit "?" ++ c_str query
  | none => c_str (url.path.getD [])

/-- The client span of a call to `url`. -/
def curlSpan (url : Url) : M φ Nat := do
  let span ← Provider.createChildSpan eng (c_str (url.path.getD (lit "/"))) .client
  addAttribute span (string_attribute "http.scheme" (c_str (url.scheme.getD [])))
  addAttribute span (string_attribute "http.host" (c_str (url.host.getD [])))
  addAttribute span (string_attribute "http.target" (httpTarget url))
  return span

/-- The header list for a call: the stored list, or an empty one, with the trace context
appended. A stored list is appended to where it is stored. -/
def curlHeaders (cid span : Nat) (option : Option Zval) : M φ Zval := do
  let traceparent ← Provider.formatTraceParentHeader eng span
  let list ← lift (add_next_index_string (option.getD (.array [])) (lit "traceparent: " ++ traceparent))
  let baggage ← Provider.formatBaggageHeader eng
  let list ← lift (add_next_index_string list (lit "baggage: " ++ baggage))
  if option.isSome then storeHeader cid list
  return list

def opentelemetry_curl_setopt_handler (originals : CurlOriginals φ) : Handler φ :=
  fun execute_data => do
    if ¬ (← is_has_provider) then originals.curl_setopt execute_data
    else
      match execute_data.args with
      | [zid, opt, zvalue] =>
        match curlHandle eng zid, eng.parse_long opt with
        | some cid, some options =>
          if options = OPENTELEMETRY_CURLOPT_HTTPHEADER then
            -- the argument's `lval` is overwritten in place
            let _ ← lift (Z_LVAL_P opt)
            originals.curl_setopt
              { execute_data with args := [zid, .long CURLOPT_HTTPHEADER, zvalue] }
          else
            match zvalue with
            | .array _ => if options = CURLOPT_HTTPHEADER then storeHeader cid zvalue
            | _ => pure ()
            originals.curl_setopt execute_data
        | _, _ => return .null
      | _ => return .null

def opentelemetry_curl_setopt_array_handler (originals : CurlOriginals φ) : Handler φ :=
  fun execute_data => do
    if ¬ (← is_has_provider) then originals.curl_setopt_array execute_data
    else
      match execute_data.args with
      | [zid, .array arr] =>
        match curlHandle eng zid with
        | some cid =>
          if let some http_header := zend_hash_index_find arr CURLOPT_HTTPHEADER then
            storeHeader cid http_header
          originals.curl_setopt_array execute_data
        | none => return .null
      | _ => return .null

def opentelemetry_curl_close_handler (originals : CurlOriginals φ) : Handler φ :=
  fun execute_data => do
    if ¬ (← is_has_provider) then originals.curl_close execute_data
    else
      match execute_data.args with
      | [zid] =>
        match curlHandle eng zid with
        | some cid =>
          setCurlHeader (remove (.index cid) (← curlHeader))
          originals.curl_close execute_data
        | none => return .null
      | _ => return .null

/-- `call_user_function` on `curl_setopt`, which is itself hooked. -/
def installHeaders (originals : CurlOriginals φ) (zid list : Zval)
    (callers : List (Option ZendFunction)) : M φ Unit := do
  let _ ← opentelemetry_curl_setopt_handler eng originals
    { func := ⟨some (lit "curl_setopt"), none, false⟩
      args := [zid, .long OPENTELEMETRY_CURLOPT_HTTPHEADER, list]
      This := .undef
      callers }

/-- The part of `opentelemetry_curl_exec_handler` before the original call. The span is
only assigned when the call is recorded. -/
def curlExecEnter (originals : CurlOriginals φ) (execute_data : ExecuteData) (zid : Zval)
    (cid : Nat) : M φ (Option Nat) := do
  let url ← recordedUrl eng zid
  let option := zend_hash_index_find (← curlHeader) cid
  match url with
  | none => return none
  | some url =>
    let span ← curlSpan eng url
    let list ← curlHeaders eng cid span option
    addAttribute span (string_attribute "http.header" (← opentelemetry_json_encode eng list))
    installHeaders eng originals zid list (some execute_data.func :: execute_data.callers)
    return some span

/-- An entry of the `curl_getinfo` array. -/
def infoEntry (info : List (ArrayKey × Zval)) (key : String) : Except Fault Zval :=
  deref (zend_hash_str_find info (lit key))

/-- The timings `curl_getinfo` reports, under the attribute names they get. -/
def curlTimings : List (String × String) :=
  [("http.response_total_time", "total_time"),
    ("http.response_name_lookup_time", "namelookup_time"),
    ("http.response_connect_time", "connect_time"),
    ("http.response_pre_transfer_time", "pretransfer_time"),
    ("http.response_start_transfer_time", "starttransfer_time"),
    ("http.response_redirect_time", "redirect_time")]

/-- The error message of a call that got no response. -/
def curlErrorMessage (zid : Zval) : M φ Bytes := do
  let php := (← get).php
  let curl_error ← lift (Z_STRVAL_P (eng.curl_error php zid))
  if curl_error ≠ [] then return curl_error
  let error := (← lift (Z_LVAL_P (eng.curl_errno php zid))).bmod (2 ^ 32)
  match error_maps.lookup error with
  | some name => return lit name
  | none => return lit "CURLE_OTHER_CODE:" ++ to_string error

/-- The status of the response. -/
def curlOutcome (zid return_value : Zval) (span : Nat) (http_code : Int) : M φ Unit := do
  if http_code = 0 then Provider.errorEnd eng span (← curlErrorMessage eng zid)
  else if 400 ≤ http_code then
    addAttribute span (string_attribute "http.response.body" (← lift (Z_STRVAL_P return_value)))
    Provider.errorEnd eng span (← lift (Z_STRVAL_P return_value))
  else if http_code = 200 then
    addAttribute span (string_attribute "http.response.body" (← lift (Z_STRVAL_P return_value)))

/-- The part after the original call, for a recorded call. No test for a provider is made. -/
def curlExecLeave (execute_data : ExecuteData) (zid return_value : Zval) (span : Nat) :
    M φ Unit := do
  (stackAttribute execute_data.callers).forM (addAttribute span)
  let url_response := eng.curl_getinfo (← get).php zid
  let info ← lift (Z_ARRVAL_P url_response)
  let http_code ← lift (infoEntry info "http_code" >>= Z_LVAL_P)
  addAttribute span (int64_attribute "http.status_code" http_code)
  let primary_ip ← lift (infoEntry info "primary_ip" >>= Z_STRVAL_P)
  addAttribute span (string_attribute "net.peer.ip" primary_ip)
  let text ← opentelemetry_json_encode eng url_response
  addAttribute span (string_attribute "http.curl.response" text)
  curlTimings.forM fun (name, key) => do
    addAttribute span (double_attribute name (← lift (infoEntry info key >>= Z_DVAL_P)))
  curlOutcome eng zid return_value span http_code
  Provider.okEnd span

def opentelemetry_curl_exec_handler (originals : CurlOriginals φ) : Handler φ :=
  fun execute_data => do
    if ¬ (← is_has_provider) then originals.curl_exec execute_data
    else
      match execute_data.args with
      | [zid] =>
        match curlHandle eng zid with
        | some cid =>
          let span ← curlExecEnter eng originals execute_data zid cid
          let return_value ← originals.curl_exec execute_data
          if let some span := span then curlExecLeave eng execute_data zid return_value span
          return return_value
        | none => return .null
      | _ => return .null

end opentelemetry
