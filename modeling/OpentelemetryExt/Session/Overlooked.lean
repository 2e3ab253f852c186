import OpentelemetryExt.Session.Events

open stateful

namespace opentelemetry

variable {φ : Type}

/-- A change of the state that second halves of hooked calls overlook, as long as the span that
they go to is in sight. -/
structure Overlooked (eng : Engine φ) (inSight : Nat → Prop) (T : World φ → World φ) : Prop where
  php (w : World φ) : (T w).php = w.php
  modifyPhp (php : φ) : Unaware T (modifyPhp php)
  get_unix_nanoseconds : Unaware T (get_unix_nanoseconds : M φ UInt64)
  is_has_provider : Unaware T (is_has_provider : M φ Bool)
  getRedisException : Unaware T (Provider.getRedisException eng)
  setRedisException (message : Bytes) : Unaware T (Provider.setRedisException eng message)
  setSampled (isSampled : Bool) : Unaware T (Provider.setSampled eng isSampled)
  modifySpan {q : Nat} (hq : inSight q) (f : Span → Span) : Unaware T (modifySpan q f : M φ Unit)

namespace Overlooked

variable {eng : Engine φ} {inSight : Nat → Prop} {T : World φ → World φ} {q : Nat}

variable (h : Overlooked eng inSight T)

include h

/-- Of all that is read only PHP's own state may count. -/
theorem get_bind {β : Type} {f : World φ → M φ β} (hf : ∀ w v : World φ, v.php = w.php → f v = f w)
    (hm : ∀ w, Unaware T (f w)) : Unaware T (get >>= f) :=
  .get_bind (fun w => hf w (T w) (h.php w)) hm

theorem addAttribute (hq : inSight q) (kv : KeyValue) :
    Unaware T (addAttribute q kv : M φ Unit) := h.modifySpan hq _

theorem okEnd (hq : inSight q) : Unaware T (Provider.okEnd q : M φ Unit) :=
  .bind (h.modifySpan hq _) fun _ => .bind h.get_unix_nanoseconds fun _ => h.modifySpan hq _

theorem errorEnd (hq : inSight q) (message : Bytes) : Unaware T (Provider.errorEnd eng q message) :=
  .bind h.get_unix_nanoseconds fun _ => .bind (h.modifySpan hq _) fun _ => h.setSampled true

theorem json_encode (value : Zval) : Unaware T (opentelemetry_json_encode eng value) := by
  refine h.get_bind (fun w v hphp => ?_) fun _ => .pure _
  rw [hphp]

theorem zend_call_method (obj : Zval) (name : String) (params : List Zval) :
    Unaware T (zend_call_method eng obj name params) := by
  cases obj with
  | object handle class_name =>
    refine h.get_bind (fun w v hphp => ?_) fun w => ?_
    · rw [hphp]
    · split
      · exact .bind (h.modifyPhp _) fun _ => .pure _
      · exact .unwind
  | _ => exact fun _ => rfl

theorem Z_PDO_DBH_P (self : Zval) : Unaware T (Z_PDO_DBH_P eng self) := by
  cases self with
  | object handle class_name =>
    refine h.get_bind (fun w v hphp => ?_) fun w => ?_
    · rw [hphp]
    · split
      · exact .pure _
      · exact .lift _
  | _ => exact fun _ => rfl

theorem Z_PDO_STMT_P (self : Zval) : Unaware T (Z_PDO_STMT_P eng self) := by
  cases self with
  | object handle class_name =>
    refine h.get_bind (fun w v hphp => ?_) fun w => ?_
    · rw [hphp]
    · split
      · exact .pure _
      · exact .lift _
  | _ => exact fun _ => rfl

theorem redisLeave (hq : inSight q) (execute_data : ExecuteData) :
    Unaware T (redisLeave eng execute_data q) :=
  .bind (.bind h.getRedisException fun _ => .pure _) fun _ => .ite
    (.bind h.getRedisException fun _ => .bind (h.errorEnd hq _) fun _ => h.setRedisException [])
    (h.okEnd hq)

theorem memcachedLeave (hq : inSight q) (execute_data : ExecuteData) :
    Unaware T (memcachedLeave eng execute_data q) := by
  refine .bind (h.zend_call_method _ _ _) fun zval_result => ?_
  dsimp only
  split
  · refine .ite ?_ (.ite ?_ (h.errorEnd hq _))
    · exact .ite (.bind (h.addAttribute hq _) fun _ => h.okEnd hq) (h.okEnd hq)
    · exact .bind (h.addAttribute hq _) fun _ => h.okEnd hq
  · exact h.errorEnd hq _

theorem pdoLeave (hq : inSight q) (execute_data : ExecuteData) :
    Unaware T (pdoLeave eng execute_data q) := by
  refine .bind (h.Z_PDO_DBH_P _) fun dbh => ?_
  dsimp only
  split
  · exact h.okEnd hq
  · refine .bind (.lift _) fun message => ?_
    split
    · exact h.errorEnd hq _
    · exact h.okEnd hq

theorem pdoStatementLeave (hq : inSight q) (execute_data : ExecuteData) :
    Unaware T (pdoStatementLeave eng execute_data q) := by
  refine .bind (h.Z_PDO_STMT_P _) fun stmt => .ite (.bind (.lift _) fun _ => ?_) (h.okEnd hq)
  refine .bind (.lift _) fun message => ?_
  split
  · exact h.errorEnd hq _
  · exact h.errorEnd hq _

theorem curlErrorMessage (zid : Zval) : Unaware T (curlErrorMessage eng zid) := by
  refine h.get_bind (fun w v hphp => ?_) fun w => .bind (.lift _) fun curl_error => ?_
  · simp only [hphp]
  · refine .ite (.pure _) (.bind (.lift _) fun error => ?_)
    dsimp only
    split
    · exact .pure _
    · exact .pure _

theorem curlOutcome (hq : inSight q) (zid return_value : Zval) (http_code : Int) :
    Unaware T (curlOutcome eng zid return_value q http_code) := by
  refine .ite (.bind (h.curlErrorMessage zid) fun _ => h.errorEnd hq _)
    (.ite ?_ (.ite ?_ (.pure _)))
  · exact .bind (.lift _) fun _ => .bind (h.addAttribute hq _) fun _ =>
      .bind (.lift _) fun _ => h.errorEnd hq _
  · exact .bind (.lift _) fun _ => h.addAttribute hq _

theorem curlExecLeave (hq : inSight q) (execute_data : ExecuteData) (zid return_value : Zval) :
    Unaware T (curlExecLeave eng execute_data zid return_value q) := by
  refine .bind (.forM fun _ => h.addAttribute hq _) fun _ =>
    h.get_bind (fun w v hphp => ?_) fun w => ?_
  · simp only [hphp]
  refine .bind (.lift _) fun info => .bind (.lift _) fun http_code => ?_
  refine .bind (h.addAttribute hq _) fun _ => .bind (.lift _) fun primary_ip => ?_
  refine .bind (h.addAttribute hq _) fun _ => .bind (h.json_encode _) fun text => ?_
  refine .bind (h.addAttribute hq _) fun _ => .bind (.forM fun timing => ?_) fun _ => ?_
  · exact .bind (.lift _) fun _ => h.addAttribute hq _
  · exact .bind (h.curlOutcome hq _ _ _) fun _ => h.okEnd hq

/-- The second half of a hooked call goes to no span but its own. -/
theorem leave {hook : Hook} {span : Option Nat} (hspan : ∀ q, span = some q → inSight q)
    (execute_data : ExecuteData) (return_value : Zval) :
    Unaware T (hook.leave eng execute_data return_value span) := by
  have hleave {leave : ExecuteData → Nat → M φ Unit}
      (hrest : ∀ q, inSight q → Unaware T (leave execute_data q)) :
      Unaware T (leaveHandler leave execute_data span) := by
    refine .bind h.is_has_provider fun _ => .ite ?_ (.pure _)
    cases span with
    | none => exact fun _ => rfl
    | some q => exact hrest q (hspan q rfl)
  cases hook with
  | redis => exact hleave fun q hq => h.redisLeave hq execute_data
  | memcached => exact hleave fun q hq => h.memcachedLeave hq execute_data
  | pdo => exact hleave fun q hq => h.pdoLeave hq execute_data
  | pdo_statement => exact hleave fun q hq => h.pdoStatementLeave hq execute_data
  | mysqli => exact hleave fun q hq => h.okEnd hq
  | yar_client => exact hleave fun q hq => h.okEnd hq
  | yar_server => exact hleave fun q hq => h.okEnd hq
  | curl_exec =>
    dsimp only [Hook.leave]
    split
    · exact h.curlExecLeave (hspan _ rfl) _ _ _
    · exact .pure _

end Overlooked

end opentelemetry
