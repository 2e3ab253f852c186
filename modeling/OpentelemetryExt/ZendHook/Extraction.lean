import OpentelemetryExt.Session.Chain
import OpentelemetryExt.ZendHook.Transparent

open heap stateful run

namespace opentelemetry

variable {φ : Type} {eng : Engine φ} {w w' : World φ} {execute_data : ExecuteData}

/-- A traced call can open its span: the current trace has a first span, a request that it
has got has a tracer, and both pointers are good. -/
def Opens (eng : Engine φ) (w : World φ) : Prop :=
  ∃ p f s, w.globals.provider = some p ∧ (p.slots (w.key eng)).firstSpan = some f ∧
    w.memory.spans.cell f = some s ∧ ((p.slots (w.key eng)).request.isSome → ∃ rs r,
      (p.slots (w.key eng)).resourceSpan = some rs ∧ w.memory.resource_spans.cell rs = some r)

/-- In the course of a session it can. -/
theorem Traced.opens {T : Bytes} (h : Traced eng T w) : Opens eng w := by
  obtain ⟨f, rs, r, ⟨⟨p, hp, hfirst, -, hresource⟩, hcell, hmem⟩, hall⟩ := h
  obtain ⟨s, hs, -⟩ := hall f hmem
  exact ⟨p, f, s, hp, hfirst, hs, fun _ => ⟨rs, r, hresource, hcell⟩⟩

/-- The span `q` is there. -/
def Live (q : Nat) (w : World φ) : Prop := ∃ s, w.memory.spans.cell q = some s

theorem addSpan_of_live {rs : Nat} {r : ResourceSpans} (span : Span)
    (h : w.memory.resource_spans.cell rs = some r) :
    ∃ q v, Provider.addSpan rs span w = .ok (q, v) := by
  simp only [Provider.addSpan, bind_apply, get_apply, ok_bind, load_eq_ok_iff.mpr h, lift_ok]
  exact ⟨_, _, rfl⟩

theorem Opens.getTracer (h : Opens eng w) : ∃ rs u p f s r,
    Provider.getTracer eng w = .ok (rs, u) ∧ u.globals.provider = some p ∧
      (p.slots (u.key eng)).firstSpan = some f ∧ u.memory.spans.cell f = some s ∧
        u.memory.resource_spans.cell rs = some r := by
  obtain ⟨p, f, s, hp, hfirst, hs, htracer⟩ := h
  simp only [Provider.getTracer, bind_apply, slot_of_some hp, ok_bind, stateful.ite_apply]
  split
  · obtain ⟨rs, r, hrs, hr⟩ := htracer ‹_›
    exact ⟨rs, w, p, f, s, r, by rw [hrs]; rfl, hp, hfirst, hs, hr⟩
  · refine ⟨_, _, _, f, s, {}, Provider.newRequest_of_some hp, rfl, ?_, hs, ?_⟩
    · simp [World.withRequest, hfirst]
    · simp [World.withRequest]

theorem Opens.createSpan (h : Opens eng w) (name : Bytes) (kind : SpanKind) :
    ∃ q v, Provider.createSpan eng name kind w = .ok (q, v) := by
  obtain ⟨rs, u, p, f, s, r, htracer, hp, hfirst, hs, hr⟩ := h.getTracer
  have hslot : Provider.firstOneSpan eng u = .ok (some f, u) := by
    simp only [Provider.firstOneSpan, bind_apply, slot_of_some hp, ok_bind, pure_apply, hfirst]
  have hid : Provider.traceIdFor (some f) u = .ok (s.trace_id, u) := by
    simp only [Provider.traceIdFor, bind_apply, readSpan_of_some hs, ok_bind, pure_apply]
  simp only [Provider.createSpan, bind_apply, htracer, hslot, hid, ok_bind]
  exact addSpan_of_live _ hr

theorem Opens.createChildSpan (h : Opens eng w) (name : Bytes) (kind : SpanKind) :
    ∃ q v, Provider.createChildSpan eng name kind w = .ok (q, v) := by
  obtain ⟨q, v, hcreate⟩ := h.createSpan name kind
  obtain ⟨p, f, s, hp, hfirst, hs, -⟩ := h
  have hhas : HasFirst eng w f s := ⟨p, hp, hfirst, hs⟩
  have hlatest : Provider.latestSpan eng w = .ok (s, w) := by
    simp only [Provider.latestSpan, bind_apply, hhas.firstOneSpan, ok_bind, deref_some, lift_ok,
      readSpan_of_some hs]
  obtain ⟨span, hspans, hq, -⟩ := createSpan_spans hcreate
  have hlive : v.memory.spans.cell q = some span := by simp [hspans, hq]
  simp only [Provider.createChildSpan, bind_apply, hlatest, hcreate, ok_bind,
    modifySpan_of_some _ hlive, pure_apply]
  exact ⟨_, _, rfl⟩

/-- Where there is a request, a new span goes into the list that its slot points to. -/
theorem spanAdded_of_createSpan {name : Bytes} {kind : SpanKind} {q : Nat} {p : Provider}
    (hp : w.globals.provider = some p) (hrequest : (p.slots (w.key eng)).request.isSome)
    (h : Provider.createSpan eng name kind w = .ok (q, w')) :
    ∃ rs span, (p.slots (w.key eng)).resourceSpan = some rs ∧ Provider.SpanAdded w w' rs q span := by
  obtain ⟨rs, u, p', span, htracer, -, hadded, -⟩ := Provider.createSpan_ok h
  obtain ⟨p₁, hp₁, ⟨-, hrs, rfl⟩ | ⟨hnone, -, -⟩⟩ := Provider.getTracer_ok htracer
  · obtain rfl : p = p₁ := Option.some.inj (hp.symm.trans hp₁)
    exact ⟨rs, span, hrs, hadded⟩
  · obtain rfl : p = p₁ := Option.some.inj (hp.symm.trans hp₁)
    rw [hnone] at hrequest
    cases hrequest

/-- Where a span can be created as a child, the pointers it goes through are good. -/
theorem opens_of_createChildSpan {name : Bytes} {kind : SpanKind} {q : Nat}
    (h : Provider.createChildSpan eng name kind w = .ok (q, w')) : Opens eng w := by
  obtain ⟨v, f, first, ⟨p, hp, hf, hs⟩, hcreate, -⟩ := createChildSpan_ok h
  refine ⟨p, f, first, hp, hf, hs, fun hrequest => ?_⟩
  obtain ⟨rs, span, hrs, hadded⟩ := spanAdded_of_createSpan hp hrequest hcreate
  obtain ⟨r, hr⟩ := hadded.live
  exact ⟨rs, r, hrs, hr⟩

theorem php_blind : Blind eng (SameOn (World.php : World φ → φ)) where
  memory _ _ := rfl
  clock _ := rfl
  uuids _ _ := rfl
  slot _ _ _ := rfl

theorem acts_addAttribute (q : Nat) (kv : KeyValue) :
    Acts (Live q) World.php Eq (addAttribute q kv : M φ Unit) := by
  refine .of_total fun w ⟨s, hs⟩ => ⟨(), _, modifySpan_of_some _ hs, ?_, rfl⟩
  exact ⟨_, by rw [World.withSpan, World.memory_withMemory, Heap.cell_modify_self, hs]; rfl⟩

theorem acts_addAttributes (q : Nat) (kvs : List KeyValue) :
    Acts (Live q) World.php Eq (kvs.forM (addAttribute q) : M φ Unit) :=
  .forM fun kv => acts_addAttribute q kv

theorem live_of_createChildSpan {name : Bytes} {kind : SpanKind} {q : Nat}
    (h : Provider.createChildSpan eng name kind w = .ok (q, w')) : Live q w' := by
  obtain ⟨v, f, first, -, hcreate, rfl⟩ := createChildSpan_ok h
  obtain ⟨span, hspans, hq, -⟩ := createSpan_spans hcreate
  refine ⟨{ span with parent_span_id := first.span_id }, ?_⟩
  rw [World.withSpan, World.memory_withMemory, Heap.cell_modify_self, hspans, hq,
    Heap.cell_alloc_self]
  rfl

theorem openSpan_ok {kind : SpanKind} {kvs : List KeyValue} {q : Nat}
    (h : openSpan eng execute_data kind kvs w = .ok (q, w')) : Live q w' ∧ w'.php = w.php := by
  obtain ⟨q', v, hcreate, h⟩ := bind_ok_iff.mp h
  obtain ⟨⟨⟩, v', hadd, hreturn⟩ := bind_ok_iff.mp h
  cases hreturn
  have hlive : Live q v := live_of_createChildSpan hcreate
  have hphp : v.php = w.php := php_blind.spanwise.createChildSpan _ _ (.of_ok hcreate)
  have hacts := acts_addAttributes (φ := φ) q (kvs ++ stackAttribute execute_data.callers)
  have hsame := (hacts.returns_iff hlive _).mp ⟨_, _, hadd, rfl⟩
  exact ⟨hacts.keeps hlive hadd, hsame.symm.trans hphp⟩

theorem openSpan_returns_iff {kind : SpanKind} {kvs : List KeyValue} :
    (∃ q w', openSpan eng execute_data kind kvs w = .ok (q, w')) ↔ Opens eng w := by
  constructor
  · rintro ⟨q, w', h⟩
    obtain ⟨q', v, hcreate, -⟩ := bind_ok_iff.mp h
    exact opens_of_createChildSpan hcreate
  · intro h
    obtain ⟨q, v, hcreate⟩ := h.createChildSpan execute_data.func.name kind
    have hacts := acts_addAttributes (φ := φ) q (kvs ++ stackAttribute execute_data.callers)
    obtain ⟨⟨⟩, v', hadd, -⟩ :=
      (hacts.returns_iff (live_of_createChildSpan hcreate) v.php).mpr rfl
    exact ⟨q, v', bind_ok_iff.mpr ⟨q, v, hcreate, bind_ok_iff.mpr ⟨(), v', hadd, rfl⟩⟩⟩

/-- After the span is opened, an extraction does no more than ask the PHP state. -/
theorem enter_returns_iff {kind : SpanKind} {kvs : List KeyValue} {rest : Nat → M φ Nat}
    {C : φ → φ → Prop} (hrest : ∀ q, Acts (Live q) World.php C (rest q)) :
    (∃ q w', (openSpan eng execute_data kind kvs >>= rest) w = .ok (q, w')) ↔
      Opens eng w ∧ ∃ php, C w.php php := by
  constructor
  · rintro ⟨q, w', h⟩
    obtain ⟨q', v, hopen, hgo⟩ := bind_ok_iff.mp h
    obtain ⟨hlive, hphp⟩ := openSpan_ok hopen
    refine ⟨openSpan_returns_iff.mp ⟨q', v, hopen⟩, w'.php, ?_⟩
    rw [← hphp]
    exact ((hrest q').returns_iff hlive _).mp ⟨q, w', hgo, rfl⟩
  · rintro ⟨hopens, php, hC⟩
    obtain ⟨q, v, hopen⟩ := openSpan_returns_iff.mpr hopens
    obtain ⟨hlive, hphp⟩ := openSpan_ok hopen
    obtain ⟨q', w', hgo, -⟩ := ((hrest q).returns_iff hlive php).mpr (by rwa [hphp])
    exact ⟨q', w', bind_ok_iff.mpr ⟨q, v, hopen, hgo⟩⟩

/-- What `lookup` knows of the object that a value is. -/
def objectData {δ : Type} (lookup : φ → Nat → Option δ) (self : Zval) (php : φ) : Except Fault δ :=
  match self with
  | .object handle _ =>
    match lookup php handle with
    | some data => .ok data
    | none => .error .wrongType
  | _ => .error .wrongType

/-- The value is an object of which `lookup` knows something that satisfies `P`. -/
def IsObject {δ : Type} (lookup : φ → Nat → Option δ) (P : δ → Prop) (self : Zval) (php : φ) :
    Prop :=
  ∃ handle class_name data, self = .object handle class_name ∧ lookup php handle = some data ∧ P data

theorem objectData_iff {δ : Type} {lookup : φ → Nat → Option δ} {P : δ → Prop} {self : Zval}
    {php : φ} : (∃ data, objectData lookup self php = .ok data ∧ P data) ↔
      IsObject lookup P self php := by
  unfold objectData IsObject
  cases self with
  | object handle class_name => cases h : lookup php handle <;> simp_all
  | _ => simp

/-- The attributes that are computed from what is read of the PHP state. -/
theorem acts_recorded {δ : Type} {q : Nat} {m : M φ δ} {r : φ → Except Fault δ}
    {attributes : δ → Except Fault (List KeyValue)} {P : δ → Prop}
    (hm : ∀ w, m w = lift (r w.php) w)
    (hattributes : ∀ data, (∃ kvs, attributes data = .ok kvs) ↔ P data) :
    Acts (Live q) World.php (fun x y => (∃ data, r x = .ok data ∧ P data) ∧ x = y)
      (do
        let data ← m
        (← lift (attributes data)).forM (addAttribute q)
        return q : M φ Nat) := by
  refine (Acts.query hm fun data => .lift fun kvs =>
    (acts_addAttributes q kvs).bind fun _ => .pure q).congr fun x y => ?_
  simp only [← hattributes]
  constructor
  · rintro ⟨data, hdata, kvs, hkvs, z, rfl, rfl⟩
    exact ⟨⟨data, hdata, kvs, hkvs⟩, rfl⟩
  · rintro ⟨⟨data, hdata, kvs, hkvs⟩, rfl⟩
    exact ⟨data, hdata, kvs, hkvs, x, rfl, rfl⟩

section Pdo

theorem Z_PDO_DBH_P_apply (self : Zval) (w : World φ) :
    Z_PDO_DBH_P eng self w = lift (objectData eng.pdo_dbh self w.php) w := by
  cases self with
  | object handle class_name =>
    simp only [Z_PDO_DBH_P, objectData, bind_apply, get_apply, ok_bind]
    cases eng.pdo_dbh w.php handle <;> rfl
  | _ => rfl

theorem Z_PDO_STMT_P_apply (self : Zval) (w : World φ) :
    Z_PDO_STMT_P eng self w = lift (objectData eng.pdo_stmt self w.php) w := by
  cases self with
  | object handle class_name =>
    simp only [Z_PDO_STMT_P, objectData, bind_apply, get_apply, ok_bind]
    cases eng.pdo_stmt w.php handle <;> rfl
  | _ => rfl

/-- A constructor call with a data source has a string as its second argument. -/
def UserGiven (execute_data : ExecuteData) : Prop :=
  execute_data.function_name = lit "__construct" →
    ∀ source, execute_data.args[0]? = some (.string source) →
      ∃ user, execute_data.args[1]? = some (.string user)

/-- The driver's name fits into the buffer. -/
def DriverFits (driver : Option Bytes) : Prop := ∀ driver_name ∈ driver, driver_name.length < 64

theorem driverName_iff {driver_name : Bytes} :
    (∃ db_type, driverName driver_name = .ok db_type) ↔ driver_name.length < 64 := by
  unfold driverName
  split <;> simp_all

theorem ZEND_CALL_ARG_iff {i : Nat} {p : Zval} :
    ZEND_CALL_ARG execute_data i = .ok p ↔ execute_data.args[i - 1]? = some p := by
  unfold ZEND_CALL_ARG
  split <;> simp_all

/-- Only a string can be read as one. -/
theorem string_argument_iff {i : Nat} :
    (∃ p, ZEND_CALL_ARG execute_data i = .ok p ∧ ∃ text, Z_STRVAL_P p = .ok text) ↔
      ∃ s, execute_data.args[i - 1]? = some (.string s) := by
  simp only [ZEND_CALL_ARG_iff]
  constructor
  · rintro ⟨p, hp, text, htext⟩
    cases p with
    | string s => exact ⟨s, hp⟩
    | _ => cases htext
  · rintro ⟨s, hs⟩
    exact ⟨.string s, hs, c_str s, rfl⟩

theorem acts_string_argument {β : Type} {i q : Nat} {f : Bytes → M φ β}
    (hf : ∀ text, Acts (Live q) World.php Eq (f text)) :
    Acts (Live q) World.php
      (fun x y => (∃ s, execute_data.args[i - 1]? = some (.string s)) ∧ x = y)
      (lift (ZEND_CALL_ARG execute_data i) >>= fun p => lift (Z_STRVAL_P p) >>= f) := by
  refine (Acts.lift fun p => .lift hf).congr fun x y => ?_
  rw [← string_argument_iff]
  constructor
  · rintro ⟨p, hp, text, htext, hxy⟩
    exact ⟨⟨p, hp, text, htext⟩, hxy⟩
  · rintro ⟨⟨p, hp, text, htext⟩, hxy⟩
    exact ⟨p, hp, text, htext, hxy⟩

theorem acts_pdoArguments (q : Nat) :
    Acts (Live q) World.php (fun x y => UserGiven execute_data ∧ x = y)
      (pdoArguments execute_data q : M φ Bytes) := by
  have hrecord (kv : KeyValue) (a : Bytes) : Acts (Live q) World.php Eq
      (addAttribute q kv >>= fun _ => pure a : M φ Bytes) :=
    ((acts_addAttribute q kv).bind fun _ => .pure a).congr fun x y => by simp
  refine ((Acts.pure _).ite (.lift (D := fun p x y => (∀ source, p = .string source →
    execute_data.function_name = lit "__construct" →
      ∃ user, execute_data.args[1]? = some (.string user)) ∧ x = y) fun p => ?_)).congr fun x y => ?_
  · cases p with
    | string source =>
      refine ((hrecord _ _).ite (acts_string_argument fun user => hrecord _ _)).congr fun x y => ?_
      by_cases hconstruct : execute_data.function_name = lit "__construct" <;> simp [hconstruct]
    | _ => exact (Acts.pure _).congr fun x y => by simp
  · simp only [ZEND_CALL_NUM_ARGS, List.length_eq_zero_iff, ZEND_CALL_ARG_iff, UserGiven]
    rcases execute_data.args with _ | ⟨p, rest⟩
    · simp
    · simp only [reduceCtorEq, false_and, false_or, not_false_eq_true, true_and, Nat.sub_self,
        List.getElem?_cons_zero, Option.some.injEq, exists_eq_left']
      exact and_congr_left fun _ => ⟨fun h hc s hs => h s hs hc, fun h s hs hc => h hc s hs⟩

theorem pdoConnection_iff {dbh : PdoDbh} {source : Bytes} :
    (∃ kvs, pdoConnection eng dbh source = .ok kvs) ↔ DriverFits dbh.driver.join := by
  unfold pdoConnection DriverFits
  rcases dbh.driver with _ | _ | driver_name
  · simp
  · simp
  · simp only [Option.join_some, Option.mem_some_iff, forall_eq', ← driverName_iff]
    cases driverName driver_name <;> simp

theorem pdoStatementConnection_iff {stmt : PdoStmt} :
    (∃ kvs, pdoStatementConnection eng stmt = .ok kvs) ↔
      stmt.query_string.isSome ∧ ∃ dbh driver, stmt.dbh = some dbh ∧ dbh.driver = some driver ∧
        DriverFits driver := by
  unfold pdoStatementConnection DriverFits
  rcases stmt.query_string with _ | query
  · simp
  rcases stmt.dbh with _ | dbh
  · simp
  rcases hdriver : dbh.driver with _ | _ | driver_name
  · simp [hdriver]
  · simp [hdriver]
  · simp only [← driverName_iff]
    cases h : driverName driver_name <;> simp [hdriver, h]

/-- The calls of a `PDO` method that its extraction does not stop. -/
def pdoAccepts (eng : Engine φ) (execute_data : ExecuteData) (php : φ) : Prop :=
  UserGiven execute_data ∧
    IsObject eng.pdo_dbh (fun dbh => DriverFits dbh.driver.join) execute_data.This php

theorem pdoEnter_iff : (∃ q w', pdoEnter eng execute_data w = .ok (q, w')) ↔
    Opens eng w ∧ pdoAccepts eng execute_data w.php := by
  refine (enter_returns_iff (C := fun x y => pdoAccepts eng execute_data x ∧ x = y)
    fun q => ?_).trans (by simp)
  refine Acts.congr (.bind (acts_pdoArguments q) fun source => .bind (acts_addAttributes q _) fun _ =>
    acts_recorded (Z_PDO_DBH_P_apply _) fun dbh => pdoConnection_iff) fun x y => ?_
  simp [pdoAccepts, objectData_iff, and_assoc]

/-- The calls of a `PDOStatement` method that its extraction does not stop. -/
def pdoStatementAccepts (eng : Engine φ) (execute_data : ExecuteData) (php : φ) : Prop :=
  IsObject eng.pdo_stmt (fun stmt => stmt.query_string.isSome ∧ ∃ dbh driver,
    stmt.dbh = some dbh ∧ dbh.driver = some driver ∧ DriverFits driver) execute_data.This php

theorem pdoStatementEnter_iff : (∃ q w', pdoStatementEnter eng execute_data w = .ok (q, w')) ↔
    Opens eng w ∧ pdoStatementAccepts eng execute_data w.php := by
  refine (enter_returns_iff (C := fun x y => pdoStatementAccepts eng execute_data x ∧ x = y)
    fun q => ?_).trans (by simp)
  refine Acts.congr (acts_recorded (Z_PDO_STMT_P_apply _) fun stmt => pdoStatementConnection_iff)
    fun x y => ?_
  simp [pdoStatementAccepts, objectData_iff]

end Pdo

section Mysqli

/-- `mysqliLink`, as far as it depends on the state. -/
def linkData (eng : Engine φ) (execute_data : ExecuteData) (php : φ) :
    Except Fault (Option MysqlndConnData) :=
  if ¬ eng.mysqlnd then .ok none
  else if execute_data.class_name = lit "mysqli" then
    objectData eng.mysqli_link execute_data.This php
  else
    match ZEND_CALL_ARG execute_data 1 with
    | .error e => .error e
    | .ok .null => .ok none
    | .ok obj => objectData eng.mysqli_link obj php

theorem Z_MYSQLI_P_apply (obj : Zval) (w : World φ) :
    Z_MYSQLI_P eng obj w = lift (objectData eng.mysqli_link obj w.php) w := by
  cases obj with
  | object handle class_name =>
    simp only [Z_MYSQLI_P, objectData, bind_apply, get_apply, ok_bind]
    cases eng.mysqli_link w.php handle <;> rfl
  | _ => rfl

theorem mysqliLink_apply (w : World φ) :
    mysqliLink eng execute_data w = lift (linkData eng execute_data w.php) w := by
  unfold mysqliLink linkData
  split
  · rfl
  split
  · exact Z_MYSQLI_P_apply _ w
  · cases ZEND_CALL_ARG execute_data 1 with
    | error e => rfl
    | ok obj =>
      cases obj with
      | null => rfl
      | _ =>
        rw [← Z_MYSQLI_P_apply]
        rfl

/-- A link that is either not connected or has a host name. -/
def LinkNamed (eng : Engine φ) (self : Zval) (php : φ) : Prop :=
  IsObject eng.mysqli_link (fun link => ∀ data ∈ link, data.hostname.isSome) self php

/-- The calls of a mysqli method or function that the extraction does not stop. -/
def mysqliAccepts (eng : Engine φ) (execute_data : ExecuteData) (php : φ) : Prop :=
  eng.mysqlnd = true →
    if execute_data.class_name = lit "mysqli" then LinkNamed eng execute_data.This php
    else ∃ obj, execute_data.args[0]? = some obj ∧ (obj = .null ∨ LinkNamed eng obj php)

theorem mysqliStatement_ok (e : ExecuteData) : ∃ statement, mysqliStatement e = .ok statement := by
  unfold mysqliStatement ZEND_CALL_NUM_ARGS ZEND_CALL_ARG
  rcases e.args with _ | ⟨p, _ | ⟨p', rest⟩⟩ <;> split <;> exact ⟨_, rfl⟩

theorem mysqliAttributes_iff {statement : Option Zval} {link : Option MysqlndConnData} :
    (∃ kvs, mysqliAttributes eng statement link = .ok kvs) ↔
      ∀ data ∈ link, data.hostname.isSome := by
  unfold mysqliAttributes mysqliServer
  rcases link with _ | ⟨_ | hostname, port⟩ <;> simp

theorem linkData_iff {php : φ} : (∃ link, linkData eng execute_data php = .ok link ∧
    ∀ data ∈ link, data.hostname.isSome) ↔ mysqliAccepts eng execute_data php := by
  unfold linkData mysqliAccepts LinkNamed
  by_cases hmysqlnd : eng.mysqlnd = true
  · simp only [hmysqlnd, not_true_eq_false, if_false, forall_const]
    split
    · exact objectData_iff
    · cases hobj : ZEND_CALL_ARG execute_data 1 with
      | error e =>
        have hnone (obj : Zval) : execute_data.args[0]? ≠ some obj := fun h => by
          rw [ZEND_CALL_ARG_iff.mpr h] at hobj
          cases hobj
        simp [hnone]
      | ok obj =>
        rw [ZEND_CALL_ARG_iff.mp hobj]
        cases obj with
        | null => simp
        | _ => simp [objectData_iff]
  · simp [hmysqlnd]

theorem mysqliEnter_iff : (∃ q w', mysqliEnter eng execute_data w = .ok (q, w')) ↔
    Opens eng w ∧ mysqliAccepts eng execute_data w.php := by
  refine (enter_returns_iff (C := fun x y => mysqliAccepts eng execute_data x ∧ x = y)
    fun q => ?_).trans (by simp)
  refine Acts.congr (.lift fun statement =>
    acts_recorded mysqliLink_apply fun link => mysqliAttributes_iff) fun x y => ?_
  obtain ⟨statement, hstatement⟩ := mysqliStatement_ok execute_data
  simp [hstatement, ← linkData_iff]

end Mysqli

section Redis

theorem zend_call_method_ok {obj : Zval} {name : String} {params : List Zval} {result : Zval} :
    zend_call_method eng obj name params w = .ok (result, w') ↔ ∃ handle class_name php,
      obj = .object handle class_name ∧
        eng.call_method w.php obj (lit name) params = some (result, php) ∧
          w' = { w with php := php } := by
  cases obj with
  | object handle class_name =>
    simp only [zend_call_method, bind_apply, get_apply, ok_bind]
    cases hcall : eng.call_method w.php (.object handle class_name) (lit name) params with
    | none => simp
    | some r => simp [modifyPhp, Prod.ext_iff, eq_comm, and_assoc]
  | _ => simp [zend_call_method]

theorem acts_zend_call_method {q : Nat} {obj : Zval} {name : String} {params : List Zval} :
    Acts (Live q) World.php (fun x y => ∃ handle class_name result,
      obj = .object handle class_name ∧ eng.call_method x obj (lit name) params = some (result, y))
      (zend_call_method eng obj name params) where
  keeps hlive h := by
    obtain ⟨_, _, php, _, _, rfl⟩ := zend_call_method_ok.mp h
    exact hlive
  returns_iff := by
    intro w _ y
    simp only [zend_call_method_ok]
    constructor
    · rintro ⟨result, _, ⟨handle, class_name, php, hobj, hcall, rfl⟩, rfl⟩
      exact ⟨handle, class_name, result, hobj, hcall⟩
    · rintro ⟨handle, class_name, result, hobj, hcall⟩
      exact ⟨result, _, ⟨handle, class_name, y, hobj, hcall, rfl⟩, rfl⟩

/-- The object tells its server's address; it may be another afterwards. -/
def PeerTold (eng : Engine φ) (self : Zval) (php php' : φ) : Prop :=
  ∃ handle class_name host port php₁, self = .object handle class_name ∧
    eng.call_method php self (lit "gethost") [] = some (host, php₁) ∧
      eng.call_method php₁ self (lit "getport") [] = some (port, php')

theorem acts_redisPeer (q : Nat) :
    Acts (Live q) World.php (PeerTold eng execute_data.This) (redisPeer eng execute_data q) := by
  refine Acts.congr (.bind acts_zend_call_method fun host => .bind acts_zend_call_method fun port =>
    (?_ : Acts (Live q) World.php Eq _)) fun x y => ?_
  · split
    · exact ((acts_addAttribute q _).bind fun _ => acts_addAttribute q _).congr fun x y => by simp
    · exact .pure _
  · constructor
    · rintro ⟨php₁, ⟨handle, class_name, host, hobj, hhost⟩, _, ⟨_, _, port, _, hport⟩, rfl⟩
      exact ⟨handle, class_name, host, port, php₁, hobj, hhost, hport⟩
    · rintro ⟨handle, class_name, host, port, php₁, hobj, hhost, hport⟩
      exact ⟨php₁, ⟨handle, class_name, host, hobj, hhost⟩, y,
        ⟨handle, class_name, port, hobj, hport⟩, rfl⟩

/-- What `redisArgument` needs of the argument `p`: a port has to read as a number. -/
def ArgumentReads (execute_data : ExecuteData) (i : Nat) (p : Zval) (str : Bytes) : Prop :=
  i = 2 → is_equal execute_data.cmd (lit "connect") = true → p ≠ .undef → IsLongLong str

theorem acts_redisArgument {q i : Nat} {p : Zval} {str : Bytes} :
    Acts (Live q) World.php (fun x y => ArgumentReads execute_data i p str ∧ x = y)
      (redisArgument eng execute_data.cmd q i p str) := by
  unfold redisArgument ArgumentReads
  split
  · exact (acts_addAttribute q _).congr fun x y => by simp; omega
  split
  · exact (acts_addAttribute q _).congr fun x y => by simp; omega
  split
  · cases p with
    | undef => exact (Acts.pure _).congr fun x y => by simp
    | _ =>
      refine (Acts.lift fun port => acts_addAttribute q _).congr fun x y => ?_
      simp [‹_ ∧ _›, ← stoll_isOk_iff]
  · exact (Acts.pure _).congr fun x y => by simp; tauto

/-- What one turn of the loop over the arguments needs. -/
def TurnReads (eng : Engine φ) (execute_data : ExecuteData) (i : Nat) (php : φ) : Prop :=
  ∀ p, execute_data.args[i - 1]? = some p → (∀ entries, p ≠ .array entries) →
    ArgumentReads execute_data i p (c_str (convert_to_string eng php p))

theorem acts_redisCommand {q i : Nat} {command : Bytes} (hi : i - 1 < execute_data.args.length) :
    Acts (Live q) World.php (fun x y => TurnReads eng execute_data i x ∧ x = y)
      (redisCommand eng execute_data q command i) := by
  obtain ⟨p, hp⟩ : ∃ p, execute_data.args[i - 1]? = some p := ⟨_, List.getElem?_eq_getElem hi⟩
  refine Acts.congr (.lift (D := fun p x y => ((∀ entries, p ≠ .array entries) →
    ArgumentReads execute_data i p (c_str (convert_to_string eng x p))) ∧ x = y) fun p => ?_)
    fun x y => by simp [ZEND_CALL_ARG_iff, TurnReads, hp]
  cases p with
  | array entries =>
    exact (Acts.query (r := fun php => .ok (c_str (eng.json_encode php (.array entries))))
      (fun _ => rfl) fun text => .pure _).congr fun x y => by simp
  | _ =>
    refine (Acts.query (r := fun php => .ok (c_str (convert_to_string eng php _))) (fun _ => rfl)
      fun str => acts_redisArgument.bind fun _ => .pure _).congr fun x y => ?_
    simp

/-- The second argument of a `connect` is an array, or reads as a number. -/
def PortGiven (eng : Engine φ) (execute_data : ExecuteData) (php : φ) : Prop :=
  is_equal execute_data.cmd (lit "connect") = true → ∀ p, execute_data.args[1]? = some p →
    (∀ entries, p ≠ .array entries) → p ≠ .undef →
      IsLongLong (c_str (convert_to_string eng php p))

/-- The loop comes past every argument, and only the second can stop it. -/
theorem turnsRead_iff {php : φ} :
    (∀ i ∈ List.range' 1 (ZEND_CALL_NUM_ARGS execute_data), TurnReads eng execute_data i php) ↔
      PortGiven eng execute_data php := by
  constructor
  · intro h hconnect p hp harray hundef
    have hlen : 1 < execute_data.args.length := (List.getElem?_eq_some_iff.mp hp).1
    have hmem : 2 ∈ List.range' 1 (ZEND_CALL_NUM_ARGS execute_data) := by
      simp only [ZEND_CALL_NUM_ARGS, List.mem_range'_1]
      omega
    exact h 2 hmem p hp harray rfl hconnect hundef
  · rintro h i - p hp harray rfl hconnect hundef
    exact h hconnect p hp harray hundef

theorem acts_redisLoop {q : Nat} {command : Bytes} :
    Acts (Live q) World.php (fun x y => PortGiven eng execute_data x ∧ x = y)
      ((List.range' 1 (ZEND_CALL_NUM_ARGS execute_data)).foldlM
        (redisCommand eng execute_data q) command) := by
  have hturn (command : Bytes) (i : Nat)
      (hi : i ∈ List.range' 1 (ZEND_CALL_NUM_ARGS execute_data)) :
      Acts (Live q) World.php (fun x y => TurnReads eng execute_data i x ∧ x = y)
        (redisCommand eng execute_data q command i) := by
    rw [ZEND_CALL_NUM_ARGS, List.mem_range'_1] at hi
    exact acts_redisCommand (by omega)
  exact (Acts.foldlM hturn command).congr fun x y => by rw [turnsRead_iff]

/-- The calls of a Redis method that its extraction does not stop. -/
def redisAccepts (eng : Engine φ) (execute_data : ExecuteData) (php : φ) : Prop :=
  ∃ php', (if redisKeysCommands.contains execute_data.cmd then
    PeerTold eng execute_data.This php php' else php = php') ∧ PortGiven eng execute_data php'

theorem redisEnter_iff : (∃ q w', redisEnter eng execute_data w = .ok (q, w')) ↔
    Opens eng w ∧ redisAccepts eng execute_data w.php := by
  refine (enter_returns_iff (C := fun x y => (if redisKeysCommands.contains execute_data.cmd then
    PeerTold eng execute_data.This x y else x = y) ∧ PortGiven eng execute_data y)
    fun q => ?_).trans Iff.rfl
  have hrest : Acts (Live q) World.php (fun x y => PortGiven eng execute_data x ∧ x = y) (do
      let command ← (List.range' 1 (ZEND_CALL_NUM_ARGS execute_data)).foldlM
        (redisCommand eng execute_data q) (execute_data.cmd ++ lit " ")
      addAttribute q (string_attribute "db.statement" (statementText command))
      return q) :=
    Acts.congr (.bind acts_redisLoop fun command =>
      .bind (acts_addAttribute q _) fun _ => .pure q) fun x y => by simp
  refine Acts.congr (.bind (acts_addAttribute q _) fun _ =>
    .ite (.bind (acts_redisPeer q) fun _ => hrest) hrest) fun x y => ?_
  by_cases hkeys : redisKeysCommands.contains execute_data.cmd
  · simp only [hkeys, not_true_eq_false, false_and, or_false, true_and, if_true]
    constructor
    · rintro ⟨_, rfl, z, hpeer, hport, rfl⟩
      exact ⟨hpeer, hport⟩
    · rintro ⟨hpeer, hport⟩
      exact ⟨x, rfl, y, hpeer, hport, rfl⟩
  · simp only [hkeys, Bool.false_eq_true, not_false_eq_true, false_and, false_or, true_and, if_false,
      exists_eq_left']
    exact ⟨fun ⟨hport, heq⟩ => ⟨heq, heq ▸ hport⟩, fun ⟨heq, hport⟩ => ⟨heq ▸ hport, heq⟩⟩

end Redis

/-- The traced methods of databases. -/
inductive Extractor where
  | pdo
  | pdo_statement
  | mysqli
  | redis
deriving DecidableEq, Repr

namespace Extractor

def entry : Extractor → EntryPoint
  | pdo => .pdo
  | pdo_statement => .pdo_statement
  | mysqli => .mysqli
  | redis => .redis

/-- What runs before the original handler. -/
def enter (eng : Engine φ) : Extractor → ExecuteData → M φ Nat
  | pdo => pdoEnter eng
  | pdo_statement => pdoStatementEnter eng
  | mysqli => mysqliEnter eng
  | redis => redisEnter eng

def leave (eng : Engine φ) : Extractor → ExecuteData → Nat → M φ Unit
  | pdo => pdoLeave eng
  | pdo_statement => pdoStatementLeave eng
  | mysqli => mysqliLeave
  | redis => redisLeave eng

/-- The frames that get past the extraction, by what the PHP state tells of their values. -/
def Accepts (eng : Engine φ) : Extractor → ExecuteData → φ → Prop
  | pdo => pdoAccepts eng
  | pdo_statement => pdoStatementAccepts eng
  | mysqli => mysqliAccepts eng
  | redis => redisAccepts eng

theorem enter_iff (x : Extractor) : (∃ q w', x.enter eng execute_data w = .ok (q, w')) ↔
    Opens eng w ∧ x.Accepts eng execute_data w.php := by
  cases x with
  | pdo => exact pdoEnter_iff
  | pdo_statement => exact pdoStatementEnter_iff
  | mysqli => exact mysqliEnter_iff
  | redis => exact redisEnter_iff

theorem handler_eq (x : Extractor) (originals : Originals φ) :
    x.entry.handler eng originals execute_data = tracedHandler (x.enter eng) (x.leave eng)
      (fun execute_data => x.entry.saved originals execute_data) execute_data := by
  cases x <;> rfl

end Extractor

/-- The extraction returns, so that the handler goes on with the original handler. -/
def ReachesOriginal (eng : Engine φ) (x : Extractor) (execute_data : ExecuteData) (w : World φ) :
    Prop :=
  ∃ q w', x.enter eng execute_data w = .ok (q, w') ∧
    ∀ (originals : Originals φ) (f : Handler φ), x.entry.saved originals execute_data = some f →
      x.entry.handler eng originals execute_data w = (do
        let return_value ← f execute_data
        leaveHandler (x.leave eng) execute_data (some q)
        return return_value) w'

/-- After the start of a request the span of a call can be opened. -/
theorem opens_of_request_init {natives : CurlNatives φ} (hw : w.globals.provider = none)
    (hserves : Serves eng w.globals) (h : Step eng natives .request_init w w') : Opens eng w' := by
  obtain ⟨hskip, -⟩ | ⟨-, hstart⟩ := request_init_ends h
  · exact absurd hserves hskip
  · obtain ⟨header, parsed, hstarts, hreaches, -⟩ := starts_of_start hstart hserves.not_refuses
    obtain ⟨f, s, -, -, htraced⟩ := hstarts.traced fun p hp => by simp [hw] at hp
    exact (hreaches.traced htraced).opens

/-- A server on which every object is a `PDO` with this connection. -/
def pdoServer : Engine Unit :=
  { Engine.bare false with
    pdo_dbh := fun _ _ => some ⟨some (some (lit "sqlite")), none, some [], lit "00000", none, none⟩ }

/-- The frame of `new PDO(...)`. -/
def pdoConstruct (args : List Zval) : ExecuteData :=
  { methodFrame "PDO" "__construct" with args := args }

theorem request_init_pdoServer : ∃ w, Step pdoServer .bare .request_init (World.fresh ()) w :=
  ⟨_, step_final _ rfl⟩

/-- A request with a first span, in which no header list is set. -/
def tracedWorld : World Unit :=
  { World.fresh () with
    globals := {
      provider := some ⟨0, fun _ =>
        { request := some 0, resourceSpan := some 0, resource := some 0, firstSpan := some 0 }⟩
      curl_header := some [] }
    memory := {
      requests := Heap.empty.alloc ⟨[0]⟩
      resource_spans := Heap.empty.alloc ⟨none, [0]⟩
      resources := Heap.empty.alloc ⟨[]⟩
      spans := Heap.empty.alloc {
        trace_id := List.replicate 16 1, span_id := List.replicate 8 1, name := lit "/", kind := .server
        start_time_unix_nano := 5 } } }

end opentelemetry
