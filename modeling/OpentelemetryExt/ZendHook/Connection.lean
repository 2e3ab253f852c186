import OpentelemetryExt.ZendHook.Described

open stateful

namespace opentelemetry

variable {φ : Type} {eng : Engine φ} {v v' w w' : World φ} {q q' : Nat} {e e' : ExecuteData}
  {dbh : PdoDbh}

/-- The attributes that describe a connection. -/
def connectionKeys : List Bytes :=
  ["net.peer.ip", "net.peer.name", "net.peer.port", "db.name", "db.connection_string",
    "net.transport"].map lit

def connectionAttributes (attributes : List KeyValue) : List KeyValue :=
  attributes.filter fun kv => connectionKeys.contains kv.key

theorem connectionAttributes_append (kvs kvs' : List KeyValue) :
    connectionAttributes (kvs ++ kvs') = connectionAttributes kvs ++ connectionAttributes kvs' :=
  List.filter_append ..

theorem connectionAttributes_eq_self {kvs : List KeyValue}
    (h : ∀ kv ∈ kvs, kv.key ∈ connectionKeys) : connectionAttributes kvs = kvs :=
  List.filter_eq_self.mpr fun kv hkv => List.contains_iff_mem.mpr (h kv hkv)

theorem connectionAttributes_eq_nil {kvs : List KeyValue}
    (h : ∀ kv ∈ kvs, kv.key ∉ connectionKeys) : connectionAttributes kvs = [] :=
  List.filter_eq_nil_iff.mpr fun kv hkv => by simpa using h kv hkv

/-- A key with the prefix of the driver. -/
def PrefixedKey (key : Bytes) : Prop :=
  key = lit ("mysql:" ++ "host") ∨ key = lit ("mysql:" ++ "port") ∨ key = lit ("mysql:" ++ "dbname")

/-- An item of a data source that has such a key, and a value. -/
def IsPrefixed (item : Bytes) : Prop :=
  ∃ key value rest, regexTokens 61 item = key :: value :: rest ∧ PrefixedKey key

theorem PrefixedKey.not_plain {key : Bytes} (h : PrefixedKey key) :
    key ≠ lit "host" ∧ key ≠ lit "port" ∧ key ≠ lit "dbname" := by
  obtain rfl | rfl | rfl := h <;> decide

/-- With the prefix a key counts only for the hook of `PDO`. -/
theorem sourceItem_cases (eng : Engine φ) (item : Bytes) :
    sourceItem eng true item = sourceItem eng false item ∧ ¬ IsPrefixed item ∨
      sourceItem eng true item ≠ [] ∧ sourceItem eng false item = [] ∧ IsPrefixed item := by
  unfold sourceItem IsPrefixed
  rcases regexTokens 61 item with _ | ⟨key, _ | ⟨value, rest⟩⟩
  · exact .inl ⟨rfl, by simp⟩
  · exact .inl ⟨rfl, by simp⟩
  dsimp only
  by_cases hkey : PrefixedKey key
  · obtain ⟨hhost, hport, hdbname⟩ := hkey.not_plain
    refine .inr ⟨fun hnil => ?_, ?_, key, value, rest, rfl, hkey⟩
    · split_ifs at hnil with h₁ h₂ h₃
      obtain hk | hk | hk := hkey
      · exact h₁ (.inr ⟨rfl, hk⟩)
      · exact h₂ (.inr ⟨rfl, hk⟩)
      · exact h₃ (.inr ⟨rfl, hk⟩)
    · simp [hhost, hport, hdbname]
  · have hhost : key ≠ lit ("mysql:" ++ "host") := fun h => hkey (.inl h)
    have hport : key ≠ lit ("mysql:" ++ "port") := fun h => hkey (.inr (.inl h))
    have hdbname : key ≠ lit ("mysql:" ++ "dbname") := fun h => hkey (.inr (.inr h))
    refine .inl ⟨?_, ?_⟩
    · simp only [hhost, hport, hdbname, and_false, or_false]
    · rintro ⟨key', value', rest', heq, hkey'⟩
      cases heq
      exact hkey hkey'

/-- Where one of two lists only ever lacks what the other has, they are equal piece by piece. -/
theorem flatMap_eq_flatMap_iff {α β : Type} {f g : α → List β} {l : List α}
    (h : ∀ a ∈ l, f a = g a ∨ f a ≠ [] ∧ g a = []) :
    l.flatMap f = l.flatMap g ↔ ∀ a ∈ l, f a = g a := by
  have hlength (l : List α) (h : ∀ a ∈ l, f a = g a ∨ f a ≠ [] ∧ g a = []) :
      (l.flatMap g).length ≤ (l.flatMap f).length := by
    induction l with
    | nil => exact Nat.le_refl _
    | cons a l ih =>
      obtain ⟨ha, hl⟩ := List.forall_mem_cons.mp h
      rw [List.flatMap_cons, List.flatMap_cons, List.length_append, List.length_append]
      have hrest := ih hl
      obtain heq | ⟨-, hnil⟩ := ha
      · rw [heq]
        omega
      · rw [hnil, List.length_nil]
        omega
  constructor
  · intro heq
    induction l with
    | nil => exact fun a ha => absurd ha List.not_mem_nil
    | cons a l ih =>
      obtain ⟨ha, hl⟩ := List.forall_mem_cons.mp h
      rw [List.flatMap_cons, List.flatMap_cons] at heq
      obtain hsame | ⟨hsome, hnil⟩ := ha
      · rw [hsame] at heq
        exact List.forall_mem_cons.mpr ⟨hsame, ih hl (List.append_cancel_left heq)⟩
      · have hlt : 0 < (f a).length := List.length_pos_iff.mpr hsome
        have hle := hlength l hl
        have hlen := congrArg List.length heq
        rw [hnil, List.nil_append, List.length_append] at hlen
        omega
  · intro hall
    exact List.flatMap_congr hall

theorem sourceAttributes_eq_iff (eng : Engine φ) (source : Bytes) :
    sourceAttributes eng true source = sourceAttributes eng false source ↔
      ∀ item ∈ regexTokens 59 source, ¬ IsPrefixed item := by
  unfold sourceAttributes
  rw [List.append_cancel_right_eq, List.append_cancel_left_eq, flatMap_eq_flatMap_iff]
  · refine forall₂_congr fun item _ => ?_
    obtain ⟨hsame, hno⟩ | ⟨hsome, hnil, hprefixed⟩ := sourceItem_cases eng item
    · exact iff_of_true hsame hno
    · refine iff_of_false (fun heq => ?_) (not_not.mpr hprefixed)
      rw [hnil] at heq
      exact hsome heq
  · intro item _
    obtain ⟨hsame, -⟩ | ⟨hsome, hnil, -⟩ := sourceItem_cases eng item
    · exact .inl hsame
    · exact .inr ⟨hsome, hnil⟩

theorem key_of_sourceItem {mysqlPrefix : Bool} {item : Bytes} {kv : KeyValue}
    (h : kv ∈ sourceItem eng mysqlPrefix item) : kv.key ∈ connectionKeys := by
  unfold sourceItem at h
  rcases htokens : regexTokens 61 item with _ | ⟨key, _ | ⟨value, rest⟩⟩ <;> rw [htokens] at h
  · cases h
  · cases h
  dsimp only at h
  split_ifs at h
  · obtain rfl := List.mem_singleton.mp h
    obtain hkey | hkey := key_of_peerAttribute eng value <;> rw [hkey] <;> decide
  · obtain rfl := List.mem_singleton.mp h
    show lit "net.peer.port" ∈ connectionKeys
    decide
  · obtain rfl := List.mem_singleton.mp h
    show lit "db.name" ∈ connectionKeys
    decide
  · cases h

theorem connectionAttributes_source (eng : Engine φ) (mysqlPrefix : Bool) (source : Bytes) :
    connectionAttributes (sourceAttributes eng mysqlPrefix source) =
      sourceAttributes eng mysqlPrefix source := by
  have hstring : lit "db.connection_string" ∈ connectionKeys := by decide
  have htransport : lit "net.transport" ∈ connectionKeys := by decide
  apply connectionAttributes_eq_self
  unfold sourceAttributes
  simp only [List.mem_append, List.mem_singleton, List.mem_flatMap]
  rintro kv ((rfl | ⟨item, -, hkv⟩) | rfl)
  · exact hstring
  · exact key_of_sourceItem hkv
  · exact htransport

/-- Attributes with one key that is none of these. -/
theorem connectionAttributes_other {key : String} {kvs : List KeyValue}
    (hkey : lit key ∉ connectionKeys) (h : ∀ kv ∈ kvs, kv.key = lit key) :
    connectionAttributes kvs = [] :=
  connectionAttributes_eq_nil fun kv hkv => by rwa [h kv hkv]

theorem connectionAttributes_stack (callers : List (Option ZendFunction)) :
    connectionAttributes (stackAttribute callers) = [] := by
  have hkey : lit "code.stacktrace" ∉ connectionKeys := by decide
  exact connectionAttributes_other hkey fun kv hkv => key_of_stackAttribute hkv

theorem connectionAttributes_operation (function_name : Bytes) :
    connectionAttributes (pdoOperation function_name) = [] := by
  have hkey : lit "db.operation" ∉ connectionKeys := by decide
  refine connectionAttributes_other hkey fun kv hkv => ?_
  unfold pdoOperation at hkv
  split_ifs at hkv
  · rw [List.mem_singleton.mp hkv]
    rfl
  · rw [List.mem_singleton.mp hkv]
    rfl
  · rw [List.mem_singleton.mp hkv]
    rfl
  · rw [List.mem_singleton.mp hkv]
    rfl
  · cases hkv

theorem connectionAttributes_user (username : Option Bytes) : connectionAttributes
    (username.map fun s => string_attribute "db.user" (c_str s)).toList = [] := by
  have hkey : lit "db.user" ∉ connectionKeys := by decide
  refine connectionAttributes_other hkey fun kv hkv => ?_
  obtain ⟨s, -, rfl⟩ := Option.map_eq_some_iff.mp (Option.mem_toList.mp hkv)
  rfl

theorem connectionAttributes_string {key : String} (hkey : lit key ∉ connectionKeys) (text : Bytes) :
    connectionAttributes [string_attribute key text] = [] := by
  refine connectionAttributes_other hkey fun kv hkv => ?_
  rw [List.mem_singleton.mp hkv]
  rfl

/-- The driver of the handle is known. -/
def PdoDbh.Known (dbh : PdoDbh) : Prop := ∃ name, dbh.driver = some (some name) ∧ c_str name ≠ []

theorem driverName_ok {name db_type : Bytes} (h : driverName name = .ok db_type) :
    db_type = c_str name := by
  unfold driverName at h
  split_ifs at h
  cases h
  rfl

/-- What the connection of a query tells of the server. -/
theorem connectionAttributes_pdo {kvs : List KeyValue} (hknown : dbh.Known)
    (h : pdoConnection eng dbh [] = .ok kvs) : connectionAttributes kvs =
      ((dbh.data_source.map c_str).filter (· ≠ [])).elim [] (sourceAttributes eng true) := by
  obtain ⟨name, hdriver, hname⟩ := hknown
  unfold pdoConnection at h
  simp only [hdriver] at h
  cases hdb : driverName name with
  | error fault =>
    rw [hdb] at h
    cases h
  | ok db_type =>
    obtain rfl := driverName_ok hdb
    rw [hdb] at h
    cases h
    have hsystem : lit "db.system" ∉ connectionKeys := by decide
    simp only [connectionAttributes_append, Option.map_some, Option.toList_some,
      connectionAttributes_string hsystem, connectionAttributes_user, Option.getD_some]
    cases hsource : dbh.data_source with
    | none => rfl
    | some data_source =>
      simp only [if_pos hname, Option.map_some, Option.isNone_some, Bool.false_eq_true, if_false,
        List.nil_append]
      by_cases hempty : c_str data_source = []
      · rw [if_neg (not_not.mpr hempty), Option.filter_some, if_neg (by simp [hempty])]
        rfl
      · rw [if_pos hempty, Option.filter_some, if_pos (by simp [hempty]), connectionAttributes_source]
        exact List.append_nil _

theorem connectionAttributes_statement {stmt : PdoStmt} {kvs : List KeyValue} (hknown : dbh.Known)
    (hstmt : stmt.dbh = some dbh) (h : pdoStatementConnection eng stmt = .ok kvs) :
    connectionAttributes kvs =
      (dbh.data_source.map c_str).elim [] (sourceAttributes eng false) := by
  obtain ⟨name, hdriver, hname⟩ := hknown
  unfold pdoStatementConnection at h
  cases hquery : stmt.query_string with
  | none =>
    rw [hquery] at h
    cases h
  | some query =>
    rw [hquery, hstmt] at h
    simp only [pure_bind, ok_bind, deref_some, hdriver] at h
    cases hdb : driverName name with
    | error fault =>
      rw [hdb] at h
      cases h
    | ok db_type =>
      obtain rfl := driverName_ok hdb
      rw [hdb] at h
      cases h
      have hstatement : lit "db.statement" ∉ connectionKeys := by decide
      have hsystem : lit "db.system" ∉ connectionKeys := by decide
      change connectionAttributes ([string_attribute "db.statement" (c_str query)] ++
        ([string_attribute "db.system" (c_str name)] ++
          (dbh.username.map fun s => string_attribute "db.user" (c_str s)).toList) ++ _) = _
      rw [connectionAttributes_append, connectionAttributes_append, connectionAttributes_append,
        connectionAttributes_string hstatement, connectionAttributes_string hsystem,
        connectionAttributes_user]
      cases hsource : dbh.data_source with
      | none => rfl
      | some data_source =>
        simp only [Option.getD_some, if_pos hname, connectionAttributes_source]
        rfl

theorem pdoArguments_query {source : Bytes} (hcall : e.function_name ≠ lit "__construct")
    (h : pdoArguments e q w = .ok (source, w')) :
    source = [] ∧ ∃ kvs, Gets q kvs w w' ∧ connectionAttributes kvs = [] := by
  unfold pdoArguments at h
  rw [stateful.ite_apply] at h
  split_ifs at h
  · cases h
    exact ⟨rfl, [], .of_cell rfl, rfl⟩
  · obtain ⟨p, u, hp, hrest⟩ := bind_ok_iff.mp h
    obtain ⟨-, rfl⟩ := lift_ok_iff.mp hp
    cases p with
    | string s =>
      obtain ⟨⟨⟩, v, hadd, hreturn⟩ := bind_ok_iff.mp hrest
      cases hreturn
      have hstatement : lit "db.statement" ∉ connectionKeys := by decide
      exact ⟨rfl, _, gets_addAttribute (.of_ok hadd), connectionAttributes_string hstatement _⟩
    | _ =>
      cases hrest
      exact ⟨rfl, [], .of_cell rfl, rfl⟩

/-- What a query tells of the connection. -/
theorem pdoEnter_connection (h : pdoEnter eng e w = .ok (q, w'))
    (hcall : e.function_name ≠ lit "__construct")
    (hdbh : objectData eng.pdo_dbh e.This w.php = .ok dbh) (hknown : dbh.Known) :
    ∃ attributes, Described q attributes w' ∧ connectionAttributes attributes =
      ((dbh.data_source.map c_str).filter (· ≠ [])).elim [] (sourceAttributes eng true) := by
  obtain ⟨q', u, hopen, hrest₁⟩ := bind_ok_iff.mp h
  obtain ⟨source, u₁, harguments, hrest₂⟩ := bind_ok_iff.mp hrest₁
  obtain ⟨⟨⟩, u₂, hoperation, hrest₃⟩ := bind_ok_iff.mp hrest₂
  obtain ⟨dbh', u₃, hread, hrest₄⟩ := bind_ok_iff.mp hrest₃
  obtain ⟨kvs, u₄, hconnection, hrest₅⟩ := bind_ok_iff.mp hrest₄
  obtain ⟨⟨⟩, u₅, hadd, hreturn⟩ := bind_ok_iff.mp hrest₅
  cases hreturn
  obtain ⟨hlive, hphp⟩ := openSpan_ok hopen
  obtain ⟨rfl, kvs₁, hgets₁, hnone⟩ := pdoArguments_query hcall harguments
  obtain ⟨-, hphp₁⟩ : UserGiven e ∧ u.php = u₁.php :=
    ((acts_pdoArguments q).returns_iff hlive _).mp ⟨_, _, harguments, rfl⟩
  have hlive₁ : Live q u₁ := (acts_pdoArguments q).keeps hlive harguments
  have hphp₂ : u₁.php = u₂.php :=
    ((acts_addAttributes q _).returns_iff hlive₁ _).mp ⟨_, _, hoperation, rfl⟩
  rw [Z_PDO_DBH_P_apply, ← hphp₂, ← hphp₁, hphp, hdbh] at hread
  cases hread
  obtain ⟨hkvs, rfl⟩ := lift_ok_iff.mp hconnection
  refine ⟨_, ((described_openSpan hopen).gets hgets₁).gets (gets_addAttributes (.of_ok hoperation))
    |>.gets (gets_addAttributes (.of_ok hadd)), ?_⟩
  rw [connectionAttributes_append, connectionAttributes_append, connectionAttributes_append,
    List.nil_append, connectionAttributes_stack, hnone, connectionAttributes_operation,
    connectionAttributes_pdo hknown hkvs]
  rfl

/-- What an execute tells of the connection. -/
theorem pdoStatementEnter_connection {stmt : PdoStmt} (h : pdoStatementEnter eng e w = .ok (q, w'))
    (hread : objectData eng.pdo_stmt e.This w.php = .ok stmt) (hstmt : stmt.dbh = some dbh)
    (hknown : dbh.Known) :
    ∃ attributes, Described q attributes w' ∧ connectionAttributes attributes =
      (dbh.data_source.map c_str).elim [] (sourceAttributes eng false) := by
  obtain ⟨q', u, hopen, hrest₁⟩ := bind_ok_iff.mp h
  obtain ⟨stmt', u₁, hstmt', hrest₂⟩ := bind_ok_iff.mp hrest₁
  obtain ⟨kvs, u₂, hconnection, hrest₃⟩ := bind_ok_iff.mp hrest₂
  obtain ⟨⟨⟩, u₃, hadd, hreturn⟩ := bind_ok_iff.mp hrest₃
  cases hreturn
  obtain ⟨-, hphp⟩ := openSpan_ok hopen
  rw [Z_PDO_STMT_P_apply, hphp, hread] at hstmt'
  cases hstmt'
  obtain ⟨hkvs, rfl⟩ := lift_ok_iff.mp hconnection
  refine ⟨_, (described_openSpan hopen).gets (gets_addAttributes (.of_ok hadd)), ?_⟩
  rw [connectionAttributes_append, List.nil_append, connectionAttributes_stack,
    connectionAttributes_statement hknown hstmt hkvs]
  rfl

/-- A query and an execute are about one database handle: they read of it the same driver and the
same data source. -/
structure OneHandle (eng : Engine φ) (e : ExecuteData) (w : World φ) (e' : ExecuteData)
    (v : World φ) (dbh : PdoDbh) : Prop where
  query : e.function_name ≠ lit "__construct"
  handle : objectData eng.pdo_dbh e.This w.php = .ok dbh
  statement : ∃ stmt dbh', objectData eng.pdo_stmt e'.This v.php = .ok stmt ∧
    stmt.dbh = some dbh' ∧ dbh'.driver = dbh.driver ∧ dbh'.data_source = dbh.data_source

/-- Two spans describe the connection identically. -/
def SameConnection (q : Nat) (w : World φ) (q' : Nat) (w' : World φ) : Prop :=
  ∃ attributes attributes', Described q attributes w ∧ Described q' attributes' w' ∧
    connectionAttributes attributes = connectionAttributes attributes'

/-- A data source that is not empty, and has no key with the driver's prefix. -/
def PlainSource (source : Bytes) : Prop :=
  source ≠ [] ∧ ∀ item ∈ regexTokens 59 source, ¬ IsPrefixed item

theorem server_eq_iff (eng : Engine φ) (source : Option Bytes) :
    (source.filter (· ≠ [])).elim [] (sourceAttributes eng true) =
      source.elim [] (sourceAttributes eng false) ↔ ∀ s ∈ source, PlainSource s := by
  cases source with
  | none => simp
  | some s =>
    rw [Option.filter_some, Option.elim_some]
    simp only [Option.mem_some_iff, forall_eq', PlainSource]
    by_cases hempty : s = []
    · rw [if_neg (by simp [hempty])]
      have hsome : sourceAttributes eng false s ≠ [] := by simp [sourceAttributes]
      exact iff_of_false (fun heq => hsome heq.symm) fun hplain => hplain.1 hempty
    · rw [if_pos (by simp [hempty]), Option.elim_some, sourceAttributes_eq_iff]
      exact (and_iff_right hempty).symm

theorem OneHandle.same_iff (hhandle : OneHandle eng e w e' v dbh) (hknown : dbh.Known)
    (h : pdoEnter eng e w = .ok (q, w')) (h' : pdoStatementEnter eng e' v = .ok (q', v')) :
    SameConnection q w' q' v' ↔
      ((dbh.data_source.map c_str).filter (· ≠ [])).elim [] (sourceAttributes eng true) =
        (dbh.data_source.map c_str).elim [] (sourceAttributes eng false) := by
  obtain ⟨attributes, hdescribed, hpdo⟩ := pdoEnter_connection h hhandle.query hhandle.handle hknown
  obtain ⟨stmt, dbh', hread, hstmt, hdriver, hsource⟩ := hhandle.statement
  have hknown' : dbh'.Known := by
    unfold PdoDbh.Known
    rwa [hdriver]
  obtain ⟨attributes', hdescribed', hstatement⟩ := pdoStatementEnter_connection h' hread hstmt hknown'
  rw [← hpdo, ← hsource, ← hstatement]
  constructor
  · rintro ⟨kvs, kvs', hkvs, hkvs', heq⟩
    rwa [hdescribed.unique hkvs, hdescribed'.unique hkvs']
  · intro heq
    exact ⟨attributes, attributes', hdescribed, hdescribed', heq⟩

/-- The hooks of `PDO` and `PDOStatement` describe the connection of a handle with a known driver
identically if and only if its data source is plain. -/
theorem connections_agree_iff (h : pdoEnter eng e w = .ok (q, w'))
    (h' : pdoStatementEnter eng e' v = .ok (q', v')) (hhandle : OneHandle eng e w e' v dbh)
    (hknown : dbh.Known) :
    SameConnection q w' q' v' ↔ ∀ source ∈ dbh.data_source, PlainSource (c_str source) := by
  rw [hhandle.same_iff hknown h h', server_eq_iff]
  constructor
  · intro hall source hsource
    exact hall _ (Option.mem_map_of_mem c_str hsource)
  · intro hall s hs
    obtain ⟨source, hsource, rfl⟩ := Option.mem_map.mp hs
    exact hall source hsource

/-- The handle of `new PDO("mysql:...")`. -/
def mysqlDbh (source : Bytes) : PdoDbh where
  driver := some (some (lit "mysql"))
  username := none
  data_source := some source
  error_code := lit "00000"
  query_stmt := none
  fetch_err := none

/-- A server on which every object is such a `PDO`, or a statement of it. -/
def mysqlServer (source : Bytes) : Engine Unit :=
  { Engine.bare false with
    pdo_dbh := fun _ _ => some (mysqlDbh source)
    pdo_stmt := fun _ _ => some ⟨some (mysqlDbh source), some (lit "SELECT 1"), lit "00000", none⟩ }

theorem known_mysqlDbh (source : Bytes) : (mysqlDbh source).Known := ⟨_, rfl, by decide⟩

def queryFrame : ExecuteData := methodFrame "PDO" "query"

def executeFrame : ExecuteData := methodFrame "PDOStatement" "execute"

theorem oneHandle_mysqlServer (source : Bytes) (w v : World Unit) :
    OneHandle (mysqlServer source) queryFrame w executeFrame v (mysqlDbh source) where
  query := by decide
  handle := rfl
  statement := ⟨_, _, rfl, rfl, rfl, rfl⟩

theorem calls_mysqlServer (source : Bytes) : ∃ w q w' q' v',
    pdoEnter (mysqlServer source) queryFrame w = .ok (q, w') ∧
      pdoStatementEnter (mysqlServer source) executeFrame w = .ok (q', v') := by
  have hstep : ∃ w, Step (mysqlServer source) .bare .request_init (World.fresh ()) w :=
    ⟨_, step_final _ rfl⟩
  have hserves : Serves (mysqlServer source) (World.fresh ()).globals :=
    ⟨rfl, Bool.false_ne_true⟩
  have hfits : DriverFits (some (lit "mysql")) := fun name hname => by
    obtain rfl := Option.some.inj hname
    decide
  obtain ⟨w, hstep⟩ := hstep
  have hopens := opens_of_request_init rfl hserves hstep
  have huser : UserGiven queryFrame := fun hconstruct => absurd hconstruct (by decide)
  obtain ⟨q, w', hquery⟩ := pdoEnter_iff.mpr ⟨hopens, huser, _, _, _, rfl, rfl, hfits⟩
  obtain ⟨q', v', hexecute⟩ :
      ∃ q' v', pdoStatementEnter (mysqlServer source) executeFrame w = .ok (q', v') :=
    pdoStatementEnter_iff.mpr ⟨hopens, _, _, _, rfl, rfl, rfl, _, _, rfl, rfl, hfits⟩
  exact ⟨w, q, w', q', v', hquery, hexecute⟩

theorem connections_agree_iff_host : ∃ w q w' q' v',
    pdoEnter (mysqlServer (lit "host=a")) queryFrame w = .ok (q, w') ∧
    pdoStatementEnter (mysqlServer (lit "host=a")) executeFrame w = .ok (q', v') ∧
    (SameConnection q w' q' v' ↔
      ∀ source ∈ (mysqlDbh (lit "host=a")).data_source, PlainSource (c_str source)) := by
  obtain ⟨w, q, w', q', v', hquery, hexecute⟩ := calls_mysqlServer (lit "host=a")
  exact ⟨w, q, w', q', v', hquery, hexecute,
    connections_agree_iff hquery hexecute (oneHandle_mysqlServer _ w w) (known_mysqlDbh _)⟩

/-- `new PDO("mysql:")`, with everything at its default. -/
theorem not_connections_agree_empty : ∃ w q w' q' v',
    pdoEnter (mysqlServer []) queryFrame w = .ok (q, w') ∧
    pdoStatementEnter (mysqlServer []) executeFrame w = .ok (q', v') ∧
    ¬ SameConnection q w' q' v' := by
  obtain ⟨w, q, w', q', v', hquery, hexecute⟩ := calls_mysqlServer []
  refine ⟨w, q, w', q', v', hquery, hexecute, fun hsame => ?_⟩
  have heq := ((oneHandle_mysqlServer [] w w).same_iff (known_mysqlDbh []) hquery hexecute).mp hsame
  cases heq

end opentelemetry
