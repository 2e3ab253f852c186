import OpentelemetryExt.Utils
import OpentelemetryExt.Lib.Assoc

namespace opentelemetry

inductive ArrayKey where
  | index (i : Int)
  | str (s : Bytes)
deriving DecidableEq, Repr

/-- A PHP value. What is behind an object handle is the engine's to say. -/
inductive Zval where
  | undef
  | null
  | bool (b : Bool)
  | long (v : Int)
  | double (bits : UInt64)
  | string (s : Bytes)
  | array (entries : List (ArrayKey × Zval))
  | object (handle : Nat) (class_name : Bytes)
  | resource (handle : Nat)
  | reference (target : Zval)

/-- `Z_TYPE_P(z) == IS_ARRAY`. -/
def IsArray (z : Zval) : Prop := ∃ list, z = .array list

instance instDecidableIsArray (z : Zval) : Decidable (IsArray z) :=
  match z with
  | .array list => .isTrue ⟨list, rfl⟩
  | .undef | .null | .bool _ | .long _ | .double _ | .string _ | .object _ _ | .resource _
  | .reference _ => .isFalse (by rintro ⟨_, ⟨⟩⟩)

/-- `Z_STRVAL_P` used as a `char *`. -/
def Z_STRVAL_P : Zval → Except Fault Bytes
  | .string s => .ok (c_str s)
  | _ => .error .wrongType

def Z_LVAL_P : Zval → Except Fault Int
  | .long v => .ok v
  | _ => .error .wrongType

def Z_DVAL_P : Zval → Except Fault UInt64
  | .double bits => .ok bits
  | _ => .error .wrongType

def Z_ARRVAL_P : Zval → Except Fault (List (ArrayKey × Zval))
  | .array entries => .ok entries
  | _ => .error .wrongType

def zend_hash_str_find (entries : List (ArrayKey × Zval)) (key : Bytes) : Option Zval :=
  entries.lookup (.str key)

def zend_hash_index_find (entries : List (ArrayKey × Zval)) (i : Int) : Option Zval :=
  entries.lookup (.index i)

/-- The key of an element appended to an array: one more than the largest index. -/
def nextIndex : List (ArrayKey × Zval) → Int
  | [] => 0
  | (.index i, _) :: rest => max (i + 1) (nextIndex rest)
  | (.str _, _) :: rest => nextIndex rest

def add_next_index_string (arg : Zval) (str : Bytes) : Except Fault Zval :=
  match arg with
  | .array entries => .ok (.array (entries ++ [(.index (nextIndex entries), .string (c_str str))]))
  | _ => .error .wrongType

/-- A call frame: the function called, its arguments, `$this`, and the functions
of the calling frames, innermost first. -/
structure ExecuteData where
  func : ZendFunction
  args : List Zval
  This : Zval
  callers : List (Option ZendFunction)

def ZEND_CALL_NUM_ARGS (execute_data : ExecuteData) : Nat := execute_data.args.length

/-- `ZEND_CALL_ARG`, counted from 1. Past the last argument there is nothing to read. -/
def ZEND_CALL_ARG (execute_data : ExecuteData) (i : Nat) : Except Fault Zval :=
  match execute_data.args[i - 1]? with
  | some p => .ok p
  | none => .error .outOfBounds

/-- The parts of a `php_url`. -/
structure Url where
  scheme : Option Bytes
  host : Option Bytes
  path : Option Bytes
  query : Option Bytes
deriving DecidableEq, Repr

/-- `pdo_dbh_t`. `driver` is null before the constructor has run; `fetch_err` holds
the items that method appends to the error array, if the driver has it. -/
structure PdoDbh where
  driver : Option (Option Bytes)
  username : Option Bytes
  data_source : Option Bytes
  error_code : Bytes
  query_stmt : Option Bytes
  fetch_err : Option (List Zval)

/-- `pdo_stmt_t`. -/
structure PdoStmt where
  dbh : Option PdoDbh
  query_string : Option Bytes
  error_code : Bytes
  fetch_err : Option (List Zval)

/-- `mysql->mysql->data` of a mysqli link: `hostname` is null until it is connected. -/
structure MysqlndConnData where
  hostname : Option Bytes
  port : Int
deriving DecidableEq, Repr

/-- A `tsl::robin_map` between strings. -/
abbrev RobinMap := assoc.Table Bytes Bytes

/-- The build of the extension, and what its code asks the engine, the C library and the
other extensions; `φ` is their state. -/
structure Engine (φ : Type) where
  /-- `sapi_module.name` is `cli`. -/
  cli : Bool
  php_version_id : Nat
  /-- `MYSQLI_USE_MYSQLND` is defined. -/
  mysqlnd : Bool
  platform_name : Bytes
  json_encode : φ → Zval → Bytes
  double_to_string : UInt64 → Bytes
  object_to_string : φ → Nat → Bytes
  /-- `inet_addr` does not return `INADDR_NONE`. -/
  inet_addr : Bytes → Bool
  php_url_parse : Bytes → Option Url
  /-- A method call by name; `none` when the class has no such method, which is a core error. -/
  call_method : φ → Zval → Bytes → List Zval → Option (Zval × φ)
  /-- `Z_PARAM_LONG`: the integer an argument is accepted as. -/
  parse_long : Zval → Option Int
  read_property : φ → Zval → Bytes → Option Zval
  curl_getinfo : φ → Zval → Zval
  curl_error : φ → Zval → Zval
  curl_errno : φ → Zval → Zval
  /-- The object is a `PDO`. -/
  pdo_dbh : φ → Nat → Option PdoDbh
  /-- The object is a `PDOStatement`. -/
  pdo_stmt : φ → Nat → Option PdoStmt
  /-- The object is a mysqli link; the inner value is null before it has a connection. -/
  mysqli_link : φ → Nat → Option (Option MysqlndConnData)
  /-- The order in which a `robin_map` lists its entries. -/
  iterate : ∀ m : RobinMap, {order : List (Bytes × Bytes) // order.Perm m.entries}

variable {φ : Type}

/-- An engine to which every class and every handle is unknown. -/
def Engine.bare (cli : Bool) : Engine φ where
  cli := cli
  php_version_id := 80000
  mysqlnd := true
  platform_name := lit "Linux"
  json_encode _ _ := []
  double_to_string _ := []
  object_to_string _ _ := []
  inet_addr _ := false
  php_url_parse _ := none
  call_method _ _ _ _ := none
  parse_long _ := none
  read_property _ _ _ := none
  curl_getinfo _ _ := .null
  curl_error _ _ := .null
  curl_errno _ _ := .null
  pdo_dbh _ _ := none
  pdo_stmt _ _ := none
  mysqli_link _ _ := none
  iterate m := ⟨m.entries, .refl _⟩

/-- `convert_to_string`. -/
def convert_to_string (eng : Engine φ) (php : φ) : Zval → Bytes
  | .undef | .null | .bool false => []
  | .bool true => lit "1"
  | .long v => to_string v
  | .double bits => eng.double_to_string bits
  | .string s => s
  | .array _ => lit "Array"
  | .object handle _ => eng.object_to_string php handle
  | .resource handle => lit "Resource id #" ++ to_string handle
  | .reference target => convert_to_string eng php target

end opentelemetry
