import OpentelemetryExt.Messages
import OpentelemetryExt.Zend
import OpentelemetryExt.Lib.Stateful

open heap stateful

namespace opentelemetry

/-- An id generator's output. -/
abbrev Uuid := {data : Bytes // data.length = 16}

/-- The items the provider keeps for one trace. Outside the CLI each is a field of the
provider; in the CLI each is an entry, under the parent's pid, of a map. A missing entry is
never told apart from the value that `operator[]` would insert. -/
structure Slot where
  request : Option Nat := none
  resourceSpan : Option Nat := none
  resource : Option Nat := none
  firstSpan : Option Nat := none
  is_sampled : Bool := false
  redisException : Bytes := []
  baggage : RobinMap := {}
deriving DecidableEq, Repr

/-- `none` is the key of the plain fields, `some ppid` of the map entries for `ppid`. -/
structure Provider where
  counter : Int := 0
  slots : Option Nat → Slot := fun _ => {}

/-- The members of `zend_opentelemetry_globals` that the modelled functions use. The header
store is `none` while `curl_header` is not a live array. -/
structure Globals where
  enable : Bool := true
  cli_enable : Bool := false
  enable_collect : Bool := true
  is_init_consumers : Bool := false
  resource_attributes : Bytes := []
  service_name : Bytes := lit "opentelemetry"
  service_name_key : Bytes := lit "SERVICE_NAME"
  error_level : Bytes := lit "E_ERROR"
  sample_ratio_based : Int := 1
  max_time_consuming : Int := 1000
  message_queue_name : Option Bytes := none
  consumer_nums : Int := 1
  cli_consumer_nums : Int := 1
  provider : Option Provider := none
  ipv4 : Bytes := []
  hostname : Bytes := []
  curl_header : Option (List (ArrayKey × Zval)) := none
  is_started_cli_tracer : Bool := false

/-- The state of the process: the module globals, the messages, and what the code reads
from its surroundings. `clock` and `uuids` list the readings and ids to come. -/
structure World (φ : Type) where
  globals : Globals := {}
  memory : Memory := {}
  clock : Nat → UInt64
  uuids : Nat → Uuid
  pid : Nat
  ppid : Nat
  /-- `$_SERVER` and `$_POST`. -/
  server : Bytes → Option Zval
  post : Option Zval
  /-- `errno` still holds `ERANGE` from an earlier call. -/
  erange : Bool := false
  /-- Creating a message queue fails, for the attempts to come. -/
  queueFails : Nat → Bool := fun _ => false
  /-- The message queues that exist, and the consumer threads started. -/
  queues : List Bytes := []
  consumers : Nat := 0
  /-- The requests handed to the message queue. -/
  exported : List (List (Option Resource × List Span)) := []
  php : φ

abbrev M (φ : Type) := Prog (World φ) Fault

variable {φ : Type}

/-- A process that has not started a trace. -/
def World.fresh (php : φ) : World φ where
  clock _ := 0
  uuids n := ⟨List.replicate 16 (UInt8.ofNat (n + 1)), List.length_replicate⟩
  pid := 1
  ppid := 1
  server _ := none
  post := none
  php := php

def globals : M φ Globals := do return (← get).globals

def modifyGlobals (f : Globals → Globals) : M φ Unit :=
  modify fun w => { w with globals := f w.globals }

/-- `OPENTELEMETRY_G(provider)`, dereferenced. -/
def provider : M φ Provider := do lift (deref (← globals).provider)

def World.withProvider (w : World φ) (p : Provider) : World φ :=
  { w with globals := { w.globals with provider := some p } }

def setProvider (p : Provider) : M φ Unit := modify fun w => w.withProvider p

/-- The key under which the provider keeps the current trace: `get_current_ppid()`. -/
def World.key (eng : Engine φ) (w : World φ) : Option Nat := if eng.cli then some w.ppid else none

def currentKey (eng : Engine φ) : M φ (Option Nat) := do return World.key eng (← get)

def slot (eng : Engine φ) : M φ Slot := do
  let p ← provider
  return p.slots (← currentKey eng)

def Provider.set (p : Provider) (key : Option Nat) (s : Slot) : Provider :=
  { p with slots := Function.update p.slots key s }

def modifySlot (eng : Engine φ) (f : Slot → Slot) : M φ Unit := do
  let p ← provider
  let key ← currentKey eng
  setProvider (p.set key (f (p.slots key)))

/-- A read through a pointer into one of the heaps. -/
def load {α : Type} (h : Heap α) (p : Nat) : Except Fault α :=
  match h.cell p with
  | some a => .ok a
  | none => .error .dangling

def readSpan (p : Nat) : M φ Span := do lift (load (← get).memory.spans p)

def World.withMemory (w : World φ) (m : Memory) : World φ := { w with memory := m }

def modifyMemory (f : Memory → Memory) : M φ Unit :=
  modify fun w => w.withMemory (f w.memory)

/-- A write through a pointer to a span. -/
def modifySpan (p : Nat) (f : Span → Span) : M φ Unit := do
  let _ ← readSpan p
  modifyMemory fun m => { m with spans := m.spans.modify p f }

def get_unix_nanoseconds : M φ UInt64 := do
  let w ← get
  set { w with clock := fun n => w.clock (n + 1) }
  return w.clock 0

/-- `boost::uuids::random_generator()()`. -/
def generate_uuid : M φ Bytes := do
  let w ← get
  set { w with uuids := fun n => w.uuids (n + 1) }
  return (w.uuids 0).val

def modifyPhp (php : φ) : M φ Unit := modify fun w => { w with php := php }

/-- `span->add_attributes()` followed by one of the `set_..._attribute` functions. -/
def addAttribute (span : Nat) (kv : KeyValue) : M φ Unit :=
  modifySpan span fun s => { s with attributes := s.attributes ++ [kv] }

theorem globals_apply (w : World φ) : globals w = .ok (w.globals, w) := rfl

theorem provider_apply (w : World φ) :
    provider w = lift (deref w.globals.provider) w := rfl

@[simp]
theorem Provider.set_self (p : Provider) (key : Option Nat) (s : Slot) :
    (p.set key s).slots key = s := by
  simp [Provider.set]

theorem Provider.set_ne (p : Provider) {key key' : Option Nat} (s : Slot) (h : key' ≠ key) :
    (p.set key s).slots key' = p.slots key' := by
  simp [Provider.set, h]

@[simp] theorem Provider.counter_set (p : Provider) (key : Option Nat) (s : Slot) :
    (p.set key s).counter = p.counter := rfl

theorem load_eq_ok_iff {α : Type} {h : Heap α} {p : Nat} {a : α} :
    load h p = .ok a ↔ h.cell p = some a := by
  unfold load
  split <;> simp_all

end opentelemetry
