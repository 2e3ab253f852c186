import OpentelemetryExt.Lib.Layout
import Mathlib.Data.Fintype.Basic

open layout

namespace opentelemetry

namespace ini

/-- Members of `zend_opentelemetry_globals`, in declaration order. -/
inductive Field where
  | enable | cli_enable | debug | enable_exception | enable_error | enable_curl
  | enable_memcached | enable_redis | enable_mysql | enable_yar | enable_collect
  | is_init_consumers | resource_attributes | service_name | service_name_key | error_level
  | sample_ratio_based | max_time_consuming | log_path | receiver_type | grpc_endpoint | udp_ip
  | udp_port | udp_look_up_time | message_queue_name | max_message_size | max_queue_length
  | consumer_nums | cli_consumer_nums | grpc_timeout_milliseconds | provider | ipv4 | curl_header
  | is_started_cli_tracer | hostname
deriving DecidableEq, Repr

def cBool : CType := ⟨1, 1⟩
def cInt : CType := ⟨4, 4⟩
def cPointer : CType := ⟨8, 8⟩

/-- The struct as declared, with the types of a 64-bit build. -/
def zend_opentelemetry_globals : List (Field × CType) :=
  [(.enable, cBool), (.cli_enable, cBool), (.debug, cBool), (.enable_exception, cBool),
    (.enable_error, cBool), (.enable_curl, cBool), (.enable_memcached, cBool),
    (.enable_redis, cBool), (.enable_mysql, cBool), (.enable_yar, cBool),
    (.enable_collect, cBool), (.is_init_consumers, cBool), (.resource_attributes, cPointer),
    (.service_name, cPointer), (.service_name_key, cPointer), (.error_level, cPointer),
    (.sample_ratio_based, cInt), (.max_time_consuming, cInt), (.log_path, cPointer),
    (.receiver_type, cPointer), (.grpc_endpoint, cPointer), (.udp_ip, cPointer),
    (.udp_port, cInt), (.udp_look_up_time, cInt), (.message_queue_name, cPointer),
    (.max_message_size, cInt), (.max_queue_length, cInt), (.consumer_nums, cInt),
    (.cli_consumer_nums, cInt), (.grpc_timeout_milliseconds, cInt), (.provider, cPointer),
    (.ipv4, ⟨32, 8⟩), (.curl_header, ⟨16, 8⟩), (.is_started_cli_tracer, cBool),
    (.hostname, ⟨256, 1⟩)]

instance : Fintype Field where
  elems := ⟨zend_opentelemetry_globals.map Prod.fst, by decide⟩
  complete := by
    intro f
    cases f <;> decide

def size (f : Field) : Nat := ((zend_opentelemetry_globals.lookup f).getD cBool).size

def offset (f : Field) : Nat := ((offsetsFrom 0 zend_opentelemetry_globals).lookup f).getD 0

/-- The update handlers of the INI table. -/
inductive Handler where
  | OnUpdateBool
  | OnUpdateLong
  | OnUpdateString
deriving DecidableEq, Repr

/-- `PHP_INI_BEGIN` .. `PHP_INI_END`, in registration order. -/
def ini_entries : List (Field × Handler) :=
  [(.service_name, .OnUpdateString), (.service_name_key, .OnUpdateString),
    (.enable, .OnUpdateBool), (.enable_exception, .OnUpdateBool),
    (.enable_error, .OnUpdateBool), (.enable_curl, .OnUpdateBool),
    (.enable_memcached, .OnUpdateBool), (.enable_redis, .OnUpdateBool),
    (.enable_mysql, .OnUpdateBool), (.enable_yar, .OnUpdateBool),
    (.enable_collect, .OnUpdateBool), (.debug, .OnUpdateBool), (.cli_enable, .OnUpdateBool),
    (.sample_ratio_based, .OnUpdateLong), (.max_time_consuming, .OnUpdateLong),
    (.error_level, .OnUpdateString), (.log_path, .OnUpdateString),
    (.receiver_type, .OnUpdateString), (.udp_ip, .OnUpdateString), (.udp_port, .OnUpdateLong),
    (.udp_look_up_time, .OnUpdateLong), (.grpc_endpoint, .OnUpdateString),
    (.max_message_size, .OnUpdateLong), (.max_queue_length, .OnUpdateLong),
    (.consumer_nums, .OnUpdateLong), (.cli_consumer_nums, .OnUpdateLong),
    (.grpc_timeout_milliseconds, .OnUpdateLong), (.resource_attributes, .OnUpdateString)]

/-- What a handler stores: a truth value, a 64-bit `zend_long`, or the address
of the new string. -/
inductive Value where
  | bool (b : Bool)
  | long (v : Int64)
  | string (p : UInt64)
deriving DecidableEq

def Value.handler : Value → Handler
  | .bool _ => .OnUpdateBool
  | .long _ => .OnUpdateLong
  | .string _ => .OnUpdateString

/-- The bytes each handler writes at the offset of the field it is given. -/
def Value.bytes : Value → List UInt8
  | .bool b => [if b then 1 else 0]
  | .long v => leBytes 8 (v.toInt % 2 ^ 64).toNat
  | .string p => leBytes 8 p.toNat

/-- One update, through the handler the table names for its setting. -/
structure Update where
  setting : Field
  value : Value
  registered : (setting, value.handler) ∈ ini_entries

def Update.apply (m : Memory) (u : Update) : Memory := write m (offset u.setting) u.value.bytes

def field (m : Memory) (f : Field) : List UInt8 := read m (offset f) (size f)

/-- The value of an `int` member. -/
def intField (m : Memory) (f : Field) : Int := Int.bmod (leNat (field m f)) (2 ^ 32)

/-- The value of a `char *` member. -/
def pointerField (m : Memory) (f : Field) : Nat := leNat (field m f)

/-- The four bytes behind an `int` member, which `OnUpdateLong` writes too. -/
def nextWord (m : Memory) (f : Field) : Nat := leNat (read m (offset f + 4) 4)

/-- Bytes a handler writes. -/
def Handler.width : Handler → Nat
  | .OnUpdateBool => 1
  | .OnUpdateLong => 8
  | .OnUpdateString => 8

@[simp]
theorem Value.length_bytes (v : Value) : v.bytes.length = v.handler.width := by
  cases v <;> simp [Value.bytes, Value.handler, Handler.width]

/-- Values of the settings at registration, each of the type its handler takes. -/
structure Initial where
  value : Field → Value
  typed : ∀ e ∈ ini_entries, (value e.1).handler = e.2

/-- `REGISTER_INI_ENTRIES`: the handlers run once, in table order. -/
def register (m : Memory) (init : Initial) : Memory :=
  ini_entries.foldl (fun m e => write m (offset e.1) (init.value e.1).bytes) m

/-- An integer or string member holds the value assigned to its setting. -/
def Holds (m : Memory) (f : Field) : Value → Prop
  | .bool _ => True
  | .long v => intField m f = v.toInt
  | .string p => pointerField m f = p.toNat

def AllHold (m : Memory) (assigned : Field → Value) : Prop :=
  ∀ e ∈ ini_entries, Holds m e.1 (assigned e.1)

/-- An update changes no member but its own. -/
def FrameKept (m : Memory) (u : Update) : Prop :=
  ∀ g, g ≠ u.setting → field (u.apply m) g = field m g

/-- Through a sequence of updates, every member holds the value last assigned
to its setting and no update reaches another member. -/
def SettingsKept : Memory → (Field → Value) → List Update → Prop
  | m, assigned, [] => AllHold m assigned
  | m, assigned, u :: us => AllHold m assigned ∧ FrameKept m u ∧
      SettingsKept (u.apply m) (Function.update assigned u.setting u.value) us

def FitsInt (v : Int64) : Prop := -2 ^ 31 ≤ v.toInt ∧ v.toInt < 2 ^ 31

/-- The update writes nothing but its own member's value: an integer fits an
`int`, and the four bytes behind the member, where they belong to another one,
already hold the upper half of the `zend_long`. -/
def Harmless (m : Memory) (u : Update) : Prop :=
  match u.value with
  | .long v => FitsInt v ∧ (u.setting ≠ .grpc_timeout_milliseconds →
      nextWord m u.setting = if v.toInt < 0 then 2 ^ 32 - 1 else 0)
  | _ => True

def AllHarmless : Memory → List Update → Prop
  | _, [] => True
  | m, u :: us => Harmless m u ∧ AllHarmless (u.apply m) us

theorem members_disjoint : ∀ f g : Field, f ≠ g →
    offset f + size f ≤ offset g ∨ offset g + size g ≤ offset f := by
  decide +kernel

/-- `OnUpdateLong` is the one handler whose width is not its member's. -/
theorem size_eq : ∀ e ∈ ini_entries, size e.1 = if e.2 = .OnUpdateLong then 4 else e.2.width := by
  decide +kernel

/-- Behind every integer member but the last lies another member. -/
theorem next_member : ∀ e ∈ ini_entries, e.2 = .OnUpdateLong →
    if e.1 = .grpc_timeout_milliseconds then
      ∀ g, g ≠ e.1 → offset e.1 + 8 ≤ offset g ∨ offset g + size g ≤ offset e.1
    else ∃ g, g ≠ e.1 ∧ offset g = offset e.1 + 4 ∧ 4 ≤ size g := by
  decide +kernel

/-- In registration order no handler writes over a member set before. -/
theorem registration_settles : ini_entries.Pairwise fun e e' =>
    offset e.1 + size e.1 ≤ offset e'.1 ∨ offset e'.1 + e'.2.width ≤ offset e.1 := by
  decide +kernel

/-- A handler that stays inside its member reaches no other one. -/
theorem FrameKept.of_width {m : Memory} {u : Update} (h : u.value.handler.width = size u.setting) :
    FrameKept m u := by
  intro g hg
  apply read_write_disjoint
  rw [Value.length_bytes, h]
  exact members_disjoint g u.setting hg

/-- The two halves of a stored `zend_long`. -/
theorem long_bytes (v : Int64) :
    (Value.long v).bytes.take 4 = leBytes 4 (v.toInt % 2 ^ 64).toNat ∧
      (Value.long v).bytes.drop 4 = leBytes 4 ((v.toInt % 2 ^ 64).toNat / 256 ^ 4) := by
  have hsplit : (Value.long v).bytes = leBytes 4 (v.toInt % 2 ^ 64).toNat ++
      leBytes 4 ((v.toInt % 2 ^ 64).toNat / 256 ^ 4) := leBytes_add 4 4 _
  have hlength := length_leBytes 4 (v.toInt % 2 ^ 64).toNat
  rw [hsplit, List.take_append_of_le_length hlength.ge, List.drop_append_of_le_length hlength.ge,
    List.take_of_length_le hlength.le, List.drop_of_length_le hlength.le, List.nil_append]
  exact ⟨rfl, rfl⟩

/-- The member written by `OnUpdateLong` keeps the lower half of the value. -/
theorem intField_of_low {m : Memory} {f : Field} {v : Int64}
    (h : field m f = leBytes 4 (v.toInt % 2 ^ 64).toNat) :
    intField m f = v.toInt ↔ FitsInt v := by
  have hlow := v.le_toInt
  have hhigh := v.toInt_lt
  unfold intField FitsInt
  rw [h, leNat_leBytes]
  generalize v.toInt = n at hlow hhigh ⊢
  have hcast : (((n % 2 ^ 64).toNat % 256 ^ 4 : ℕ) : ℤ) = n % 2 ^ 32 := by omega
  rw [hcast, Int.bmod_def]
  omega

theorem upper_half {v : Int64} (h : FitsInt v) :
    (v.toInt % 2 ^ 64).toNat / 256 ^ 4 % 256 ^ 4 = if v.toInt < 0 then 2 ^ 32 - 1 else 0 := by
  obtain ⟨hlow, hhigh⟩ := h
  split <;> omega

/-- After an update its own member's bytes are the start of what was written. -/
theorem field_apply (m : Memory) (u : Update) (h : size u.setting ≤ u.value.handler.width) :
    field (u.apply m) u.setting = u.value.bytes.take (size u.setting) := by
  have := read_write_inside m (offset u.setting) (size u.setting) u.value.bytes 0
    (by simpa using h)
  simpa [field, Update.apply] using this

/-- One update keeps its own value and every other member exactly when it is harmless. -/
theorem step_iff_harmless (m : Memory) (u : Update) :
    FrameKept m u ∧ Holds (u.apply m) u.setting u.value ↔ Harmless m u := by
  have hsize := size_eq _ u.registered
  cases hvalue : u.value with
  | bool b =>
    have hwidth : u.value.handler.width = size u.setting := by
      simpa [hvalue, Value.handler] using hsize.symm
    simp only [Harmless, hvalue, Holds, and_true, iff_true]
    exact FrameKept.of_width hwidth
  | string p =>
    have hwidth : u.value.handler.width = size u.setting := by
      simpa [hvalue, Value.handler] using hsize.symm
    simp only [Harmless, hvalue, iff_true]
    refine ⟨FrameKept.of_width hwidth, ?_⟩
    have hfield := field_apply m u hwidth.ge
    rw [List.take_of_length_le (by simp [hwidth]), hvalue] at hfield
    rw [Holds, pointerField, hfield, Value.bytes, leNat_leBytes]
    exact Nat.mod_eq_of_lt p.toNat_lt
  | long v =>
    simp only [hvalue, Value.handler, if_true] at hsize
    have hfield := field_apply m u (by simp [hvalue, Value.handler, Handler.width, hsize])
    rw [hsize, hvalue, (long_bytes v).1] at hfield
    have hnext := next_member _ u.registered (by simp [hvalue, Value.handler])
    have hhigh : leNat (read (u.apply m) (offset u.setting + 4) 4) =
        (v.toInt % 2 ^ 64).toNat / 256 ^ 4 % 256 ^ 4 := by
      have := read_write_inside m (offset u.setting) 4 u.value.bytes 4
        (by simp [hvalue, Value.handler, Handler.width])
      rw [Update.apply, this, hvalue, (long_bytes v).2,
        List.take_of_length_le (by rw [length_leBytes]), leNat_leBytes]
    simp only [Harmless, hvalue, Holds, intField_of_low hfield]
    rw [and_comm]
    apply and_congr_right
    intro hfits
    rw [upper_half hfits] at hhigh
    rw [← hhigh]
    by_cases hlast : u.setting = .grpc_timeout_milliseconds
    · simp only [hlast, if_true] at hnext
      simp only [hlast, ne_eq, not_true, false_implies, iff_true]
      intro g hg
      apply read_write_disjoint
      rw [Value.length_bytes, hvalue]
      simp only [Value.handler, Handler.width, hlast] at hg ⊢
      exact (hnext g hg).symm
    · simp only [hlast, if_false] at hnext
      simp only [hlast, ne_eq, not_false_iff, true_implies, nextWord]
      constructor
      · intro hframe
        obtain ⟨g, hg, hoffset, hroom⟩ := hnext
        have hsame := read_eq_iff.mp (hframe g hg)
        rw [read_eq_iff.mpr fun i hlow hbound => hsame i (by omega) (by omega)]
      · intro heq g hg
        have hbytes := read_eq_iff.mp (leNat_inj (by simp) heq.symm)
        apply read_congr
        intro i hlow hbound
        by_cases hin : offset u.setting + 4 ≤ i ∧ i < offset u.setting + 8
        · exact hbytes i hin.1 (by omega)
        · have hdisjoint := members_disjoint g u.setting hg
          have hout : ¬ (offset u.setting ≤ i ∧ i < offset u.setting + u.value.bytes.length) := by
            simp only [Value.length_bytes, hvalue, Value.handler, Handler.width]
            omega
          simp only [Update.apply, write, if_neg hout]

/-- Later registrations leave a settled member alone. -/
private theorem read_foldl (init : Initial) {start count : Nat} (es : List (Field × Handler))
    (hmem : ∀ e ∈ es, e ∈ ini_entries)
    (hout : ∀ e ∈ es, start + count ≤ offset e.1 ∨ offset e.1 + e.2.width ≤ start) (m : Memory) :
    read (es.foldl (fun m e => write m (offset e.1) (init.value e.1).bytes) m) start count =
      read m start count := by
  induction es generalizing m with
  | nil => rfl
  | cons e es ih =>
    rw [List.foldl_cons, ih (fun e he => hmem e (by simp [he])) fun e he => hout e (by simp [he])]
    apply read_write_disjoint
    rw [Value.length_bytes, init.typed e (hmem e (by simp))]
    exact hout e (by simp)

/-- Registration leaves in every member the start of what its handler wrote. -/
theorem field_register (m : Memory) (init : Initial) {e : Field × Handler} (he : e ∈ ini_entries) :
    field (register m init) e.1 = (init.value e.1).bytes.take (size e.1) := by
  obtain ⟨before, after, hsplit⟩ := List.append_of_mem he
  have hsettled := registration_settles
  rw [hsplit, List.pairwise_append, List.pairwise_cons] at hsettled
  have hroom : size e.1 ≤ (init.value e.1).bytes.length := by
    rw [Value.length_bytes, init.typed e he, size_eq e he]
    split
    · rename_i h
      simp [h, Handler.width]
    · rfl
  rw [field, register, hsplit, List.foldl_append, List.foldl_cons,
    read_foldl init after (fun e' h => by simp [hsplit, h]) hsettled.2.1.1]
  simpa using read_write_inside _ (offset e.1) (size e.1) (init.value e.1).bytes 0
    (by simpa using hroom)

/-- Whatever the order of the members, registration itself only loses values
that do not fit an `int`. -/
theorem allHold_register_iff (m : Memory) (init : Initial) :
    AllHold (register m init) init.value ↔
      ∀ e ∈ ini_entries, ∀ v, init.value e.1 = .long v → FitsInt v := by
  apply forall_congr'
  intro e
  apply imp_congr_right
  intro he
  have hfield := field_register m init he
  have htyped := init.typed e he
  have hsize := size_eq e he
  cases hvalue : init.value e.1 with
  | bool b => simp [Holds]
  | string p =>
    rw [hvalue, Value.handler] at htyped
    rw [← htyped] at hsize
    rw [hvalue, hsize, List.take_of_length_le (by simp [Value.handler])] at hfield
    simp [Holds, pointerField, hfield, Value.bytes, leNat_leBytes]
  | long v =>
    rw [hvalue, Value.handler] at htyped
    rw [← htyped, if_pos rfl] at hsize
    rw [hvalue, hsize, (long_bytes v).1] at hfield
    simp [Holds, intField_of_low hfield]

/-- Where the frame is kept, only the updated setting is left to check. -/
theorem allHold_apply_iff {m : Memory} {assigned : Field → Value} {u : Update}
    (hheld : AllHold m assigned) (hframe : FrameKept m u) :
    AllHold (u.apply m) (Function.update assigned u.setting u.value) ↔
      Holds (u.apply m) u.setting u.value := by
  constructor
  · intro h
    simpa using h _ u.registered
  · intro h e he
    by_cases hsame : e.1 = u.setting
    · rw [hsame, Function.update_self]
      exact h
    · rw [Function.update_of_ne hsame]
      have hold := hheld e he
      cases hvalue : assigned e.1 with
      | bool b => trivial
      | long v =>
        rw [hvalue] at hold
        unfold Holds intField at hold ⊢
        rw [hframe _ hsame, hold]
      | string p =>
        rw [hvalue] at hold
        unfold Holds pointerField at hold ⊢
        rw [hframe _ hsame, hold]

/-- From a state in which every value is held, a sequence of updates keeps the
settings apart exactly when each of its updates is harmless where it runs. -/
theorem settingsKept_iff_of_held {m : Memory} {assigned : Field → Value} (us : List Update)
    (hheld : AllHold m assigned) : SettingsKept m assigned us ↔ AllHarmless m us := by
  induction us generalizing m assigned with
  | nil => simp [SettingsKept, AllHarmless, hheld]
  | cons u us ih =>
    rw [SettingsKept, AllHarmless, ← step_iff_harmless m u, and_assoc]
    constructor
    · rintro ⟨-, hframe, hrest⟩
      have hnext : AllHold (u.apply m) (Function.update assigned u.setting u.value) := by
        cases us with
        | nil => exact hrest
        | cons u' us => exact hrest.1
      exact ⟨hframe, (allHold_apply_iff hheld hframe).mp hnext, (ih hnext).mp hrest⟩
    · rintro ⟨hframe, hown, hrest⟩
      have hnext := (allHold_apply_iff hheld hframe).mpr hown
      exact ⟨hheld, hframe, (ih hnext).mpr hrest⟩

/-- After registration the settings do not interfere through a sequence of
updates exactly when the registered integers fit an `int` and every update is
harmless: `OnUpdateLong` writes eight bytes over a four-byte member. -/
theorem settings_kept_iff (m : Memory) (init : Initial) (us : List Update) :
    SettingsKept (register m init) init.value us ↔
      (∀ e ∈ ini_entries, ∀ v, init.value e.1 = .long v → FitsInt v) ∧
        AllHarmless (register m init) us := by
  rw [← allHold_register_iff m init]
  constructor
  · intro h
    have hheld : AllHold (register m init) init.value := by
      cases us with
      | nil => exact h
      | cons u us => exact h.1
    exact ⟨hheld, (settingsKept_iff_of_held us hheld).mp h⟩
  · rintro ⟨hheld, hharmless⟩
    exact (settingsKept_iff_of_held us hheld).mpr hharmless

/-- The defaults of the table; `address` says where the default strings lie. -/
def defaults (address : Field → UInt64) : Initial where
  value f := match f with
    | .sample_ratio_based => .long 1
    | .max_time_consuming => .long 1000
    | .udp_port => .long 5337
    | .udp_look_up_time => .long 600
    | .max_message_size => .long 102400
    | .max_queue_length => .long 1024
    | .consumer_nums => .long 1
    | .cli_consumer_nums => .long 1
    | .grpc_timeout_milliseconds => .long 100
    | .debug => .bool false
    | .cli_enable => .bool false
    | .service_name | .service_name_key | .error_level | .log_path | .receiver_type | .udp_ip
    | .grpc_endpoint | .resource_attributes => .string (address f)
    | _ => .bool true
  typed := by
    intro e he
    fin_cases he <;> rfl

/-- `php_admin_value[opentelemetry.sample_ratio_based] = 100`. -/
def sample_one_in_100 : Update := ⟨.sample_ratio_based, .long 100, by decide⟩

/-- Setting a sampling ratio zeroes `max_time_consuming`, after which every
request counts as slow. -/
theorem ratio_clears_max_time :
    ¬ SettingsKept (register (fun _ => 0) (defaults fun _ => 4096))
      (defaults fun _ => 4096).value [sample_one_in_100] := by
  rintro ⟨-, hframe, -⟩
  have hkept := hframe .max_time_consuming (by decide)
  revert hkept
  decide +kernel

end ini

end opentelemetry
