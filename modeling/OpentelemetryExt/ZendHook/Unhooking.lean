import OpentelemetryExt.ZendHook.Registry

open interpose stateful

namespace opentelemetry

variable {H : Type} (flags : EnableFlags)

/-- What `register_zend_hook` hooks, in its order. -/
def EnableFlags.hookings : Hookings H :=
  (if flags.enable_curl then curlHookings else []) ++
    ((if flags.enable_yar then yarHookings clientKeysCommands serverKeysCommands else []) ++
      ((if flags.enable_memcached then memcachedHookings mecKeysCommands else []) ++
        ((if flags.enable_redis then redisHookings redisKeysCommands else []) ++
          (if flags.enable_mysql then pdoHookings pdoKeysCommands ++
            (pdoStatementHookings pdoStmKeysCommands ++ mysqliHookings mysqliKeysCommands)
          else []))))

variable {flags} {s : Registry H}

theorem hookAll_ite (b : Bool) (xs : Hookings H) (t : Handlers H) :
    hookAll (if b then xs else []) t = if b then hookAll xs t else t := by
  cases b <;> rfl

theorem unhookAll_ite (b : Bool) (xs : Hookings H)
    (t : Handlers H) :
    unhookAll .null (if b then xs else []) t = if b then unhookAll .null xs t else t := by
  cases b <;> rfl

theorem register_handlers :
    (register_zend_hook flags s).handlers = hookAll flags.hookings s.handlers := by
  simp only [register_zend_hook, EnableFlags.hookings, hookAll_append, hookAll_ite,
    register_zend_hook_error, register_zend_hook_exception, register_zend_hook_curl,
    register_zend_hook_yar, register_zend_hook_memcached, register_zend_hook_redis,
    register_zend_hook_pdo, register_zend_hook_pdo_statement, register_zend_hook_mysqli,
    Registry.hook, apply_ite Registry.handlers, ite_self]

/-- What `unregister_zend_hook` unhooks, in its order: the names that the vectors list. -/
def Registry.listed (flags : EnableFlags) (s : Registry H) :
    Hookings H :=
  (if flags.enable_curl then curlHookings else []) ++
    ((if flags.enable_yar then yarHookings s.clientKeysCommands s.serverKeysCommands else []) ++
      ((if flags.enable_memcached then memcachedHookings s.mecKeysCommands else []) ++
        ((if flags.enable_redis then redisHookings s.redisKeysCommands else []) ++
          (if flags.enable_mysql then pdoHookings s.pdoKeysCommands ++
            (pdoStatementHookings s.pdoStmKeysCommands ++ mysqliHookings s.mysqliKeysCommands)
          else []))))

theorem unregister_handlers : (unregister_zend_hook flags s).handlers =
    unhookAll .null (s.listed flags) s.handlers := by
  simp only [unregister_zend_hook, Registry.listed, unhookAll_append, unhookAll_ite,
    unregister_zend_hook_error, unregister_zend_hook_exception, unregister_zend_hook_curl,
    unregister_zend_hook_yar, unregister_zend_hook_memcached, unregister_zend_hook_redis,
    unregister_zend_hook_pdo, unregister_zend_hook_pdo_statement, unregister_zend_hook_mysqli,
    Registry.unhook, apply_ite Registry.handlers, apply_ite Registry.clientKeysCommands,
    apply_ite Registry.serverKeysCommands, apply_ite Registry.mecKeysCommands,
    apply_ite Registry.redisKeysCommands, apply_ite Registry.pdoKeysCommands,
    apply_ite Registry.pdoStmKeysCommands, apply_ite Registry.mysqliKeysCommands, ite_self]

/-- The vectors hold the names that were hooked. -/
structure Registry.Loaded (flags : EnableFlags) (s : Registry H) : Prop where
  client : flags.enable_yar → s.clientKeysCommands = opentelemetry.clientKeysCommands
  server : flags.enable_yar → s.serverKeysCommands = opentelemetry.serverKeysCommands
  mec : flags.enable_memcached → s.mecKeysCommands = opentelemetry.mecKeysCommands
  redis : flags.enable_redis → s.redisKeysCommands = opentelemetry.redisKeysCommands
  pdo : flags.enable_mysql → s.pdoKeysCommands = opentelemetry.pdoKeysCommands
  pdoStm : flags.enable_mysql → s.pdoStmKeysCommands = opentelemetry.pdoStmKeysCommands
  mysqli : flags.enable_mysql → s.mysqliKeysCommands = opentelemetry.mysqliKeysCommands

theorem loaded_register : (register_zend_hook flags s).Loaded flags := by
  constructor <;> intro henabled <;>
    simp [register_zend_hook, henabled, register_zend_hook_error, register_zend_hook_exception,
      register_zend_hook_curl, register_zend_hook_yar, register_zend_hook_memcached,
      register_zend_hook_redis, register_zend_hook_pdo, register_zend_hook_pdo_statement,
      register_zend_hook_mysqli, Registry.hook, apply_ite Registry.clientKeysCommands,
      apply_ite Registry.serverKeysCommands, apply_ite Registry.mecKeysCommands,
      apply_ite Registry.redisKeysCommands]

/-- Both directions agree on the names. -/
theorem Registry.Loaded.listed_eq (h : s.Loaded flags) : s.listed flags = flags.hookings := by
  have hite {b : Bool} {xs ys : Hookings H}
      (hb : b → xs = ys) : (if b then xs else []) = if b then ys else [] := by
    cases b with
    | false => rfl
    | true => exact hb rfl
  unfold Registry.listed EnableFlags.hookings
  refine congrArg _ (congrArg₂ _ (hite fun hyar => ?_) (congrArg₂ _ (hite fun hmemcached => ?_)
    (congrArg₂ _ (hite fun hredis => ?_) (hite fun hmysql => ?_))))
  · rw [h.client hyar, h.server hyar]
  · rw [h.mec hmemcached]
  · rw [h.redis hredis]
  · rw [h.pdo hmysql, h.pdoStm hmysql, h.mysqli hmysql]

/-- The other modules go on to fill the tables of the engine. -/
def Registry.grown (s : Registry H) (later : Place → Option (InternalFunction H)) : Registry H :=
  { s with handlers := { s.handlers with table := later } }

theorem unregister_grown {later : Place → Option (InternalFunction H)} :
    (unregister_zend_hook flags ((register_zend_hook flags s).grown later)).handlers =
      unhookAll .null flags.hookings
        { hookAll flags.hookings s.handlers with table := later } := by
  have hloaded : ((register_zend_hook flags s).grown later).Loaded flags :=
    ⟨loaded_register.client, loaded_register.server, loaded_register.mec, loaded_register.redis,
      loaded_register.pdo, loaded_register.pdoStm, loaded_register.mysqli⟩
  rw [unregister_handlers, hloaded.listed_eq, Registry.grown, register_handlers]

theorem ite_sublist {b : Bool} {xs : Hookings H} :
    (if b then xs else []).Sublist xs := by
  cases b with
  | false => exact List.nil_sublist _
  | true => exact List.Sublist.refl _

/-- All that the hooks can be put into. -/
def EnableFlags.all : EnableFlags := ⟨true, true, true, true, true, true, true⟩

theorem EnableFlags.sublist_all :
    (flags.hookings : Hookings H).Sublist EnableFlags.all.hookings :=
  ite_sublist.append (ite_sublist.append (ite_sublist.append (ite_sublist.append ite_sublist)))

/-- Names under different keys are different places. -/
theorem nodup_places {groups : List (Option Bytes × List Bytes)}
    (hkeys : (groups.map Prod.fst).Nodup) (hnames : ∀ group ∈ groups, group.2.Nodup) :
    (groups.flatMap fun group => group.2.map fun item => (group.1, item)).Nodup := by
  rw [List.nodup_flatMap]
  constructor
  · intro group hgroup
    apply (hnames group hgroup).map
    intro a b hab
    exact (Prod.mk.inj hab).2
  · refine (List.pairwise_map.mp hkeys).imp fun hne => ?_
    rw [Function.onFun, List.disjoint_left]
    intro p hp hq
    obtain ⟨a, _, rfl⟩ := List.mem_map.mp hp
    obtain ⟨b, _, hb⟩ := List.mem_map.mp hq
    exact hne (Prod.mk.inj hb).1.symm

/-- The place whose handler a pointer or an entry of a map saves. -/
def Saved.place : Saved → Place
  | .curl_exec => (none, lit "curl_exec")
  | .curl_setopt => (none, lit "curl_setopt")
  | .curl_setopt_array => (none, lit "curl_setopt_array")
  | .curl_close => (none, lit "curl_close")
  | .yar_client cmd => (some (lit "yar_client"), cmd)
  | .yar_server cmd => (some (lit "yar_server"), cmd)
  | .memcached cmd => (some (lit "memcached"), cmd)
  | .redis cmd => (some (lit "redis"), cmd)
  | .rediscluster cmd => (some (lit "rediscluster"), cmd)
  | .pdo cmd => (some (lit "pdo"), cmd)
  | .pdo_statement cmd => (some (lit "pdostatement"), cmd)
  | .mysqli cmd => (none, cmd)

/-- The hook of the place. -/
def Saved.entry : Saved → EntryPoint
  | .curl_exec => .curl_exec
  | .curl_setopt => .curl_setopt
  | .curl_setopt_array => .curl_setopt_array
  | .curl_close => .curl_close
  | .yar_client _ => .yar_client
  | .yar_server _ => .yar_server
  | .memcached _ => .memcached
  | .redis _ | .rediscluster _ => .redis
  | .pdo _ => .pdo
  | .pdo_statement _ => .pdo_statement
  | .mysqli _ => .mysqli

def Saved.hooking (q : Saved) : Hooking Place Saved (HandlerPtr H) :=
  ⟨q.place, q, .hook q.entry⟩

theorem all_hookings : (EnableFlags.all.hookings : Hookings H) =
    ((EnableFlags.all.hookings : Hookings H).map Hooking.slot).map Saved.hooking := by
  simp only [EnableFlags.hookings, EnableFlags.all, if_true, curlHookings, yarHookings,
    memcachedHookings, redisHookings, pdoHookings, pdoStatementHookings, mysqliHookings,
    hookings, List.map_append, List.map_map, List.map_cons, List.map_nil, Function.comp_def,
    Saved.hooking, Saved.place, Saved.entry]

/-- Where a handler is saved tells which hook has replaced it, and where. -/
theorem eq_hooking {x : Hooking Place Saved (HandlerPtr H)} (hx : x ∈ flags.hookings) :
    x = x.slot.hooking := by
  have hall := flags.sublist_all.mem hx
  rw [all_hookings] at hall
  obtain ⟨q, _, rfl⟩ := List.mem_map.mp hall
  rfl

theorem mem_hookings_redis {cmd : Bytes} :
    ((Saved.redis cmd).hooking : Hooking Place Saved (HandlerPtr H)) ∈ flags.hookings ↔
      flags.enable_redis ∧ cmd ∈ redisKeysCommands := by
  simp [EnableFlags.hookings, curlHookings, yarHookings, memcachedHookings, redisHookings,
    pdoHookings, pdoStatementHookings, mysqliHookings, hookings, Saved.hooking, Saved.place,
    Saved.entry]

theorem mem_hookings_rediscluster {cmd : Bytes} :
    ((Saved.rediscluster cmd).hooking : Hooking Place Saved (HandlerPtr H)) ∈ flags.hookings ↔
      flags.enable_redis ∧ cmd ∈ redisKeysCommands := by
  simp [EnableFlags.hookings, curlHookings, yarHookings, memcachedHookings, redisHookings,
    pdoHookings, pdoStatementHookings, mysqliHookings, hookings, Saved.hooking, Saved.place,
    Saved.entry]

def curlKeys : List Bytes :=
  [lit "curl_exec", lit "curl_setopt", lit "curl_setopt_array", lit "curl_close"]

/-- A name as a number, which is quicker to compare. -/
def number (name : Bytes) : Nat := name.foldl (fun n c => 256 * n + c.toNat) 0

theorem nodup_functions : (curlKeys ++ mysqliKeysCommands).Nodup :=
  .of_map number (by decide +kernel)

theorem nodup_redisKeysCommands : redisKeysCommands.Nodup := .of_map number (by decide +kernel)

theorem nodup_mecKeysCommands : mecKeysCommands.Nodup := .of_map number (by decide +kernel)

theorem nodup_pdoKeysCommands : pdoKeysCommands.Nodup := .of_map number (by decide +kernel)

/-- The places of all hooks, with those of curl beside those of mysqli. -/
def groups : List (Option Bytes × List Bytes) :=
  [(none, curlKeys ++ mysqliKeysCommands), (some (lit "yar_client"), clientKeysCommands),
    (some (lit "yar_server"), serverKeysCommands), (some (lit "memcached"), mecKeysCommands),
    (some (lit "redis"), redisKeysCommands), (some (lit "rediscluster"), redisKeysCommands),
    (some (lit "pdo"), pdoKeysCommands), (some (lit "pdostatement"), pdoStmKeysCommands)]

theorem nodup_groups :
    (groups.flatMap fun group => group.2.map fun item => (group.1, item)).Nodup := by
  apply nodup_places
  · decide +kernel
  · simp only [groups, List.forall_mem_cons]
    exact ⟨nodup_functions, List.nodup_singleton _, List.nodup_singleton _, nodup_mecKeysCommands,
      nodup_redisKeysCommands, nodup_redisKeysCommands, nodup_pdoKeysCommands,
      List.nodup_singleton _, List.forall_mem_nil _⟩

theorem distinct_hookings :
    Distinct (flags.hookings : Hookings H) := by
  have hplaces : ((EnableFlags.all.hookings : Hookings H).map
      Hooking.place).Perm (groups.flatMap fun group => group.2.map fun item => (group.1, item)) := by
    simp only [groups, EnableFlags.hookings, EnableFlags.all, if_true, curlHookings, yarHookings,
      memcachedHookings, redisHookings, pdoHookings, pdoStatementHookings, mysqliHookings,
      hookings, List.map_append, List.map_map, List.map_cons, List.map_nil, Function.comp_def,
      List.flatMap_cons, curlKeys, List.flatMap_nil, List.append_nil]
    rw [← Multiset.coe_eq_coe]
    simp only [← Multiset.coe_add]
    ac_rfl
  have hslots : (EnableFlags.all.hookings : Hookings H).map
      Hooking.place = ((EnableFlags.all.hookings : Hookings H).map
      Hooking.slot).map Saved.place := by
    rw [List.map_map]
    apply List.map_congr_left
    intro x hx
    exact congrArg Hooking.place (eq_hooking hx)
  have hnodup := hplaces.nodup_iff.mpr nodup_groups
  exact Distinct.sublist ⟨hnodup, .of_map _ (hslots ▸ hnodup)⟩ flags.sublist_all

/-- The lower-cased name of a function, and the name of its class. -/
def InternalFunction.cmd (f : InternalFunction H) : Bytes :=
  (c_str (f.func.function_name.getD [])).map tolower

def InternalFunction.class_name (f : InternalFunction H) : Bytes := c_str (f.func.scope.getD [])

/-- The process has started: nothing is saved, no handler is a hook, and the functions to be
hooked are found under their names in lower case. -/
structure Registry.Started (flags : EnableFlags) (s : Registry H) : Prop where
  saved : s.handlers.saved = Saved.initial
  plain : ∀ p f e, s.handlers.table p = some f → f.handler ≠ .hook e
  keys : ∀ x ∈ (flags.hookings : Hookings H), ∀ f, s.handlers.table x.place = some f →
    f.cmd = x.place.2

/-- Every hooked entry leads to the handler it had, which is no hook, and unhooking leaves all
entries as if there had been no hooks. -/
structure Registry.Unhooks (flags : EnableFlags) (s : Registry H)
    (later : Place → Option (InternalFunction H)) : Prop where
  leads : ∀ p g e execute_data, (register_zend_hook flags s).handlers.table p = some g →
    g.handler = .hook e → execute_data.func = g.func →
      ∃ f, s.handlers.table p = some f ∧ (∀ e', f.handler ≠ .hook e') ∧
        (register_zend_hook flags s).original execute_data e = some f.handler
  restores : (unregister_zend_hook flags
    ((register_zend_hook flags s).grown later)).handlers.table = unhooked s.handlers.table later

/-- The handler is the one that a lookup by the name of the class finds. -/
def Found (table : Place → Option (InternalFunction H)) (cmd : Bytes) (f : InternalFunction H) :
    Prop :=
  (f.class_name = lit "Redis" ∧
      ∃ g, table (some (lit "redis"), cmd) = some g ∧ g.handler = f.handler) ∨
    (f.class_name = lit "RedisCluster" ∧
      ∃ g, table (some (lit "rediscluster"), cmd) = some g ∧ g.handler = f.handler)

/-- Nothing to be hooked comes after the hooks, and the classes of the two Redis clients are
told apart by their names. -/
structure Registry.Unhookable (flags : EnableFlags) (s : Registry H)
    (later : Place → Option (InternalFunction H)) : Prop where
  early : ∀ x ∈ (flags.hookings : Hookings H), ∀ f, later x.place = some f →
    f.handler ≠ .null → (s.handlers.table x.place).isSome
  redis : flags.enable_redis → ∀ cmd ∈ opentelemetry.redisKeysCommands, ∀ f,
    s.handlers.table (some (lit "redis"), cmd) = some f → Found s.handlers.table cmd f
  rediscluster : flags.enable_redis → ∀ cmd ∈ opentelemetry.redisKeysCommands, ∀ f,
    s.handlers.table (some (lit "rediscluster"), cmd) = some f → Found s.handlers.table cmd f

theorem saved_register {q : Saved} (hq : q.hooking ∈ (flags.hookings : Hookings H)) :
    (register_zend_hook flags s).handlers.saved q =
      ((s.handlers.table q.place).map InternalFunction.handler).or (s.handlers.saved q) := by
  rw [register_handlers]
  exact hookAll_saved distinct_hookings hq

theorem table_register {q : Saved} {f : InternalFunction H}
    (hq : q.hooking ∈ (flags.hookings : Hookings H)) (hf : s.handlers.table q.place = some f) :
    (register_zend_hook flags s).handlers.table q.place =
      some { f with handler := .hook q.entry } := by
  rw [register_handlers]
  refine (hookAll_table distinct_hookings hq).trans ?_
  exact congrArg _ hf

/-- A hook is in one of the places that are hooked, in front of the function that was there. -/
theorem Registry.Started.hooked (hstart : s.Started flags) {p : Place} {g : InternalFunction H}
    {e : EntryPoint} (hp : (register_zend_hook flags s).handlers.table p = some g)
    (hg : g.handler = .hook e) :
    ∃ q : Saved, q.hooking ∈ (flags.hookings : Hookings H) ∧ p = q.place ∧ e = q.entry ∧
      ∃ f, s.handlers.table p = some f ∧ g.func = f.func := by
  rw [register_handlers] at hp
  by_cases hmem : ∃ x ∈ (flags.hookings : Hookings H), p = x.place
  · obtain ⟨x, hx, rfl⟩ := hmem
    have heq := eq_hooking hx
    rw [hookAll_table distinct_hookings hx, Option.map_eq_some_iff] at hp
    obtain ⟨f, hf, rfl⟩ := hp
    refine ⟨x.slot, heq ▸ hx, congrArg Hooking.place heq, ?_, f, hf, rfl⟩
    have hhook : x.hook = .hook x.slot.entry := congrArg Hooking.hook heq
    exact HandlerPtr.hook.inj (hg.symm.trans hhook)
  · push Not at hmem
    rw [hookAll_table_of_forall_ne hmem] at hp
    exact absurd hg (hstart.plain p g e hp)

/-- Besides Redis, each hook looks in one table, under the name of the function. -/
theorem original_entry {q : Saved} {execute_data : ExecuteData} (hne : q.entry ≠ .redis)
    (hcmd : execute_data.cmd = q.place.2) :
    s.original execute_data q.entry = s.handlers.saved q := by
  cases q with
  | curl_exec => rfl
  | curl_setopt => rfl
  | curl_setopt_array => rfl
  | curl_close => rfl
  | redis cmd => exact absurd rfl hne
  | rediscluster cmd => exact absurd rfl hne
  | yar_client cmd => exact congrArg (s.handlers.saved ∘ Saved.yar_client) hcmd
  | yar_server cmd => exact congrArg (s.handlers.saved ∘ Saved.yar_server) hcmd
  | memcached cmd => exact congrArg (s.handlers.saved ∘ Saved.memcached) hcmd
  | pdo cmd => exact congrArg (s.handlers.saved ∘ Saved.pdo) hcmd
  | pdo_statement cmd => exact congrArg (s.handlers.saved ∘ Saved.pdo_statement) hcmd
  | mysqli cmd => exact congrArg (s.handlers.saved ∘ Saved.mysqli) hcmd

theorem lit_redis_ne : lit "RedisCluster" ≠ lit "Redis" := by decide

theorem Registry.Started.original_redis_iff (hstart : s.Started flags)
    (hredis : flags.enable_redis) {cmd : Bytes} (hmem : cmd ∈ opentelemetry.redisKeysCommands)
    {f : InternalFunction H} (hkey : f.cmd = cmd) {execute_data : ExecuteData}
    (hfunc : execute_data.func = f.func) :
    (register_zend_hook flags s).original execute_data .redis = some f.handler ↔
      Found s.handlers.table cmd f := by
  have hcmd : execute_data.cmd = cmd := by
    rw [← hkey, ExecuteData.cmd, ExecuteData.function_name, hfunc, InternalFunction.cmd]
  have hclass : execute_data.class_name = f.class_name := by
    rw [ExecuteData.class_name, hfunc, InternalFunction.class_name]
  have hfirst : (register_zend_hook flags s).handlers.saved (.redis cmd) =
      (s.handlers.table (some (lit "redis"), cmd)).map InternalFunction.handler := by
    refine (saved_register (mem_hookings_redis.mpr ⟨hredis, hmem⟩)).trans ?_
    rw [hstart.saved]
    exact Option.or_none
  have hsecond : (register_zend_hook flags s).handlers.saved (.rediscluster cmd) =
      (s.handlers.table (some (lit "rediscluster"), cmd)).map InternalFunction.handler := by
    refine (saved_register (mem_hookings_rediscluster.mpr ⟨hredis, hmem⟩)).trans ?_
    rw [hstart.saved]
    exact Option.or_none
  rw [Registry.original, hclass, hcmd, hfirst, hsecond, Found]
  by_cases hone : f.class_name = lit "Redis"
  · have hother : f.class_name ≠ lit "RedisCluster" := fun h => lit_redis_ne (h.symm.trans hone)
    simp only [hone, if_true, Option.map_eq_some_iff, true_and, lit_redis_ne.symm, false_and,
      or_false]
  · by_cases hother : f.class_name = lit "RedisCluster"
    · simp only [hother, lit_redis_ne, if_true, if_false, Option.map_eq_some_iff, true_and,
        false_and, false_or]
    · simp only [hone, hother, if_false, reduceCtorEq, false_and, or_self]

theorem Registry.Started.restores_iff (hstart : s.Started flags)
    {later : Place → Option (InternalFunction H)}
    (hlater : Extends (register_zend_hook flags s).handlers.table later) :
    (unregister_zend_hook flags ((register_zend_hook flags s).grown later)).handlers.table =
        unhooked s.handlers.table later ↔
      ∀ x ∈ (flags.hookings : Hookings H), ∀ f, later x.place = some f → f.handler ≠ .null →
        (s.handlers.table x.place).isSome := by
  have hfresh (x : Hooking Place Saved (HandlerPtr H)) (_ : x ∈ flags.hookings) :
      (s.handlers.saved x.slot).getD .null = .null := by
    rw [hstart.saved]
    cases x.slot <;> rfl
  rw [unregister_grown]
  exact unhookAll_eq_iff distinct_hookings hfresh (register_handlers ▸ hlater)

/-- Unhooking restores the engine exactly when everything that is hooked is there in time and
the Redis clients are found by their names. -/
theorem unhooks_iff (later : Place → Option (InternalFunction H)) (hstart : s.Started flags)
    (hlater : Extends (register_zend_hook flags s).handlers.table later) :
    s.Unhooks flags later ↔ s.Unhookable flags later := by
  have hrestores := hstart.restores_iff hlater
  constructor
  · intro h
    have hfound (q : Saved) (hq : q.hooking ∈ (flags.hookings : Hookings H))
        (hentry : q.entry = .redis) (hredis : flags.enable_redis)
        (hmem : q.place.2 ∈ redisKeysCommands) (f : InternalFunction H)
        (hf : s.handlers.table q.place = some f) : Found s.handlers.table q.place.2 f := by
      obtain ⟨f', hf', _, horiginal⟩ := h.leads q.place _ q.entry ⟨f.func, [], .null, []⟩
        (table_register hq hf) rfl rfl
      cases hf.symm.trans hf'
      rw [hentry] at horiginal
      exact (hstart.original_redis_iff hredis hmem (hstart.keys _ hq f hf) rfl).mp horiginal
    refine ⟨hrestores.mp h.restores, ?_, ?_⟩
    · intro hredis cmd hmem f hf
      exact hfound (.redis cmd) (mem_hookings_redis.mpr ⟨hredis, hmem⟩) rfl hredis hmem f hf
    · intro hredis cmd hmem f hf
      exact hfound (.rediscluster cmd) (mem_hookings_rediscluster.mpr ⟨hredis, hmem⟩) rfl hredis hmem
        f hf
  · intro h
    refine ⟨?_, hrestores.mpr h.early⟩
    intro p g e execute_data hp hg hfunc
    obtain ⟨q, hq, rfl, rfl, f, hf, hsame⟩ := hstart.hooked hp hg
    refine ⟨f, hf, fun e' => hstart.plain _ f e' hf, ?_⟩
    have hkey : f.cmd = q.place.2 := hstart.keys _ hq f hf
    by_cases hentry : q.entry = .redis
    · rw [hentry]
      cases q with
      | redis cmd =>
        obtain ⟨hredis, hmem⟩ := mem_hookings_redis.mp hq
        exact (hstart.original_redis_iff hredis hmem hkey (hfunc.trans hsame)).mpr
          (h.redis hredis cmd hmem f hf)
      | rediscluster cmd =>
        obtain ⟨hredis, hmem⟩ := mem_hookings_rediscluster.mp hq
        exact (hstart.original_redis_iff hredis hmem hkey (hfunc.trans hsame)).mpr
          (h.rediscluster hredis cmd hmem f hf)
      | _ => cases hentry
    · have hcmd : execute_data.cmd = q.place.2 := by
        rw [← hkey, ExecuteData.cmd, ExecuteData.function_name, hfunc, hsame,
          InternalFunction.cmd]
      rw [original_entry hentry hcmd, saved_register hq, hf, Option.map_some, Option.some_or]

section Frames

variable {φ : Type} {s : Registry (Handler φ)}

def HandlerPtr.resolve : HandlerPtr (Handler φ) → Option (Handler φ)
  | .original f => some f
  | _ => none

/-- The saved handlers as the hooks call them. -/
def Registry.originals (s : Registry (Handler φ)) : Originals φ :=
  let find (q : Saved) : Option (Handler φ) := (s.handlers.saved q).bind HandlerPtr.resolve
  let call (q : Saved) : Handler φ := (find q).getD fun _ => lift (.error .nullPointer)
  { curl := ⟨call .curl_exec, call .curl_setopt, call .curl_setopt_array, call .curl_close⟩
    redis := ⟨fun cmd => find (.redis cmd), fun cmd => find (.rediscluster cmd)⟩
    memcached := fun cmd => find (.memcached cmd)
    pdo := fun cmd => find (.pdo cmd)
    pdo_statement := fun cmd => find (.pdo_statement cmd)
    mysqli := fun cmd => find (.mysqli cmd)
    yar_client := fun cmd => find (.yar_client cmd)
    yar_server := fun cmd => find (.yar_server cmd) }

theorem saved_originals {execute_data : ExecuteData} {e : EntryPoint} {f : Handler φ}
    (h : s.original execute_data e = some (.original f)) :
    e.saved s.originals execute_data = some f := by
  have hfind {q : Saved} (hq : s.handlers.saved q = some (.original f)) :
      (s.handlers.saved q).bind HandlerPtr.resolve = some f := by
    rw [hq]
    rfl
  have hcall {q : Saved} (hq : s.handlers.saved q = some (.original f)) :
      some (((s.handlers.saved q).bind HandlerPtr.resolve).getD
        fun _ => lift (.error .nullPointer)) = some f := by
    rw [hfind hq, Option.getD_some]
  cases e with
  | curl_exec => exact hcall h
  | curl_setopt => exact hcall h
  | curl_setopt_array => exact hcall h
  | curl_close => exact hcall h
  | redis =>
    rw [EntryPoint.saved, RedisOriginals.find]
    rw [Registry.original] at h
    split_ifs at h ⊢ with hone hother
    · exact hfind h
    · exact hfind h
  | memcached => exact hfind h
  | pdo => exact hfind h
  | pdo_statement => exact hfind h
  | mysqli => exact hfind h
  | yar_client => exact hfind h
  | yar_server => exact hfind h

/-- In the frame of a hooked function, the handler that its hook calls is the function's own. -/
theorem Registry.Unhooks.saved {later : Place → Option (InternalFunction (Handler φ))}
    (h : s.Unhooks flags later) {p : Place} {g : InternalFunction (Handler φ)} {e : EntryPoint}
    {execute_data : ExecuteData}
    (hp : (register_zend_hook flags s).handlers.table p = some g) (hg : g.handler = .hook e)
    (hfunc : execute_data.func = g.func) {f : Handler φ}
    (horiginal : ∀ before, s.handlers.table p = some before → before.handler = .original f) :
    e.saved (register_zend_hook flags s).originals execute_data = some f := by
  obtain ⟨before, hbefore, -, hleads⟩ := h.leads p g e execute_data hp hg hfunc
  apply saved_originals
  rw [hleads, horiginal before hbefore]

end Frames

/-- The tables of the engine when the process has started. -/
def Registry.start (table : Place → Option (InternalFunction H)) : Registry H where
  handlers := ⟨table, Saved.initial⟩
  zend_error_cb := ⟨.original 0, .null⟩
  zend_throw_exception_hook := ⟨.null, .null⟩

def onlyRedis : EnableFlags := ⟨false, false, false, false, false, true, false⟩

def redisGet : InternalFunction Unit :=
  ⟨⟨some (lit "get"), some (lit "Redis"), false⟩, .original ()⟩

theorem redisGet_listed :
    ((Saved.redis (lit "get")).hooking : Hooking Place Saved (HandlerPtr Unit)) ∈
      onlyRedis.hookings :=
  mem_hookings_redis.mpr ⟨rfl, by decide +kernel⟩

/-- The method alone, or not yet there. -/
def redisTable (loaded : Bool) : Place → Option (InternalFunction Unit) :=
  Function.update (fun _ => none) (some (lit "redis"), lit "get")
    (if loaded then some redisGet else none)

theorem redisTable_cases {loaded : Bool} {p : Place} {f : InternalFunction Unit}
    (h : redisTable loaded p = some f) : p = (some (lit "redis"), lit "get") ∧ f = redisGet := by
  by_cases hp : p = (some (lit "redis"), lit "get")
  · subst hp
    rw [redisTable, Function.update_self] at h
    cases loaded with
    | false => cases h
    | true => exact ⟨rfl, (Option.some.inj h).symm⟩
  · rw [redisTable, Function.update_of_ne hp] at h
    cases h

theorem started_redisTable (loaded : Bool) :
    (Registry.start (redisTable loaded)).Started onlyRedis := by
  constructor
  · rfl
  · intro p f e hp
    obtain ⟨-, rfl⟩ := redisTable_cases hp
    exact nofun
  · intro x _ f hf
    obtain ⟨hplace, rfl⟩ := redisTable_cases hf
    rw [hplace]
    decide +kernel

theorem register_empty {table : Place → Option (InternalFunction Unit)} {p : Place}
    (h : table p = none) :
    (register_zend_hook onlyRedis (Registry.start table)).handlers.table p = none := by
  rw [register_handlers]
  exact hookAll_table_eq_none h

/-- The tables after another module has extended an entry. -/
def extended (table : Place → Option (InternalFunction Unit)) (p : Place)
    (f : InternalFunction Unit) : Place → Option (InternalFunction Unit) :=
  Function.update (register_zend_hook onlyRedis (Registry.start table)).handlers.table p (some f)

theorem unhooks_iff_loaded : (Registry.start (redisTable true)).Unhooks onlyRedis
    (extended (redisTable true) (none, lit "foo") ⟨⟨some (lit "foo"), none, false⟩, .original ()⟩) := by
  have hfree : redisTable true (none, lit "foo") = none := by decide +kernel
  refine (unhooks_iff _ (started_redisTable true) (.update (register_empty hfree) _)).mpr
    ⟨?_, ?_, ?_⟩
  · intro x hx f hf _
    have hplace : x.place ≠ (none, lit "foo") := by
      intro heq
      simp [EnableFlags.hookings, onlyRedis, redisHookings, hookings] at hx
      rcases hx with ⟨cmd, _, rfl⟩ | ⟨cmd, _, rfl⟩ <;> cases heq
    have hbefore := (Function.update_of_ne hplace _ _).symm.trans hf
    by_contra hnot
    have hnone : redisTable true x.place = none := Option.not_isSome_iff_eq_none.mp hnot
    rw [register_empty hnone] at hbefore
    cases hbefore
  · intro _ cmd _ f hf
    obtain ⟨-, rfl⟩ := redisTable_cases hf
    exact .inl ⟨by decide +kernel, redisGet, hf, rfl⟩
  · intro _ cmd _ f hf
    have hcluster : redisTable true (some (lit "rediscluster"), cmd) = some f := hf
    obtain ⟨heq, -⟩ := redisTable_cases hcluster
    have hclass : some (lit "rediscluster") = some (lit "redis") := congrArg Prod.fst heq
    exact absurd hclass (by decide +kernel)

/-- A Redis client that is loaded later ends with a null handler. -/
theorem not_unhooks_late : (Registry.start (redisTable false)).Started onlyRedis ∧
    ¬ (Registry.start (redisTable false)).Unhooks onlyRedis
      (extended (redisTable false) (some (lit "redis"), lit "get") redisGet) := by
  have hfree : redisTable false (some (lit "redis"), lit "get") = none := by
    rw [redisTable, Function.update_self]
    rfl
  refine ⟨started_redisTable false, fun h => ?_⟩
  have hearly := ((started_redisTable false).restores_iff (.update (register_empty hfree) _)).mp
    h.restores
  have hsome : (redisTable false (some (lit "redis"), lit "get")).isSome :=
    hearly _ redisGet_listed redisGet (Function.update_self _ _ _) nofun
  rw [hfree] at hsome
  cases hsome

end opentelemetry
