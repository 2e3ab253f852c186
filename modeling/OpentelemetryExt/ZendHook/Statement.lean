import OpentelemetryExt.Lib.Separated
import OpentelemetryExt.ZendHook.Described

open separated stateful

namespace opentelemetry

variable {φ : Type} {eng : Engine φ} {php : φ} {u u' v v' w w' : World φ} {q q' i : Nat}
  {e e' : ExecuteData} {p : Zval} {text command command' : Bytes} {turn : Bytes → Nat → M φ Bytes}

theorem tolower_tolower (c : UInt8) : tolower (tolower c) = tolower c := by
  revert c
  exact forall_byte (by decide +kernel)

theorem eq_blank_of_tolower (c : UInt8) : tolower c = 32 → c = 32 := by
  revert c
  exact forall_byte (by decide +kernel)

theorem map_tolower_tolower (s : Bytes) : (s.map tolower).map tolower = s.map tolower := by
  rw [List.map_map]
  exact List.map_congr_left fun c _ => tolower_tolower c

/-- The JSON text of an array, the string form of anything else. -/
def argumentString (eng : Engine φ) (php : φ) (p : Zval) : Bytes :=
  if IsArray p then c_str (eng.json_encode php p) else convert_to_string eng php p

/-- The argument in a lower-cased command. -/
def lowered (eng : Engine φ) (php : φ) (p : Zval) : Bytes :=
  (c_str (argumentString eng php p)).map tolower

/-- What happens to the span and to the PHP state while an argument is read. -/
def NotesOnly (q : Nat) (u u' : World φ) : Prop :=
  GetsOnly (fun kv => kv.key ≠ lit "db.statement") q u u' ∧ u'.php = u.php

instance instReflNotesOnly : Std.Refl (NotesOnly (φ := φ) q) := ⟨fun u => ⟨Std.Refl.refl u, rfl⟩⟩

instance instTransNotesOnly : IsTrans (World φ) (NotesOnly q) :=
  ⟨fun _ _ _ h h' => ⟨IsTrans.trans _ _ _ h.1 h'.1, h'.2.trans h.2⟩⟩

theorem notesOnly_addAttribute {kv : KeyValue} (h : kv.key ≠ lit "db.statement") :
    Keeps (NotesOnly q) (addAttribute q kv : M φ Unit) := by
  intro u u' hends
  have hgets : GetsOnly (fun kv => kv.key ≠ lit "db.statement") q u u' :=
    getsOnly_addAttribute h hends
  refine ⟨hgets, ?_⟩
  obtain ⟨-, rfl⟩ := modifySpan_ends hends
  rfl

/-- A turn appends the text of its argument, and a blank unless that is an array. Only the first
can change the PHP state. -/
def AppendsArgument (eng : Engine φ) (e : ExecuteData) (q : Nat)
    (turn : Bytes → Nat → M φ Bytes) : Prop :=
  ∀ command i u command' u', turn command i u = .ok (command', u') →
    ∃ p, e.args[i - 1]? = some p ∧
      command'.map tolower = command.map tolower ++ followed 32 (lowered eng u'.php) IsArray [p] ∧
      GetsOnly (fun kv => kv.key ≠ lit "db.statement") q u u' ∧ (i ≠ 1 → u'.php = u.php)

theorem followed_array {entries : List (ArrayKey × Zval)} :
    followed 32 (lowered eng php) IsArray [.array entries] =
      (c_str (eng.json_encode php (.array entries))).map tolower := by
  have harray : IsArray (.array entries) := ⟨entries, rfl⟩
  rw [followed_singleton, if_pos harray, lowered, argumentString, if_pos harray, c_str_c_str]

theorem followed_scalar (h : ¬ IsArray p) : followed 32 (lowered eng php) IsArray [p] =
    (c_str (convert_to_string eng php p)).map tolower ++ [32] := by
  rw [followed_singleton, if_neg h, lowered, argumentString, if_neg h]

theorem key_peerAttribute (eng : Engine φ) (host : Bytes) :
    (peerAttribute eng host).key ≠ lit "db.statement" := by
  obtain hkey | hkey := key_of_peerAttribute eng host
  · rw [hkey]
    decide
  · rw [hkey]
    decide

theorem notesOnly_redisArgument {cmd str : Bytes} :
    Keeps (NotesOnly q) (redisArgument eng cmd q i p str) := by
  have hport : lit "net.peer.port" ≠ lit "db.statement" := by decide
  have hkey : lit "db.cache.key" ≠ lit "db.statement" := by decide
  unfold redisArgument
  split
  · exact notesOnly_addAttribute hkey
  split
  · exact notesOnly_addAttribute (key_peerAttribute eng str)
  split
  · split
    · exact .of_reads (.pure _)
    · exact .bind (.of_reads (.lift _)) fun port => notesOnly_addAttribute hport
  · exact .of_reads (.pure _)

theorem appendsArgument_redisCommand : AppendsArgument eng e q (redisCommand eng e q) := by
  intro command i u command' u' h
  obtain ⟨p, u₁, hp, hrest⟩ := bind_ok_iff.mp h
  obtain ⟨harg, rfl⟩ := lift_ok_iff.mp hp
  refine ⟨p, ZEND_CALL_ARG_iff.mp harg, ?_⟩
  split at hrest
  · cases hrest
    rw [followed_array, List.map_append]
    exact ⟨rfl, Std.Refl.refl _, fun _ => rfl⟩
  · rename_i hother
    have hscalar : ¬ IsArray p := fun ⟨entries, harray⟩ => hother entries harray
    obtain ⟨str, u₂, hstr, hargument⟩ := bind_ok_iff.mp hrest
    cases hstr
    obtain ⟨⟨⟩, u₃, hadd, hreturn⟩ := bind_ok_iff.mp hargument
    cases hreturn
    obtain ⟨hgets, hphp⟩ := notesOnly_redisArgument (.of_ok hadd)
    refine ⟨?_, hgets, fun _ => hphp⟩
    rw [followed_scalar hscalar, hphp, List.map_append, List.map_append, map_tolower_tolower,
      List.append_assoc]
    rfl

theorem getsOnly_memcachedServer {str : Bytes} : Keeps
    (GetsOnly (fun kv => kv.key ≠ lit "db.statement") q) (memcachedServer eng e q str) := by
  have htransport : lit "net.transport" ≠ lit "db.statement" := by decide
  have hport : lit "net.peer.port" ≠ lit "db.statement" := by decide
  refine .bind getsOnly_zend_call_method fun server => ?_
  split
  · exact .bind (.of_reads (.lift _)) fun _ => .bind (.of_reads (.lift _)) fun host =>
      .bind (.of_reads (.lift _)) fun _ => .bind (.of_reads (.lift _)) fun port =>
        .bind (getsOnly_addAttribute htransport) fun _ =>
          .bind (getsOnly_addAttribute (key_peerAttribute eng host)) fun _ =>
            getsOnly_addAttribute hport
  · exact .of_reads (.pure _)

theorem appendsArgument_memcachedCommand :
    AppendsArgument eng e q (memcachedCommand eng e q) := by
  have hkey : lit "db.cache.key" ≠ lit "db.statement" := by decide
  intro command i u command' u' h
  obtain ⟨p, u₁, hp, hrest⟩ := bind_ok_iff.mp h
  obtain ⟨harg, rfl⟩ := lift_ok_iff.mp hp
  refine ⟨p, ZEND_CALL_ARG_iff.mp harg, ?_⟩
  split at hrest
  · cases hrest
    rw [followed_array, List.map_append]
    exact ⟨rfl, Std.Refl.refl _, fun _ => rfl⟩
  · rename_i s
    have hscalar : ¬ IsArray (.string s) := fun ⟨entries, harray⟩ => by cases harray
    obtain ⟨str, u₂, hstr, hnote⟩ := bind_ok_iff.mp hrest
    cases hstr
    have htext : (command ++ c_str s ++ lit " ").map tolower =
        command.map tolower ++ followed 32 (lowered eng u'.php) IsArray [.string s] := by
      rw [followed_scalar hscalar, List.map_append, List.map_append, List.append_assoc]
      rfl
    rw [stateful.ite_apply] at hnote
    split_ifs at hnote with hfirst hcmd
    · obtain ⟨⟨⟩, u₃, hadd, hserver⟩ := bind_ok_iff.mp hnote
      obtain ⟨⟨⟩, u₄, hask, hreturn⟩ := bind_ok_iff.mp hserver
      cases hreturn
      have hgets := getsOnly_addAttribute (P := fun kv => kv.key ≠ lit "db.statement") hkey
        (.of_ok hadd)
      exact ⟨htext, IsTrans.trans _ _ _ hgets (getsOnly_memcachedServer (.of_ok hask)),
        fun hlater => absurd hfirst hlater⟩
    · obtain ⟨⟨⟩, u₃, hadd, hreturn⟩ := bind_ok_iff.mp hnote
      cases hreturn
      obtain ⟨hgets, hphp⟩ := notesOnly_addAttribute hkey (.of_ok hadd)
      exact ⟨htext, hgets, fun _ => hphp⟩
    · cases hnote
      exact ⟨htext, Std.Refl.refl _, fun _ => rfl⟩
  · rename_i harray hstring
    have hscalar : ¬ IsArray p := fun ⟨entries, heq⟩ => harray entries heq
    cases hrest
    refine ⟨?_, Std.Refl.refl _, fun _ => rfl⟩
    rw [followed_scalar hscalar, List.map_append, List.map_append, List.append_assoc]
    rfl

/-- The loop over the arguments that are left. -/
theorem AppendsArgument.loop (hturn : AppendsArgument eng e q turn) {prior args : List Zval}
    (hargs : e.args = prior ++ args)
    (h : (List.range' (prior.length + 1) args.length).foldlM turn command u = .ok (command', u')) :
    command'.map tolower =
        command.map tolower ++ followed 32 (lowered eng u'.php) IsArray args ∧
      GetsOnly (fun kv => kv.key ≠ lit "db.statement") q u u' ∧ (prior ≠ [] → u'.php = u.php) := by
  induction args generalizing prior command u with
  | nil =>
    cases h
    exact ⟨(List.append_nil _).symm, Std.Refl.refl _, fun _ => rfl⟩
  | cons p args ih =>
    rw [List.length_cons, List.range'_succ, List.foldlM_cons] at h
    obtain ⟨command₁, u₁, hfirst, hrest⟩ := bind_ok_iff.mp h
    obtain ⟨p', hp', htext₁, hgets₁, hphp₁⟩ := hturn _ _ _ _ _ hfirst
    obtain rfl : p = p' := by
      rw [hargs, Nat.add_sub_cancel, List.getElem?_append_right (Nat.le_refl _),
        Nat.sub_self] at hp'
      exact Option.some.inj hp'
    have hargs' : e.args = (prior ++ [p]) ++ args := by rw [hargs, List.append_assoc]; rfl
    have hlength : (prior ++ [p]).length = prior.length + 1 := List.length_append
    rw [← hlength] at hrest
    obtain ⟨htext, hgets, hphp⟩ := ih hargs' hrest
    have hsame : u'.php = u₁.php := hphp (by simp)
    refine ⟨?_, IsTrans.trans _ _ _ hgets₁ hgets, fun hprior => ?_⟩
    · rw [htext, htext₁, hsame, List.append_assoc, ← followed_append]
      rfl
    · have hlater : prior.length + 1 ≠ 1 := by
        have := List.length_pos_iff.mpr hprior
        omega
      rw [hsame, hphp₁ hlater]

/-- The statement that a hook records. -/
def recordedStatement (eng : Engine φ) (php : φ) (e : ExecuteData) : Bytes :=
  trim (e.cmd ++ 32 :: followed 32 (lowered eng php) IsArray e.args)

/-- The one statement of the span is this text. -/
def RecordsStatement (q : Nat) (w : World φ) (text : Bytes) : Prop :=
  ∃ attributes, Described q attributes w ∧
    withKey (lit "db.statement") attributes = [string_attribute "db.statement" text]

theorem RecordsStatement.iff_eq (h : RecordsStatement q w text) (text' : Bytes) :
    RecordsStatement q w text' ↔ text' = text := by
  obtain ⟨attributes, hdescribed, hkey⟩ := h
  constructor
  · rintro ⟨attributes', hdescribed', hkey'⟩
    rw [hdescribed'.unique hdescribed, hkey] at hkey'
    cases hkey'
    rfl
  · rintro rfl
    exact ⟨attributes, hdescribed, hkey⟩

/-- The span does not have a statement yet. -/
def NoStatement (q : Nat) (u : World φ) : Prop :=
  ∃ attributes, Described q attributes u ∧ ∀ kv ∈ attributes, kv.key ≠ lit "db.statement"

theorem NoStatement.getsOnly (h : NoStatement q u)
    (hgets : GetsOnly (fun kv => kv.key ≠ lit "db.statement") q u u') : NoStatement q u' := by
  obtain ⟨attributes, hdescribed, hkeys⟩ := h
  obtain ⟨kvs, hkvs, hother⟩ := hgets
  exact ⟨attributes ++ kvs, hdescribed.gets hkvs, List.forall_mem_append.mpr ⟨hkeys, hother⟩⟩

theorem noStatement_openSpan {system : Bytes} (h : openSpan eng e .client
    [string_attribute "db.system" system, string_attribute "db.operation" e.cmd] w = .ok (q, u)) :
    NoStatement q u := by
  have hsystem : lit "db.system" ≠ lit "db.statement" := by decide
  have hoperation : lit "db.operation" ≠ lit "db.statement" := by decide
  have hstack : lit "code.stacktrace" ≠ lit "db.statement" := by decide
  refine ⟨_, described_openSpan h, List.forall_mem_append.mpr ⟨?_, ?_⟩⟩
  · exact List.forall_mem_cons.mpr ⟨hsystem, List.forall_mem_singleton.mpr hoperation⟩
  · intro kv hkv
    rwa [key_of_stackAttribute hkv]

/-- The part of a hook from the first argument on. -/
theorem AppendsArgument.records (hturn : AppendsArgument eng e q turn) (hnone : NoStatement q u)
    (h : (do
      let command ← (List.range' 1 (ZEND_CALL_NUM_ARGS e)).foldlM turn (e.cmd ++ lit " ")
      addAttribute q (string_attribute "db.statement" (statementText command))
      return q : M φ Nat) u = .ok (q', w')) :
    RecordsStatement q' w' (recordedStatement eng w'.php e) := by
  obtain ⟨command, u₁, hloop, hrest⟩ := bind_ok_iff.mp h
  obtain ⟨⟨⟩, u₂, hadd, hreturn⟩ := bind_ok_iff.mp hrest
  cases hreturn
  have hstart : e.args = [] ++ e.args := rfl
  obtain ⟨htext, hgets, -⟩ := hturn.loop hstart hloop
  obtain ⟨attributes, hdescribed, hkeys⟩ := hnone.getsOnly hgets
  have hphp : u₁.php = w'.php := by
    obtain ⟨-, rfl⟩ := modifySpan_ends (.of_ok hadd)
    rfl
  have hstatement : statementText command = recordedStatement eng w'.php e := by
    rw [statementText, htext, ExecuteData.cmd, List.map_append, map_tolower_tolower,
      List.append_assoc, hphp]
    rfl
  refine ⟨_, hdescribed.gets (gets_addAttribute (.of_ok hadd)), ?_⟩
  rw [withKey_append_kvs, withKey_eq_nil hkeys, hstatement]
  rfl

theorem getsOnly_redisPeer :
    Keeps (GetsOnly (fun kv => kv.key ≠ lit "db.statement") q) (redisPeer eng e q) := by
  have hport : lit "net.peer.port" ≠ lit "db.statement" := by decide
  refine .bind getsOnly_zend_call_method fun host => .bind getsOnly_zend_call_method fun port => ?_
  split
  · exact .bind (getsOnly_addAttribute (key_peerAttribute eng _)) fun _ =>
      getsOnly_addAttribute hport
  · exact .of_reads (.pure _)

theorem redisEnter_records (h : redisEnter eng e w = .ok (q, w')) :
    RecordsStatement q w' (recordedStatement eng w'.php e) := by
  have htransport : lit "net.transport" ≠ lit "db.statement" := by decide
  obtain ⟨q', u, hopen, hrest⟩ := bind_ok_iff.mp h
  obtain ⟨⟨⟩, u₁, hadd, hrest₁⟩ := bind_ok_iff.mp hrest
  have hnone := (noStatement_openSpan hopen).getsOnly
    (getsOnly_addAttribute htransport (.of_ok hadd))
  rw [stateful.ite_apply] at hrest₁
  split_ifs at hrest₁
  · obtain ⟨⟨⟩, u₂, hpeer, hrest₂⟩ := bind_ok_iff.mp hrest₁
    exact appendsArgument_redisCommand.records
      (hnone.getsOnly (getsOnly_redisPeer (.of_ok hpeer))) hrest₂
  · exact appendsArgument_redisCommand.records hnone hrest₁

theorem memcachedEnter_records (h : memcachedEnter eng e w = .ok (q, w')) :
    RecordsStatement q w' (recordedStatement eng w'.php e) := by
  obtain ⟨q', u, hopen, hrest⟩ := bind_ok_iff.mp h
  exact appendsArgument_memcachedCommand.records (noStatement_openSpan hopen) hrest

/-- A text between brackets. -/
def IsJsonText (s : Bytes) : Prop :=
  0 ∉ s ∧ ∃ inner, s = lit "[" ++ inner ++ lit "]" ∨ s = lit "\x7b" ++ inner ++ lit "\x7d"

/-- The text of an array is between brackets; there is none if the array cannot be encoded. -/
def EncodesArrays (eng : Engine φ) : Prop :=
  ∀ php entries, eng.json_encode php (.array entries) = [] ∨
    IsJsonText (eng.json_encode php (.array entries))

/-- A call whose scalar arguments have texts that can be told apart by the blanks around them. -/
structure Separable (eng : Engine φ) (php : φ) (e : ExecuteData) : Prop where
  cmd : Solid 32 e.cmd
  scalars : ∀ p ∈ e.args, ¬ IsArray p →
    0 ∉ argumentString eng php p ∧ Solid 32 (argumentString eng php p)

theorem IsJsonText.solid {s : Bytes} (h : IsJsonText s) : Solid 32 s := by
  have hlist : Solid 32 (lit "[") ∧ Solid 32 (lit "]") := by
    refine ⟨⟨?_, ?_, ?_⟩, ⟨?_, ?_, ?_⟩⟩ <;> decide
  have hmap : Solid 32 (lit "\x7b") ∧ Solid 32 (lit "\x7d") := by
    refine ⟨⟨?_, ?_, ?_⟩, ⟨?_, ?_, ?_⟩⟩ <;> decide
  obtain ⟨-, inner, rfl | rfl⟩ := h
  · exact hlist.1.append hlist.2 inner
  · exact hmap.1.append hmap.2 inner

/-- The text of an array is as good as that of a scalar, if there is one. -/
theorem Separable.argument (h : Separable eng php e) (hjson : EncodesArrays eng) (hp : p ∈ e.args) :
    0 ∉ argumentString eng php p ∧
      (Solid 32 (argumentString eng php p) ∨ IsArray p ∧ argumentString eng php p = []) := by
  by_cases harray : IsArray p
  · obtain ⟨entries, rfl⟩ := id harray
    rw [argumentString, if_pos harray]
    obtain hempty | hsome := hjson php entries
    · rw [hempty]
      exact ⟨List.not_mem_nil, .inr ⟨harray, rfl⟩⟩
    · rw [c_str_eq_self_iff.mpr hsome.1]
      exact ⟨hsome.1, .inl hsome.solid⟩
  · obtain ⟨hnul, hsolid⟩ := h.scalars p hp harray
    exact ⟨hnul, .inl hsolid⟩

/-- The command and its arguments in lower case, with one blank before each argument. -/
def apartStatement (eng : Engine φ) (php : φ) (e : ExecuteData) : Bytes :=
  e.cmd ++ preceded 32 (fun p => (argumentString eng php p).map tolower) e.args

/-- No argument but the last is an array, and every argument has a text. -/
def ArrayLast (eng : Engine φ) (php : φ) (e : ExecuteData) : Prop :=
  (∀ p ∈ e.args.dropLast, ¬ IsArray p) ∧ ∀ p ∈ e.args, argumentString eng php p ≠ []

theorem recordedStatement_eq_iff (hjson : EncodesArrays eng) (h : Separable eng php e) :
    recordedStatement eng php e = apartStatement eng php e ↔ ArrayLast eng php e := by
  have hlowered : ∀ p ∈ e.args,
      lowered eng php p = (argumentString eng php p).map tolower := fun p hp => by
    rw [lowered, c_str_eq_self_iff.mpr (h.argument hjson hp).1]
  have htext : ∀ p ∈ e.args, Solid 32 ((argumentString eng php p).map tolower) ∨
      IsArray p ∧ (argumentString eng php p).map tolower = [] := by
    intro p hp
    obtain hsolid | ⟨harray, hempty⟩ := (h.argument hjson hp).2
    · exact .inl (hsolid.map eq_blank_of_tolower)
    · exact .inr ⟨harray, List.map_eq_nil_iff.mpr hempty⟩
  have hiff := strip_followed_iff h.cmd htext
  rw [← followed_congr hlowered] at hiff
  refine hiff.trans (and_congr_right fun _ => forall₂_congr fun p _ => ?_)
  exact not_congr List.map_eq_nil_iff

/-- The two hooks of caches. -/
inductive CacheHook where
  | redis
  | memcached
deriving DecidableEq, Repr

/-- What runs before the original handler. -/
def CacheHook.enter (eng : Engine φ) : CacheHook → ExecuteData → M φ Nat
  | redis => redisEnter eng
  | memcached => memcachedEnter eng

theorem CacheHook.records {hook : CacheHook} (h : hook.enter eng e w = .ok (q, w')) :
    RecordsStatement q w' (recordedStatement eng w'.php e) := by
  cases hook with
  | redis => exact redisEnter_records h
  | memcached => exact memcachedEnter_records h

/-- Two calls of one command with the same arguments, which read the same. -/
structure SameCall (eng : Engine φ) (php : φ) (e : ExecuteData) (php' : φ) (e' : ExecuteData) :
    Prop where
  cmd : e'.cmd = e.cmd
  args : e'.args = e.args
  texts : ∀ p ∈ e.args, argumentString eng php' p = argumentString eng php p

theorem SameCall.recordedStatement_eq {php' : φ} (h : SameCall eng php e php' e') :
    recordedStatement eng php' e' = recordedStatement eng php e := by
  have hlowered : ∀ p ∈ e.args, lowered eng php' p = lowered eng php p := fun p hp => by
    rw [lowered, h.texts p hp, lowered]
  rw [recordedStatement, h.cmd, h.args, followed_congr hlowered, recordedStatement]

/-- The statement of a cache call keeps the arguments apart if and only if no argument but the last
is an array and that one can be encoded; whichever hook the call comes to, the text is the same.
The texts are those in the PHP state that the hook leaves, which is the one it reads them in. -/
theorem statements_apart_iff (hjson : EncodesArrays eng) {hook : CacheHook}
    (h : hook.enter eng e w = .ok (q, w')) (hseparable : Separable eng w'.php e) :
    (RecordsStatement q w' (apartStatement eng w'.php e) ↔ ArrayLast eng w'.php e) ∧
      ∀ (hook' : CacheHook) e' v q' v', hook'.enter eng e' v = .ok (q', v') →
        SameCall eng w'.php e v'.php e' →
          ∀ text, RecordsStatement q' v' text ↔ RecordsStatement q w' text := by
  constructor
  · rw [(CacheHook.records h).iff_eq, eq_comm, recordedStatement_eq_iff hjson hseparable]
  · intro hook' e' v q' v' h' hsame text
    rw [(CacheHook.records h).iff_eq, (CacheHook.records h').iff_eq, hsame.recordedStatement_eq]

/-- An engine that encodes the arrays `[1]` and `['a' => 1]`. -/
def cacheServer : Engine Unit := { Engine.connected false with
  json_encode := fun _ value =>
    match value with
    | .array ((.str _, _) :: _) => lit "\x7b\"a\":1\x7d"
    | _ => lit "[1]" }

theorem encodesArrays_cacheServer : EncodesArrays cacheServer := by
  intro php entries
  have hlist : IsJsonText (lit "[1]") := ⟨by decide, lit "1", .inl rfl⟩
  have hmap : IsJsonText (lit "\x7b\"a\":1\x7d") := ⟨by decide, lit "\"a\":1", .inr rfl⟩
  rcases entries with _ | ⟨⟨_ | _, _⟩, _⟩
  · exact .inr hlist
  · exact .inr hlist
  · exact .inr hmap

/-- `$cache->set('k', [1])`. -/
def setFrame (scope : String) : ExecuteData :=
  { methodFrame scope "set" with args := [.string (lit "k"), .array [(.index 0, .long 1)]] }

/-- `$memcached->setMulti(['a' => 1], 60)`. -/
def setMultiFrame : ExecuteData :=
  { methodFrame "Memcached" "setMulti" with
    args := [.array [(.str (lit "a"), .long 1)], .long 60] }

theorem separable_setFrame : Separable cacheServer () (setFrame "Redis") where
  cmd := ⟨by decide, by decide, by decide⟩
  scalars := by
    have harray : IsArray (.array [(.index 0, .long 1)]) := ⟨_, rfl⟩
    have hstring : 0 ∉ argumentString cacheServer () (.string (lit "k")) ∧
        Solid 32 (argumentString cacheServer () (.string (lit "k"))) :=
      ⟨by decide, by decide, by decide, by decide⟩
    exact List.forall_mem_cons.mpr ⟨fun _ => hstring,
      List.forall_mem_singleton.mpr fun hscalar => absurd harray hscalar⟩

theorem separable_setMultiFrame : Separable cacheServer () setMultiFrame where
  cmd := ⟨by decide, by decide, by decide⟩
  scalars := by
    have harray : IsArray (.array [(.str (lit "a"), .long 1)]) := ⟨_, rfl⟩
    have hlong : 0 ∉ argumentString cacheServer () (.long 60) ∧
        Solid 32 (argumentString cacheServer () (.long 60)) :=
      ⟨by decide, by decide, by decide, by decide⟩
    exact List.forall_mem_cons.mpr ⟨fun hscalar => absurd harray hscalar,
      List.forall_mem_singleton.mpr fun _ => hlong⟩

theorem sameCall_setFrame : SameCall cacheServer () (setFrame "Redis") () (setFrame "Memcached") where
  cmd := rfl
  args := rfl
  texts _ _ := rfl

theorem statements_apart_iff_set : ∃ q w' q' v',
    CacheHook.redis.enter cacheServer (setFrame "Redis") tracedWorld = .ok (q, w') ∧
    CacheHook.memcached.enter cacheServer (setFrame "Memcached") tracedWorld = .ok (q', v') ∧
    (RecordsStatement q w' (apartStatement cacheServer w'.php (setFrame "Redis")) ↔
      ArrayLast cacheServer w'.php (setFrame "Redis")) ∧
    ∀ text, RecordsStatement q' v' text ↔ RecordsStatement q w' text := by
  obtain ⟨q, w', h⟩ : ∃ q w', CacheHook.redis.enter cacheServer (setFrame "Redis") tracedWorld =
      .ok (q, w') := returns_of_isSome (by decide +kernel)
  obtain ⟨q', v', h'⟩ : ∃ q' v', CacheHook.memcached.enter cacheServer (setFrame "Memcached")
      tracedWorld = .ok (q', v') := returns_of_isSome (by decide +kernel)
  obtain ⟨hapart, hsame⟩ := statements_apart_iff encodesArrays_cacheServer h separable_setFrame
  exact ⟨q, w', q', v', h, h', hapart, hsame .memcached _ _ q' v' h' sameCall_setFrame⟩

/-- The array and what follows it run together. -/
theorem not_statements_apart_setMulti : ∃ q w',
    CacheHook.memcached.enter cacheServer setMultiFrame tracedWorld = .ok (q, w') ∧
    EncodesArrays cacheServer ∧ Separable cacheServer w'.php setMultiFrame ∧
    RecordsStatement q w' (lit "setmulti \x7b\"a\":1\x7d60") ∧
    ¬ RecordsStatement q w' (apartStatement cacheServer w'.php setMultiFrame) := by
  obtain ⟨q, w', h⟩ : ∃ q w', CacheHook.memcached.enter cacheServer setMultiFrame tracedWorld =
      .ok (q, w') := returns_of_isSome (by decide +kernel)
  have hrecords := CacheHook.records h
  have htext : recordedStatement cacheServer () setMultiFrame =
      lit "setmulti \x7b\"a\":1\x7d60" := by decide
  refine ⟨q, w', h, encodesArrays_cacheServer, separable_setMultiFrame, ?_, fun hapart => ?_⟩
  · rwa [htext] at hrecords
  · rw [hrecords.iff_eq, eq_comm,
      recordedStatement_eq_iff encodesArrays_cacheServer separable_setMultiFrame] at hapart
    have harray : .array [(.str (lit "a"), .long 1)] ∈ setMultiFrame.args.dropLast :=
      List.mem_cons_self
    exact hapart.1 _ harray ⟨_, rfl⟩

end opentelemetry
