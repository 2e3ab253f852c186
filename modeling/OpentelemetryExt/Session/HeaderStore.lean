import OpentelemetryExt.Session.Guard
import OpentelemetryExt.Lib.Assoc

open assoc stateful run

namespace opentelemetry

variable {φ : Type} {eng : Engine φ} {natives : CurlNatives φ} {u v w w' : World φ}
  {execute_data : ExecuteData} {return_value : Zval}

/-- The header store and whether there is a provider. -/
def World.headerView (w : World φ) : Option (List (ArrayKey × Zval)) × Bool :=
  (w.globals.curl_header, w.globals.provider.isSome)

theorem headerView_blind : Blind eng (SameOn (World.headerView : World φ → _)) where
  memory _ _ := rfl
  clock _ := rfl
  uuids _ _ := rfl
  slot hp _ _ := by simp [SameOn, World.headerView, World.withProvider, hp]

/-- Code that does not write to the header store leaves it as it is. -/
theorem headerView_built {α : Type} {g : Grants} {m : M φ α} (hg : ¬ g.stores)
    (h : Built (Move eng g) m) :
    Keeps (SameOn World.headerView) m :=
  headerView_blind.built (fun _ _ => rfl) (fun hstores => absurd hstores hg) h

theorem headerView_call {c : Call} (hc : ¬ c.Stores) :
    Keeps (SameOn World.headerView) (c.run eng natives) :=
  headerView_built (c.grants_stores ▸ hc) (Move.built_call c)

/-- The world with this header store. -/
def World.withHeaders (w : World φ) (entries : List (ArrayKey × Zval)) : World φ :=
  { w with globals := { w.globals with curl_header := some entries } }

theorem curlHeader_ok {entries : List (ArrayKey × Zval)} (h : curlHeader w = .ok (entries, w')) :
    w.globals.curl_header = some entries ∧ w' = w := by
  obtain ⟨g, _, hglobals, h⟩ := bind_ok_iff.mp h
  cases hglobals
  cases hstore : w.globals.curl_header with
  | none =>
    simp only [hstore] at h
    cases h
  | some entries =>
    simp only [hstore] at h
    cases h
    exact ⟨rfl, rfl⟩

/-- The handle and the header list that a call of `curl_setopt` or `curl_setopt_array` sets. -/
def Call.sets (eng : Engine φ) : Call → Option (Nat × Zval)
  | curl_setopt execute_data =>
    match execute_data.args with
    | [zid, opt, .array list] =>
      if eng.parse_long opt = some CURLOPT_HTTPHEADER then
        (curlHandle eng zid).map fun cid => (cid, .array list)
      else none
    | _ => none
  | curl_setopt_array execute_data =>
    match execute_data.args with
    | [zid, .array arr] =>
      match curlHandle eng zid, zend_hash_index_find arr CURLOPT_HTTPHEADER with
      | some cid, some list => some (cid, list)
      | _, _ => none
    | _ => none
  | _ => none

/-- The handle that a call of `curl_close` is about. -/
def Call.closes (eng : Engine φ) : Call → Option Nat
  | curl_close execute_data =>
    match execute_data.args with
    | [zid] => curlHandle eng zid
    | _ => none
  | _ => none

/-- What a call does to the header store while there is a provider. -/
def Call.rewrites (eng : Engine φ) (c : Call) (entries : List (ArrayKey × Zval)) :
    List (ArrayKey × Zval) :=
  match c.sets eng, c.closes eng with
  | some (cid, value), _ => assign (.index cid) value entries
  | none, some cid => remove (.index cid) entries
  | none, none => entries

/-- The header store changes by `f`, if there is one. -/
def Rewrites (f : List (ArrayKey × Zval) → List (ArrayKey × Zval)) (w w' : World φ) : Prop :=
  w'.globals.curl_header = w.globals.curl_header.map f

variable {f : List (ArrayKey × Zval) → List (ArrayKey × Zval)}

theorem Rewrites.of_same {α : Type} {m : M φ α} (hf : f = id)
    (h : Keeps (SameOn World.headerView) m) : Keeps (Rewrites f) m := by
  intro w w' hends
  rw [Rewrites, hf, Option.map_id]
  exact (Prod.mk.inj (h hends)).1

theorem Rewrites.bind {α β : Type} {m : M φ α} {g : α → M φ β} (hm : Keeps (Rewrites f) m)
    (hg : ∀ a, Keeps (SameOn World.headerView) (g a)) : Keeps (Rewrites f) (m >>= g) := by
  intro w w' h
  obtain ⟨a, u, hfirst, hrest⟩ | hleft := ends_bind_iff.mp h
  · exact (Prod.mk.inj (hg a hrest)).1.trans (hm (.of_ok hfirst))
  · exact hm (.inr hleft)

theorem update_ok (h : (do setCurlHeader (f (← curlHeader)) : M φ Unit) w = .ok ((), w')) :
    ∃ entries, w.globals.curl_header = some entries ∧ w' = w.withHeaders (f entries) := by
  obtain ⟨entries, u, hread, hwrite⟩ := bind_ok_iff.mp h
  obtain ⟨hstore, rfl⟩ := curlHeader_ok hread
  cases hwrite
  exact ⟨entries, hstore, rfl⟩

theorem Rewrites.update : Keeps (Rewrites f)
    (do setCurlHeader (f (← curlHeader)) : M φ Unit) := by
  rintro w w' (⟨⟨⟩, h⟩ | h)
  · obtain ⟨entries, hstore, rfl⟩ := update_ok h
    rw [Rewrites, hstore]
    rfl
  · simp only [curlHeader, bind_apply, globals_apply, ok_bind] at h
    cases hstore : w.globals.curl_header <;> simp only [hstore] at h <;> cases h

theorem headerView_native (f : ExecuteData → φ → Zval × φ) (execute_data : ExecuteData) :
    Keeps (SameOn World.headerView) (native f execute_data) :=
  .bind (.of_reads .get) fun _ => .bind (.modify fun _ => rfl) fun _ => .of_reads (.pure _)

/-- The two ways a hook may go. -/
theorem ends_guarded {α : Type} {m n : M φ α}
    (h : Ends (do if ¬ (← is_has_provider) then m else n) w w') :
    w.globals.provider.isSome = false ∧ Ends m w w' ∨
      w.globals.provider.isSome = true ∧ Ends n w w' := by
  obtain ⟨b, u, hhas, hrest⟩ | hleft := ends_bind_iff.mp h
  · cases hhas
    cases hp : w.globals.provider.isSome with
    | false => exact .inl ⟨rfl, by simpa [hp] using hrest⟩
    | true => exact .inr ⟨rfl, by simpa [hp] using hrest⟩
  · cases hleft

theorem Call.rewrites_none {c : Call} (hsets : c.sets eng = none) (hcloses : c.closes eng = none) :
    c.rewrites eng = id := by
  funext entries
  simp [Call.rewrites, hsets, hcloses]

theorem Call.rewrites_sets {c : Call} {cid : Nat} {value : Zval}
    (hsets : c.sets eng = some (cid, value)) :
    c.rewrites eng = assign (.index cid) value := by
  funext entries
  simp [Call.rewrites, hsets]

/-- The header store after the hook of `curl_setopt`. -/
theorem curl_setopt_rewrites (hhas : w.globals.provider.isSome = true)
    (h : Ends (opentelemetry_curl_setopt_handler eng natives.originals execute_data) w w') :
    Rewrites (Call.rewrites eng (.curl_setopt execute_data)) w w' := by
  obtain ⟨hno, -⟩ | ⟨-, hends⟩ := ends_guarded h
  · rw [hno] at hhas
    cases hhas
  refine (?_ : Keeps (Rewrites _) _) hends
  have horiginal (e : ExecuteData) : Keeps (SameOn World.headerView)
      (natives.originals.curl_setopt e) := headerView_native _ e
  split
  · rename_i zid opt zvalue hargs
    split
    · rename_i cid options hcid hoptions
      split
      · refine .of_same (Call.rewrites_none ?_ rfl)
          (.bind (.of_reads (.lift _)) fun _ => horiginal _)
        cases zvalue <;> simp_all [Call.sets, CURLOPT_HTTPHEADER, OPENTELEMETRY_CURLOPT_HTTPHEADER]
      · dsimp only
        split
        · split
          · rename_i zvalue list hoption
            have hsets : (.curl_setopt execute_data : Call).sets eng = some (cid, .array list) := by
              simp [Call.sets, hargs, hcid, hoptions, hoption]
            rw [Call.rewrites_sets hsets]
            exact Rewrites.bind .update fun _ => horiginal _
          · refine .of_same (Call.rewrites_none ?_ rfl) (horiginal _)
            simp_all [Call.sets]
        · refine .of_same (Call.rewrites_none ?_ rfl) (horiginal _)
          cases zvalue <;> simp_all [Call.sets]
    · refine .of_same (Call.rewrites_none ?_ rfl) (.of_reads (.pure _))
      rename_i hrefused
      have hsets (hopt : eng.parse_long opt = some CURLOPT_HTTPHEADER) :
          curlHandle eng zid = none := by
        cases hcid : curlHandle eng zid with
        | none => rfl
        | some cid => exact absurd hopt (hrefused _ _ hcid)
      cases zvalue <;> simp_all [Call.sets]
  · refine .of_same (Call.rewrites_none ?_ rfl) (.of_reads (.pure _))
    rename_i hargs
    unfold Call.sets
    dsimp only
    split
    · rename_i heq
      exact absurd heq (hargs _ _ _)
    · rfl

/-- The header store after the hook of `curl_setopt_array`. -/
theorem curl_setopt_array_rewrites (hhas : w.globals.provider.isSome = true)
    (h : Ends (opentelemetry_curl_setopt_array_handler eng natives.originals execute_data) w w') :
    Rewrites (Call.rewrites eng (.curl_setopt_array execute_data)) w w' := by
  obtain ⟨hno, -⟩ | ⟨-, hends⟩ := ends_guarded h
  · rw [hno] at hhas
    cases hhas
  refine (?_ : Keeps (Rewrites _) _) hends
  have horiginal (e : ExecuteData) : Keeps (SameOn World.headerView)
      (natives.originals.curl_setopt_array e) := headerView_native _ e
  split
  · rename_i zid arr hargs
    split
    · rename_i cid hcid
      dsimp only
      split
      · rename_i http_header hfind
        have hsets : (.curl_setopt_array execute_data : Call).sets eng = some (cid, http_header) := by
          simp [Call.sets, hargs, hcid, hfind]
        rw [Call.rewrites_sets hsets]
        exact Rewrites.bind .update fun _ => horiginal _
      · refine .of_same (Call.rewrites_none ?_ rfl) (horiginal _)
        simp_all [Call.sets]
    · refine .of_same (Call.rewrites_none ?_ rfl) (.of_reads (.pure _))
      simp_all [Call.sets]
  · refine .of_same (Call.rewrites_none ?_ rfl) (.of_reads (.pure _))
    rename_i hargs
    unfold Call.sets
    dsimp only
    split
    · rename_i heq
      exact absurd heq (hargs _ _)
    · rfl

/-- The header store after the hook of `curl_close`. -/
theorem curl_close_rewrites (hhas : w.globals.provider.isSome = true)
    (h : Ends (opentelemetry_curl_close_handler eng natives.originals execute_data) w w') :
    Rewrites (Call.rewrites eng (.curl_close execute_data)) w w' := by
  obtain ⟨hno, -⟩ | ⟨-, hends⟩ := ends_guarded h
  · rw [hno] at hhas
    cases hhas
  refine (?_ : Keeps (Rewrites _) _) hends
  have horiginal (e : ExecuteData) : Keeps (SameOn World.headerView)
      (natives.originals.curl_close e) := headerView_native _ e
  split
  · rename_i zid hargs
    split
    · rename_i cid hcid
      have hf : Call.rewrites eng (.curl_close execute_data) = remove (.index cid) := by
        funext entries
        simp [Call.rewrites, Call.sets, Call.closes, hargs, hcid]
      rw [hf, ← bind_assoc]
      exact Rewrites.bind .update fun _ => horiginal _
    · refine .of_same (Call.rewrites_none rfl ?_) (.of_reads (.pure _))
      simp_all [Call.closes]
  · refine .of_same (Call.rewrites_none rfl ?_) (.of_reads (.pure _))
    rename_i hargs
    unfold Call.closes
    dsimp only
    split
    · rename_i heq
      exact absurd heq (hargs _)
    · rfl

/-- Calls that have nothing to do with curl's header lists leave the store alone, the others
rewrite it when there is a provider. -/
theorem call_rewrites {c : Call} (hexec : ∀ e, c ≠ .enter .curl_exec e)
    (hhas : w.globals.provider.isSome = true) (h : Ends (c.run eng natives) w w') :
    Rewrites (c.rewrites eng) w w' := by
  cases c with
  | curl_setopt execute_data => exact curl_setopt_rewrites hhas (ends_ignore_iff.mp h)
  | curl_setopt_array execute_data => exact curl_setopt_array_rewrites hhas (ends_ignore_iff.mp h)
  | curl_close execute_data => exact curl_close_rewrites hhas (ends_ignore_iff.mp h)
  | enter hook execute_data =>
    refine Rewrites.of_same (Call.rewrites_none rfl rfl) (headerView_call fun hstores => ?_) h
    cases hook <;> first | exact hstores | exact hexec _ rfl
  | _ =>
    refine Rewrites.of_same (Call.rewrites_none rfl rfl) (headerView_call ?_) h
    exact not_false

/-- Without a provider nothing is stored. -/
theorem call_unrecorded {c : Call} (hexec : ∀ e, c ≠ .enter .curl_exec e)
    (hno : w.globals.provider.isSome = false) (h : Ends (c.run eng natives) w w') :
    w'.globals.curl_header = w.globals.curl_header := by
  have hguarded {m n : M φ Zval} (hm : Keeps (SameOn World.headerView) m)
      (hends : Ends (do if ¬ (← is_has_provider) then m else n) w w') :
      w'.globals.curl_header = w.globals.curl_header := by
    obtain ⟨-, hleft⟩ | ⟨hhas, -⟩ := ends_guarded hends
    · exact (Prod.mk.inj (hm hleft)).1
    · rw [hno] at hhas
      cases hhas
  cases c with
  | curl_setopt execute_data => exact hguarded (headerView_native _ _) (ends_ignore_iff.mp h)
  | curl_setopt_array execute_data => exact hguarded (headerView_native _ _) (ends_ignore_iff.mp h)
  | curl_close execute_data => exact hguarded (headerView_native _ _) (ends_ignore_iff.mp h)
  | enter hook execute_data =>
    refine (Prod.mk.inj (headerView_call (fun hstores => ?_) h)).1
    cases hook <;> first | exact hstores | exact hexec _ rfl
  | _ =>
    refine (Prod.mk.inj (headerView_call ?_ h)).1
    exact not_false

/-- A header of the tracer's own. -/
def IsTracing (z : Zval) : Prop :=
  ∃ s, z = .string s ∧ (lit "traceparent: " <+: s ∨ lit "baggage: " <+: s)

/-- The headers that the tracer appends to a list. -/
def contextLines (traceparent baggage : Bytes) : List Zval :=
  [.string (lit "traceparent: " ++ c_str traceparent), .string (lit "baggage: " ++ c_str baggage)]

theorem isTracing_contextLines (traceparent baggage : Bytes) :
    ∀ z ∈ contextLines traceparent baggage, IsTracing z := by
  intro z hz
  simp only [contextLines, List.mem_cons, List.not_mem_nil, or_false] at hz
  obtain rfl | rfl := hz
  · exact ⟨_, rfl, .inl (List.prefix_append _ _)⟩
  · exact ⟨_, rfl, .inr (List.prefix_append _ _)⟩

/-- The clock may be read, but no message is touched. -/
theorem memory_formatTraceParentHeader (span : Nat) :
    Keeps (SameOn World.memory) (Provider.formatTraceParentHeader eng span) :=
  .bind (.of_reads (Op.reads_readSpan _)) fun _ => .bind (.of_reads (.lift _)) fun _ =>
    .bind (.of_reads (.lift _)) fun _ => .bind (isSampled_keeps fun _ => rfl) fun _ =>
      .of_reads (.pure _)

theorem add_next_index_string_ok {list list' : Zval} {str : Bytes}
    (h : (lift (add_next_index_string list str) : M φ Zval) w = .ok (list', w')) :
    ∃ entries key, list = .array entries ∧
      list' = .array (entries ++ [(key, .string (c_str str))]) ∧ w' = w := by
  cases list with
  | array entries =>
    cases h
    exact ⟨entries, _, rfl, rfl, rfl⟩
  | _ => cases h

/-- The list for a call: what is stored for the handle, and the tracer's two headers. -/
theorem curlHeaders_ok {cid span : Nat} {option : Option Zval} {list : Zval}
    {entries : List (ArrayKey × Zval)} (hstore : w.globals.curl_header = some entries)
    (h : curlHeaders eng cid span option w = .ok (list, w')) :
    ∃ base tail traceparent baggage u, option.getD (.array []) = .array base ∧
      list = .array (base ++ tail) ∧ tail.map Prod.snd = contextLines traceparent baggage ∧
      Provider.formatTraceParentHeader eng span w = .ok (traceparent, u) ∧
      w'.memory = w.memory ∧ w'.globals.provider.isSome = w.globals.provider.isSome ∧
      w'.globals.curl_header =
        some (if option.isSome then assign (.index cid) list entries else entries) := by
  obtain ⟨traceparent, u, hformat, hrest⟩ := bind_ok_iff.mp h
  obtain ⟨list₁, u₁, hadd₁, hrest₁⟩ := bind_ok_iff.mp hrest
  obtain ⟨base, key₁, hbase, rfl, rfl⟩ := add_next_index_string_ok hadd₁
  obtain ⟨baggage, u₂, hbaggage, hrest₂⟩ := bind_ok_iff.mp hrest₁
  obtain rfl := Op.reads_formatBaggageHeader (.of_ok hbaggage)
  obtain ⟨list₂, u₃, hadd₂, hrest₃⟩ := bind_ok_iff.mp hrest₂
  obtain ⟨entries₁, key₂, hentries₁, rfl, rfl⟩ := add_next_index_string_ok hadd₂
  cases hentries₁
  have hview : SameOn World.headerView w u₃ :=
    headerView_built (g := .none) id (Move.built_formatTraceParentHeader _) (.of_ok hformat)
  obtain ⟨hheader, hhas⟩ := Prod.mk.inj hview
  have hmemory : u₃.memory = w.memory := memory_formatTraceParentHeader span (.of_ok hformat)
  have htail : [(key₁, Zval.string (c_str (lit "traceparent: " ++ traceparent))),
      (key₂, Zval.string (c_str (lit "baggage: " ++ baggage)))].map Prod.snd =
        contextLines traceparent baggage := by
    rw [c_str_append _ (by decide), c_str_append _ (by decide)]
    rfl
  rw [stateful.ite_apply] at hrest₃
  split at hrest₃
  · obtain ⟨⟨⟩, v, hsave, hreturn⟩ := bind_ok_iff.mp hrest₃
    obtain ⟨saved, hsaved, rfl⟩ := update_ok hsave
    obtain rfl : saved = entries := Option.some.inj (hsaved.symm.trans (hheader.trans hstore))
    cases hreturn
    refine ⟨base, _, traceparent, baggage, _, hbase, ?_, htail, hformat, hmemory, hhas, ?_⟩
    · rw [List.append_assoc]
      rfl
    · rw [if_pos ‹_›]
      rfl
  · cases hrest₃
    refine ⟨base, _, traceparent, baggage, _, hbase, ?_, htail, hformat, hmemory, hhas, ?_⟩
    · rw [List.append_assoc]
      rfl
    · rw [if_neg ‹_›]
      exact hheader.trans hstore

/-- How the entry of a handle changes while the application does nothing with it: the tracer
appends its own headers to a list. -/
inductive Grown : Option Zval → Option Zval → Prop
  | same (entry : Option Zval) : Grown entry entry
  | tail {base tail : List (ArrayKey × Zval)} : (∀ e ∈ tail, IsTracing e.2) →
      Grown (some (.array base)) (some (.array (base ++ tail)))

theorem Grown.trans {a b c : Option Zval} (h : Grown a b) (h' : Grown b c) : Grown a c := by
  cases h with
  | same => exact h'
  | @tail base tail htail =>
    cases h' with
    | same => exact .tail htail
    | @tail _ tail' htail' =>
      rw [List.append_assoc]
      exact .tail fun e he => (List.mem_append.mp he).elim (htail e) (htail' e)

/-- The entry that the store holds for a handle. -/
def storedList (entries : List (ArrayKey × Zval)) (cid : Nat) : Option Zval :=
  entries.lookup (.index cid)

/-- The hook of `curl_setopt` passes the tracer's own call on to the original. -/
theorem installHeaders_ok {zid list : Zval} {cid : Nat} {callers : List (Option ZendFunction)}
    (hhas : w.globals.provider.isSome = true) (hlong : ∀ v, eng.parse_long (.long v) = some v)
    (hcid : curlHandle eng zid = some cid)
    (h : installHeaders eng natives.originals zid list callers w = .ok ((), w')) :
    ∃ e : ExecuteData, e.args = [zid, .long CURLOPT_HTTPHEADER, list] ∧
      w' = { w with php := (natives.curl_setopt e w.php).2 } := by
  obtain ⟨_, u, hsetopt, hreturn⟩ := bind_ok_iff.mp h
  cases hreturn
  obtain ⟨b, u, hb, hrest⟩ := bind_ok_iff.mp hsetopt
  cases hb
  simp only [hhas, not_true_eq_false, if_false, hcid, hlong, if_true, Z_LVAL_P] at hrest
  cases hrest
  exact ⟨_, rfl, rfl⟩

/-- A call of `curl_exec` that is recorded, up to the transfer: for the span `q` it installs
what is stored for the handle with the headers of the tracer, and keeps what it has appended. -/
structure Appends (eng : Engine φ) (natives : CurlNatives φ) (zid : Zval) (cid q : Nat)
    (entries base tail : List (ArrayKey × Zval)) (w w' : World φ) : Prop where
  store : w.globals.curl_header = some entries
  found : (storedList entries cid).getD (.array []) = .array base
  stored : w'.globals.curl_header = some (if (storedList entries cid).isSome then
    assign (.index cid) (.array (base ++ tail)) entries else entries)
  context : ∃ url created traceparent baggage formatted kv,
    curlSpan eng url w = .ok (q, created) ∧
    Provider.formatTraceParentHeader eng q created = .ok (traceparent, formatted) ∧
    tail.map Prod.snd = contextLines traceparent baggage ∧
    w'.memory.spans =
      created.memory.spans.modify q fun s => { s with attributes := s.attributes ++ [kv] }
  installs : ∃ (e : ExecuteData) (php : φ),
    e.args = [zid, .long CURLOPT_HTTPHEADER, .array (base ++ tail)] ∧
      w'.php = (natives.curl_setopt e php).2

theorem Appends.isTracing {zid : Zval} {cid q : Nat} {entries base tail : List (ArrayKey × Zval)}
    (h : Appends eng natives zid cid q entries base tail w w') : ∀ e ∈ tail, IsTracing e.2 := by
  obtain ⟨url, created, traceparent, baggage, formatted, kv, -, -, htail, -⟩ := h.context
  intro e he
  refine isTracing_contextLines traceparent baggage e.2 ?_
  rw [← htail]
  exact List.mem_map_of_mem he

theorem curlExecEnter_appends {zid : Zval} {cid : Nat} {url : Url} {span : Option Nat}
    (hhas : w.globals.provider.isSome = true) (hlong : ∀ v, eng.parse_long (.long v) = some v)
    (hcid : curlHandle eng zid = some cid) (hurl : recordedUrl eng zid w = .ok (some url, w))
    (h : curlExecEnter eng natives.originals execute_data zid cid w = .ok (span, w')) :
    ∃ q entries base tail, Appends eng natives zid cid q entries base tail w w' := by
  obtain ⟨url', u, hurl', hrest⟩ := bind_ok_iff.mp h
  rw [hurl] at hurl'
  cases hurl'
  obtain ⟨entries, u₁, hread, hrest₁⟩ := bind_ok_iff.mp hrest
  obtain ⟨hstore, rfl⟩ := curlHeader_ok hread
  obtain ⟨q, u₂, hspan, hrest₂⟩ := bind_ok_iff.mp hrest₁
  obtain ⟨hheader, hprovider⟩ :=
    Prod.mk.inj (headerView_built (g := { Grants.none with creates := True }) id
      ((Move.spawns_curlSpan url).built trivial) (.of_ok hspan))
  obtain ⟨list, u₃, hlist, hrest₃⟩ := bind_ok_iff.mp hrest₂
  obtain ⟨base, tail, traceparent, baggage, formatted, hbase, rfl, htail, hformat, hmemory,
    hprovider₃, hheader₃⟩ := curlHeaders_ok (hheader.trans hstore) hlist
  obtain ⟨text, u₄, htext, hrest₄⟩ := bind_ok_iff.mp hrest₃
  obtain rfl := Op.reads_json_encode _ (.of_ok htext)
  obtain ⟨⟨⟩, u₅, hadd, hrest₅⟩ := bind_ok_iff.mp hrest₄
  obtain ⟨-, rfl⟩ := modifySpan_ends (.of_ok hadd)
  obtain ⟨⟨⟩, u₆, hinstall, hreturn⟩ := bind_ok_iff.mp hrest₅
  cases hreturn
  have hhas₄ (f : Span → Span) : (u₄.withSpan q f).globals.provider.isSome = true :=
    hprovider₃.trans (hprovider.trans hhas)
  obtain ⟨e, he, rfl⟩ := installHeaders_ok (hhas₄ _) hlong hcid hinstall
  refine ⟨q, entries, base, tail, hstore, hbase, hheader₃, ?_, e, _, he, rfl⟩
  refine ⟨url, u₂, traceparent, baggage, formatted, string_attribute "http.header" text, hspan,
    hformat, htail, ?_⟩
  rw [← hmemory]
  rfl

namespace Direct

theorem modifyPhp (php : φ) : Direct (modifyPhp php) := .modify _

theorem native (f : ExecuteData → φ → Zval × φ) (execute_data : ExecuteData) :
    Direct (native f execute_data) :=
  .bind .get fun _ => .bind (modifyPhp _) fun _ => .pure _

theorem curlHeader : Direct (curlHeader : M φ _) := by
  refine .bind Direct.globals fun g => ?_
  split
  · exact .pure _
  · exact .lift _

theorem storeHeader (cid : Nat) (value : Zval) : Direct (storeHeader cid value : M φ Unit) :=
  .bind curlHeader fun _ => .modify _

theorem curl_setopt (execute_data : ExecuteData) :
    Direct (opentelemetry_curl_setopt_handler eng natives.originals execute_data) := by
  have horiginal (e : ExecuteData) : Direct (natives.originals.curl_setopt e) := native _ e
  refine .bind Direct.is_has_provider fun b => .ite (horiginal _) ?_
  split
  · split
    · refine .ite (.bind (.lift _) fun _ => horiginal _) ?_
      split
      · exact .ite (.bind (storeHeader _ _) fun _ => horiginal _) (horiginal _)
      · exact horiginal _
    · exact .pure _
  · exact .pure _

theorem recordedUrl (zid : Zval) : Direct (recordedUrl eng zid) := by
  refine .bind .get fun _ => .bind (.lift _) fun _ => .bind (.lift _) fun _ =>
    .bind (.lift _) fun _ => ?_
  split
  · exact .pure _
  · exact .pure _

theorem curlSpan (url : Url) : Direct (curlSpan eng url) :=
  .bind (createChildSpan _ _) fun _ => .bind (addAttribute _ _) fun _ =>
    .bind (addAttribute _ _) fun _ => .bind (addAttribute _ _) fun _ => .pure _

theorem formatTraceParentHeader (span : Nat) :
    Direct (Provider.formatTraceParentHeader eng span) :=
  .bind (readSpan _) fun _ => .bind (.lift _) fun _ => .bind (.lift _) fun _ =>
    .bind isSampled fun _ => .pure _

theorem curlHeaders (cid span : Nat) (option : Option Zval) :
    Direct (curlHeaders eng cid span option) :=
  .bind (formatTraceParentHeader _) fun _ => .bind (.lift _) fun _ =>
    .bind (.bind slot fun _ => .pure _) fun _ => .bind (.lift _) fun _ =>
      .ite (.bind (storeHeader _ _) fun _ => .pure _) (.pure _)

theorem curlExecEnter (zid : Zval) (cid : Nat) :
    Direct (curlExecEnter eng natives.originals execute_data zid cid) := by
  refine .bind (recordedUrl _) fun url => .bind curlHeader fun _ => ?_
  dsimp only
  split
  · exact .pure _
  · exact .bind (curlSpan _) fun _ => .bind (curlHeaders _ _ _) fun _ =>
      .bind (json_encode _) fun _ => .bind (addAttribute _ _) fun _ =>
        .bind (.bind (curl_setopt _) fun _ => .pure _) fun _ => .pure _

end Direct

/-- The handle whose transfer a call is about to record, if any. -/
def Call.transfers (eng : Engine φ) (w : World φ) : Call → Option Nat
  | enter .curl_exec execute_data =>
    match execute_data.args with
    | [zid] =>
      match curlHandle eng zid, recordedUrl eng zid w with
      | some cid, .ok (some _, _) => if w.globals.provider.isSome then some cid else none
      | _, _ => none
    | _ => none
  | _ => none

/-- The first half of a call of `curl_exec`, whatever its frame. -/
theorem exec_cases (hlong : ∀ v, eng.parse_long (.long v) = some v)
    (h : Ends ((Call.enter .curl_exec execute_data).run eng natives) w w') :
    (Call.enter .curl_exec execute_data).transfers eng w = none ∧
        w'.globals.curl_header = w.globals.curl_header ∨
      ∃ zid cid q entries base tail, curlHandle eng zid = some cid ∧
        (Call.enter .curl_exec execute_data).transfers eng w = some cid ∧
        Appends eng natives zid cid q entries base tail w w' := by
  obtain ⟨b, u, hb, hrest⟩ | hleft := ends_bind_iff.mp (ends_ignore_iff.mp h)
  · cases hb
    have hpure (hends : Ends (pure none : M φ (Option Nat)) w w') :
        w'.globals.curl_header = w.globals.curl_header := by rw [Reads.pure _ hends]
    revert hrest
    cases hhas : w.globals.provider.isSome with
    | false =>
      rw [if_neg Bool.false_ne_true]
      refine fun hrest => .inl ⟨?_, hpure hrest⟩
      simp only [Call.transfers, hhas]
      split
      · split <;> rfl
      · rfl
    | true =>
      rw [if_pos rfl]
      split
      · rename_i zid hargs
        split
        · rename_i cid hcid
          intro hrest
          obtain ⟨span, hok⟩ := (Direct.curlExecEnter zid cid).ok hrest
          obtain ⟨url, u, hurl, hlast⟩ := bind_ok_iff.mp hok
          obtain rfl := Move.reads_recordedUrl zid (.of_ok hurl)
          have htransfers : (Call.enter .curl_exec execute_data).transfers eng u =
              url.map fun _ => cid := by
            simp only [Call.transfers, hargs, hcid, hurl, hhas]
            cases url <;> rfl
          cases url with
          | none =>
            obtain ⟨entries, v, hread, hreturn⟩ := bind_ok_iff.mp hlast
            obtain ⟨-, rfl⟩ := curlHeader_ok hread
            cases hreturn
            exact .inl ⟨htransfers, rfl⟩
          | some url =>
            obtain ⟨q, entries, base, tail, happends⟩ :=
              curlExecEnter_appends hhas hlong hcid hurl hok
            exact .inr ⟨zid, cid, q, entries, base, tail, hcid, htransfers, happends⟩
        · rename_i hcid
          exact fun hrest => .inl ⟨by simp only [Call.transfers, hargs, hcid], hpure hrest⟩
      · rename_i hargs
        refine fun hrest => .inl ⟨?_, hpure hrest⟩
        unfold Call.transfers
        dsimp only
        split
        · exact absurd ‹_› (hargs _)
        · rfl
  · cases hleft

theorem start_headers {traceparent tracebaggage : Bytes} {kind : SpanKind}
    (h : start_tracer eng traceparent tracebaggage kind w = .ok ((), w'))
    (heffective : ¬ Refuses eng w.globals) : w'.globals.curl_header = some [] := by
  obtain ⟨u, v, v₁, header, name, kind', q, m, hcore, hcreate, hparse, hbuilt, hrest, -⟩ :=
    start_tracer_ok h heffective
  obtain ⟨v₀, p, hspan, hp, rfl⟩ := Provider.createFirstSpan_ok hcreate
  have hself (w : World φ) : w.core.globals.curl_header = w.globals.curl_header := rfl
  calc w'.globals.curl_header
      = v₁.globals.curl_header := (Prod.mk.inj (headerView_built id hbuilt hrest)).1
    _ = v₀.globals.curl_header :=
      (Prod.mk.inj (headerView_blind.parseTraceParent _ (.of_ok hparse))).1
    _ = u.globals.curl_header := (Prod.mk.inj (headerView_blind.spanwise.createSpan _ _ (.of_ok hspan))).1
    _ = (w.reset eng).globals.curl_header := by rw [← hself, hcore, hself]
    _ = some [] := rfl

theorem shutdown_headers (h : shutdown_tracer eng w = .ok ((), w'))
    (heffective : ¬ Refuses eng w.globals) : w'.globals.curl_header = none := by
  obtain ⟨p, u, hp, rfl, hend⟩ := shutdown_tracer_ok h heffective
  rfl

/-- What an event does to the header store. -/
inductive StoreStep (eng : Engine φ) (natives : CurlNatives φ) (w w' : World φ) : Event φ → Prop
  | rewrites {c : Call} : (∀ e, c ≠ .enter .curl_exec e) → w.globals.provider.isSome = true →
      Rewrites (c.rewrites eng) w w' → StoreStep eng natives w w' (.call c)
  | unrecorded {c : Call} : (∀ e, c ≠ .enter .curl_exec e) → w.globals.provider.isSome = false →
      w'.globals.curl_header = w.globals.curl_header → StoreStep eng natives w w' (.call c)
  | passes {frame : ExecuteData} : (Call.enter .curl_exec frame).transfers eng w = none →
      w'.globals.curl_header = w.globals.curl_header →
        StoreStep eng natives w w' (.call (.enter .curl_exec frame))
  | records {frame : ExecuteData} {zid : Zval} {cid q : Nat}
      {entries base tail : List (ArrayKey × Zval)} :
      (Call.enter .curl_exec frame).transfers eng w = some cid →
        Appends eng natives zid cid q entries base tail w w' →
          StoreStep eng natives w w' (.call (.enter .curl_exec frame))
  | starts {e : Event φ} : (∀ c, e ≠ .call c) → w.sessions.Starts eng.cli e →
      w'.globals.curl_header = some [] → StoreStep eng natives w w' e
  | aside {e : Event φ} : (∀ c, e ≠ .call c) → ¬ w.sessions.Starts eng.cli e →
      w'.globals.curl_header = w.globals.curl_header ∨ w'.globals.curl_header = none →
        StoreStep eng natives w w' e

theorem store_step {e : Event φ} (hlong : ∀ v, eng.parse_long (.long v) = some v)
    (h : Step eng natives e w w') : StoreStep eng natives w w' e := by
  cases e with
  | call c =>
    by_cases hexec : ∀ e, c ≠ .enter .curl_exec e
    · cases hhas : w.globals.provider.isSome with
      | false => exact .unrecorded hexec hhas (call_unrecorded hexec hhas h)
      | true => exact .rewrites hexec hhas (call_rewrites hexec hhas h)
    · push Not at hexec
      obtain ⟨execute_data, rfl⟩ := hexec
      obtain ⟨hpasses, hsame⟩ | ⟨zid, cid, q, entries, base, tail, -, htransfers, happends⟩ :=
        exec_cases hlong h
      · exact .passes hpasses hsame
      · exact .records htransfers happends
  | surround s =>
    refine .aside (by simp) id (.inl ?_)
    obtain ⟨_, hok⟩ | hleft := h
    · cases hok
      rfl
    · cases hleft
  | reparent ppid =>
    refine .aside (by simp) id (.inl ?_)
    obtain ⟨_, hok⟩ | hleft := h
    · cases hok
      rfl
    · cases hleft
  | request_init =>
    obtain ⟨hskip, rfl⟩ | ⟨hserves, hstart⟩ := request_init_ends h
    · exact .aside (by simp) hskip (.inl rfl)
    · exact .starts (by simp) hserves (start_headers hstart hserves.not_refuses)
  | request_shutdown =>
    obtain ⟨-, rfl⟩ | ⟨hserves, hshutdown⟩ := request_shutdown_ends h
    · exact .aside (by simp) id (.inl rfl)
    · exact .aside (by simp) id (.inr (shutdown_headers hshutdown hserves.not_refuses))
  | start_cli_tracer args =>
    obtain ⟨hskip, rfl⟩ | ⟨hoffers, _, _, _, rfl, hstart⟩ :=
      start_cli_tracer_ends (ends_ignore_iff.mp h)
    · exact .aside (by simp) hskip (.inl rfl)
    · exact .starts (by simp) ⟨hoffers, rfl⟩ (start_headers hstart hoffers.not_refuses_started)
  | shutdown_cli_tracer =>
    obtain ⟨-, rfl⟩ | ⟨hoffers, hshutdown⟩ := shutdown_cli_tracer_ends (ends_ignore_iff.mp h)
    · exact .aside (by simp) id (.inl rfl)
    · exact .aside (by simp) id (.inr (shutdown_headers hshutdown hoffers.not_refuses))

end opentelemetry
