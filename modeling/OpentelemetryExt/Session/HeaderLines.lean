import OpentelemetryExt.Session.Chain
import OpentelemetryExt.Session.HeaderLists
import OpentelemetryExt.Session.Outcomes

open assoc heap stateful run

namespace opentelemetry

variable {φ : Type} {eng : Engine φ} {natives : CurlNatives φ} {v v' w w' : World φ} {cid : Nat}
  {es : List (HandleEvent φ)}

/-- A line with the header `name`. The case of a header's name does not matter. -/
def isLine (name : String) : Zval → Bool
  | .string s => (lit name ++ lit ":").isPrefixOf (s.map tolower)
  | _ => false

def lines (name : String) (list : List Zval) : Nat := list.countP (isLine name)

theorem lines_append (name : String) (list list' : List Zval) :
    lines name (list ++ list') = lines name list + lines name list' := List.countP_append

theorem filter_contextLines (traceparent baggage : Bytes) :
    (contextLines traceparent baggage).filter (isLine "traceparent") =
        [.string (lit "traceparent: " ++ c_str traceparent)] ∧
      (contextLines traceparent baggage).filter (isLine "baggage") =
        [.string (lit "baggage: " ++ c_str baggage)] := ⟨rfl, rfl⟩

theorem lines_contextLines (traceparent baggage : Bytes) :
    lines "traceparent" (contextLines traceparent baggage) = 1 ∧
      lines "baggage" (contextLines traceparent baggage) = 1 := by
  obtain ⟨htraceparent, hbaggage⟩ := filter_contextLines traceparent baggage
  rw [lines, lines, List.countP_eq_length_filter, List.countP_eq_length_filter, htraceparent,
    hbaggage]
  exact ⟨rfl, rfl⟩

/-- What has become of the list that is held for a handle after `n` calls that were recorded. -/
inductive Appended (n : Nat) : Option Zval → Option Zval → Prop
  | none : Appended n none none
  | list {base tail : List (ArrayKey × Zval)} : lines "traceparent" (tail.map Prod.snd) = n →
      lines "baggage" (tail.map Prod.snd) = n →
        Appended n (some (.array base)) (some (.array (base ++ tail)))
  | other {value : Zval} : asList value = none → Appended n (some value) (some value)

theorem Appended.zero (held : Option Zval) : Appended 0 held held := by
  cases held with
  | none => exact .none
  | some value =>
    cases value with
    | array base =>
      have h : Appended 0 (some (.array base)) (some (.array (base ++ []))) := .list rfl rfl
      rwa [List.append_nil] at h
    | _ => exact .other rfl

/-- One more call is recorded. -/
theorem Appended.succ {n : Nat} {held stored : Option Zval} {base tail : List (ArrayKey × Zval)}
    {traceparent baggage : Bytes} (h : Appended n held stored)
    (hbase : stored.getD (.array []) = .array base)
    (htail : tail.map Prod.snd = contextLines traceparent baggage) :
    Appended (n + 1) held (stored.map fun _ => .array (base ++ tail)) := by
  obtain ⟨htraceparent, hbaggage⟩ := lines_contextLines traceparent baggage
  cases h with
  | none => exact .none
  | @list own grown hown hgrown =>
    obtain rfl : own ++ grown = base := Zval.array.inj hbase
    rw [Option.map_some, List.append_assoc]
    refine .list ?_ ?_
    · rw [List.map_append, lines_append, hown, htail, htraceparent]
    · rw [List.map_append, lines_append, hgrown, htail, hbaggage]
  | @other value hvalue =>
    obtain rfl : value = .array base := hbase
    cases hvalue

/-- The list that is held for a handle, as the application has set it, and the number of calls of
`curl_exec` that have been recorded on the handle since. -/
structure Tally where
  held : Option Zval
  uses : Nat

namespace Tally

/-- Nothing is held. -/
def new : Tally := ⟨none, 0⟩

/-- A call that finds a provider. -/
def call (eng : Engine φ) (cid : Nat) (w : World φ) (t : Tally) (c : Call) : Tally :=
  match c.sets eng, c.closes eng with
  | some (id, value), _ => if id = cid then ⟨some value, 0⟩ else t
  | none, some id => if id = cid then new else t
  | none, none => if c.transfers eng w = some cid then { t with uses := t.uses + 1 } else t

def next (eng : Engine φ) (cid : Nat) (w : World φ) (t : Tally) : HandleEvent φ → Tally
  | .event (.call c) => if w.globals.provider.isSome then t.call eng cid w c else t
  | .event e => if w.sessions.Starts eng.cli e then new else t
  | .create _ _ | .destroy _ _ => t

/-- The tally tells of a state what its store has for the handle. -/
def Tells (cid : Nat) (w : World φ) (t : Tally) : Prop :=
  ∀ entries, w.globals.curl_header = some entries →
    Appended t.uses t.held (storedList entries cid)

end Tally

theorem Call.transfers_eq_none {c : Call} (hexec : ∀ e, c ≠ .enter .curl_exec e) :
    c.transfers eng w = none := by
  cases c with
  | enter hook execute_data =>
    cases hook with
    | curl_exec => exact absurd rfl (hexec execute_data)
    | _ => rfl
  | _ => rfl

theorem Call.transfers_has {c : Call} (h : c.transfers eng w = some cid) :
    w.globals.provider.isSome = true := by
  by_cases hhas : w.globals.provider.isSome = true
  · exact hhas
  · unfold Call.transfers at h
    split at h
    · split at h
      · split at h
        · rw [if_neg hhas] at h
          cases h
        · cases h
      · cases h
    · cases h

namespace Tally

variable {t : Tally}

theorem tells_rewrites {c : Call} {entries : List (ArrayKey × Zval)}
    (hexec : ∀ e, c ≠ .enter .curl_exec e) (h : Appended t.uses t.held (storedList entries cid)) :
    Appended (t.call eng cid w c).uses (t.call eng cid w c).held
      (storedList (c.rewrites eng entries) cid) := by
  rw [call, Call.rewrites, Call.transfers_eq_none hexec]
  cases hsets : c.sets eng with
  | some set =>
    dsimp only
    rw [storedList_assign]
    by_cases hid : set.1 = cid
    · rw [if_pos hid, hid, Function.update_self]
      exact .zero _
    · rw [if_neg hid, Function.update_of_ne (Ne.symm hid)]
      exact h
  | none =>
    cases hcloses : c.closes eng with
    | some id =>
      dsimp only
      rw [storedList_remove]
      by_cases hid : id = cid
      · rw [if_pos hid, hid, Function.update_self]
        exact .zero _
      · rw [if_neg hid, Function.update_of_ne (Ne.symm hid)]
        exact h
    | none => exact h

theorem Tells.store {e : Event φ} (h : Tells cid w t) (hstore : StoreStep eng natives w w' e) :
    Tells cid w' (t.next eng cid w (.event e)) := by
  intro entries' hentries'
  cases hstore with
  | rewrites hexec hhas hrewrites =>
    obtain ⟨entries, hentries, rfl⟩ := Option.map_eq_some_iff.mp (hrewrites.symm.trans hentries')
    rw [next, if_pos hhas]
    exact tells_rewrites hexec (h entries hentries)
  | unrecorded _ hno hsame =>
    rw [next, if_neg (by simp [hno])]
    exact h _ (hsame ▸ hentries')
  | passes hpasses hsame =>
    rw [next, call, hpasses]
    simp only [Call.sets, Call.closes, reduceCtorEq, if_false, ite_self]
    exact h _ (hsame ▸ hentries')
  | @records frame zid id q entries base tail htransfers happends =>
    obtain ⟨url, created, traceparent, baggage, formatted, kv, -, -, htail, -⟩ := happends.context
    have htold := h entries happends.store
    rw [next, if_pos (Call.transfers_has htransfers), call, htransfers,
      happends.stored_update hentries']
    simp only [Call.sets, Call.closes, Option.some.injEq]
    by_cases hid : id = cid
    · subst hid
      rw [if_pos rfl, Function.update_self]
      exact htold.succ happends.found htail
    · rw [if_neg hid, Function.update_of_ne (Ne.symm hid)]
      exact htold
  | starts hcall hstarts hempty =>
    obtain rfl := Option.some.inj (hempty.symm.trans hentries')
    have hnew : t.next eng cid w (.event e) = new := by
      cases e with
      | call c => exact absurd rfl (hcall c)
      | _ => simp only [next, if_pos hstarts]
    rw [hnew]
    exact .none
  | aside hcall hstarts hkept =>
    have hsame : t.next eng cid w (.event e) = t := by
      cases e with
      | call c => exact absurd rfl (hcall c)
      | _ => simp only [next, if_neg hstarts]
    rw [hsame]
    obtain hkept | hnone := hkept
    · exact h _ (hkept ▸ hentries')
    · rw [hnone] at hentries'
      cases hentries'

theorem tells_run {t : Tally} (curl : CurlExtension eng natives)
    (hinit : w.globals.curl_header = none)
    (hrun : Run (Beside (HandleStep eng natives) (Tally.next eng cid)) (w, new) es (v, t)) :
    Tells cid v t := by
  refine hrun.invariant (I := fun s => Tells cid s.1 s.2) (fun entries hentries => ?_) ?_
  · rw [hinit] at hentries
    cases hentries
  · rintro e ⟨u, t⟩ ⟨u', t'⟩ ⟨hstep, rfl⟩ htells
    cases e with
    | create id php =>
      cases hstep
      exact htells
    | destroy id php =>
      cases hstep
      exact htells
    | event e => exact htells.store (store_step curl.long hstep)

end Tally

/-- The application's own headers say nothing of a trace. -/
def Tally.Plain (t : Tally) : Prop :=
  ∀ z ∈ (t.held.bind asList).getD [], isLine "traceparent" z = false ∧ isLine "baggage" z = false

instance Tally.decidablePlain (t : Tally) : Decidable t.Plain :=
  inferInstanceAs (Decidable (∀ z ∈ _, _ ∧ _))

theorem Tally.Plain.lines {t : Tally} {base : List (ArrayKey × Zval)}
    (h : t.Plain) (hheld : t.held = some (.array base)) :
    lines "traceparent" (base.map Prod.snd) = 0 ∧ lines "baggage" (base.map Prod.snd) = 0 := by
  rw [Tally.Plain, hheld] at h
  constructor
  · rw [opentelemetry.lines, List.countP_eq_zero]
    intro z hz
    rw [(h z hz).1]
    exact Bool.false_ne_true
  · rw [opentelemetry.lines, List.countP_eq_zero]
    intro z hz
    rw [(h z hz).2]
    exact Bool.false_ne_true

/-- The calls that have been recorded show in the list from which the next one starts. -/
theorem Appended.lines {t : Tally} {stored : Option Zval} {base : List (ArrayKey × Zval)}
    (h : Appended t.uses t.held stored) (hplain : t.Plain)
    (hbase : stored.getD (.array []) = .array base) :
    lines "traceparent" (base.map Prod.snd) = (if t.held.isSome then t.uses else 0) ∧
      lines "baggage" (base.map Prod.snd) = if t.held.isSome then t.uses else 0 := by
  generalize hheld : t.held = held at h
  cases h with
  | none =>
    obtain rfl : [] = base := Zval.array.inj hbase
    exact ⟨rfl, rfl⟩
  | @list own grown hown hgrown =>
    obtain rfl : own ++ grown = base := Zval.array.inj hbase
    obtain ⟨htraceparent, hbaggage⟩ := hplain.lines hheld
    simp only [List.map_append, lines_append, Option.isSome_some, if_true]
    omega
  | @other value hvalue =>
    obtain rfl : value = .array base := hbase
    cases hvalue

theorem not_mem_traceparentHeader (trace_id span_id : Bytes) (sampled : Bool) :
    0 ∉ traceparentHeader trace_id span_id sampled := by
  simp only [traceparentHeader, List.mem_append, not_or]
  refine ⟨⟨⟨⟨⟨by decide, ?_⟩, by decide⟩, ?_⟩, by decide⟩, ?_⟩
  · exact not_mem_encode (by decide) _
  · exact not_mem_encode (by decide) _
  · cases sampled <;> decide

/-- The traceparent line of a span. -/
def contextLine (s : Span) (sampled : Bool) : Zval :=
  .string (lit "traceparent: " ++
    traceparentHeader (s.trace_id.take 16) (s.span_id.take 8) sampled)

/-- What a call appends is about the span that it has created. -/
theorem Appends.names {zid : Zval} {q : Nat} {entries base tail : List (ArrayKey × Zval)}
    (h : Appends eng natives zid cid q entries base tail v v') :
    ∃ s sampled traceparent baggage, v'.memory.spans.cell v.memory.spans.next = some s ∧
      tail.map Prod.snd = contextLines traceparent baggage ∧
      contextLine s sampled = .string (lit "traceparent: " ++ c_str traceparent) := by
  obtain ⟨url, created, traceparent, baggage, formatted, kv, hspan, hformat, htail, hspans⟩ :=
    h.context
  have hadds : Adds q v created := (Move.spawns_curlSpan (g := .none) url).returns id id hspan
  obtain ⟨s, sampled, hcell, -, -, -, rfl⟩ := formatTraceParentHeader_ok hformat
  refine ⟨{ s with attributes := s.attributes ++ [kv] }, sampled, _, baggage, ?_, htail, ?_⟩
  · rw [← hadds.pointer, hspans, Heap.cell_modify_self, hcell, Option.map_some]
  · rw [c_str_eq_self_iff.mpr (not_mem_traceparentHeader _ _ _)]
    rfl

/-- What a call of `curl_exec` installs on the handle has one traceparent line, which is that of
the span that the call has created, and one baggage line. -/
def OneContext (curl : CurlExtension eng natives) (cid : Nat) (v v' : World φ) : Prop :=
  (∃ s sampled, v'.memory.spans.cell v.memory.spans.next = some s ∧
    (curl.headers v'.php cid).filter (isLine "traceparent") = [contextLine s sampled]) ∧
  lines "baggage" (curl.headers v'.php cid) = 1

theorem one_context_iff_unused {t : Tally} (curl : CurlExtension eng natives) (h : t.Tells cid v)
    (hplain : t.Plain) (hexec : Records eng natives cid v v') :
    OneContext curl cid v v' ↔ t.held = none ∨ t.uses = 0 := by
  obtain ⟨zid, q, entries, base, tail, hcid, happends⟩ := hexec.appends curl.long
  obtain ⟨s, sampled, header, value, hcell, hcontext, hline⟩ := happends.names
  obtain ⟨htraceparent, hbaggage⟩ :=
    (h entries happends.store).lines hplain happends.found
  have hunused : (if t.held.isSome then t.uses else 0) = 0 ↔ t.held = none ∨ t.uses = 0 := by
    cases t.held <;> simp
  rw [← hunused, OneContext, happends.headers curl hcid, hcontext, lines_append, hbaggage,
    (lines_contextLines header value).2, List.filter_append, (filter_contextLines header value).1,
    ← hline]
  constructor
  · rintro ⟨-, hcount⟩
    omega
  · intro hzero
    refine ⟨⟨s, sampled, hcell, ?_⟩, by omega⟩
    rw [hzero] at htraceparent
    rw [List.filter_eq_nil_iff.mpr, List.nil_append]
    exact List.countP_eq_zero.mp htraceparent

/-- A process whose transfers are all to one address, which answers with no content. -/
def answeredClient : Engine CurlLists :=
  { curlClient false with
    curl_getinfo := fun _ _ => .array ([(.str (lit "url"), .string (lit "http://a/")),
        (.str (lit "http_code"), .long 204), (.str (lit "primary_ip"), .string (lit "10.0.0.1"))] ++
      curlTimings.map fun (_, key) => (.str (lit key), .double 0)) }

def answeredLists : CurlExtension answeredClient curlListNatives where
  headers := (curlLists false).headers
  setopt := (curlLists false).setopt
  long := (curlLists false).long

/-- The call of `curl_exec` after the transfer, for the span `q`. -/
def execDone (cid q : Nat) : HandleEvent CurlLists :=
  .event (.call (.leave .curl_exec (curlFrame [.object cid (lit "CurlHandle")]) (.bool true) (some q)))

/-- A computed run whose last event is a transfer within a session. -/
theorem records_tallied (cid : Nat) (es : List (HandleEvent CurlLists)) (P : Tally → Bool)
    (h : ((es.foldlM (fun s e => (HandleEvent.final answeredClient curlListNatives s.1 e).map
        fun w => (w, Tally.next answeredClient cid s.1 s.2 e)) (webProcess, Tally.new)).any
      fun s => s.1.globals.provider.isSome && P s.2 &&
        ((exec cid).final answeredClient curlListNatives s.1).isSome) = true) :
    ∃ v t v', Run (Beside (HandleStep answeredClient curlListNatives)
        (Tally.next answeredClient cid)) (webProcess, .new) es (v, t) ∧
      P t = true ∧ Records answeredClient curlListNatives cid v v' := by
  obtain ⟨⟨v, t⟩, hfold, hlast⟩ := (Option.any_eq_true _ _).mp h
  obtain ⟨hfound, hsome⟩ := Bool.and_eq_true_iff.mp hlast
  obtain ⟨hhas, hP⟩ := Bool.and_eq_true_iff.mp hfound
  obtain ⟨v', hexec⟩ := Option.isSome_iff_exists.mp hsome
  exact ⟨v, t, v', Run.of_beside_foldlM (fun _ _ _ => handleStep_of_final) hfold, hP, _, _, _, rfl,
    rfl, hhas, rfl, handleStep_of_final hexec⟩

end opentelemetry
