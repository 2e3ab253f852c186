import OpentelemetryExt.ZendHook.Described
import OpentelemetryExt.Session.Outcomes

open heap stateful

namespace opentelemetry

variable {φ : Type} {eng : Engine φ} {w w' : World φ} {q : Nat} {url : Url}

/-- The target of a request to `url`: its path, and its query behind a question mark. -/
def requestTarget (url : Url) : Bytes :=
  url.path.getD [] ++ if url.query.getD [] = [] then [] else lit "?" ++ url.query.getD []

/-- Every string contains the empty one, so that the query is never appended. -/
theorem httpTarget_eq (url : Url) : httpTarget url = c_str (url.path.getD []) := by
  unfold httpTarget
  split
  · have hcontains (s : Bytes) : is_contain [] s = true := by simp [is_contain, c_str]
    rw [hcontains, if_pos rfl]
  · rfl

theorem curlSpan_described (h : curlSpan eng url w = .ok (q, w')) :
    Described q [string_attribute "http.scheme" (c_str (url.scheme.getD [])),
      string_attribute "http.host" (c_str (url.host.getD [])),
      string_attribute "http.target" (httpTarget url)] w' := by
  obtain ⟨q', v, hcreate, h⟩ := bind_ok_iff.mp h
  obtain ⟨⟨⟩, v₁, hscheme, h⟩ := bind_ok_iff.mp h
  obtain ⟨⟨⟩, v₂, hhost, h⟩ := bind_ok_iff.mp h
  obtain ⟨⟨⟩, v₃, htarget, h⟩ := bind_ok_iff.mp h
  cases h
  exact (((described_createChildSpan hcreate).gets (gets_addAttribute (.of_ok hscheme))).gets
    (gets_addAttribute (.of_ok hhost))).gets (gets_addAttribute (.of_ok htarget))

theorem curlSpan_returns (h : Opens eng w) (url : Url) :
    ∃ q w', curlSpan eng url w = .ok (q, w') := by
  obtain ⟨q, v, hcreate⟩ := h.createChildSpan (c_str (url.path.getD (lit "/"))) .client
  have hacts : Acts (Live q) World.php Eq (do
      addAttribute q (string_attribute "http.scheme" (c_str (url.scheme.getD [])))
      addAttribute q (string_attribute "http.host" (c_str (url.host.getD [])))
      addAttribute q (string_attribute "http.target" (httpTarget url))
      return q : M φ Nat) :=
    ((acts_addAttribute q _).bind fun _ => (acts_addAttribute q _).bind fun _ =>
      (acts_addAttribute q _).bind fun _ => .pure q).congr fun x y => by simp
  obtain ⟨q', w', hrest, -⟩ := (hacts.returns_iff (live_of_createChildSpan hcreate) v.php).mpr rfl
  exact ⟨q', w', bind_ok_iff.mpr ⟨q, v, hcreate, hrest⟩⟩

theorem spans_addBaggage (key value : Bytes) :
    Keeps (SameOn fun w : World φ => w.memory.spans) (Provider.addBaggage eng key value) := by
  refine .bind (fun w w' h => ?_) fun _ => .bind (.of_reads Op.reads_getResource) fun _ =>
    .bind (.of_reads (.lift _)) fun _ => .bind (.of_reads .get) fun _ =>
      .bind (.of_reads (.lift _)) fun _ => .modify fun _ => rfl
  obtain ⟨p, -, rfl⟩ := modifySlot_ends h
  rfl

theorem spans_parseBaggage (header : Bytes) :
    Keeps (SameOn fun w : World φ => w.memory.spans) (Provider.parseBaggage eng header) := by
  refine .ite (.forM fun item => ?_) (.of_reads (.pure _))
  split
  · exact spans_addBaggage _ _
  · exact .of_reads (.pure _)

/-- The trace context of a request does not show among the attributes. -/
theorem gets_parseTraceParent (header : Bytes) :
    Keeps (GetsOnly (fun _ => False) q) (Provider.parseTraceParent eng header) := by
  have hnothing {w w' : World φ} (h : Gets q [] w w') : GetsOnly (fun _ => False) q w w' :=
    ⟨[], h, fun _ hkv => absurd hkv List.not_mem_nil⟩
  refine parseTraceParent_keeps (fun span f hf w w' h => hnothing ?_) (fun b w w' h => ?_) header
  · obtain ⟨-, rfl⟩ := modifySpan_ends h
    by_cases hq : q = span
    · subst hq
      intro s hs
      refine ⟨f s, ?_, ?_, (hf s).1⟩
      · rw [World.withSpan, World.memory_withMemory, Heap.cell_modify_self, hs]
        rfl
      · rw [(hf s).2, List.append_nil]
    · exact .of_cell (Heap.cell_modify_ne hq)
  · obtain ⟨p, -, rfl⟩ := modifySlot_ends h
    exact hnothing (.of_cell rfl)

/-- Of the attributes of a request's first span, one is the target. -/
theorem requestAttributes_target {uri : Bytes}
    (h : requestAttributes eng q uri w = .ok ((), w')) :
    ∃ kvs, Gets q kvs w w' ∧
      withKey (lit "http.target") kvs = [string_attribute "http.target" uri] := by
  obtain ⟨method, u₁, hmethod, hrest₁⟩ := bind_ok_iff.mp h
  obtain ⟨query, u₂, hquery, hrest₂⟩ := bind_ok_iff.mp hrest₁
  obtain ⟨host, u₃, hhost, hrest₃⟩ := bind_ok_iff.mp hrest₂
  obtain ⟨port, u₄, hport, hrest₄⟩ := bind_ok_iff.mp hrest₃
  obtain ⟨agent, u₅, hagent, hrest₅⟩ := bind_ok_iff.mp hrest₄
  obtain ⟨ip, u, hip, hrest⟩ := bind_ok_iff.mp hrest₅
  have hread : Gets q [] w u := .of_cell <| by
    rw [Op.reads_find_server_string _ (.of_ok hip), Op.reads_find_server_string _ (.of_ok hagent),
      Op.reads_find_server_string _ (.of_ok hport), Op.reads_find_server_string _ (.of_ok hhost),
      Op.reads_find_server_string _ (.of_ok hquery), Op.reads_find_server_string _ (.of_ok hmethod)]
  have hother (name : String) (value : AnyValue) (hne : lit name ≠ lit "http.target") :
      Keeps (GetsOnly (fun kv => kv.key ≠ lit "http.target") q)
        (addAttribute q ⟨lit name, value⟩ : M φ Unit) := getsOnly_addAttribute hne
  obtain ⟨⟨⟩, v₁, hmethod', hrest₁'⟩ := bind_ok_iff.mp hrest
  obtain ⟨⟨⟩, v₂, hpost', hrest₂'⟩ := bind_ok_iff.mp hrest₁'
  obtain ⟨⟨⟩, v₃, hhost', hrest₃'⟩ := bind_ok_iff.mp hrest₂'
  obtain ⟨⟨⟩, v₄, htarget, hlast⟩ := bind_ok_iff.mp hrest₃'
  have hpost : Keeps (GetsOnly (fun kv => kv.key ≠ lit "http.target") q)
      (postAttribute eng q method) := by
    refine .ite (.bind (.of_reads .get) fun v => ?_) (.of_reads (.pure _))
    cases v.post with
    | none => exact .of_reads (.pure _)
    | some post =>
      exact .bind (.of_reads (Op.reads_json_encode _)) fun _ => hother "http.params" _ (by decide)
  obtain ⟨kvs₁, hgets₁, hkeys₁⟩ : GetsOnly (fun kv => kv.key ≠ lit "http.target") q u v₃ :=
    IsTrans.trans _ _ _ (hother "http.method" _ (by decide) (.of_ok hmethod'))
      (IsTrans.trans _ _ _ (hpost (.of_ok hpost')) (hother "http.host" _ (by decide) (.of_ok hhost')))
  have hothers : Keeps (GetsOnly (fun kv => kv.key ≠ lit "http.target") q) (do
      addAttribute q (string_attribute "http.client_ip" ip)
      addAttribute q (string_attribute "http.user_agent" agent)
      addAttribute q (string_attribute "net.host.ip" (← globals).ipv4)
      addAttribute q (int64_attribute "net.host.port" (strtol 10 port)) : M φ Unit) :=
    .bind (hother "http.client_ip" _ (by decide)) fun _ =>
      .bind (hother "http.user_agent" _ (by decide)) fun _ => .bind (.of_reads Op.reads_globals) fun _ =>
        .bind (hother "net.host.ip" _ (by decide)) fun _ => hother "net.host.port" _ (by decide)
  obtain ⟨kvs₂, hgets₂, hkeys₂⟩ := hothers (.of_ok hlast)
  refine ⟨_, ((hread.trans hgets₁).trans (gets_addAttribute (.of_ok htarget))).trans hgets₂, ?_⟩
  rw [List.nil_append, withKey_append_kvs, withKey_append_kvs, withKey_eq_nil hkeys₁,
    withKey_eq_nil hkeys₂]
  rfl

/-- What the service that is called records of the request: its first span has the target. -/
def ServiceRecords {ψ : Type} (service : Engine ψ) (target : Bytes) (v : World ψ) : Prop :=
  ∃ f attributes, v.first service = some f ∧ Described f attributes v ∧
    withKey (lit "http.target") attributes = [string_attribute "http.target" target]

theorem startRequestSpan_target {kind : SpanKind} {uri : Bytes}
    (huri : w.server (lit "REQUEST_URI") = some (.string uri))
    (h : startRequestSpan eng kind w = .ok ((), w')) : ServiceRecords eng (c_str uri) w' := by
  obtain ⟨request_uri, u, hread, hrest⟩ := bind_ok_iff.mp h
  obtain ⟨rfl, rfl⟩ : request_uri = c_str uri ∧ u = w := by
    simp only [find_server_string, bind_apply, get_apply, ok_bind, huri] at hread
    cases hread
    exact ⟨rfl, rfl⟩
  obtain ⟨traceparent, u₁, hparent, hrest₁⟩ := bind_ok_iff.mp hrest
  obtain ⟨baggage, u₂, hbaggage, hrest₂⟩ := bind_ok_iff.mp hrest₁
  obtain ⟨f, v, hfirst, hrest₃⟩ := bind_ok_iff.mp hrest₂
  obtain ⟨⟨⟩, v₁, hparse, hrest₄⟩ := bind_ok_iff.mp hrest₃
  obtain ⟨⟨⟩, v₂, hbag, hrest₅⟩ := bind_ok_iff.mp hrest₄
  obtain ⟨v', p, hcreate, hp, rfl⟩ := Provider.createFirstSpan_ok hfirst
  obtain ⟨span, hspan, hempty, hstatus⟩ := described_createSpan hcreate
  have hnew : Described f [] (v'.withProvider (p.set (v'.key eng) { p.slots (v'.key eng) with
      firstSpan := some f })) := ⟨span, hspan, hempty, hstatus⟩
  obtain ⟨kvs, hgets, hnone⟩ := gets_parseTraceParent traceparent (.of_ok hparse) (q := f)
  have hkvs : kvs = [] := List.eq_nil_iff_forall_not_mem.mpr hnone
  have hspans : v₂.memory.spans = v₁.memory.spans := spans_parseBaggage baggage (.of_ok hbag)
  obtain ⟨kvs', hgets', htarget⟩ := requestAttributes_target hrest₅
  have hbuilt : Built (Move eng .none) (do
      Provider.parseBaggage eng baggage
      requestAttributes eng f (c_str uri)) :=
    .bind (Move.built_parseBaggage _) fun _ => Move.built_requestAttributes _ _
  refine ⟨f, kvs', ?_, ?_, htarget⟩
  · have hsame : w'.first eng = v₁.first eng :=
      first_blind.built (fun _ _ => rfl) (fun _ _ _ => rfl) hbuilt (.of_ok hrest₄)
    rw [hsame, first_blind.parseTraceParent traceparent (.of_ok hparse)]
    simp [World.first, World.slots]
  · have hdescribed := ((hnew.gets hgets).gets (.of_cell (by rw [hspans]))).gets hgets'
    rw [hkvs] at hdescribed
    exact hdescribed

/-- The client span of a call to `url` has the request's target, and where the path is not empty
so has the span of the service, which reads the target of that request from `REQUEST_URI`. -/
def RecordsTarget (eng : Engine φ) (w : World φ) (url : Url) : Prop :=
  ∃ q w' attributes, curlSpan eng url w = .ok (q, w') ∧ Described q attributes w' ∧
    withKey (lit "http.target") attributes = [string_attribute "http.target" (requestTarget url)] ∧
    (url.path.getD [] ≠ [] → ∀ (ψ : Type) (service : Engine ψ) (kind : SpanKind) (v v' : World ψ),
      v.server (lit "REQUEST_URI") = some (.string (requestTarget url)) →
        startRequestSpan service kind v = .ok ((), v') →
          ServiceRecords service (requestTarget url) v')

theorem curlSpan_target (h : Opens eng w) (url : Url) :
    ∃ q w' attributes, curlSpan eng url w = .ok (q, w') ∧ Described q attributes w' ∧
      withKey (lit "http.target") attributes =
        [string_attribute "http.target" (c_str (url.path.getD []))] := by
  obtain ⟨q, w', hspan⟩ := curlSpan_returns h url
  refine ⟨q, w', _, hspan, curlSpan_described hspan, ?_⟩
  rw [httpTarget_eq]
  rfl

theorem zero_not_mem_requestTarget (hpath : 0 ∉ url.path.getD []) (hquery : 0 ∉ url.query.getD []) :
    0 ∉ requestTarget url := by
  rw [requestTarget, List.mem_append, not_or]
  refine ⟨hpath, ?_⟩
  split
  · exact List.not_mem_nil
  · rw [List.mem_append, not_or]
    exact ⟨by decide, hquery⟩

theorem requestTarget_eq_path_iff : requestTarget url = url.path.getD [] ↔ url.query.getD [] = [] := by
  rw [requestTarget, List.append_right_eq_self]
  split
  · rename_i hquery
    exact iff_of_true rfl hquery
  · rename_i hquery
    refine iff_of_false (fun h => ?_) hquery
    exact hquery (List.append_eq_nil_iff.mp h).2

/-- A request whose target is recorded has a target that ends with its path. -/
theorem RecordsTarget.path_eq (h : RecordsTarget eng w url) (hopens : Opens eng w) :
    c_str (url.path.getD []) = requestTarget url := by
  obtain ⟨q', v, attributes', hspan', hdescribed', hkey', -⟩ := h
  obtain ⟨q, w', attributes, hspan, hdescribed, hkey⟩ := curlSpan_target hopens url
  obtain ⟨rfl, rfl⟩ : q = q' ∧ w' = v := by
    rw [hspan] at hspan'
    cases hspan'
    exact ⟨rfl, rfl⟩
  rw [hdescribed'.unique hdescribed, hkey] at hkey'
  have htarget := List.singleton_inj.mp hkey'
  simpa [string_attribute] using htarget

/-- The URL `http://a/p?query`. -/
def pageUrl (query : Option Bytes) : Url :=
  ⟨some (lit "http"), some (lit "a"), some (lit "/p"), query⟩

theorem request_init_bare : ∃ w, Step (.bare false) .bare .request_init (World.fresh ()) w :=
  ⟨_, step_final _ rfl⟩

end opentelemetry
