import OpentelemetryExt.Session.Ended

open heap stateful run

namespace opentelemetry

variable {φ : Type} {eng : Engine φ} {natives : CurlNatives φ} {u v w w' : World φ} {name : Bytes}

/-- The resource of the current request is there, and was given `name` at first. -/
def Named (eng : Engine φ) (name : Bytes) (w : World φ) : Prop :=
  ∃ p resource r, w.globals.provider = some p ∧ (p.slots (w.key eng)).request.isSome ∧
    (p.slots (w.key eng)).resource = some resource ∧ w.memory.resources.cell resource = some r ∧
      r.attributes.head? = some (string_attribute "service.name" name)

theorem Named.withSpan {q : Nat} {f : Span → Span} (h : Named eng name w) :
    Named eng name (w.withSpan q f) := h

theorem Named.change {p : Provider} {s : Slot} (h : Named eng name w)
    (hp : w.globals.provider = some p)
    (hrequest : s.request = (p.slots (w.key eng)).request)
    (hresource : s.resource = (p.slots (w.key eng)).resource) :
    Named eng name (w.withProvider (p.set (w.key eng) s)) := by
  obtain ⟨p', resource, r, hp', hsome, hslot, hcell, hhead⟩ := h
  obtain rfl : p = p' := Option.some.inj (hp.symm.trans hp')
  refine ⟨_, resource, r, rfl, ?_, ?_, hcell, hhead⟩
  · rwa [World.key_withProvider, Provider.set_self, hrequest]
  · rwa [World.key_withProvider, Provider.set_self, hresource]

theorem named_parseTraceParent (header : Bytes) :
    Keeps (Preserves (Named eng name)) (Provider.parseTraceParent eng header) := by
  refine parseTraceParent_keeps (fun span f _ => ?_) (fun b => ?_) header
  · intro w w' hends h
    obtain ⟨-, rfl⟩ := modifySpan_ends hends
    exact h
  · intro w w' hends h
    obtain ⟨p, hp, rfl⟩ := modifySlot_ends hends
    exact h.change hp rfl rfl

/-- A request that there is keeps its resource when a span is created. -/
theorem Named.createChildSpan {name' : Bytes} {kind : SpanKind} {q : Nat} (h : Named eng name w)
    (hcreate : Provider.createChildSpan eng name' kind w = .ok (q, w')) : Named eng name w' := by
  obtain ⟨p, resource, r, hp, hsome, hslot, hcell, hhead⟩ := h
  obtain ⟨v, f, first, -, hspan, rfl⟩ := createChildSpan_ok hcreate
  obtain ⟨rs, u, p', span, htracer, -, hadded, -⟩ := Provider.createSpan_ok hspan
  obtain ⟨p₁, hp₁, ⟨-, -, rfl⟩ | ⟨hnone, -, -⟩⟩ := Provider.getTracer_ok htracer
  · refine Named.withSpan ⟨p, resource, r, ?_⟩
    rw [hadded.globals, World.key_congr hadded.ppid, hadded.memory]
    exact ⟨hp, hsome, hslot, hcell, hhead⟩
  · obtain rfl : p = p₁ := Option.some.inj (hp.symm.trans hp₁)
    rw [hnone] at hsome
    cases hsome

/-- Attributes that are added to a resource come after its name. -/
theorem Named.addResourceAttribute {resource : Nat} {kv : KeyValue} (h : Named eng name w)
    (hadd : Ends (Provider.addResourceAttribute resource kv) w w') : Named eng name w' := by
  obtain ⟨p, resource', r, hp, hsome, hslot, hcell, hhead⟩ := h
  have hdirect : Direct (Provider.addResourceAttribute resource kv : M φ Unit) :=
    .bind .get fun _ => .bind (.lift _) fun _ => .modify _
  obtain ⟨_, hok⟩ := hdirect.ok hadd
  obtain ⟨v, _, hget, hload⟩ := bind_ok_iff.mp hok
  cases hget
  obtain ⟨r', _, hread, hmodify⟩ := bind_ok_iff.mp hload
  obtain ⟨hr', rfl⟩ := lift_ok_iff.mp hread
  cases hmodify
  by_cases hsame : resource' = resource
  · subst hsame
    obtain rfl : r = r' := Option.some.inj (hcell.symm.trans (load_eq_ok_iff.mp hr'))
    refine ⟨p, resource', ⟨r.attributes ++ [kv]⟩, hp, hsome, hslot, ?_, ?_⟩
    · rw [World.memory_withMemory, Heap.cell_modify_self, hcell, Option.map_some]
    · rw [List.head?_append, hhead, Option.some_or]
  · refine ⟨p, resource', r, hp, hsome, hslot, ?_, hhead⟩
    rwa [World.memory_withMemory, Heap.cell_modify_ne hsame]

/-- Nothing that hooks, callbacks and SDK calls do changes the name of the resource. -/
theorem Op.named {α : Type} {stores : Prop} {m : M φ α} (h : Op eng stores m) :
    Keeps (Preserves (Named eng name)) m := by
  intro w w' hends hnamed
  cases h with
  | createChildSpan name' kind =>
    obtain ⟨q, hok⟩ := (Direct.createChildSpan name' kind).ok hends
    exact hnamed.createChildSpan hok
  | edit span hf =>
    obtain ⟨-, rfl⟩ := modifySpan_ends hends
    exact hnamed
  | annotate hf =>
    obtain ⟨p, hp, rfl⟩ := modifySlot_ends hends
    obtain ⟨hrequest, -, hresource, -⟩ := hf (p.slots (w.key eng))
    exact hnamed.change hp hrequest hresource
  | addResourceAttribute resource kv => exact hnamed.addResourceAttribute hends
  | tick =>
    obtain ⟨_, h⟩ | h := hends <;> cases h
    exact hnamed
  | php state =>
    obtain ⟨_, h⟩ | h := hends <;> cases h
    exact hnamed
  | headers _ entries =>
    obtain ⟨_, h⟩ | h := hends <;> cases h
    exact hnamed

theorem named_inner {e : Event φ} (h : Step eng natives e w w') (hinner : e.Inner eng.cli)
    (hstarted : Started eng w) (hnamed : Named eng name w) : Named eng name w' := by
  obtain ⟨c, rfl⟩ | ⟨s, -, rfl⟩ | ⟨hcli, ppid, rfl⟩ | rfl := inner_cases h hinner hstarted
  · exact (Op.built_call c).keeps Op.named h hnamed
  · exact hnamed
  · obtain ⟨p, resource, r, hp, hsome, hslot, hcell, hhead⟩ := hnamed
    have hkey := key_reparent hcli w ppid
    exact ⟨p, resource, r, hp, hkey ▸ hsome, hkey ▸ hslot, hcell, hhead⟩
  · exact hnamed

/-- A session gives its resource the name that is set when its first span is created. -/
theorem named_createFirstSpan {name : Bytes} {kind : SpanKind} {q : Nat}
    (h : Provider.createFirstSpan eng name kind u = .ok (q, v))
    (hclean : ∀ p, u.globals.provider = some p → (p.slots (u.key eng)).request = none) :
    Named eng (c_str u.globals.service_name) v := by
  obtain ⟨v', p, hspan, hp, rfl⟩ := Provider.createFirstSpan_ok h
  obtain ⟨rs, u', p', span, htracer, -, hadded, -⟩ := Provider.createSpan_ok hspan
  obtain ⟨p₁, hp₁, ⟨hsome, -, -⟩ | ⟨-, -, rfl⟩⟩ := Provider.getTracer_ok htracer
  · rw [hclean p₁ hp₁] at hsome
    cases hsome
  · have hnamed : Named eng (c_str u.globals.service_name) v' := by
      have hkey : v'.key eng = u.key eng := World.key_congr hadded.ppid
      refine ⟨p, u.memory.resources.next, ⟨Provider.resourceAttributes eng u.globals u.pid⟩, hp, ?_⟩
      rw [hadded.globals] at hp
      cases hp
      rw [hkey, Provider.set_self, hadded.memory]
      exact ⟨rfl, rfl, Heap.cell_alloc_self _ _, rfl⟩
    exact hnamed.change hp rfl rfl

/-- What the service name comes from. -/
def World.settings (w : World φ) : Bytes × Bytes × Bool × (Bytes → Option Zval) :=
  (w.globals.service_name, w.globals.service_name_key, w.globals.enable, w.server)

theorem settings_blind : Blind eng (SameOn (World.settings : World φ → _)) where
  memory _ _ := rfl
  clock _ := rfl
  uuids _ _ := rfl
  slot _ _ _ := rfl

theorem settings_call {c : Call} (h : Step eng natives (.call c) w w') : w'.settings = w.settings :=
  settings_blind.built (fun _ _ => rfl) (fun _ _ _ => rfl) (Move.built_call c) h

/-- The name that a request with this `$_SERVER` finds in it. -/
def serverName (g : Globals) (server : Bytes → Option Zval) : Bytes :=
  match server (c_str g.service_name_key) with
  | some (.string s) => c_str s
  | _ => []

/-- The name that is kept after a request has found another. -/
def keepName (kept found : Bytes) : Bytes :=
  if kept = lit "opentelemetry" ∧ found ≠ [] then found else kept

theorem find_server_string_ok {key value : Bytes} (h : find_server_string key w = .ok (value, w')) :
    value = match w.server key with
      | some (.string s) => c_str s
      | _ => [] := by
  obtain ⟨u, v, hget, hfind⟩ := bind_ok_iff.mp h
  cases hget
  cases hkey : w.server key with
  | none =>
    simp only [hkey] at hfind
    cases hfind
    rfl
  | some server_value =>
    simp only [hkey] at hfind
    obtain ⟨hvalue, -⟩ := lift_ok_iff.mp hfind
    cases server_value with
    | string s => exact (Except.ok.inj hvalue).symm
    | _ => cases hvalue

theorem serviceNameFromServer_ok (hcli : eng.cli = false)
    (h : serviceNameFromServer eng w = .ok ((), w')) : c_str w'.globals.service_name =
      keepName (c_str w.globals.service_name) (serverName w.globals w.server) := by
  obtain ⟨g, _, hglobals, hrest⟩ := bind_ok_iff.mp h
  cases hglobals
  rw [stateful.ite_apply] at hrest
  by_cases hdefault : c_str w.globals.service_name = lit "opentelemetry"
  · rw [if_pos ⟨by simp [hcli], hdefault⟩] at hrest
    obtain ⟨found, u, hfind, hset⟩ := bind_ok_iff.mp hrest
    obtain rfl : u = w := Op.reads_find_server_string _ (.of_ok hfind)
    have hfound : found = serverName u.globals u.server := find_server_string_ok hfind
    rw [stateful.ite_apply] at hset
    by_cases hempty : found = []
    · rw [if_neg (not_not_intro hempty)] at hset
      cases hset
      rw [keepName, if_neg fun hne => hne.2 (hfound ▸ hempty)]
    · rw [if_pos hempty] at hset
      cases hset
      rw [keepName, if_pos ⟨hdefault, hfound ▸ hempty⟩, hfound]
      -- What was found is a C string already.
      unfold serverName
      split
      · exact c_str_c_str _
      · rfl
  · rw [if_neg fun hpos => hdefault hpos.2] at hrest
    cases hrest
    rw [keepName, if_neg fun hpos => hdefault hpos.1]

theorem enable_inner {e : Event φ} (h : Step eng natives e w w') (hinner : e.Inner eng.cli)
    (hstarted : Started eng w) : w'.globals.enable = w.globals.enable := by
  obtain ⟨c, rfl⟩ | ⟨s, -, rfl⟩ | ⟨-, ppid, rfl⟩ | rfl := inner_cases h hinner hstarted
  · have hsame := settings_call h
    simp only [World.settings, Prod.mk.injEq] at hsame
    exact hsame.2.2.1
  · rfl
  · rfl
  · rfl

/-- The start of a request keeps the name that it finds, if it keeps one, and gives it to the
resource of the request. -/
theorem start_names {traceparent tracebaggage : Bytes} {kind : SpanKind} (hcli : eng.cli = false)
    (h : start_tracer eng traceparent tracebaggage kind w = .ok ((), w')) (hkept : Kept w) :
    (w'.globals.service_name_key = w.globals.service_name_key ∧
      w'.globals.enable = w.globals.enable ∧ w'.server = w.server) ∧
    c_str w'.globals.service_name =
      keepName (c_str w.globals.service_name) (serverName w.globals w.server) ∧
    Named eng (c_str w'.globals.service_name) w' := by
  have heffective : ¬ Refuses eng w.globals := by
    rintro ⟨htrue, -⟩
    rw [hcli] at htrue
    cases htrue
  obtain ⟨u, v, v₁, header, name, kind', q, m, hcore, hcreate, hparse, hbuilt, hrest, -, -, u₀, hname,
    hservice⟩ := start_tracer_ok h heffective
  have hself (x : World φ) : x.core.settings.2 = x.settings.2 := rfl
  have hu : u.settings.2 = w.settings.2 := by
    rw [← hself u, hcore]
    rfl
  have hu₀ : u₀.settings.2 = w.settings.2 := by
    have hsame : u.core = u₀.core := serviceName_core (.of_ok hservice)
    rw [← hself u₀, ← hsame, hself u, hu]
  have hv : v.settings = u.settings := by
    obtain ⟨v', p, hspan, hp, rfl⟩ := Provider.createFirstSpan_ok hcreate
    have hsame : v'.settings = u.settings := settings_blind.spanwise.createSpan _ _ (.of_ok hspan)
    exact hsame
  have hv₁ : v₁.settings = v.settings := settings_blind.parseTraceParent header (.of_ok hparse)
  have hw' : w'.settings = v₁.settings :=
    settings_blind.built (fun _ _ => rfl) (fun _ _ _ => rfl) hbuilt hrest
  have hsettings : w'.settings = u.settings := hw'.trans (hv₁.trans hv)
  have hgiven : w'.globals.service_name = u.globals.service_name := (Prod.mk.inj hsettings).1
  refine ⟨?_, ?_, ?_⟩
  · have hsame := (congrArg Prod.snd hsettings).trans hu
    simpa only [World.settings, Prod.mk.injEq] using hsame
  · obtain ⟨hkey, -, hserver⟩ : u₀.globals.service_name_key = w.globals.service_name_key ∧
        u₀.globals.enable = w.globals.enable ∧ u₀.server = w.server := by
      simpa only [World.settings, Prod.mk.injEq] using hu₀
    have hfound : serverName u₀.globals u₀.server = serverName w.globals w.server := by
      rw [serverName, serverName, hkey, hserver]
    rw [hgiven, serviceNameFromServer_ok hcli hservice, hname, hfound]
  · have hnamed : Named eng (c_str u.globals.service_name) v :=
      named_createFirstSpan hcreate fun p hp => (reset_clean hkept hcore p hp).1
    have hparsed : Named eng (c_str u.globals.service_name) v₁ :=
      named_parseTraceParent header (.of_ok hparse) hnamed
    rw [hgiven]
    exact (hbuilt.trans Move.built_op).keeps Op.named hrest hparsed

/-- What a worker has seen: its `$_SERVER`, and what its requests have found in theirs. -/
structure History where
  server : Bytes → Option Zval
  found : List Bytes

/-- A request finds a name when it starts. -/
def History.next (g : Globals) (h : History) : Event φ → History
  | .surround s => { h with server := s.server }
  | .request_init => if g.enable then { h with found := h.found ++ [serverName g h.server] } else h
  | _ => h

/-- The names that the requests of a worker find, in the order of the requests. -/
def namesFound (g : Globals) (server : Bytes → Option Zval) (past : List (Event φ)) : List Bytes :=
  (past.foldl (History.next g) ⟨server, []⟩).found

/-- The worker is configured as `g` and has seen `h`. -/
structure Configured (g : Globals) (w : World φ) (h : History) : Prop where
  key : w.globals.service_name_key = g.service_name_key
  enable : w.globals.enable = g.enable
  server : w.server = h.server
  name : c_str w.globals.service_name = h.found.foldl keepName (c_str g.service_name)

theorem Configured.of_settings {g : Globals} {h : History} (hw : Configured g w h)
    (hsame : w'.settings = w.settings) : Configured g w' h := by
  simp only [World.settings, Prod.mk.injEq] at hsame
  obtain ⟨hname, hkey, henable, hserver⟩ := hsame
  exact ⟨hkey.trans hw.key, henable.trans hw.enable, hserver.trans hw.server,
    by rw [hname, hw.name]⟩

theorem settings_shutdown (h : shutdown_tracer eng w = .ok ((), w'))
    (heffective : ¬ Refuses eng w.globals) : w'.settings = w.settings := by
  obtain ⟨p, u, hp, rfl, hend⟩ := shutdown_tracer_ok h heffective
  cases hfirst : (p.slots (w.key eng)).firstSpan with
  | none =>
    rw [hfirst] at hend
    subst hend
    rfl
  | some first =>
    rw [hfirst] at hend
    obtain ⟨v, q, hrelated, hq, -, rfl⟩ :=
      finishSession_ok settings_blind.spanwise (fun _ _ => rfl) hend
    refine Eq.trans ?_ hrelated
    split <;> rfl

theorem Configured.start {g : Globals} {h : History} {traceparent tracebaggage : Bytes}
    {kind : SpanKind} (hcli : eng.cli = false)
    (hstart : start_tracer eng traceparent tracebaggage kind w = .ok ((), w')) (hkept : Kept w)
    (hw : Configured g w h) : Configured g w' { h with found := h.found ++ [serverName g h.server] } := by
  obtain ⟨⟨hkey, henable, hserver⟩, hname, -⟩ := start_names hcli hstart hkept
  have hfound : serverName w.globals w.server = serverName g h.server := by
    rw [serverName, serverName, hw.key, hw.server]
  refine ⟨hkey.trans hw.key, henable.trans hw.enable, hserver.trans hw.server, ?_⟩
  rw [hname, hw.name, hfound, List.foldl_append]
  rfl

theorem Configured.next {g : Globals} {h : History} {e : Event φ} (hcli : eng.cli = false)
    (hstep : Step eng natives e w w') (hkept : Kept w) (hw : Configured g w h) :
    Configured g w' (h.next g e) := by
  have hoffers {started : Bool} (h : Offers eng w.globals started) : False := by
    rw [Offers, hcli] at h
    exact Bool.false_ne_true h.1
  cases e with
  | call c => exact hw.of_settings (settings_call hstep)
  | surround s =>
    obtain ⟨_, h⟩ | h := hstep <;> cases h
    exact ⟨hw.key, hw.enable, rfl, hw.name⟩
  | reparent ppid =>
    obtain ⟨_, h⟩ | h := hstep <;> cases h
    exact hw.of_settings rfl
  | request_init =>
    rw [History.next, ← hw.enable]
    obtain ⟨hskip, rfl⟩ | ⟨hserves, hstart⟩ := request_init_ends hstep
    · have hdisabled : ¬ w'.globals.enable = true :=
        fun henable => hskip ⟨henable, by rw [hcli]; exact Bool.false_ne_true⟩
      rwa [if_neg hdisabled]
    · rw [if_pos hserves.1]
      exact hw.start hcli hstart hkept
  | request_shutdown =>
    obtain ⟨-, rfl⟩ | ⟨hserves, hshutdown⟩ := request_shutdown_ends hstep
    · exact hw
    · exact hw.of_settings (settings_shutdown hshutdown hserves.not_refuses)
  | start_cli_tracer args =>
    obtain ⟨-, rfl⟩ | ⟨hcan, -⟩ := start_cli_tracer_ends (ends_ignore_iff.mp hstep)
    · exact hw
    · exact (hoffers hcan).elim
  | shutdown_cli_tracer =>
    obtain ⟨-, rfl⟩ | ⟨hcan, -⟩ := shutdown_cli_tracer_ends (ends_ignore_iff.mp hstep)
    · exact hw
    · exact (hoffers hcan).elim

/-- The name that a worker keeps is what its history makes of the one it is configured with. -/
theorem configured_run {past : List (Event φ)} (hcli : eng.cli = false)
    (hinit : w.globals.provider = none) (hrun : Run (Step eng natives) w past v) :
    Configured w.globals v (past.foldl (History.next w.globals) ⟨w.server, []⟩) := by
  induction hrun with
  | nil => exact ⟨rfl, rfl, rfl, rfl⟩
  | @snoc es e t u hrun hlast ih =>
    rw [List.foldl_append]
    exact ih.next hcli hlast (kept_run hinit hrun)

/-- The `service.name` of an exported message. -/
def reportedName (payload : List (Option Resource × List Span)) : Option AnyValue := do
  let (resource, _) ← payload.head?
  let kv ← (← resource).attributes.find? fun kv => kv.key = lit "service.name"
  return kv.value

/-- What a session exports has the name that its resource was given. -/
theorem Named.exports {payload : List (Option Resource × List Span)} (h : Named eng name w)
    (htree : IsTree eng w) (heffective : ¬ Refuses eng w.globals)
    (hshutdown : shutdown_tracer eng w = .ok ((), w'))
    (hexports : w'.exported = w.exported ++ [payload]) :
    reportedName payload = some (.string name) := by
  obtain ⟨f, s, x, y, -, hok, hattach, -, hsame | ⟨payload', happended, hpayload⟩⟩ :=
    htree.ends heffective hshutdown
  · rw [hsame] at hexports
    simp at hexports
  obtain rfl : payload = payload' := by
    have happend := hexports.symm.trans happended
    simpa using happend
  have hbuilt : Built (Move eng { Grants.none with ends := True }) (Provider.okEnd f) :=
    .op (.okEnd trivial f)
  have hx : Named eng name x := (hbuilt.trans Move.built_op).keeps Op.named (.of_ok hok) h
  obtain ⟨p, resource, r, hp, -, hslot, hcell, hhead⟩ := hx
  obtain ⟨f', rs, rspans, rest, first, hx⟩ := htree.okEnd hok
  obtain ⟨p', hp', hresources, hy⟩ := hx.attachResource hattach
  obtain rfl : p = p' := Option.some.inj (hp.symm.trans hp')
  rw [hy.serialises hpayload, hslot, hresources]
  obtain ⟨attributes⟩ := r
  cases attributes with
  | nil => cases hhead
  | cons kv attributes =>
    obtain rfl : kv = string_attribute "service.name" name := Option.some.inj hhead
    simp [reportedName, hcell, string_attribute]

/-- A worker with the given past serves a request with the given `$_SERVER`, and exports it. -/
structure Served (eng : Engine φ) (natives : CurlNatives φ) (w : World φ) (past : List (Event φ))
    (server : Bytes → Option Zval) (payload : List (Option Resource × List Span)) : Prop where
  request : ∃ v u es x w', Run (Step eng natives) w past v ∧ v.server = server ∧
    Step eng natives .request_init v u ∧ Run (Step eng natives) u es x ∧
    (∀ e ∈ es, e.Inner eng.cli) ∧ Step eng natives .request_shutdown x w' ∧
    w'.exported = x.exported ++ [payload]

/-- The name that is reported is the one the history and the request itself make. -/
theorem Served.reports {past : List (Event φ)} {server : Bytes → Option Zval}
    {payload : List (Option Resource × List Span)} (hcli : eng.cli = false)
    (hinit : w.globals.provider = none) (h : Served eng natives w past server payload) :
    reportedName payload = some (.string (keepName
      ((namesFound w.globals w.server past).foldl keepName (c_str w.globals.service_name))
      (serverName w.globals server))) := by
  obtain ⟨v, u, es, x, w', hpast, rfl, hinitial, hrun, hinner, hshutdown, hexports⟩ := h.request
  have hconfigured : Configured w.globals v _ := configured_run hcli hinit hpast
  have hstarted (x : World φ) : Started eng x := by
    intro htrue
    rw [hcli] at htrue
    cases htrue
  obtain ⟨hskip, rfl⟩ | ⟨hserves, hstart⟩ := request_init_ends hinitial
  · -- A tracer that is turned off exports nothing.
    obtain ⟨-, henable⟩ := inner_run (I := fun x => x.globals.enable = u.globals.enable)
      (fun hstep hinner hstarted hsame => (enable_inner hstep hinner hstarted).trans hsame) hrun
      hinner (hstarted u) rfl
    obtain ⟨-, rfl⟩ | ⟨hserves, -⟩ := request_shutdown_ends hshutdown
    · simp at hexports
    · exact absurd ⟨henable ▸ hserves.1, hserves.2⟩ hskip
  · obtain ⟨-, hname, hnamed⟩ := start_names hcli hstart (kept_run hinit hpast)
    have hopened : Opened eng natives u := ⟨w, past, v, .request_init, hinit, hpast, hserves, hinitial⟩
    obtain ⟨-, htree⟩ := isTree_run hopened hrun hinner
    obtain ⟨-, hlast⟩ := inner_run named_inner hrun hinner (hstarted u) hnamed
    have hfound : serverName v.globals v.server = serverName w.globals v.server := by
      rw [serverName, serverName, hconfigured.key]
    obtain ⟨-, rfl⟩ | ⟨hserves', hend⟩ := request_shutdown_ends hshutdown
    · simp at hexports
    · rw [hlast.exports htree hserves'.not_refuses hend hexports, hname, hconfigured.name, hfound]
      rfl

/-- The name that the configuration and the `$_SERVER` of a request make by themselves. -/
def ownName (g : Globals) (server : Bytes → Option Zval) : Bytes :=
  keepName (c_str g.service_name) (serverName g server)

/-- A name is configured, or the first request that has found one has found the same. -/
def Unclaimed (g : Globals) (found : List Bytes) (own : Bytes) : Prop :=
  c_str g.service_name ≠ lit "opentelemetry" ∨
    ∀ name, found.find? (fun n => n ≠ [] ∧ n ≠ lit "opentelemetry") = some name → name = own

/-- The built-in name gives way to the first other one that is found, and that stays. -/
theorem foldl_keepName (found : List Bytes) (kept : Bytes) : found.foldl keepName kept =
    if kept = lit "opentelemetry" then
      (found.find? fun n => n ≠ [] ∧ n ≠ lit "opentelemetry").getD (lit "opentelemetry")
    else kept := by
  induction found generalizing kept with
  | nil =>
    split
    · assumption
    · rfl
  | cons n found ih =>
    rw [List.foldl_cons, ih]
    by_cases hkept : kept = lit "opentelemetry"
    · by_cases hforeign : n ≠ [] ∧ n ≠ lit "opentelemetry"
      · have hgives : keepName kept n = n := if_pos ⟨hkept, hforeign.1⟩
        rw [hgives, if_neg hforeign.2, if_pos hkept, List.find?_cons_of_pos (by simpa using hforeign),
          Option.getD_some]
      · have hstays : keepName kept n = lit "opentelemetry" := by
          unfold keepName
          split
          · rename_i hnext
            exact not_not.mp fun hne => hforeign ⟨hnext.2, hne⟩
          · exact hkept
        rw [hstays, if_pos rfl, if_pos hkept, List.find?_cons_of_neg (by simpa using hforeign)]
    · have hstays : keepName kept n = kept := if_neg fun hnext => hkept hnext.1
      rw [hstays, if_neg hkept, if_neg hkept]

/-- When the reported service name is that of the request. A worker that has served any requests
before reports the name that the configuration and the request's own `$_SERVER` make, exactly if
none of the others has claimed another name first. -/
theorem service_name_own_iff {past : List (Event φ)} {server : Bytes → Option Zval}
    {payload : List (Option Resource × List Span)} (hcli : eng.cli = false)
    (hinit : w.globals.provider = none) (h : Served eng natives w past server payload) :
    reportedName payload = some (.string (ownName w.globals server)) ↔
      Unclaimed w.globals (namesFound w.globals w.server past) (ownName w.globals server) := by
  rw [h.reports hcli hinit, Option.some_inj, AnyValue.string.injEq, foldl_keepName, Unclaimed]
  by_cases hdefault : c_str w.globals.service_name = lit "opentelemetry"
  · rw [if_pos hdefault]
    cases hfound : (namesFound w.globals w.server past).find?
        fun n => n ≠ [] ∧ n ≠ lit "opentelemetry" with
    | none =>
      rw [Option.getD_none, ← hdefault]
      exact ⟨fun _ => .inr fun _ => nofun, fun _ => rfl⟩
    | some name =>
      have hforeign := List.find?_some hfound
      rw [decide_eq_true_eq] at hforeign
      rw [Option.getD_some, keepName, if_neg fun hnext => hforeign.2 hnext.1]
      constructor
      · rintro heq
        exact .inr fun _ hsome => Option.some.inj hsome ▸ heq
      · rintro (hne | hall)
        · exact absurd hdefault hne
        · exact hall name rfl
  · rw [if_neg hdefault]
    exact ⟨fun _ => .inl hdefault, fun _ => rfl⟩

/-- A request comes in for one of the sites that the worker serves. -/
def visits (site : String) : Event Unit :=
  .surround {
    clock := fun _ => 0, uuids := (World.fresh ()).uuids, pid := 1
    server := fun key => if key = lit "SERVICE_NAME" then some (.string (lit site)) else none
    post := none, erange := false, queueFails := fun _ => false, php := () }

/-- A request for a site, the last of those that a worker serves, is computed to its end. -/
theorem served_final (past : List (Event Unit)) (site : String)
    (P : List (Option Resource × List Span) → Bool)
    (h : (((past ++ [visits site]).foldlM
      (fun w e => final (Event.run (.bare false) .bare e) w) (World.fresh ())).any fun v =>
        (final (opentelemetry_request_init (.bare false)) v).any fun u =>
          (final (opentelemetry_request_shutdown (.bare false)) u).any fun w =>
            match w.exported.drop u.exported.length with
            | [payload] => decide (w.exported = u.exported ++ [payload]) && P payload
            | _ => false) = true) :
    ∃ payload, Served (.bare false) .bare (World.fresh ()) (past ++ [visits site])
      (fun key => if key = lit "SERVICE_NAME" then some (.string (lit site)) else none) payload ∧
        P payload = true := by
  obtain ⟨v, hv, hrest⟩ := (Option.any_eq_true _ _).mp h
  obtain ⟨u, hu, hend⟩ := (Option.any_eq_true _ _).mp hrest
  obtain ⟨w, hw, hexported⟩ := (Option.any_eq_true _ _).mp hend
  split at hexported
  · rename_i payload hdrop
    obtain ⟨happended, hP⟩ := Bool.and_eq_true_iff.mp hexported
    have hrun : Run (Step (.bare false) .bare) (World.fresh ()) (past ++ [visits site]) v :=
      Run.of_foldlM (fun _ _ _ hlast => ends_iff_final.mpr hlast) hv
    have hconfigured := configured_run rfl rfl hrun
    have hserver := hconfigured.server
    rw [List.foldl_append] at hserver
    exact ⟨payload, ⟨v, u, [], u, w, hrun, hserver, ends_iff_final.mpr hu, .nil,
      fun e he => absurd he List.not_mem_nil, ends_iff_final.mpr hw, of_decide_eq_true happended⟩, hP⟩
  · cases hexported

/-- The second request for a site. -/
theorem service_name_own_again : ∃ payload,
    Served (.bare false) .bare (World.fresh ())
      [visits "shop", .request_init, .request_shutdown, visits "shop"]
      (fun key => if key = lit "SERVICE_NAME" then some (.string (lit "shop")) else none) payload ∧
      reportedName payload = some (.string (lit "shop")) := by
  obtain ⟨payload, hserved, -⟩ := served_final [visits "shop", .request_init, .request_shutdown] "shop"
    (fun _ => true) (by decide +kernel)
  exact ⟨payload, hserved, (service_name_own_iff rfl rfl hserved).mpr (.inr (by decide))⟩

/-- Two workers serve the same request for a site. One has served another site before, and reports
its name. -/
theorem service_name_of_another : ∃ payload payload',
    Served (.bare false) .bare (World.fresh ())
      [visits "shop", .request_init, .request_shutdown, visits "blog"]
      (fun key => if key = lit "SERVICE_NAME" then some (.string (lit "blog")) else none) payload ∧
    Served (.bare false) .bare (World.fresh ()) [visits "blog"]
      (fun key => if key = lit "SERVICE_NAME" then some (.string (lit "blog")) else none) payload' ∧
    reportedName payload = some (.string (lit "shop")) ∧
    reportedName payload' = some (.string (lit "blog")) := by
  obtain ⟨payload, hserved, hname⟩ := served_final [visits "shop", .request_init, .request_shutdown]
    "blog" (fun payload => decide (reportedName payload = some (.string (lit "shop"))))
    (by decide +kernel)
  obtain ⟨payload', hserved', hname'⟩ := served_final [] "blog"
    (fun payload => decide (reportedName payload = some (.string (lit "blog")))) (by decide +kernel)
  exact ⟨payload, payload', hserved, hserved', of_decide_eq_true hname, of_decide_eq_true hname'⟩

end opentelemetry
