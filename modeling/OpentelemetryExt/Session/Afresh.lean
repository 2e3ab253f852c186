import OpentelemetryExt.Session.Phases
import OpentelemetryExt.Session.Aged

open stateful run

namespace opentelemetry

variable {φ : Type} {eng : Engine φ} {natives : CurlNatives φ} {u v w w' : World φ}
variable {past : Fillings}

/-- The same process with a newly constructed provider, but for the counter. -/
def World.afresh (w : World φ) : World φ :=
  { w with globals := { w.globals with
      provider := w.globals.provider.map fun p => { counter := p.counter } } }

/-- What the baggage map has held in earlier sessions. Its buckets are what it was then. -/
def World.fillings (eng : Engine φ) (w : World φ) : Fillings := (w.slots (w.key eng)).baggage.cleared

/-- The same process with a newly constructed provider, but for the counter and the buckets of the
baggage map. -/
def World.renewed (eng : Engine φ) (past : Fillings) (w : World φ) : World φ :=
  w.afresh.aged eng past

theorem World.afresh_of_none (h : w.globals.provider = none) : w.afresh = w := by
  have hmap : (w.globals.provider.map fun p => ({ counter := p.counter } : Provider)) =
      w.globals.provider := by rw [h]; rfl
  rw [World.afresh, hmap]

theorem World.fillings_of_none (h : w.globals.provider = none) : w.fillings eng = [] := by
  rw [World.fillings, World.slots, h]
  rfl

theorem globals_unaware {β : Type} {f : Globals → M φ β}
    (h : ∀ w : World φ, f (w.renewed eng past).globals = f w.globals)
    (hf : ∀ g, Unaware (World.renewed eng past) (f g)) :
    Unaware (World.renewed eng past) (globals >>= f) :=
  .get_bind (f := fun w => f w.globals) h fun w => hf w.globals

theorem find_server_string_unaware (key : Bytes) :
    Unaware (World.renewed eng past) (find_server_string key : M φ Bytes) := by
  refine .get_bind (fun _ => rfl) fun w => ?_
  cases w.server key with
  | some value => exact .lift _
  | none => exact .pure _

theorem init_consumers_unaware : Unaware (World.renewed eng past) (init_consumers eng) := by
  refine globals_unaware (fun _ => rfl) fun g => .ite (.pure _) (.get_bind (fun _ => rfl) fun w =>
    .bind (.modify fun _ => rfl) fun _ => .bind (globals_unaware (fun _ => rfl) fun _ =>
      .modify fun _ => rfl) fun _ => .bind (.modify fun _ => rfl) fun _ => .ite ?_ ?_)
  · exact .bind (.modify fun _ => rfl) fun _ => globals_unaware (fun _ => rfl) fun _ =>
      .bind (.modify fun _ => rfl) fun _ => .ite (.pure _) (.modify fun _ => rfl)
  · exact globals_unaware (fun _ => rfl) fun _ => .bind (.modify fun _ => rfl) fun _ =>
      .ite (.pure _) (.modify fun _ => rfl)

theorem serviceName_unaware : Unaware (World.renewed eng past) (serviceNameFromServer eng : M φ Unit) :=
  globals_unaware (fun _ => rfl) fun _ => .ite
    (.bind (find_server_string_unaware _) fun _ => .ite (.modify fun _ => rfl) (.pure _)) (.pure _)

/-- A provider of which only a resource pointer, the counter and the past of the map are left. -/
structure Spent (eng : Engine φ) (past : Fillings) (w : World φ) (p : Provider) : Prop where
  provider : w.globals.provider = some p
  alone : ∀ key, key ≠ w.key eng → p.slots key = {}
  slot : ∃ resource, p.slots (w.key eng) = { resource := resource, baggage := { cleared := past } }

theorem Spent.of_core {p : Provider} (h : Spent eng past w p) (hcore : u.core = w.core) :
    Spent eng past u p := by
  have hprovider : u.globals.provider = w.globals.provider :=
    show u.core.globals.provider = w.core.globals.provider by rw [hcore]
  have hppid : u.ppid = w.ppid := show u.core.ppid = w.core.ppid by rw [hcore]
  have hkey : u.key eng = w.key eng := World.key_congr hppid
  exact ⟨hprovider.trans h.provider, hkey ▸ h.alone, hkey ▸ h.slot⟩

/-- The world after the reset of a provider with nothing to clean up. -/
def World.counted (w : World φ) (p : Provider) : World φ :=
  let u := w.withProvider { p with counter := Provider.nextCount p.counter }
  { u with globals := { u.globals with curl_header := some [] } }

theorem resetProvider_spent {p : Provider} (h : Spent eng past w p) (hcli : eng.cli = false) :
    resetProvider eng w = .ok ((), w.counted p) := by
  obtain ⟨hp, -, resource, hslot⟩ := h
  have hensure : ensureProvider w = .ok ((), w) := by
    simp [ensureProvider, is_has_provider, globals_apply, hp]
  have hclean : Provider.clean eng w = .ok ((), w) := by
    simp [Provider.clean, slot_of_some hp, hslot, hcli]
  simp only [resetProvider, bind_apply, hensure, hclean, ok_bind, Provider.increase_of_some hp]
  rfl

theorem Spent.counted {p : Provider} (h : Spent eng past w p) :
    Spent eng past (w.counted p) { p with counter := Provider.nextCount p.counter } :=
  ⟨rfl, h.alone, h.slot⟩

/-- A newly constructed provider whose current baggage map has this past. -/
def Provider.renewed (key : Option Nat) (past : Fillings) (counter : Int) : Provider :=
  ({ counter := counter } : Provider).set key (Slot.aged past {})

theorem Spent.renewed {p : Provider} (h : Spent eng past w p) :
    Spent eng past (w.renewed eng past) (.renewed (w.key eng) past p.counter) where
  provider := by
    rw [World.renewed, World.aged, World.afresh, h.provider]
    rfl
  alone _ hkey := Provider.set_ne _ _ hkey
  slot := by
    refine ⟨none, (Provider.set_self _ _ _).trans ?_⟩
    rw [Slot.aged, assoc.Table.after, List.append_nil]

theorem World.renewed_counted (w : World φ) (p : Provider) :
    (w.renewed eng past).counted (.renewed (w.key eng) past p.counter) =
      (w.counted p).renewed eng past := rfl

/-- The request of a session takes the place of whatever the slot held. -/
theorem Spent.set {p : Provider} (h : Spent eng past w p) (request resourceSpan resource : Option Nat) :
    p.set (w.key eng) { p.slots (w.key eng) with
      request := request, resourceSpan := resourceSpan, resource := resource } =
    { counter := p.counter
      slots := Function.update (fun _ => {}) (w.key eng) {
        request := request
        resourceSpan := resourceSpan
        resource := resource
        baggage := { cleared := past } } } := by
  obtain ⟨-, halone, left, hslot⟩ := h
  refine congrArg (Provider.mk p.counter) (funext fun key => ?_)
  by_cases hkey : key = w.key eng
  · subst hkey
    rw [Function.update_self, Function.update_self, hslot]
  · rw [Function.update_of_ne hkey, Function.update_of_ne hkey, halone key hkey]

theorem withRequest_renewed {p : Provider} (h : Spent eng past w p) :
    (w.renewed eng past).withRequest eng (.renewed (w.key eng) past p.counter) =
      w.withRequest eng p := by
  rw [World.withRequest, World.withRequest, h.set, h.renewed.set]
  rfl

theorem getTracer_spent {p : Provider} (h : Spent eng past w p) : Provider.getTracer eng w =
    .ok (w.memory.resource_spans.next, w.withRequest eng p) := by
  obtain ⟨resource, hslot⟩ := h.slot
  simp only [Provider.getTracer, bind_apply, slot_of_some h.provider, ok_bind, hslot]
  exact Provider.newRequest_of_some h.provider

theorem createFirstSpan_renewed {p : Provider} (h : Spent eng past w p) (name : Bytes)
    (kind : SpanKind) : Provider.createFirstSpan eng name kind (w.renewed eng past) =
      Provider.createFirstSpan eng name kind w := by
  have htracer : Provider.getTracer eng (w.renewed eng past) = Provider.getTracer eng w := by
    rw [getTracer_spent h, getTracer_spent h.renewed, withRequest_renewed h]
    rfl
  simp only [Provider.createFirstSpan, Provider.createSpan, bind_apply, htracer]

theorem startRequestSpan_renewed {p : Provider} (h : Spent eng past w p) (kind : SpanKind) :
    startRequestSpan eng kind (w.renewed eng past) = startRequestSpan eng kind w := by
  have hserver {β : Type} {key : Bytes} {f : Bytes → M φ β}
      (hf : ∀ a, f a (w.renewed eng past) = f a w) :
      (find_server_string key >>= f) (w.renewed eng past) = (find_server_string key >>= f) w := by
    refine Unaware.bind_eq (find_server_string_unaware key) (Direct.find_server_string key)
      fun a t hread => ?_
    rw [Op.reads_find_server_string _ (.of_ok hread)]
    exact hf a
  refine hserver fun _ => hserver fun _ => hserver fun _ => ?_
  simp only [bind_apply, createFirstSpan_renewed h]

/-- A start does not see what the sessions before it have left of the provider. -/
theorem start_tracer_renewed {p : Provider} (h : Spent eng past w p) (hcli : eng.cli = false)
    (traceparent tracebaggage : Bytes) (kind : SpanKind) :
    start_tracer eng traceparent tracebaggage kind (w.renewed eng past) =
      start_tracer eng traceparent tracebaggage kind w := by
  have hstart (v : World φ) : start_tracer eng traceparent tracebaggage kind v =
      (init_consumers eng >>= fun _ => resetProvider eng >>= fun _ =>
        serviceNameFromServer eng >>= fun _ => startRequestSpan eng kind) v := by
    simp [start_tracer, globals_apply, hcli]
  rw [hstart, hstart]
  refine Unaware.bind_eq init_consumers_unaware Direct.init_consumers fun _ u hinit => ?_
  have hu : Spent eng past u p := h.of_core (init_consumers_core (.of_ok hinit))
  simp only [bind_apply (resetProvider eng), resetProvider_spent hu hcli,
    resetProvider_spent hu.renewed hcli, ok_bind, World.renewed_counted]
  refine Unaware.bind_eq serviceName_unaware Direct.serviceNameFromServer fun _ v hname => ?_
  exact startRequestSpan_renewed (hu.counted.of_core (serviceName_core (.of_ok hname))) kind

/-- Between two sessions there is no provider, or one that is spent. -/
theorem Orderly.spent_or_none (h : Orderly eng .idle w) :
    w.globals.provider = none ∨
      ∃ p, Spent eng (w.fillings eng) w p ∧ eng.cli = false ∧ w.globals.enable = true := by
  cases hp : w.globals.provider with
  | none => exact .inl rfl
  | some p =>
    obtain ⟨-, hcli, henable, -⟩ := h.fits _ (by rw [World.sessions, hp]; rfl)
    have hslots := World.slots_of_some hp
    obtain ⟨resource, past, hslot⟩ := h.spent rfl
    have hpast : w.fillings eng = past := by rw [World.fillings, hslot]
    exact .inr ⟨p, ⟨hp, hslots ▸ h.alone, resource, hpast ▸ hslots ▸ hslot⟩, hcli, henable⟩

/-- The next session sees of the provider only the counter and the buckets of the map. -/
theorem next_renewed {es rest : List (Event φ)} {e : Event φ} (hinit : w.globals.provider = none)
    (hrun : Run (Step eng natives) w es v)
    (hsessions : es.foldlM (Phase.next eng.cli) .idle = some .idle)
    (hstart : Phase.idle.next eng.cli e = some .active) :
    Run (Step eng natives) v (e :: rest) u ↔
      Run (Step eng natives) (v.renewed eng (v.fillings eng)) (e :: rest) u := by
  obtain hp | ⟨p, hspent, hcli, henable⟩ := (orderly_run hinit hrun hsessions).spent_or_none
  · rw [World.renewed, World.afresh_of_none hp, World.fillings_of_none hp, World.aged_nil]
  · have hstarts : e = .request_init := by
      obtain ⟨s, rfl, hphase⟩ | ⟨c, rfl, hphase, -⟩ | ⟨-, -, ⟨-, rfl⟩ | ⟨htrue, -⟩⟩ |
        ⟨hphase, -⟩ := Phase.next_cases hstart
      · cases hphase
      · cases hphase
      · rfl
      · rw [hcli] at htrue
        cases htrue
      · cases hphase
    subst hstarts
    have hruns (x : World φ) (henable : x.globals.enable = true) :
        opentelemetry_request_init eng x = start_tracer eng [] [] .server x := by
      simp [opentelemetry_request_init, globals_apply, henable, hcli]
    have hsame : opentelemetry_request_init eng (v.renewed eng (v.fillings eng)) =
        opentelemetry_request_init eng v := by
      rw [hruns v henable, hruns _ (by exact henable)]
      exact start_tracer_renewed hspent hcli _ _ _
    have hstep (x : World φ) : Step eng natives .request_init v x ↔
        Step eng natives .request_init (v.renewed eng (v.fillings eng)) x := by
      simp only [Step, Event.run, Ends, hsame]
    simp only [run_cons_iff, hstep]

/-- No trace state leaks into the next session but the order of its baggage. After any number of
complete sessions, the next one runs, event by event, exactly as it would with a newly constructed
provider, if the engine lists the entries of the new baggage map in the order of the old one. -/
theorem nothing_leaks {es rest : List (Event φ)} {e : Event φ} (hinit : w.globals.provider = none)
    (hrun : Run (Step eng natives) w es v)
    (hsessions : es.foldlM (Phase.next eng.cli) .idle = some .idle)
    (hstart : Phase.idle.next eng.cli e = some .active) :
    Run (Step eng natives) v (e :: rest) u ↔
      ∃ u', Run (Step (eng.after (v.fillings eng)) natives) v.afresh (e :: rest) u' ∧
        u'.aged eng (v.fillings eng) = u := by
  rw [next_renewed hinit hrun hsessions hstart, World.renewed]
  obtain hp | ⟨p, hspent, hcli, -⟩ := (orderly_run hinit hrun hsessions).spent_or_none
  · rw [World.fillings_of_none hp]
    simp only [World.aged_nil, exists_eq_right]
    rfl
  · refine aged_run hcli ?_
    rw [World.afresh, hspent.provider]
    rfl

/-- The C++ library's hash of a string of one to seven bytes. -/
def shortHash (key : Bytes) : UInt64 :=
  let mul : UInt64 := 0xc6a4a7935bd1e995
  let shift_mix (v : UInt64) := v ^^^ (v >>> 47)
  let data : UInt64 := key.foldr (fun b rest => rest * 256 + b.toUInt64) 0
  let hash := ((0xc70f6907 ^^^ (UInt64.ofNat key.length * mul)) ^^^ data) * mul
  shift_mix (shift_mix hash * mul)

/-- The buckets of a `robin_map` that has held at most `n` entries: a power of two, so that at most
half of them are taken. -/
def robinBuckets (n : Nat) : Nat := 2 ^ (Nat.log2 (2 * n - 1) + 1)

/-- The order in which a `robin_map` lists entries that do not share a bucket. -/
def robinOrder (m : RobinMap) : List (Bytes × Bytes) :=
  let buckets := robinBuckets (((m.entries :: m.cleared).map List.length).foldl max 0)
  let bucket (e : Bytes × Bytes) := (shortHash e.1).toNat % buckets
  m.entries.insertionSort fun e e' => bucket e ≤ bucket e'

def Engine.robin : Engine Unit :=
  { Engine.bare false with iterate := fun m => ⟨robinOrder m, List.perm_insertionSort _ _⟩ }

/-- A request that adds baggage under these keys. -/
def adding (keys : List String) : List (Event Unit) :=
  .request_init :: keys.map fun key =>
    .call (.sdk (.add_baggage (some (some (lit key), some (lit "1")))))

/-- What user code is given to forward. -/
def forwarded (eng : Engine φ) (w : World φ) : Option Bytes :=
  (opentelemetry_get_baggage eng w).toOption.map Prod.fst

def robinRun (es : List (Event Unit)) (w : World Unit) : Option (World Unit) :=
  es.foldlM (fun w e => final (Event.run .robin .bare e) w) w

theorem run_robin {es : List (Event Unit)} {w w' : World Unit} (h : robinRun es w = some w') :
    Run (Step .robin .bare) w es w' :=
  Run.of_foldlM (fun _ _ _ hlast => ends_iff_final.mpr hlast) h

/-- The second request of a worker, the first of which had more baggage. -/
theorem nothing_leaks_second_request : ∃ v u : World Unit,
    Run (Step .robin .bare) (World.fresh ()) (adding ["x", "y", "z"] ++ [.request_shutdown]) v ∧
      Run (Step .robin .bare) v (adding ["a", "e"]) u ∧
      ∃ u', Run (Step (Engine.robin.after (v.fillings .robin)) .bare) v.afresh (adding ["a", "e"]) u' ∧
        u'.aged .robin (v.fillings .robin) = u := by
  have hends : ((robinRun (adding ["x", "y", "z"] ++ [.request_shutdown]) (World.fresh ())).any
      fun v => (robinRun (adding ["a", "e"]) v).isSome) = true := by decide +kernel
  obtain ⟨v, hpast, hnext⟩ := (Option.any_eq_true _ _).mp hends
  obtain ⟨u, hnext⟩ := Option.isSome_iff_exists.mp hnext
  exact ⟨v, u, run_robin hpast, run_robin hnext,
    (nothing_leaks rfl (run_robin hpast) rfl rfl).mp (run_robin hnext)⟩

/-- The baggage of that request is listed otherwise than with a newly constructed provider, whose map
has fewer buckets. -/
theorem baggage_order_leaks : ∃ v u u' : World Unit,
    Run (Step .robin .bare) (World.fresh ()) (adding ["x", "y", "z"] ++ [.request_shutdown]) v ∧
      Run (Step .robin .bare) v (adding ["a", "e"]) u ∧
      Run (Step .robin .bare) v.afresh (adding ["a", "e"]) u' ∧
      forwarded .robin u = some (lit "a=1,e=1") ∧ forwarded .robin u' = some (lit "e=1,a=1") := by
  have hends : ((robinRun (adding ["x", "y", "z"] ++ [.request_shutdown]) (World.fresh ())).any
      fun v => (robinRun (adding ["a", "e"]) v).any fun u =>
        (robinRun (adding ["a", "e"]) v.afresh).any fun u' =>
          decide (forwarded .robin u = some (lit "a=1,e=1")) &&
            decide (forwarded .robin u' = some (lit "e=1,a=1"))) = true := by decide +kernel
  obtain ⟨v, hpast, hends⟩ := (Option.any_eq_true _ _).mp hends
  obtain ⟨u, hnext, hends⟩ := (Option.any_eq_true _ _).mp hends
  obtain ⟨u', hnext', hends⟩ := (Option.any_eq_true _ _).mp hends
  obtain ⟨hheader, hheader'⟩ := (Bool.and_eq_true _ _).mp hends
  exact ⟨v, u, u', run_robin hpast, run_robin hnext, run_robin hnext', of_decide_eq_true hheader,
    of_decide_eq_true hheader'⟩

end opentelemetry
