import OpentelemetryExt.Session.CallStack
import OpentelemetryExt.ZendHook.Transparent

open heap stateful run

namespace opentelemetry

variable {φ : Type} {eng : Engine φ} {natives : CurlNatives φ} {w w' : World φ} {f : Nat}
variable {i : Happening φ} {is : List (Happening φ)} {p p' p₀ : Execution φ}

/-- The clock stays past the epoch when the world around the extension changes. -/
def Happening.Ticks : Happening φ → Prop
  | .event (.surround s) => ∀ n, s.clock n ≠ 0
  | _ => True

theorem ticking_happens (h : Happens eng natives i p p') (hinner : i.Inner eng.cli)
    (hticks : i.Ticks) (hsession : InSession eng f p.world) (hticking : Ticking p.world) :
    Ticking p'.world := by
  have hcall {c : Call} {w : World φ} (hstep : Step eng natives (.call c) p.world w) : Ticking w :=
    ticking_blind.built (fun _ _ h => h) (fun _ _ _ h => h) (Move.built_call c) hstep hticking
  cases h with
  | enter hent => exact hcall (step_enter (.of_ok hent))
  | enter_unwinds hent => exact hcall (step_enter (.inr hent))
  | @leave _ fr rest return_value w hstack hleave =>
    have hstep : Step eng natives (.call (.leave fr.hook fr.execute_data return_value fr.span))
      p.world w := .of_ok hleave
    exact hcall hstep
  | leave_unwinds hstack hleave => exact (leave_unwinds hleave).ticking hticking
  | unwind hstack => exact hticking
  | event hplain hevent =>
    obtain ⟨c, rfl⟩ | ⟨s, rfl, rfl⟩ | ⟨-, ppid, rfl⟩ | rfl :=
      inner_cases hevent hinner hsession.started
    · exact hcall hevent
    · exact hticks
    · exact hticking
    · exact hticking

/-- At the start of a session there is no span younger than its first. -/
theorem Opened.alone (h : Opened eng natives w) :
    ∃ f, w.first eng = some f ∧ w.memory.spans.next = f + 1 := by
  obtain ⟨u, f, rs, r, first, m, htree, hbuilt, hends⟩ := h.start_tree
  have hfirst : w.first eng = u.first eng :=
    first_blind.built (fun _ _ => rfl) (fun _ _ _ => rfl) hbuilt hends
  have hcalm : Calm u w := calm_built hbuilt hends
  obtain ⟨p, hp, hslot, -⟩ := htree.hasFirst
  refine ⟨f, by rw [hfirst, World.first, World.slots_of_some hp, hslot], ?_⟩
  have hlt := Heap.lt_next htree.cell
  have hnone := htree.spread (f + 1)
  rw [iff_false_left List.not_mem_nil] at hnone
  rw [hcalm.next]
  omega

theorem ticking_start {traceparent tracebaggage : Bytes} {kind : SpanKind}
    (h : start_tracer eng traceparent tracebaggage kind w = .ok ((), w'))
    (heffective : ¬ Refuses eng w.globals) (hw : Ticking w) : Ticking w' := by
  obtain ⟨u, v, v₁, header, name, kind', q, m, hcore, hcreate, hparse, hbuilt, hrest, -⟩ :=
    start_tracer_ok h heffective
  obtain ⟨v', p, hspan, hp, rfl⟩ := Provider.createFirstSpan_ok hcreate
  have hself (v : World φ) : v.core.clock = v.clock := rfl
  have hclock : u.clock = w.clock := by rw [← hself u, hcore]; rfl
  have hu : Ticking u := fun n => hclock ▸ hw n
  have hv' : Ticking v' := ticking_blind.spanwise.createSpan _ _ (.of_ok hspan) hu
  have hv₁ : Ticking v₁ := ticking_blind.parseTraceParent header (.of_ok hparse) hv'
  exact ticking_blind.built (fun _ _ h => h) (fun _ _ _ h => h) hbuilt hrest hv₁

theorem Begins.standing (h : Begins eng natives p) :
    ∃ f, Standing eng f p ∧ Settled f p := by
  obtain ⟨f, hfirst, hnext⟩ := h.opened.alone
  have holder {q : Nat} (hq : q ∈ p.pending) : q < f := by
    rw [Execution.pending, h.lost, List.append_nil] at hq
    obtain ⟨fr, hfr, hspan⟩ := List.mem_filterMap.mp hq
    exact h.older fr hfr q hspan f hfirst
  refine ⟨f, ⟨⟨h.opened.isTree, hfirst, h.opened.started⟩, fun q hq => ?_, fun q hq => ?_,
    fun q hq hlt => ?_⟩, fun q hq hlt => ?_⟩
  · have hnot : q ∉ p.pending := fun hmem => absurd (holder hmem) (by omega)
    rw [List.count_eq_zero_of_not_mem hnot]
    exact Nat.zero_le 1
  · have hlt := holder hq
    omega
  · exact absurd (holder hq) (by omega)
  · omega

/-- In the course of a session the spans of the calls that are under way, or have been unwound
past, are fresh. -/
theorem standing_run (hbegin : Standing eng f p₀) (hrun : Run (Happens eng natives) p₀ is p)
    (hinner : ∀ i ∈ is, i.Inner eng.cli) : Standing eng f p := by
  induction hrun with
  | nil => exact hbegin
  | snoc _ hlast ih =>
    exact (ih fun i hi => hinner i (List.mem_append_left _ hi)).step hlast (hinner _ (by simp))

/-- And all others have been ended. -/
theorem settled_run (hbegin : Standing eng f p₀) (hsettled : Settled f p₀)
    (hticking : Ticking p₀.world) (hrun : Run (Happens eng natives) p₀ is p)
    (hinner : ∀ i ∈ is, i.Inner eng.cli) (hticks : ∀ i ∈ is, i.Ticks) :
    Settled f p ∧ Ticking p.world := by
  induction hrun with
  | nil => exact ⟨hsettled, hticking⟩
  | @snoc is i p p' hrun hlast ih =>
    have hbefore : ∀ i ∈ is, i.Inner eng.cli := fun i hi => hinner i (List.mem_append_left _ hi)
    obtain ⟨hsettled, hticking⟩ := ih hbefore fun i hi => hticks i (List.mem_append_left _ hi)
    have hstanding := standing_run hbegin hrun hbefore
    have hi : i.Inner eng.cli := hinner i (by simp)
    exact ⟨hsettled.step hticking hstanding hlast hi,
      ticking_happens hlast hi (hticks i (by simp)) hstanding.session hticking⟩

/-- The span at `q` belongs to the current request. -/
def InRequest (eng : Engine φ) (w : World φ) (q : Nat) : Prop :=
  ∃ f rs r, Laid eng w f rs r ∧ q ∈ r.spans

theorem InSession.inRequest_iff (h : InSession eng f w) {q : Nat} :
    InRequest eng w q ↔ q = f ∨ f < q ∧ q < w.memory.spans.next := by
  obtain ⟨rs, r, rest, first, htree⟩ := h.tree.at_first h.first
  rw [← htree.spread, ← List.mem_cons, ← htree.spans]
  constructor
  · rintro ⟨f', rs', r', hlaid, hq⟩
    obtain ⟨-, -, rfl⟩ := htree.laid.unique hlaid
    exact hq
  · exact fun hq => ⟨f, rs, r, htree.laid, hq⟩

theorem spans_attachResource :
    Keeps (SameOn fun w : World φ => w.memory.spans) (attachResource eng) := by
  have htracer : Keeps (SameOn fun w : World φ => w.memory.spans) (Provider.getTracer eng) := by
    intro w w' h
    obtain ⟨rs, hok⟩ := Direct.getTracer.ok h
    obtain ⟨p, -, ⟨-, -, rfl⟩ | ⟨-, -, rfl⟩⟩ := Provider.getTracer_ok hok <;> rfl
  exact .bind htracer fun _ => .bind (.of_reads Op.reads_getResource) fun _ =>
    .bind (.of_reads .get) fun _ => .bind (.of_reads (.lift _)) fun _ => .modify fun _ => rfl

/-- What is exported are the spans of the request, of which the first has been ended. -/
theorem InSession.exports {payload : List (Option Resource × List Span)}
    (h : InSession eng f w) (hticking : Ticking w) (heffective : ¬ Refuses eng w.globals)
    (hshutdown : shutdown_tracer eng w = .ok ((), w'))
    (hexports : w'.exported = w.exported ++ [payload]) :
    (∀ entry ∈ payload, ∀ s ∈ entry.2, s.Ended) ↔
      ∀ q, f < q → q < w.memory.spans.next → w.EndedAt q := by
  obtain ⟨f', s, x, y, ⟨p, hp, hslot, -⟩, hok, hattach, hy, hsame | ⟨payload', happended, hpayload⟩⟩ :=
    h.tree.ends heffective hshutdown
  · rw [hsame] at hexports
    simp at hexports
  have hfirst := h.first
  rw [World.first, World.slots_of_some hp, hslot] at hfirst
  obtain rfl : f = f' := (Option.some.inj hfirst).symm
  obtain rfl : payload = payload' := by
    have happend := hexports.symm.trans happended
    simpa using happend
  have hclosed := (Closes.okEnd f).returns hok
  have hspans : y.memory.spans = x.memory.spans := spans_attachResource (.of_ok hattach)
  have houtcome (q : Nat) : y.outcome q = x.outcome q := by rw [World.outcome, hspans]; rfl
  have hfirst' : y.first eng = w.first eng :=
    (first_blind.spanwise.attachResource (.of_ok hattach)).trans
      (first_blind.spanwise.okEnd f (.of_ok hok))
  obtain ⟨rs, r, rest, first, htree⟩ := hy.at_first (hfirst'.trans h.first)
  rw [htree.serialises hpayload]
  have hself : first.Ended := by
    obtain ⟨s, hs, hended⟩ := endedAt_congr (houtcome f) (hclosed.ended hticking)
    obtain rfl : first = s := Option.some.inj (htree.cell.symm.trans hs)
    exact hended
  have hother {q : Nat} (hq : f < q) : y.EndedAt q ↔ w.EndedAt q := by
    have hsame : y.outcome q = w.outcome q := (houtcome q).trans (hclosed.outcome q (by omega))
    exact ⟨endedAt_congr hsame.symm, endedAt_congr hsame⟩
  have hnext : y.memory.spans.next = w.memory.spans.next := by rw [hspans, hclosed.next]
  constructor
  · intro hall q hq hlt
    have hmem := (htree.spread q).mpr ⟨hq, hnext ▸ hlt⟩
    obtain ⟨s, hs, -⟩ := htree.children q hmem
    have hexported := List.mem_cons_of_mem first (List.mem_filterMap.mpr ⟨q, hmem, hs⟩)
    exact (hother hq).mp ⟨s, hs, hall _ List.mem_cons_self s hexported⟩
  · intro hall entry hentry s hs
    obtain rfl := List.mem_singleton.mp hentry
    rcases List.mem_cons.mp hs with rfl | hs
    · exact hself
    · obtain ⟨q, hq, hcell⟩ := List.mem_filterMap.mp hs
      obtain ⟨hlt, hnext'⟩ := (htree.spread q).mp hq
      obtain ⟨s', hs', hended⟩ := (hother hlt).mpr (hall q hlt (hnext ▸ hnext'))
      obtain rfl : s = s' := Option.some.inj (hcell.symm.trans hs')
      exact hended

/-- A process whose clock stands still, but not at the epoch. -/
def World.timed : World Unit := { World.fresh () with clock := fun _ => 1 }

theorem ticking_timed : Ticking World.timed := by
  intro n
  change (1 : UInt64) ≠ 0
  decide

/-- A request that is computed to its end. -/
theorem played_request (eng : Engine Unit) (natives : CurlNatives Unit) (is : List (Happening Unit))
    (P : Execution Unit → World Unit → Bool) (hcli : eng.cli = false)
    (h : ((final (opentelemetry_request_init eng) World.timed).any fun v =>
      (is.foldlM (Execution.play eng natives) ⟨v, [], [], [], 0⟩).any fun p =>
        (final (opentelemetry_request_shutdown eng) p.world).any (P p)) = true) :
    ∃ p₀ p w, Begins eng natives p₀ ∧ Ticking p₀.world ∧ Run (Happens eng natives) p₀ is p ∧
      Step eng natives .request_shutdown p.world w ∧ P p w = true := by
  obtain ⟨v, hv, hrest⟩ := (Option.any_eq_true _ _).mp h
  obtain ⟨p, hp, hend⟩ := (Option.any_eq_true _ _).mp hrest
  obtain ⟨w, hw, hP⟩ := (Option.any_eq_true _ _).mp hend
  have hserves : Serves eng World.timed.globals := ⟨rfl, by simp [hcli]⟩
  have hstep : Step eng natives .request_init World.timed v := ends_iff_final.mpr hv
  obtain ⟨hskip, -⟩ | ⟨-, hstart⟩ := request_init_ends hstep
  · exact absurd hserves hskip
  refine ⟨⟨v, [], [], [], 0⟩, p, w, ⟨⟨World.timed, [], _, .request_init, rfl, .nil, hserves, hstep⟩,
    fun f hf => absurd hf List.not_mem_nil, rfl, rfl, rfl⟩, ?_, run_played hp,
    ends_iff_final.mpr hw, hP⟩
  exact ticking_start hstart hserves.not_refuses ticking_timed

instance : DecidablePred Span.Ended := fun s =>
  inferInstanceAs (Decidable (s.status.code ≠ .unset ∧ s.end_time_unix_nano ≠ 0))

/-- What a request exports, if it is one message. -/
def exportsOne (P : Execution Unit → List (Option Resource × List Span) → Bool)
    (p : Execution Unit) (w : World Unit) : Bool :=
  match p.world.exported, w.exported with
  | [], [payload] => P p payload
  | _, _ => false

theorem exportsOne_eq_true {P : Execution Unit → List (Option Resource × List Span) → Bool}
    {p : Execution Unit} {w : World Unit} (h : exportsOne P p w = true) :
    ∃ payload, w.exported = p.world.exported ++ [payload] ∧ P p payload = true := by
  unfold exportsOne at h
  split at h
  · rename_i payload hbefore hafter
    exact ⟨payload, by rw [hbefore, hafter, List.nil_append], h⟩
  · cases h

end opentelemetry
