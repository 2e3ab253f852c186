import OpentelemetryExt.Session.HeaderStore
import OpentelemetryExt.Session.Tree

open heap stateful

namespace opentelemetry

variable {φ : Type} {eng : Engine φ} {natives : CurlNatives φ} {u v w w' : World φ} {q : Nat}
variable {α : Type} {Q : Nat → Prop}

/-- What has become of the span at `q`: its status and its end. -/
def World.outcome (w : World φ) (q : Nat) : Option (Status × UInt64) :=
  (w.memory.spans.cell q).map fun s => (s.status, s.end_time_unix_nano)

def World.FreshAt (w : World φ) (q : Nat) : Prop := ∃ s, w.memory.spans.cell q = some s ∧ s.Fresh

/-- A span that has been ended. -/
def Span.Ended (s : Span) : Prop := s.status.code ≠ .unset ∧ s.end_time_unix_nano ≠ 0

def World.EndedAt (w : World φ) (q : Nat) : Prop := ∃ s, w.memory.spans.cell q = some s ∧ s.Ended

/-- The clock has left the epoch behind, at which its readings would look like no readings. -/
def Ticking (w : World φ) : Prop := ∀ n, w.clock n ≠ 0

theorem freshAt_iff : w.FreshAt q ↔ w.outcome q = some ({}, 0) := by
  simp [World.FreshAt, Span.Fresh, World.outcome, Option.map_eq_some_iff]

theorem endedAt_iff : w.EndedAt q ↔
    ∃ status time, w.outcome q = some (status, time) ∧ status.code ≠ .unset ∧ time ≠ 0 := by
  constructor
  · rintro ⟨s, hs, hcode, htime⟩
    exact ⟨s.status, s.end_time_unix_nano, by rw [World.outcome, hs, Option.map_some], hcode, htime⟩
  · rintro ⟨status, time, hout, hcode, htime⟩
    obtain ⟨s, hs, heq⟩ := Option.map_eq_some_iff.mp hout
    obtain ⟨rfl, rfl⟩ := Prod.mk.inj heq
    exact ⟨s, hs, hcode, htime⟩

theorem World.FreshAt.not_endedAt (h : w.FreshAt q) : ¬ w.EndedAt q := by
  rintro ⟨s, hs, hcode, -⟩
  obtain ⟨s', hs', hstatus, -⟩ := h
  obtain rfl : s = s' := Option.some.inj (hs.symm.trans hs')
  rw [hstatus] at hcode
  exact hcode rfl

theorem outcome_withSpan_self {f : Span → Span} {s : Span} (hs : w.memory.spans.cell q = some s) :
    (w.withSpan q f).outcome q = some ((f s).status, (f s).end_time_unix_nano) := by
  simp [World.outcome, World.withSpan, hs]

theorem outcome_withSpan_ne {f : Span → Span} {q' : Nat} (hq : q' ≠ q) :
    (w.withSpan q f).outcome q' = w.outcome q' := by
  rw [World.outcome, World.withSpan, World.memory_withMemory, Heap.cell_modify_ne hq]
  rfl

/-- Nothing becomes of any spans but those in `Q`, and there are no new ones. -/
structure Only (Q : Nat → Prop) (w w' : World φ) : Prop where
  next : w'.memory.spans.next = w.memory.spans.next
  outcome (q : Nat) : ¬ Q q → w'.outcome q = w.outcome q
  ticking : Ticking w → Ticking w'

instance : Std.Refl (Only Q : World φ → World φ → Prop) := ⟨fun _ => ⟨rfl, fun _ _ => rfl, id⟩⟩

instance : IsTrans (World φ) (Only Q) where
  trans _ _ _ h h' := ⟨h'.next.trans h.next, fun q hq => (h'.outcome q hq).trans (h.outcome q hq),
    fun hw => h'.ticking (h.ticking hw)⟩

/-- Nothing becomes of any span. -/
abbrev Calm : World φ → World φ → Prop := Only fun _ => False

theorem Only.mono {Q' : Nat → Prop} (h : Only Q w w') (hQ : ∀ q, Q q → Q' q) : Only Q' w w' :=
  ⟨h.next, fun q hq => h.outcome q fun hmem => hq (hQ q hmem), h.ticking⟩

theorem Only.of_spans (hspans : w'.memory.spans = w.memory.spans) (hclock : w'.clock = w.clock) :
    Only Q w w' where
  next := by rw [hspans]
  outcome q _ := by rw [World.outcome, hspans]; rfl
  ticking hw n := hclock ▸ hw n

theorem Only.tick (w : World φ) : Only Q w { w with clock := fun n => w.clock (n + 1) } :=
  ⟨rfl, fun _ _ => rfl, fun hw n => hw (n + 1)⟩

theorem Only.withSpan (f : Span → Span) (hq : Q q) : Only Q w (w.withSpan q f) where
  next := rfl
  outcome _ hq' := outcome_withSpan_ne fun heq => hq' (heq ▸ hq)
  ticking := id

/-- To note something about a span makes nothing of it. -/
theorem Only.notes {f : Span → Span} (hf : Notes f) : Only Q w (w.withSpan q f) where
  next := rfl
  outcome q' _ := by
    by_cases hq : q' = q
    · subst hq
      obtain ⟨-, hsame⟩ := hf
      cases hs : w.memory.spans.cell q' with
      | none => simp [World.outcome, World.withSpan, hs]
      | some s =>
        rw [outcome_withSpan_self hs, (hsame s).1, (hsame s).2, World.outcome, hs, Option.map_some]
    · exact outcome_withSpan_ne hq
  ticking := id

/-- Code that neither creates nor ends spans. -/
theorem only_built {g : Grants} {m : M φ α} (hcreates : ¬ g.creates) (hends : ¬ g.ends)
    (hm : Built (Move eng g) m) : Keeps (Only Q) m := by
  have hslot (f : Slot → Slot) : Keeps (Only Q) (modifySlot eng f) := by
    intro w w' h
    obtain ⟨p, hp, rfl⟩ := modifySlot_ends h
    exact .of_spans rfl rfl
  refine hm.keeps fun hmove => ?_
  cases hmove with
  | createChildSpan h name kind => exact absurd h hcreates
  | note span hf =>
    intro w w' h
    obtain ⟨-, rfl⟩ := modifySpan_ends h
    exact .notes hf
  | okEnd h span => exact absurd h hends
  | errorEnd h span message => exact absurd h hends
  | setSampled _ isSampled => exact hslot _
  | setRedisException _ message => exact hslot _
  | assignBaggage key value => exact hslot _
  | addResourceAttribute resource kv =>
    exact .bind (.of_reads .get) fun _ => .bind (.of_reads (.lift _)) fun _ =>
      .modify fun _ => .of_spans rfl rfl
  | tick =>
    intro w w' h
    obtain ⟨_, h⟩ | h := h <;> cases h
    exact .tick w
  | php state => exact .modify fun _ => .of_spans rfl rfl
  | headers _ entries => exact .modify fun _ => .of_spans rfl rfl

theorem only_addAttribute (span : Nat) (kv : KeyValue) :
    Keeps (Only Q) (addAttribute span kv : M φ Unit) := by
  intro w w' h
  obtain ⟨-, rfl⟩ := modifySpan_ends h
  exact .notes ⟨fun _ => ⟨rfl, rfl, rfl⟩, fun _ => ⟨rfl, rfl⟩⟩

theorem calm_built {m : M φ α} (hm : Built (Move eng Grants.none) m) : Keeps (Only Q) m :=
  only_built id id hm

/-- One span is created, at `q`, and nothing becomes of the others. -/
structure Adds (q : Nat) (w w' : World φ) : Prop where
  pointer : q = w.memory.spans.next
  next : w'.memory.spans.next = q + 1
  new : w'.FreshAt q
  old (q' : Nat) : q' ≠ q → w'.outcome q' = w.outcome q'
  ticking : Ticking w → Ticking w'

theorem Adds.trans_calm (h : Adds q u v) (hcalm : Calm v w) : Adds q u w where
  pointer := h.pointer
  next := hcalm.next.trans h.next
  new := by
    rw [freshAt_iff, hcalm.outcome q id]
    exact freshAt_iff.mp h.new
  old q' hq' := (hcalm.outcome q' id).trans (h.old q' hq')
  ticking hu := hcalm.ticking (h.ticking hu)

theorem ticking_blind : Blind eng (Preserves (Ticking : World φ → Prop)) where
  memory _ _ h := h
  clock _ h n := h (n + 1)
  uuids _ _ h := h
  slot _ _ _ h := h

theorem createChildSpan_adds {name : Bytes} {kind : SpanKind}
    (h : Provider.createChildSpan eng name kind w = .ok (q, w')) : Adds q w w' := by
  have hticking := ticking_blind.spanwise.createChildSpan _ _ (.of_ok h)
  obtain ⟨v, f, first, -, hspan, rfl⟩ := createChildSpan_ok h
  obtain ⟨s, hspans, hpointer, hfresh⟩ := createSpan_spans hspan
  have hcell : v.memory.spans.cell q = some s := by rw [hspans, hpointer, Heap.cell_alloc_self]
  refine ⟨hpointer, ?_, ?_, fun q' hq' => ?_, hticking⟩
  · rw [World.withSpan, World.memory_withMemory, Heap.next_modify, hspans, hpointer]
    rfl
  · rw [freshAt_iff, outcome_withSpan_self hcell, hfresh.1, hfresh.2]
  · rw [outcome_withSpan_ne hq', World.outcome, hspans, Heap.cell_alloc_ne (hpointer ▸ hq')]
    rfl

theorem Spawns.returns {g : Grants} {m : M φ Nat} (hm : Spawns eng g m) (hcreates : ¬ g.creates)
    (hends : ¬ g.ends) (h : m w = .ok (q, w')) : Adds q w w' := by
  obtain ⟨name, kind, f, rfl, hrest⟩ := hm
  obtain ⟨q', u, hcreate, hlast⟩ := bind_ok_iff.mp h
  obtain rfl : q = q' := (hrest q').2 hlast
  exact (createChildSpan_adds hcreate).trans_calm
    (only_built hcreates hends (hrest q).1 (.of_ok hlast))

theorem Spawns.unwinds {g : Grants} {m : M φ Nat} (hm : Spawns eng g m) (hcreates : ¬ g.creates)
    (hends : ¬ g.ends) (h : m w = .error (.unwind w')) : Adds w.memory.spans.next w w' := by
  obtain ⟨name, kind, f, rfl, hrest⟩ := hm
  obtain ⟨q, u, hcreate, hlast⟩ | hleft := bind_unwind_iff.mp h
  · have hadds := createChildSpan_adds hcreate
    rw [← hadds.pointer]
    exact hadds.trans_calm (only_built hcreates hends (hrest q).1 (.inr hlast))
  · exact absurd hleft (Direct.createChildSpan name kind w w')

/-- The first half of a hooked call: a span is created, and handed to the second half, or none
is. If PHP unwinds past it, there is one all the same. -/
structure Enters (m : M φ (Option Nat)) : Prop where
  returns {w w' : World φ} {span : Option Nat} : m w = .ok (span, w') →
    span = none ∧ Calm w w' ∨ ∃ q, span = some q ∧ Adds q w w'
  unwinds {w w' : World φ} : m w = .error (.unwind w') → Adds w.memory.spans.next w w'

namespace Enters

theorem spawns {g : Grants} {m : M φ Nat} {f : Nat → M φ (Option Nat)} (hcreates : ¬ g.creates)
    (hends : ¬ g.ends) (hm : Spawns eng g m) (hbuilt : ∀ span, Built (Move eng g) (f span))
    (hyields : ∀ span, Yields (some span) (f span)) : Enters (m >>= f) where
  returns h := by
    obtain ⟨q, u, hfirst, hlast⟩ := bind_ok_iff.mp h
    exact .inr ⟨q, hyields q hlast, (hm.returns hcreates hends hfirst).trans_calm
      (only_built hcreates hends (hbuilt q) (.of_ok hlast))⟩
  unwinds h := by
    obtain ⟨q, u, hfirst, hlast⟩ | hleft := bind_unwind_iff.mp h
    · have hadds := hm.returns hcreates hends hfirst
      rw [← hadds.pointer]
      exact hadds.trans_calm (only_built hcreates hends (hbuilt q) (.inr hlast))
    · exact hm.unwinds hcreates hends hleft

theorem none : Enters (pure none : M φ (Option Nat)) where
  returns h := by
    cases h
    exact .inl ⟨rfl, Std.Refl.refl _⟩
  unwinds h := by cases h

theorem reads {β : Type} {m : M φ β} {f : β → M φ (Option Nat)} (hreads : Reads m)
    (hdirect : Direct m) (hf : ∀ b, Enters (f b)) : Enters (m >>= f) where
  returns h := by
    obtain ⟨b, u, hfirst, hlast⟩ := bind_ok_iff.mp h
    obtain rfl := hreads (.of_ok hfirst)
    exact (hf b).returns hlast
  unwinds h := by
    obtain ⟨b, u, hfirst, hlast⟩ | hleft := bind_unwind_iff.mp h
    · obtain rfl := hreads (.of_ok hfirst)
      exact (hf b).unwinds hlast
    · exact absurd hleft (hdirect _ _)

theorem ite {p : Prop} [Decidable p] {m n : M φ (Option Nat)} (hm : Enters m) (hn : Enters n) :
    Enters (if p then m else n) := by
  split
  · exact hm
  · exact hn

theorem handler {enter : ExecuteData → M φ Nat}
    (h : ∀ execute_data, Spawns eng Grants.none (enter execute_data)) (execute_data : ExecuteData) :
    Enters (enterHandler enter execute_data) :=
  .reads Op.reads_is_has_provider Direct.is_has_provider fun _ =>
    .ite (.spawns id id (h execute_data) (fun _ => .pure _) fun _ => .pure _) .none

theorem bind {m : M φ (Option Nat)} {f : Option Nat → M φ (Option Nat)} (hm : Enters m)
    (hf : ∀ span, Keeps Calm (f span)) (hyields : ∀ span, Yields span (f span))
    (hdirect : ∀ span, Direct (f span)) : Enters (m >>= f) where
  returns h := by
    obtain ⟨span, u, hfirst, hlast⟩ := bind_ok_iff.mp h
    have hcalm : Calm u _ := hf span (.of_ok hlast)
    obtain ⟨rfl, hnone⟩ | ⟨q, rfl, hadds⟩ := hm.returns hfirst
    · exact .inl ⟨hyields _ hlast, IsTrans.trans _ _ _ hnone hcalm⟩
    · exact .inr ⟨q, hyields _ hlast, hadds.trans_calm hcalm⟩
  unwinds h := by
    obtain ⟨span, u, -, hlast⟩ | hleft := bind_unwind_iff.mp h
    · exact absurd hlast (hdirect span _ _)
    · exact hm.unwinds hleft

theorem curlExec (execute_data : ExecuteData) (zid : Zval) (cid : Nat) :
    Enters (curlExecEnter eng natives.originals execute_data zid cid) := by
  refine .reads (Move.reads_recordedUrl _) (Direct.recordedUrl _) fun url =>
    .reads Op.reads_curlHeader Direct.curlHeader fun entries => ?_
  cases url with
  | none => exact .none
  | some url =>
    refine .spawns (g := { Grants.none with stores := True }) id id (Move.spawns_curlSpan url)
      (fun span => ?_) fun span => .bind fun _ => .bind fun _ => .bind fun _ => .bind fun _ => .pure _
    exact .bind (Move.built_curlHeaders trivial _ _ _) fun _ =>
      .bind (.reads (Op.reads_json_encode _)) fun _ => .bind (Move.built_addAttribute _ _) fun _ =>
        .bind (.bind (Move.built_curl_setopt trivial (Move.built_native _) _) fun _ => .pure _)
          fun _ => .pure _

theorem hook (hook : Hook) (execute_data : ExecuteData) :
    Enters (hook.enter eng natives execute_data) := by
  cases hook with
  | redis => exact handler Move.spawns_redisEnter _
  | memcached => exact handler Move.spawns_memcachedEnter _
  | pdo => exact handler Move.spawns_pdoEnter _
  | pdo_statement => exact handler Move.spawns_pdoStatementEnter _
  | mysqli => exact handler Move.spawns_mysqliEnter _
  | yar_client => exact handler Move.spawns_yarClientEnter _
  | yar_server =>
    have hbuilt (span : Option Nat) : Built (Move eng Grants.none) (do
        addAttribute (← lift (readLocal span)) (string_attribute "rpc.system" (lit "yar"))
        return span) :=
      .bind (.reads (.lift _)) fun _ => .bind (Move.built_addAttribute _ _) fun _ => .pure _
    exact (handler (fun _ => Spawns.openSpan _ _ _) execute_data).bind
      (fun span => calm_built (hbuilt span)) (fun span => .bind fun _ => .bind fun _ => .pure _)
      fun span => .bind (.lift _) fun _ => .bind (Direct.addAttribute _ _) fun _ => .pure _
  | curl_exec =>
    refine .reads Op.reads_is_has_provider Direct.is_has_provider fun _ => .ite ?_ .none
    split
    · split
      · exact .curlExec _ _ _
      · exact .none
    · exact .none

end Enters

/-- The state once the clock has been read. -/
def World.ticked (w : World φ) : World φ := { w with clock := fun n => w.clock (n + 1) }

theorem withSpan_withSpan (w : World φ) (q : Nat) (f g : Span → Span) :
    (w.withSpan q f).withSpan q g = w.withSpan q fun s => g (f s) := by
  simp only [World.withSpan, World.memory_withMemory, Heap.modify_modify]
  rfl

theorem Provider.okEnd_ok {a : Unit} (h : Provider.okEnd q w = .ok (a, w')) :
    ∃ s, w.memory.spans.cell q = some s ∧ w' = w.ticked.withSpan q fun s => { s with
      status := if s.status.code = .unset then ⟨.ok, []⟩ else s.status
      end_time_unix_nano := w.clock 0 } := by
  obtain ⟨⟨⟩, u, hstatus, hrest⟩ := bind_ok_iff.mp h
  obtain ⟨⟨s, hs⟩, rfl⟩ := modifySpan_ends (.of_ok hstatus)
  obtain ⟨now, v, hclock, hend⟩ := bind_ok_iff.mp hrest
  cases hclock
  obtain ⟨-, rfl⟩ := modifySpan_ends (.of_ok hend)
  refine ⟨s, hs, (withSpan_withSpan w.ticked q _ _).trans (congrArg _ (funext fun s => ?_))⟩
  by_cases hcode : s.status.code = .unset
  · simp only [if_pos hcode]
    rfl
  · simp only [if_neg hcode]
    rfl

theorem Provider.errorEnd_ok {message : Bytes} {a : Unit}
    (h : Provider.errorEnd eng q message w = .ok (a, w')) :
    ∃ s p, w.memory.spans.cell q = some s ∧ w.globals.provider = some p ∧
      w' = (w.ticked.withSpan q fun s => { s with
          status := ⟨.error, message⟩, end_time_unix_nano := w.clock 0 }).withProvider
        (p.set (w.key eng) { p.slots (w.key eng) with is_sampled := true }) := by
  obtain ⟨now, u, hclock, hrest⟩ := bind_ok_iff.mp h
  cases hclock
  obtain ⟨⟨⟩, v, hend, hsampled⟩ := bind_ok_iff.mp hrest
  obtain ⟨⟨s, hs⟩, rfl⟩ := modifySpan_ends (.of_ok hend)
  obtain ⟨p, hp, rfl⟩ := modifySlot_ends (.of_ok hsampled)
  exact ⟨s, p, hs, hp, rfl⟩

/-- The span at `q` is ended, and nothing becomes of the others. -/
structure Closed (q : Nat) (w w' : World φ) : Prop extends Only (· = q) w w' where
  ended : Ticking w → w'.EndedAt q

/-- Code that ends the span at `q` when it returns. If PHP unwinds past it, nothing has become of
the span. -/
structure Closes (q : Nat) (m : M φ α) : Prop where
  returns {w w' : World φ} {a : α} : m w = .ok (a, w') → Closed q w w'
  unwinds {w w' : World φ} : m w = .error (.unwind w') → Calm w w'

namespace Closes

variable {β : Type}

theorem okEnd (q : Nat) : Closes q (Provider.okEnd q : M φ Unit) where
  returns h := by
    obtain ⟨s, hs, rfl⟩ := Provider.okEnd_ok h
    refine ⟨IsTrans.trans _ _ _ (.tick _) (.withSpan _ rfl), fun hticking => ?_⟩
    refine endedAt_iff.mpr ⟨_, _, outcome_withSpan_self hs, ?_, hticking 0⟩
    dsimp only
    split
    · exact StatusCode.noConfusion
    · assumption
  unwinds h := absurd h (Direct.okEnd q _ _)

theorem errorEnd (q : Nat) (message : Bytes) : Closes q (Provider.errorEnd eng q message) where
  returns h := by
    obtain ⟨s, p, hs, hp, rfl⟩ := Provider.errorEnd_ok h
    refine ⟨IsTrans.trans _ _ _ (.tick _) (IsTrans.trans _ _ _ (.withSpan _ rfl) (.of_spans rfl rfl)),
      fun hticking => ?_⟩
    exact endedAt_iff.mpr ⟨_, _, outcome_withSpan_self hs, StatusCode.noConfusion, hticking 0⟩
  unwinds h := absurd h (Direct.errorEnd q message _ _)

/-- What comes before the end of the span makes nothing of any span. -/
theorem after {m : M φ β} {f : β → M φ α} (hm : Keeps Calm m) (hf : ∀ b, Closes q (f b)) :
    Closes q (m >>= f) where
  returns h := by
    obtain ⟨b, u, hfirst, hlast⟩ := bind_ok_iff.mp h
    have hcalm := hm (.of_ok hfirst)
    have hclosed := (hf b).returns hlast
    exact ⟨IsTrans.trans _ _ _ (hcalm.mono fun _ => False.elim) hclosed.toOnly,
      fun hticking => hclosed.ended (hcalm.ticking hticking)⟩
  unwinds h := by
    obtain ⟨b, u, hfirst, hlast⟩ | hleft := bind_unwind_iff.mp h
    · exact IsTrans.trans _ _ _ (hm (.of_ok hfirst)) ((hf b).unwinds hlast)
    · exact hm (.inr hleft)

/-- What comes before the end of the span may already have ended it. -/
theorem touched {m : M φ β} {f : β → M φ α} (hm : Keeps (Only (· = q)) m) (hdirect : Direct m)
    (hf : ∀ b, Closes q (f b)) (hfdirect : ∀ b, Direct (f b)) : Closes q (m >>= f) where
  returns h := by
    obtain ⟨b, u, hfirst, hlast⟩ := bind_ok_iff.mp h
    have honly := hm (.of_ok hfirst)
    have hclosed := (hf b).returns hlast
    exact ⟨IsTrans.trans _ _ _ honly hclosed.toOnly,
      fun hticking => hclosed.ended (honly.ticking hticking)⟩
  unwinds h := absurd h (hdirect.bind hfdirect _ _)

/-- What comes after it makes nothing of any span. -/
theorem before {m : M φ β} {f : β → M φ α} (hm : Closes q m) (hf : ∀ b, Keeps Calm (f b))
    (hdirect : ∀ b, Direct (f b)) : Closes q (m >>= f) where
  returns h := by
    obtain ⟨b, u, hfirst, hlast⟩ := bind_ok_iff.mp h
    have hclosed := hm.returns hfirst
    have hcalm := hf b (.of_ok hlast)
    refine ⟨IsTrans.trans _ _ _ hclosed.toOnly (hcalm.mono fun _ => False.elim), fun hticking => ?_⟩
    rw [endedAt_iff, hcalm.outcome q id]
    exact endedAt_iff.mp (hclosed.ended hticking)
  unwinds h := by
    obtain ⟨b, u, -, hlast⟩ | hleft := bind_unwind_iff.mp h
    · exact absurd hlast (hdirect b _ _)
    · exact hm.unwinds hleft

theorem ite {p : Prop} [Decidable p] {m n : M φ α} (hm : Closes q m) (hn : Closes q n) :
    Closes q (if p then m else n) := by
  split
  · exact hm
  · exact hn

theorem redisLeave (execute_data : ExecuteData) (q : Nat) :
    Closes q (redisLeave eng execute_data q) := by
  refine .after (.of_reads (.bind Op.reads_getRedisException fun _ => .pure _)) fun raised =>
    .ite (.after (.of_reads Op.reads_getRedisException) fun message => ?_) (.okEnd q)
  refine (Closes.errorEnd q message).before (fun _ => ?_) fun _ => Direct.setRedisException []
  exact only_built (g := { Grants.none with raises := True }) id id (.op (.setRedisException trivial []))

theorem memcachedLeave (execute_data : ExecuteData) (q : Nat) :
    Closes q (memcachedLeave eng execute_data q) := by
  refine .after (calm_built (Move.built_zend_call_method _ _ _)) fun result => ?_
  have hnoted (kv : KeyValue) : Keeps (Calm : World φ → World φ → Prop) (addAttribute q kv) :=
    only_addAttribute q kv
  split
  · exact .ite (.ite (.after (hnoted _) fun _ => .okEnd q) (.okEnd q))
      (.ite (.after (hnoted _) fun _ => .okEnd q) (.errorEnd q _))
  · exact .errorEnd q _

theorem pdoLeave (execute_data : ExecuteData) (q : Nat) : Closes q (pdoLeave eng execute_data q) := by
  refine .after (.of_reads (Move.reads_Z_PDO_DBH_P _)) fun dbh => ?_
  dsimp only
  split
  · exact .okEnd q
  · refine .after (.of_reads (.lift _)) fun message => ?_
    split
    · exact .errorEnd q _
    · exact .okEnd q

theorem pdoStatementLeave (execute_data : ExecuteData) (q : Nat) :
    Closes q (pdoStatementLeave eng execute_data q) := by
  refine .after (.of_reads (Move.reads_Z_PDO_STMT_P _)) fun stmt => .ite ?_ (.okEnd q)
  refine .after (.of_reads (.lift _)) fun _ => .after (.of_reads (.lift _)) fun message => ?_
  split
  · exact .errorEnd q _
  · exact .errorEnd q _

theorem curlOutcome_direct (zid return_value : Zval) (http_code : Int) :
    Direct (curlOutcome eng zid return_value q http_code) := by
  have hmessage : Direct (curlErrorMessage eng zid) := by
    refine .bind .get fun w => .bind (.lift _) fun curl_error => .ite (.pure _) ?_
    refine .bind (.lift _) fun error => ?_
    dsimp only
    split
    · exact .pure _
    · exact .pure _
  exact .ite (.bind hmessage fun _ => Direct.errorEnd _ _)
    (.ite (.bind (.lift _) fun _ => .bind (Direct.addAttribute _ _) fun _ => .bind (.lift _) fun _ =>
        Direct.errorEnd _ _)
      (.ite (.bind (.lift _) fun _ => Direct.addAttribute _ _) (.pure _)))

/-- The span of a failed call is ended twice. -/
theorem curlOutcome_only (zid return_value : Zval) (http_code : Int) :
    Keeps (Only (· = q)) (curlOutcome eng zid return_value q http_code) := by
  have herror (message : Bytes) : Keeps (Only (· = q)) (Provider.errorEnd eng q message) := by
    intro w w' h
    obtain ⟨a, hok⟩ := (Direct.errorEnd q message).ok h
    exact ((errorEnd q message).returns hok).toOnly
  have hnoted (kv : KeyValue) : Keeps (Only (· = q)) (addAttribute q kv : M φ Unit) :=
    only_addAttribute q kv
  exact .ite (.bind (.of_reads (Move.reads_curlErrorMessage _)) fun _ => herror _)
    (.ite (.bind (.of_reads (.lift _)) fun _ => .bind (hnoted _) fun _ =>
        .bind (.of_reads (.lift _)) fun _ => herror _)
      (.ite (.bind (.of_reads (.lift _)) fun _ => hnoted _) (.of_reads (.pure _))))

theorem curlExecLeave (execute_data : ExecuteData) (zid return_value : Zval) (q : Nat) :
    Closes q (curlExecLeave eng execute_data zid return_value q) := by
  have hnoted (kv : KeyValue) : Keeps (Calm : World φ → World φ → Prop) (addAttribute q kv) :=
    only_addAttribute q kv
  refine .after (calm_built
    (show Built (Move eng Grants.none) _ from Move.built_addAttributes q _)) fun _ => ?_
  refine .after (.of_reads .get) fun w => .after (.of_reads (.lift _)) fun info => ?_
  refine .after (.of_reads (.lift _)) fun http_code => .after (hnoted _) fun _ => ?_
  refine .after (.of_reads (.lift _)) fun primary_ip => .after (hnoted _) fun _ => ?_
  refine .after (.of_reads (Op.reads_json_encode _)) fun text => .after (hnoted _) fun _ => ?_
  refine .after (calm_built (Built.forM (P := Move eng Grants.none) fun timing =>
    .bind (.reads (.lift _)) fun _ => Move.built_addAttribute q _)) fun _ => ?_
  exact .touched (curlOutcome_only _ _ _) (curlOutcome_direct _ _ _) (fun _ => .okEnd q)
    fun _ => Direct.okEnd q

end Closes

section

variable {hook : Hook} {execute_data : ExecuteData} {return_value : Zval} {a : Unit}

theorem leaveHandler_of_provider {leave : ExecuteData → Nat → M φ Unit} (span : Option Nat)
    (hprovider : w.globals.provider.isSome) : leaveHandler leave execute_data span w =
      (do leave execute_data (← lift (readLocal span))) w := by
  simp only [leaveHandler, is_has_provider, bind_apply, globals_apply, ok_bind, pure_apply,
    hprovider, if_true]

theorem leave_curl_exec (eng : Engine φ) (execute_data : ExecuteData) (return_value : Zval)
    (span : Option Nat) :
    (∃ zid q, execute_data.args = [zid] ∧ span = some q ∧
      Hook.leave eng .curl_exec execute_data return_value span =
        curlExecLeave eng execute_data zid return_value q) ∨
      (span = none ∨ ∀ zid, execute_data.args ≠ [zid]) ∧
        Hook.leave eng .curl_exec execute_data return_value span = pure () := by
  obtain ⟨func, args, This, callers⟩ := execute_data
  cases span with
  | none => exact .inr ⟨.inl rfl, by rcases args with _ | ⟨zid, _ | ⟨_, _⟩⟩ <;> rfl⟩
  | some q =>
    rcases args with _ | ⟨zid, _ | ⟨_, _⟩⟩
    · exact .inr ⟨.inr fun zid => by simp, rfl⟩
    · exact .inl ⟨zid, q, rfl, rfl, rfl⟩
    · exact .inr ⟨.inr fun zid => by simp, rfl⟩

/-- The second half of a hooked call ends the span that the first half has handed to it. -/
theorem leave_closed (hargs : hook = .curl_exec → ∃ zid, execute_data.args = [zid])
    (hprovider : w.globals.provider.isSome)
    (h : hook.leave eng execute_data return_value (some q) w = .ok (a, w')) : Closed q w w' := by
  have hhandler {leave : ExecuteData → Nat → M φ Unit} (hcloses : ∀ e, Closes q (leave e q))
      (h : leaveHandler leave execute_data (some q) w = .ok (a, w')) : Closed q w w' := by
    rw [leaveHandler_of_provider _ hprovider] at h
    exact (hcloses execute_data).returns h
  cases hook with
  | redis => exact hhandler (fun _ => .redisLeave _ q) h
  | memcached => exact hhandler (fun _ => .memcachedLeave _ q) h
  | pdo => exact hhandler (fun _ => .pdoLeave _ q) h
  | pdo_statement => exact hhandler (fun _ => .pdoStatementLeave _ q) h
  | mysqli => exact hhandler (fun _ => .okEnd q) h
  | yar_client => exact hhandler (fun _ => .okEnd q) h
  | yar_server => exact hhandler (fun _ => .okEnd q) h
  | curl_exec =>
    obtain ⟨zid, q', -, hspan, heq⟩ | ⟨hspan | hno, -⟩ :=
      leave_curl_exec eng execute_data return_value (some q)
    · obtain rfl := Option.some.inj hspan
      rw [heq] at h
      exact (Closes.curlExecLeave execute_data zid return_value q).returns h
    · cases hspan
    · obtain ⟨zid, hzid⟩ := hargs rfl
      exact absurd hzid (hno zid)

/-- Without a span it does nothing, if it gets away with it. -/
theorem leave_none (hprovider : w.globals.provider.isSome)
    (h : hook.leave eng execute_data return_value none w = .ok (a, w')) : w' = w := by
  have hhandler {leave : ExecuteData → Nat → M φ Unit}
      (h : leaveHandler leave execute_data none w = .ok (a, w')) : w' = w := by
    rw [leaveHandler_of_provider _ hprovider] at h
    cases h
  cases hook with
  | curl_exec =>
    obtain ⟨zid, q, -, hspan, -⟩ | ⟨-, heq⟩ := leave_curl_exec eng execute_data return_value none
    · cases hspan
    · rw [heq] at h
      cases h
      rfl
  | _ => exact hhandler h

theorem leave_unwinds {span : Option Nat}
    (h : hook.leave eng execute_data return_value span w = .error (.unwind w')) : Calm w w' := by
  have hhandler {leave : ExecuteData → Nat → M φ Unit} (hcloses : ∀ e q, Closes q (leave e q))
      (h : leaveHandler leave execute_data span w = .error (.unwind w')) : Calm w w' := by
    cases hp : w.globals.provider with
    | none => simp [leaveHandler, is_has_provider, globals_apply, hp] at h
    | some p =>
      rw [leaveHandler_of_provider _ (by rw [hp]; rfl)] at h
      obtain ⟨q, u, hread, hleave⟩ | hleft := bind_unwind_iff.mp h
      · obtain ⟨-, rfl⟩ := lift_ok_iff.mp hread
        exact (hcloses execute_data q).unwinds hleave
      · exact absurd hleft (Direct.lift _ _ _)
  cases hook with
  | redis => exact hhandler .redisLeave h
  | memcached => exact hhandler .memcachedLeave h
  | pdo => exact hhandler .pdoLeave h
  | pdo_statement => exact hhandler .pdoStatementLeave h
  | mysqli => exact hhandler (fun _ => .okEnd) h
  | yar_client => exact hhandler (fun _ => .okEnd) h
  | yar_server => exact hhandler (fun _ => .okEnd) h
  | curl_exec =>
    obtain ⟨zid, q, -, -, heq⟩ | ⟨-, heq⟩ := leave_curl_exec eng execute_data return_value span
    · rw [heq] at h
      exact (Closes.curlExecLeave execute_data zid return_value q).unwinds h
    · rw [heq] at h
      cases h

end

/-- The first span under the current key. -/
def World.first (eng : Engine φ) (w : World φ) : Option Nat := (w.slots (w.key eng)).firstSpan

theorem first_blind : Blind eng (SameOn (World.first eng)) where
  memory _ _ := rfl
  clock _ := rfl
  uuids _ _ := rfl
  slot {w p s} hp hfirst _ := by
    have hslots := World.slots_of_some hp
    rw [SameOn, World.first, World.first, hslots, ← hfirst]
    simp [World.slots]

/-- A step after which every new span has been ended, and nothing has become of the old ones but,
maybe, the first span. -/
structure Settles (f : Nat) (w w' : World φ) : Prop where
  grows : w.memory.spans.next ≤ w'.memory.spans.next
  old (q : Nat) : q ≠ f → q < w.memory.spans.next → w'.outcome q = w.outcome q
  new (q : Nat) : Ticking w → w.memory.spans.next ≤ q → q < w'.memory.spans.next → w'.EndedAt q

theorem Settles.of_calm {f : Nat} (h : Calm w w') : Settles f w w' where
  grows := h.next.ge
  old q _ _ := h.outcome q id
  new q _ hge hlt := absurd (h.next ▸ hlt) (by omega)

/-- Where no span is touched at all. -/
theorem Settles.of_spans {f : Nat} (h : w'.memory.spans = w.memory.spans) : Settles f w w' where
  grows := by rw [h]
  old q _ _ := by rw [World.outcome, h]; rfl
  new q _ hge hlt := absurd (h ▸ hlt) (by omega)

/-- A span that is created and ended. -/
theorem Settles.of_adds {f : Nat} (hadds : Adds q u v) (honly : Only (fun x => x = q ∨ x = f) v w)
    (hended : Ticking v → w.EndedAt q) : Settles f u w where
  grows := by
    have hnext := hadds.next
    have hpointer := hadds.pointer
    rw [honly.next]
    omega
  old q' hne hlt := by
    have hpointer := hadds.pointer
    have hq : q' ≠ q := by omega
    exact (honly.outcome q' (by simp [hq, hne])).trans (hadds.old q' hq)
  new q' hticking hge hlt := by
    have hnext := hadds.next
    have hpointer := hadds.pointer
    rw [honly.next] at hlt
    obtain rfl : q' = q := by omega
    exact hended (hadds.ticking hticking)

/-- The error callback ends its own span, and may end the first span as well. -/
theorem endErrorSpan_ends {f : Nat} {args : ErrorArgs} (hfirst : w.first eng = some f)
    (h : Ends (endErrorSpan eng args q) w w') :
    Only (fun x => x = q ∨ x = f) w w' ∧ (Ticking w → w'.EndedAt q) := by
  have hclosed {u : World φ} {m : M φ Unit} (hcloses : Closes q m) (hdirect : Direct m)
      (h : Ends m u w') : Only (fun x => x = q ∨ x = f) u w' ∧ (Ticking u → w'.EndedAt q) := by
    obtain ⟨_, hok⟩ := hdirect.ok h
    exact ⟨(hcloses.returns hok).toOnly.mono fun _ => .inl, (hcloses.returns hok).ended⟩
  unfold endErrorSpan at h
  dsimp only at h
  split at h
  · split at h
    · obtain ⟨first, v, hread, hmarking⟩ | hleft := ends_bind_iff.mp h
      · obtain ⟨p, hp, rfl, rfl⟩ := Provider.firstOneSpan_ok hread
        obtain ⟨f', v', hderef, hboth⟩ | hleft := ends_bind_iff.mp hmarking
        · obtain ⟨hslot, rfl⟩ := lift_ok_iff.mp hderef
          rw [World.first, World.slots_of_some hp] at hfirst
          obtain rfl : f = f' := Option.some.inj (hfirst.symm.trans (deref_eq_ok_iff.mp hslot))
          obtain ⟨_, u, hmark, hend⟩ | hleft := ends_bind_iff.mp hboth
          · have hmarked := ((Closes.errorEnd f _).returns hmark).toOnly
            obtain ⟨honly, hended⟩ := hclosed (.errorEnd q _) (Direct.errorEnd q _) hend
            exact ⟨IsTrans.trans _ _ _ (hmarked.mono fun _ => .inr) honly,
              fun hticking => hended (hmarked.ticking hticking)⟩
          · exact absurd hleft (Direct.errorEnd _ _ _ _)
        · exact absurd hleft (Direct.lift _ _ _)
      · exact absurd hleft (Direct.firstOneSpan _ _)
    · exact hclosed (.errorEnd q _) (Direct.errorEnd q _) h
  · exact hclosed (.okEnd q) (Direct.okEnd q) h

theorem first_createChildSpan {name : Bytes} {kind : SpanKind}
    (h : Provider.createChildSpan eng name kind w = .ok (q, w')) : w'.first eng = w.first eng :=
  first_blind.spanwise.createChildSpan _ _ (.of_ok h)

theorem direct_exceptionAttributes (args : ExceptionArgs) (message file : Bytes) (line : Int)
    (span : Nat) : Direct (do
      addAttribute span (string_attribute "exception.type" (c_str args.class_name))
      addAttribute span (string_attribute "exception.message" message)
      addAttribute span
        (string_attribute "exception.stacktrace" (file ++ lit ":" ++ to_string line))
      if c_str args.class_name = lit "RedisException" then Provider.setRedisException eng message
      addAttribute span (string_attribute "code.stacktrace" (find_code_stacktrace args.callers))) :=
  .bind (Direct.addAttribute _ _) fun _ => .bind (Direct.addAttribute _ _) fun _ =>
    .bind (Direct.addAttribute _ _) fun _ =>
      .ite (.bind (Direct.setRedisException _) fun _ => Direct.addAttribute _ _)
        (Direct.addAttribute _ _)

theorem direct_addSpanAttribute (span : Nat) (entry : ArrayKey × Zval) :
    Direct (addSpanAttribute eng span entry) := by
  have htext (value : Zval) : Direct (attributeText eng value) := by
    cases value with
    | array entries => exact Direct.json_encode _
    | string s => exact .pure _
    | _ => exact .bind .get fun _ => .pure _
  exact .bind (.lift _) fun _ => .bind (.lift _) fun value => .bind (.lift _) fun _ =>
    .bind (.lift _) fun _ => .bind (htext value) fun _ => Direct.addAttribute _ _

/-- Calls that do all they do at once. -/
def Call.Plain : Call → Prop
  | enter _ _ | leave _ _ _ _ => False
  | _ => True

/-- Code that settles every span it creates. -/
def Settling (eng : Engine φ) (f : Nat) (m : M φ α) : Prop :=
  ∀ ⦃w w'⦄, w.first eng = some f → Ends m w w' → Settles f w w'

namespace Settling

variable {β : Type} {f : Nat}

theorem calm {m : M φ α} (hm : Keeps Calm m) : Settling eng f m :=
  fun _ _ _ h => .of_calm (hm h)

theorem reads {m : M φ β} {g : β → M φ α} (hm : Reads m) (hg : ∀ b, Settling eng f (g b)) :
    Settling eng f (m >>= g) := by
  intro w w' hfirst h
  obtain ⟨b, u, hread, hrest⟩ | hleft := ends_bind_iff.mp h
  · obtain rfl := hm (.of_ok hread)
    exact hg b hfirst hrest
  · obtain rfl := hm (.inr hleft)
    exact .of_calm (Std.Refl.refl _)

theorem bind_reads {m : M φ β} {g : β → M φ α} (hm : Settling eng f m) (hg : ∀ b, Reads (g b)) :
    Settling eng f (m >>= g) := by
  intro w w' hfirst h
  obtain ⟨b, u, hsettle, hrest⟩ | hleft := ends_bind_iff.mp h
  · obtain rfl := hg b hrest
    exact hm hfirst (.of_ok hsettle)
  · exact hm hfirst (.inr hleft)

theorem ite {p : Prop} [Decidable p] {m n : M φ α} (hm : Settling eng f m)
    (hn : Settling eng f n) : Settling eng f (if p then m else n) := by
  split
  · exact hm
  · exact hn

theorem creates {name : Bytes} {kind : SpanKind} {g : Nat → M φ α}
    (hg : ∀ q u w, u.first eng = some f → Ends (g q) u w →
      Only (fun x => x = q ∨ x = f) u w ∧ (Ticking u → w.EndedAt q)) :
    Settling eng f (Provider.createChildSpan eng name kind >>= g) := by
  intro w w' hfirst h
  obtain ⟨q, u, hcreate, hrest⟩ | hleft := ends_bind_iff.mp h
  · obtain ⟨honly, hended⟩ := hg q u w' ((first_createChildSpan hcreate).trans hfirst) hrest
    exact .of_adds (createChildSpan_adds hcreate) honly hended
  · exact absurd hleft (Direct.createChildSpan name kind _ _)

/-- What is created is ended, whatever is noted about it before and after. -/
theorem closes {name : Bytes} {kind : SpanKind} {g : Nat → M φ α} (hg : ∀ q, Closes q (g q))
    (hdirect : ∀ q, Direct (g q)) :
    Settling eng f (Provider.createChildSpan eng name kind >>= g) := by
  refine creates fun q u w hfirst h => ?_
  obtain ⟨_, hok⟩ := (hdirect q).ok h
  have hclosed := (hg q).returns hok
  exact ⟨hclosed.toOnly.mono fun _ => .inl, hclosed.ended⟩

theorem error (args : ErrorArgs) :
    Settling eng f (opentelemetry_error_cb eng (fun _ => return) args) := by
  refine .reads Op.reads_globals fun g => .ite ?_ (.calm (.of_reads (.pure _)))
  refine .reads Op.reads_is_has_provider fun b => .ite ?_ (.calm (.of_reads (.pure _)))
  refine bind_reads (.reads (Move.reads_currentFunctionName _) fun name => ?_) fun _ => .pure _
  refine creates fun q u w hfirst h => ?_
  have hnoted : Built (Move eng Grants.none) ((errorAttributes args).forM (addAttribute q)) :=
    Move.built_addAttributes q _
  obtain ⟨_, v, hattributes, hend⟩ | hleft := ends_bind_iff.mp h
  · have hfirst' : v.first eng = u.first eng :=
      first_blind.built (fun _ _ => rfl) (fun _ _ _ => rfl) hnoted (.of_ok hattributes)
    have hcalm : Calm u v := calm_built hnoted (.of_ok hattributes)
    obtain ⟨honly, hended⟩ := endErrorSpan_ends (hfirst'.trans hfirst) hend
    exact ⟨IsTrans.trans _ _ _ (hcalm.mono fun _ => False.elim) honly,
      fun hticking => hended (hcalm.ticking hticking)⟩
  · exact absurd hleft (Direct.forM (fun kv => Direct.addAttribute q kv) _ _)

theorem exception (args : Option ExceptionArgs) :
    Settling eng f (opentelemetry_throw_exception_hook eng (fun _ => return) args) := by
  refine .ite ?_ (.calm (.of_reads (.pure _)))
  refine .reads Op.reads_is_has_provider fun b => .ite ?_ (.calm (.of_reads (.pure _)))
  cases args with
  | none => exact .calm (.of_reads (.pure _))
  | some args =>
    refine bind_reads ?_ fun _ => .pure _
    refine .reads (Move.reads_exceptionProperty _ _) fun _ => .reads (.lift _) fun message => ?_
    refine .reads (Move.reads_exceptionProperty _ _) fun _ => .reads (.lift _) fun file => ?_
    refine .reads (Move.reads_exceptionProperty _ _) fun code => ?_
    refine .reads (Move.reads_exceptionProperty _ _) fun _ => .reads (.lift _) fun line => ?_
    refine .reads (Move.reads_currentFunctionName _) fun name => ?_
    refine closes (fun q => (Closes.errorEnd q message).before (fun _ => ?_) fun _ => ?_)
      fun q => (Direct.errorEnd q message).bind fun _ => ?_
    · exact only_built (g := { Grants.none with raises := True }) id id
        (Move.built_exceptionAttributes trivial args message file line q)
    · exact direct_exceptionAttributes args message file line q
    · exact direct_exceptionAttributes args message file line q

theorem sdk (call : SdkCall) : Settling eng f (call.run eng) := by
  by_cases hadds : call.Adds
  · cases call with
    | add_span args =>
      refine bind_reads (.reads Op.reads_is_has_provider fun b => .ite ?_ (.calm (.of_reads (.pure _))))
        fun _ => .pure _
      cases args with
      | none => exact .calm (.of_reads (.pure _))
      | some args =>
        have hstart (q : Nat) : Built (Move eng Grants.none) (modifySpan q fun s => { s with
            start_time_unix_nano := UInt64.ofInt args.start_time_unix_nano }) :=
          .op (.note q ⟨fun _ => ⟨rfl, rfl, rfl⟩, fun _ => ⟨rfl, rfl⟩⟩)
        have hattributes (q : Nat) :
            Built (Move eng Grants.none) (args.attributes.forM (addSpanAttribute eng q)) :=
          .forM fun _ => Move.built_addSpanAttribute q _
        refine closes (fun q => .after (calm_built (hstart q)) fun _ =>
          .after (calm_built (hattributes q)) fun _ => .ite ?_ ?_) fun q => ?_
        · exact (Closes.errorEnd q _).before (fun _ => .of_reads (.pure _)) fun _ => .pure _
        · exact (Closes.okEnd q).before (fun _ => .of_reads (.pure _)) fun _ => .pure _
        · refine .bind (Direct.modifySpan _ _) fun _ =>
            .bind (.forM fun entry => direct_addSpanAttribute q entry) fun _ => ?_
          exact .ite (.bind (Direct.errorEnd _ _) fun _ => .pure _)
            (.bind (Direct.okEnd _) fun _ => .pure _)
    | _ => exact hadds.elim
  · exact .calm (only_built (g := { Grants.none with samples := True }) id id
      (Move.built_sdk call (fun h => absurd h hadds) fun _ => trivial))

end Settling

/-- Every call but the halves of hooked calls settles what it creates. -/
theorem settles_call {c : Call} {f : Nat} (hplain : c.Plain) (hfirst : w.first eng = some f)
    (h : Step eng natives (.call c) w w') : Settles f w w' := by
  have hstores (hcreates : ¬ c.grants.creates) (hends : ¬ c.grants.ends) : Settles f w w' :=
    .of_calm (only_built hcreates hends (Move.built_call c) h)
  cases c with
  | enter hook execute_data => exact hplain.elim
  | leave hook execute_data return_value span => exact hplain.elim
  | curl_setopt execute_data => exact hstores id id
  | curl_setopt_array execute_data => exact hstores id id
  | curl_close execute_data => exact hstores id id
  | error args => exact Settling.error args hfirst h
  | exception args => exact Settling.exception args hfirst h
  | sdk call => exact Settling.sdk call hfirst h

end opentelemetry
