import OpentelemetryExt.OtelExporter.Families

open heap stateful run channel

namespace opentelemetry

variable {φ : Type} {encode : Message → Bytes} {h h' : Host φ} {m mq n : Nat} {name : Bytes}
  {s : QueueSettings}

/-- Where a consumer of the pool is. It is never past the handler of the exception. -/
def Consumer.Serves (name : Bytes) (s : QueueSettings) (mq : Nat) (c : Consumer) : Prop :=
  c.name = name ∧ c.settings = s ∧ (c.stage = .starting ∨ c.stage = .receiving mq)

/-- The master `m` has created the queue `mq` of the pool. -/
structure Serving (m : Nat) (name : Bytes) (s : QueueSettings) (mq : Nat) (h : Host φ) : Prop where
  family : Kindred m name (some mq) 0 h
  settings (p : PhpProcess φ) : h.processes.cell m = some p → p.settings = s
  limit : ∃ c, h.directory.channels.cell mq = some c ∧ c.limit = size_t s.max_message_size
  consumers (t : Nat) (c : Consumer) : h.consumers.cell t = some c → c.process = m →
    c.Serves name s mq

/-- The master has started its module, and has yet to create the queue. -/
structure Booting (m : Nat) (name : Bytes) (s : QueueSettings) (h : Host φ) : Prop where
  master : ∃ p n, h.processes.cell m = some p ∧ p.queue = some name ∧
    name = queueNameOf p.world.pid ∧ p.settings = s ∧ p.eng.cli = false ∧
    p.world.globals.is_init_consumers = true ∧
    (p.calls = initCalls name false n ∨
      p.calls = (initCalls name false n).tail ∧ h.directory.names name = none)
  alone (i : Nat) (p : PhpProcess φ) : h.processes.cell i = some p → p.queue = some name → i = m
  unseen : tried m h.log = []
  childless (t : Nat) (c : Consumer) : h.consumers.cell t = some c → c.process ≠ m

/-- A process keeps its settings. -/
theorem settings_of_step {turn : Turn φ} {i : Nat} {p : PhpProcess φ}
    (hturn : Host.Moves encode turn h h') (hp : h'.processes.cell i = some p)
    (hi : i < h.processes.next) :
    ∃ q, h.processes.cell i = some q ∧ q.settings = p.settings := by
  have hmodify {j : Nat} {q r : PhpProcess φ} (hq : h.processes.cell j = some q)
      (hsettings : q.settings = r.settings)
      (hp : (h.processes.modify j fun _ => r).cell i = some p) :
      ∃ q, h.processes.cell i = some q ∧ q.settings = p.settings := by
    obtain ⟨rfl, _, -, rfl⟩ | ⟨-, hp⟩ := Heap.cell_modify_cases hp
    · exact ⟨q, hq, hsettings⟩
    · exact ⟨p, hp, rfl⟩
  have halloc {r : PhpProcess φ} (hp : (h.processes.alloc r).cell i = some p) :
      ∃ q, h.processes.cell i = some q ∧ q.settings = p.settings := by
    obtain ⟨rfl, -⟩ | hp := Heap.cell_alloc_cases hp
    · exact absurd hi (lt_irrefl _)
    · exact ⟨p, hp, rfl⟩
  cases hturn with
  | boot => exact halloc hp
  | event hq =>
    refine hmodify hq ?_ hp
    rfl
  | call hq hcalls hperform =>
    obtain ⟨os, hmade⟩ := made_of_perform hperform
    change (Heap.modify _ _ _).cell i = some p at hp
    rw [hmade.processes] at hp
    refine hmodify hq ?_ hp
    rfl
  | fork => exact halloc hp
  | shutdown hq =>
    refine hmodify hq ?_ hp
    rfl
  | exit => exact ⟨p, Heap.cell_of_free hp, rfl⟩
  | openQueue =>
    obtain ⟨stage, hopen, -⟩ := Host.openQueue_eq _ _ _
    rw [hopen] at hp
    exact ⟨p, hp, rfl⟩
  | receive hc _ _ hreceive =>
    obtain ⟨-, -, -, rfl⟩ | ⟨msg, directory, -, rfl⟩ := Host.receive_cases hreceive
    · exact ⟨p, hp, rfl⟩
    · exact ⟨p, hp, rfl⟩

/-- What is done to the queues in a step. -/
theorem directory_of_step {turn : Turn φ} (hturn : Host.Moves encode turn h h') :
    ∃ us, Run Answers h.directory us h'.directory := by
  cases hturn with
  | boot | event | fork | shutdown | exit => exact ⟨[], .nil⟩
  | call hq hcalls hperform =>
    obtain ⟨os, hmade⟩ := made_of_perform hperform
    exact ⟨_, hmade.directory⟩
  | openQueue =>
    obtain ⟨stage, hopen, -⟩ := Host.openQueue_eq _ _ _
    rw [hopen]
    exact ⟨[], .nil⟩
  | receive hc _ _ hreceive =>
    obtain ⟨-, -, -, rfl⟩ | ⟨msg, directory, htake, rfl⟩ := Host.receive_cases hreceive
    · exact ⟨[], .nil⟩
    · exact ⟨[.take _ msg], Run.nil.snoc htake⟩

theorem limit_of_run {us : List (Use Bytes Bytes)} {d d' : Directory Bytes (List.length : Bytes → Nat)}
    {limit : Nat} (hrun : Run Answers d us d')
    (hc : ∃ c, d.channels.cell mq = some c ∧ c.limit = limit) :
    ∃ c, d'.channels.cell mq = some c ∧ c.limit = limit := by
  induction hrun with
  | nil => exact hc
  | snoc _ hlast ih =>
    obtain ⟨c, hc, hlimit⟩ := ih
    obtain ⟨c', hc', hsame⟩ := Directory.cell_of_answers hlast hc
    exact ⟨c', hc', hsame.trans hlimit⟩

theorem Serving.consumers_step {turn : Turn φ} (hs : Serving m name s mq h) (hproper : h.Proper)
    (hturn : Host.Moves encode turn h h') {t : Nat} {c : Consumer}
    (hc : h'.consumers.cell t = some c) (hm : c.process = m) : c.Serves name s mq := by
  cases hturn with
  | boot | event | fork | shutdown | exit => exact hs.consumers t c hc hm
  | @call _ _ i p call rest more hp hcalls hperform =>
    obtain ⟨os, hmade⟩ := made_of_perform hperform
    change Heap.cell _ t = some c at hc
    rcases hmade.consumers with hsame | ⟨n, rfl, hnew⟩
    · exact hs.consumers t c (hsame ▸ hc) hm
    · obtain ⟨-, rfl⟩ | hc := Heap.cell_alloc_cases (hnew ▸ hc)
      · obtain rfl : i = m := hm
        obtain ⟨f, hf, hname, -⟩ := hs.family.founder
        obtain rfl := Option.some.inj (hp.symm.trans hf)
        have hof : p.queue = some n :=
          hproper.calls i p hp (.consumer n) (hcalls ▸ List.mem_cons_self)
        exact ⟨Option.some.inj (hof.symm.trans hname), hs.settings p hp, .inl rfl⟩
      · exact hs.consumers t c hc hm
  | openQueue hd _ hstage =>
    obtain ⟨stage, hopen, hreceiving⟩ := Host.openQueue_eq _ _ _
    rw [hopen] at hc
    obtain ⟨rfl, d, hd', rfl⟩ | ⟨-, hc⟩ := Heap.cell_modify_cases hc
    · obtain ⟨hname, hsettings, -⟩ := hs.consumers _ _ hd hm
      refine ⟨hname, hsettings, .inr (hreceiving mq ?_)⟩
      rw [hname]
      exact hs.family.linked
    · exact hs.consumers t c hc hm
  | receive hd _ hstage hreceive =>
    obtain ⟨channel, hchannel, hsmall, rfl⟩ | ⟨msg, directory, htake, rfl⟩ :=
      Host.receive_cases hreceive
    · obtain ⟨rfl, d, hd', rfl⟩ | ⟨-, hc⟩ := Heap.cell_modify_cases hc
      · -- The buffer is as large as the messages may be.
        obtain ⟨-, hsettings, hwhere⟩ := hs.consumers _ _ hd hm
        rw [hstage] at hwhere
        rcases hwhere with hwhere | hwhere <;> cases hwhere
        obtain ⟨channel', hchannel', hlimit⟩ := hs.limit
        obtain rfl := Option.some.inj (hchannel.symm.trans hchannel')
        rw [hsettings, hlimit] at hsmall
        exact absurd hsmall (lt_irrefl _)
      · exact hs.consumers t c hc hm
    · obtain ⟨rfl, d, hd', rfl⟩ | ⟨-, hc⟩ := Heap.cell_modify_cases hc
      · have hserves := hs.consumers _ _ hd hm
        exact hserves
      · exact hs.consumers t c hc hm

theorem Serving.step {turn : Turn φ} (hs : Serving m name s mq h) (hproper : h.Proper)
    (ha : Accounted encode h) (hturn : Host.Moves encode turn h h') (hlives : turn ≠ .exit m) :
    Serving m name s mq h' where
  family := hs.family.step hproper ha hturn hlives
  settings p hp := by
    obtain ⟨f, hf, -⟩ := hs.family.founder
    obtain ⟨q, hq, hsettings⟩ := settings_of_step hturn hp (Heap.lt_next hf)
    rw [← hsettings]
    exact hs.settings q hq
  limit := by
    obtain ⟨us, hrun⟩ := directory_of_step hturn
    exact limit_of_run hrun hs.limit
  consumers _ _ hc hm := hs.consumers_step hproper hturn hc hm

/-- Nobody but the master has the name while it is being created. -/
theorem Booting.withProcess {i : Nat} {q : PhpProcess φ} (hb : Booting m name s h)
    (hi : i ≠ m) (hqueue : q.queue ≠ some name) :
    Booting m name s (h.withProcess i q) where
  master := by
    obtain ⟨f, n, hf, hrest⟩ := hb.master
    refine ⟨f, n, ?_, hrest⟩
    change (h.processes.modify i fun _ => q).cell m = some f
    rw [Heap.cell_modify_ne (Ne.symm hi)]
    exact hf
  alone j r hr hname := by
    obtain ⟨-, _, -, rfl⟩ | ⟨-, hr⟩ := Heap.cell_modify_cases hr
    · exact absurd hname hqueue
    · exact hb.alone j r hr hname
  unseen := hb.unseen
  childless := hb.childless

theorem Booting.alloc {q : PhpProcess φ} (hb : Booting m name s h) (hqueue : q.queue ≠ some name) :
    Booting m name s { h with processes := h.processes.alloc q } where
  master := by
    obtain ⟨f, n, hf, hrest⟩ := hb.master
    exact ⟨f, n, Heap.cell_alloc_of_some hf, hrest⟩
  alone j r hr hname := by
    obtain ⟨-, rfl⟩ | hr := Heap.cell_alloc_cases hr
    · exact absurd hname hqueue
    · exact hb.alone j r hr hname
  unseen := hb.unseen
  childless := hb.childless

/-- The master has calls to make, and does nothing else. -/
theorem Booting.ne_of_idle {i : Nat} {p : PhpProcess φ} (hb : Booting m name s h)
    (hp : h.processes.cell i = some p) (hidle : p.calls = []) : i ≠ m := by
  rintro rfl
  obtain ⟨f, n, hf, -, -, -, -, -, hcalls | ⟨hcalls, -⟩⟩ := hb.master
  all_goals
    obtain rfl := Option.some.inj (hp.symm.trans hf)
    rw [hidle] at hcalls
    cases hcalls

theorem Booting.not_queue {i : Nat} {p : PhpProcess φ} (hb : Booting m name s h)
    (hp : h.processes.cell i = some p) (hi : i ≠ m) : p.queue ≠ some name :=
  fun hqueue => hi (hb.alone i p hp hqueue)

/-- A call of another process. -/
theorem Booting.call_ne {i : Nat} {p : PhpProcess φ} {call : QueueCall}
    {rest more : List QueueCall} (hb : Booting m name s h) (hproper : h.Proper)
    (hp : h.processes.cell i = some p) (hi : i ≠ m) (hcalls : p.calls = call :: rest)
    (hperform : h.perform i p.settings call = some (h', more)) :
    Booting m name s (h'.withProcess i { p with calls := more ++ rest }) := by
  obtain ⟨os, hmade⟩ := made_of_perform hperform
  have hqueue := hb.not_queue hp hi
  have hnames : h'.directory.names name = h.directory.names name :=
    perform_names_ne hperform (hproper.calls i p hp call (hcalls ▸ List.mem_cons_self)) hqueue
  have hb' : Booting m name s h' := by
    constructor
    · rw [hmade.processes, hnames]
      exact hb.master
    · rw [hmade.processes]
      exact hb.alone
    · rw [hmade.log, tried_append, hb.unseen, hmade.others m (Ne.symm hi)]
      rfl
    · intro t c hc
      rcases hmade.consumers with hsame | ⟨n, -, hnew⟩
      · exact hb.childless t c (hsame ▸ hc)
      · obtain ⟨-, rfl⟩ | hc := Heap.cell_alloc_cases (hnew ▸ hc)
        · exact hi
        · exact hb.childless t c hc
  exact hb'.withProcess hi hqueue

/-- A call of the master: it removes a queue that was left, and then it creates its own. -/
theorem Booting.call {p : PhpProcess φ} {call : QueueCall} {rest more : List QueueCall}
    (hb : Booting m name s h) (hp : h.processes.cell m = some p) (hcalls : p.calls = call :: rest)
    (hperform : h.perform m p.settings call = some (h', more)) :
    Booting m name s (h'.withProcess m { p with calls := more ++ rest }) ∨
      ∃ mq, Serving m name s mq (h'.withProcess m { p with calls := more ++ rest }) := by
  obtain ⟨f, n, hf, hname, hpid, hsettings, hcli, hflag, hstage⟩ := hb.master
  obtain rfl := Option.some.inj (hp.symm.trans hf)
  have hcell (q : PhpProcess φ) : (h.processes.modify m fun _ => q).cell m = some q := by
    rw [Heap.cell_modify_self, hp]
    rfl
  rcases hstage with hstage | ⟨hstage, hnone⟩
  · rw [hstage] at hcalls
    cases hcalls
    cases hperform
    refine .inl ⟨⟨_, n, hcell _, hname, hpid, hsettings, hcli, hflag, .inr ⟨rfl, ?_⟩⟩, ?_, ?_,
      hb.childless⟩
    · exact Function.update_self _ _ _
    · intro j r hr hqueue
      obtain ⟨rfl, -⟩ | ⟨-, hr⟩ := Heap.cell_modify_cases hr
      · rfl
      · exact hb.alone j r hr hqueue
    · change tried m (h.log ++ [.removed name]) = []
      rw [tried_append, hb.unseen]
      rfl
  · rw [hstage] at hcalls
    cases hcalls
    cases hperform
    obtain ⟨hlinked, hempty⟩ := Directory.openOrCreate_new hnone
      (size_t p.settings.max_queue_length) (size_t p.settings.max_message_size)
    refine .inr ⟨h.directory.channels.next, ⟨⟨_, hcell _, hname, hpid⟩, hlinked, ?_, ?_⟩, ?_, ?_, ?_⟩
    · intro j r hr hqueue
      obtain ⟨-, _, -, rfl⟩ | ⟨hj, hr⟩ := Heap.cell_modify_cases hr
      · refine ⟨hflag, fun c hc => ?_, fun _ => hcli⟩
        rw [List.nil_append] at hc
        rw [List.eq_of_mem_replicate hc]
        trivial
      · exact absurd (hb.alone j r hr hqueue) hj
    · intro j r hr hqueue
      obtain ⟨rfl, -⟩ | ⟨hj, hr⟩ := Heap.cell_modify_cases hr
      · refine agrees_of_untried ?_
        change tried j (h.log ++ [.created name _ _]) = []
        rw [tried_append, hb.unseen]
        rfl
      · exact absurd (hb.alone j r hr hqueue) hj
    · intro r hr
      obtain rfl := Option.some.inj ((hcell _).symm.trans hr)
      exact hsettings
    · refine ⟨_, hempty, ?_⟩
      rw [hsettings]
      rfl
    · exact fun t c hc hm => absurd hm (hb.childless t c hc)

/-- Until the master has created the queue, nothing comes in between. -/
theorem Booting.step {turn : Turn φ} (hb : Booting m name s h) (hproper : h.Proper)
    (hturn : Host.Moves encode turn h h') (hlives : turn ≠ .exit m) :
    Booting m name s h' ∨ ∃ mq, Serving m name s mq h' := by
  cases hturn with
  | boot hnew hfree hinit =>
    obtain ⟨f, n, hf, -, rfl, -⟩ := hb.master
    exact .inl (hb.alloc (boot_queue_ne hf hnew hfree hinit))
  | event hp hidle _ hstep hpid =>
    have hi := hb.ne_of_idle hp hidle
    refine .inl (hb.withProcess hi fun hqueue => ?_)
    have hne := hb.not_queue hp hi
    obtain ⟨hname, -⟩ | ⟨-, -, hown⟩ := name_of_step (hproper.named _ _ hp) hstep
    · exact hne (hname.symm.trans hqueue)
    · obtain ⟨f, n, hf, hname, rfl, -⟩ := hb.master
      exact ownName_ne hproper hf hname hp hne (Option.some.inj (hown.symm.trans hqueue))
  | @call _ _ i p call rest more hp hcalls hperform =>
    by_cases hi : i = m
    · subst hi
      exact hb.call hp hcalls hperform
    · exact .inl (hb.call_ne hproper hp hi hcalls hperform)
  | fork hp hidle _ hfree =>
    have hqueue := hb.not_queue hp (hb.ne_of_idle hp hidle)
    exact .inl (hb.alloc hqueue)
  | shutdown hp hidle _ hshutdown =>
    have hi := hb.ne_of_idle hp hidle
    obtain ⟨-, hglobals, -⟩ := module_shutdown_ok hshutdown
    refine .inl (hb.withProcess hi fun hqueue => hb.not_queue hp hi ?_)
    exact (congrArg Globals.message_queue_name hglobals).symm.trans hqueue
  | @exit _ i =>
    refine .inl ⟨?_, fun j r hr => hb.alone j r (Heap.cell_of_free hr), hb.unseen, hb.childless⟩
    obtain ⟨f, n, hf, hrest⟩ := hb.master
    refine ⟨f, n, ?_, hrest⟩
    change (h.processes.free [i]).cell m = some f
    have hi : m ∉ [i] := by
      rw [List.mem_singleton]
      rintro rfl
      exact hlives rfl
    rw [Heap.cell_free, if_neg hi]
    exact hf
  | openQueue hc _ hstage =>
    obtain ⟨stage, hopen, -⟩ := Host.openQueue_eq _ _ _
    rw [hopen]
    refine .inl ⟨hb.master, hb.alone, hb.unseen, fun u d hd => ?_⟩
    obtain ⟨-, _, -, rfl⟩ | ⟨-, hd⟩ := Heap.cell_modify_cases hd
    · have hother := hb.childless _ _ hc
      exact hother
    · exact hb.childless u d hd
  | receive hc _ hstage hreceive =>
    have hother := hb.childless _ _ hc
    obtain ⟨-, -, -, rfl⟩ | ⟨msg, directory, htake, rfl⟩ := Host.receive_cases hreceive
    · refine .inl ⟨hb.master, hb.alone, hb.unseen, fun u d hd => ?_⟩
      obtain ⟨-, _, -, rfl⟩ | ⟨-, hd⟩ := Heap.cell_modify_cases hd
      · exact hother
      · exact hb.childless u d hd
    · obtain ⟨-, -, -, -, rfl⟩ := Directory.receive_eq_some_iff.mp htake
      refine .inl ⟨hb.master, hb.alone, ?_, fun u d hd => ?_⟩
      · change tried m (h.log ++ [.received _ _ msg]) = []
        rw [tried_append, hb.unseen]
        rfl
      · obtain ⟨-, _, -, rfl⟩ | ⟨-, hd⟩ := Heap.cell_modify_cases hd
        · exact hother
        · exact hb.childless u d hd

theorem pool_run {turns : List (Turn φ)} (hb : Booting m name s h) (hproper : h.Proper)
    (ha : Accounted encode h) (hrun : Run (Host.Moves encode) h turns h')
    (hlives : .exit m ∉ turns) : Booting m name s h' ∨ ∃ mq, Serving m name s mq h' := by
  have hrest : (Booting m name s h' ∨ ∃ mq, Serving m name s mq h') ∧ h'.Proper ∧
      Accounted encode h' := by
    induction hrun with
    | nil => exact ⟨.inl hb, hproper, ha⟩
    | snoc _ hlast ih =>
      obtain ⟨hstage, hproper, ha⟩ := ih fun hexit => hlives (List.mem_append_left _ hexit)
      have hturn : _ ≠ Turn.exit m := fun heq =>
        hlives (heq ▸ List.mem_append_right _ List.mem_cons_self)
      refine ⟨?_, hproper.step hlast, ha.step hlast⟩
      rcases hstage with hb | ⟨mq, hs⟩
      · exact hb.step hproper hlast hturn
      · exact .inr ⟨mq, hs.step hproper ha hlast hturn⟩
  exact hrest.1

variable (encode) in
/-- The first calls of a process outside the CLI are to create its queue. -/
theorem queueCalls_of_init {p : PhpProcess φ} {hostname ipv4 : Bytes} {w : World φ} (hnew : p.New)
    (hcli : p.eng.cli = false) (henable : p.world.globals.enable = true)
    (hcreates : p.world.queueFails 0 = false)
    (hinit : opentelemetry_module_init p.eng hostname ipv4 p.world = .ok ((), w)) :
    w.pid = p.world.pid ∧ w.globals.message_queue_name = some (queueNameOf p.world.pid) ∧
      w.globals.is_init_consumers = true ∧ ∃ n, queueCalls encode p.world w =
        initCalls (queueNameOf p.world.pid) false n := by
  obtain ⟨-, hdisabled | ⟨hweb, -⟩⟩ | ⟨hpid, hname, hflag⟩ :=
    module_init_ok hnew.is_init_consumers hinit
  · exact absurd henable hdisabled
  · rw [hcli] at hweb
    cases hweb
  · rw [hcli] at hflag
    refine ⟨hpid, hname, hflag, w.consumers - p.world.consumers, ?_⟩
    rw [queueCalls, hflag, hnew.is_init_consumers, hname, hcreates, module_init_exported hinit,
      List.drop_length]
    exact List.append_nil _

theorem served_of_agrees {i : Nat} {log : List Observed}
    (hagrees : ∀ o ∈ log, o.Agrees (some mq) i) :
    (∀ msg, .refused i msg .missing ∉ log) ∧ ∀ mq' msg, .accepted i mq' msg ∈ log → mq' = mq := by
  constructor
  · intro msg hmem
    cases hagrees _ hmem rfl rfl
  · intro mq' msg hmem
    exact (Option.some.inj (hagrees _ hmem rfl)).symm

/-- The master `m` of a pool has been started as `p`, outside the CLI, and lives. No process was left
with the name of its queue, and to create the queue does not fail. -/
structure Pooled (encode : Message → Bytes) (p : PhpProcess φ) (m : Nat) (h : Host φ) : Prop where
  cli : p.eng.cli = false
  enable : p.world.globals.enable = true
  creates : p.world.queueFails 0 = false
  lives : ∃ h₀ h₁ before turns hostname ipv4, Run (Host.Moves encode) .empty before h₀ ∧
    (∀ i q, h₀.processes.cell i = some q → q.queue ≠ some (queueNameOf p.world.pid)) ∧
    m = h₀.processes.next ∧ Host.Moves encode (.boot p hostname ipv4) h₀ h₁ ∧
    Run (Host.Moves encode) h₁ turns h ∧ .exit m ∉ turns

theorem Pooled.stage {p : PhpProcess φ} (hpool : Pooled encode p m h) :
    (Booting m (queueNameOf p.world.pid) p.settings h ∨
      ∃ mq, Serving m (queueNameOf p.world.pid) p.settings mq h) ∧ Accounted encode h := by
  obtain ⟨h₀, h₁, before, turns, hostname, ipv4, hreach, hstrangers, rfl, hboot, hrun, hlives⟩ :=
    hpool.lives
  have hproper := proper_run hreach
  have haccounted := accounted_run hreach
  have hbooting : Booting h₀.processes.next (queueNameOf p.world.pid) p.settings h₁ := by
    cases hboot with
    | boot hnew hfree hinit =>
      obtain ⟨hpid, hname, hflag, n, hcalls⟩ := queueCalls_of_init encode hnew
        hpool.cli hpool.enable hpool.creates hinit
      refine ⟨⟨_, n, Heap.cell_alloc_self _ _, hname, by rw [hpid], rfl, hpool.cli, hflag,
        .inl hcalls⟩, fun i q hq hqueue => ?_, haccounted.untried _ le_rfl, fun t c hc => ?_⟩
      · obtain ⟨hi, -⟩ | hq := Heap.cell_alloc_cases hq
        · exact hi
        · exact absurd hqueue (hstrangers i q hq)
      · exact Nat.ne_of_lt (hproper.owners t c hc)
  refine ⟨pool_run hbooting (hproper.step hboot) (haccounted.step hboot) hrun hlives, ?_⟩
  exact hrun.invariant (haccounted.step hboot) fun _ _ _ hturn ha => ha.step hturn

/-- The queue of a web server is there for as long as its master lives. In every run, whatever
other processes do: what the workers of the pool export goes to one queue, which refuses it only for
its size or when it is full; and no consumer of the pool ends, or takes from another queue. -/
theorem pool_keeps_queue {p : PhpProcess φ} (hpool : Pooled encode p m h) :
    ∃ mq, (∀ i q, h.processes.cell i = some q → q.queue = some (queueNameOf p.world.pid) →
        (∀ msg, .refused i msg .missing ∉ h.log) ∧
        ∀ mq' msg, .accepted i mq' msg ∈ h.log → mq' = mq) ∧
      ∀ t c, h.consumers.cell t = some c → c.process = m →
        c.stage = .starting ∨ c.stage = .receiving mq := by
  obtain ⟨hb | ⟨mq, hs⟩, -⟩ := hpool.stage
  · refine ⟨0, fun i q hq hqueue => ?_, fun t c hc hm => absurd hm (hb.childless t c hc)⟩
    obtain rfl := hb.alone i q hq hqueue
    exact served_of_agrees (agrees_of_untried hb.unseen)
  · refine ⟨mq, fun i q hq hqueue => ?_, fun t c hc hm => (hs.consumers t c hc hm).2.2⟩
    exact served_of_agrees (hs.family.told i q hq hqueue)

theorem pooled_worker {h : Host Unit} {rest : List (Turn Unit)}
    (hrun : Run (Host.Moves entries) .empty (.boot worker [] [] :: rest) h)
    (hlives : .exit 0 ∉ rest) : Pooled entries worker 0 h := by
  obtain ⟨h₁, hboot, hrest⟩ := run_cons_iff.mp hrun
  refine ⟨rfl, rfl, rfl, .empty, h₁, [], rest, [], [], .nil, ?_, rfl, hboot, hrest, hlives⟩
  intro i q hq
  cases hq

theorem pool_keeps_queue_worker : ∃ h : Host Unit, h.passedBy 0 = some [[1]] ∧
    ∃ mq, ∀ i q, h.processes.cell i = some q → q.queue = some (queueNameOf 1) →
      (∀ msg, .refused i msg .missing ∉ h.log) ∧
        ∀ mq' msg, .accepted i mq' msg ∈ h.log → mq' = mq := by
  have hplay : ((workerTurns.foldlM (Host.play entries) .empty).any fun h =>
      decide (h.passedBy 0 = some [[1]])) = true := by decide +kernel
  obtain ⟨h, hrun, hpassed⟩ := Host.run_play hplay
  obtain ⟨mq, hserved, -⟩ := pool_keeps_queue (pooled_worker hrun (by simp))
  exact ⟨h, of_decide_eq_true hpassed, mq, hserved⟩

variable (encode) in
/-- A consumer whose buffer is large enough takes the message that has waited longest. -/
theorem receive_next {t : Nat} {c : Consumer} {msg : Bytes} {rest : List Bytes}
    (hc : h.consumers.cell t = some c) (hlives : (h.processes.cell c.process).isSome)
    (hstage : c.stage = .receiving mq)
    (hlimit : ∃ channel, h.directory.channels.cell mq = some channel ∧
      channel.limit ≤ size_t c.settings.max_message_size)
    (hwaiting : h.directory.waiting mq = msg :: rest) :
    ∃ h', Host.Moves encode (.receive t) h h' ∧ h'.directory.waiting mq = rest ∧
      accepted mq (uses h'.log) = accepted mq (uses h.log) ∧ h'.processes = h.processes ∧
      h'.consumers.cell t = some { c with passed := c.passed ++ c.settings.passed msg } ∧
      ∃ channel, h'.directory.channels.cell mq = some channel ∧
        channel.limit ≤ size_t c.settings.max_message_size := by
  obtain ⟨channel, hchannel, hfits⟩ := hlimit
  have htake : h.directory.receive mq = some (msg, h.directory.modify mq Channel.pop) := by
    simp only [Directory.receive, hwaiting]
  have hreceive : h.receive t c mq =
      some ((Host.record (.received t mq msg)
        { h with directory := h.directory.modify mq Channel.pop }).withConsumer t
          { c with passed := c.passed ++ c.settings.passed msg }) := by
    unfold Host.receive
    simp only [hchannel, if_neg (Nat.not_lt.mpr hfits), htake]
  refine ⟨_, .receive hc hlives hstage hreceive, ?_, ?_, rfl, ?_, channel.pop, ?_, hfits⟩
  · change (h.directory.modify mq Channel.pop).waiting mq = rest
    have hhead : channel.waiting = msg :: rest := by
      rw [← hwaiting, Directory.waiting, hchannel]
    rw [Directory.waiting_modify_self _ hchannel]
    exact congrArg List.tail hhead
  · change accepted mq (uses (h.log ++ [.received t mq msg])) = _
    rw [uses_append]
    exact (accepted_snoc mq (uses h.log) _).trans (List.append_nil _)
  · change (h.consumers.modify t fun _ => _).cell t = _
    rw [Heap.cell_modify_self, hc]
    rfl
  · change (h.directory.channels.modify mq Channel.pop).cell mq = _
    rw [Heap.cell_modify_self, hchannel]
    rfl

variable (encode) in
/-- On its own, it empties the queue. -/
theorem receive_all {t : Nat} {c : Consumer} {msgs : List Bytes}
    (hc : h.consumers.cell t = some c) (hlives : (h.processes.cell c.process).isSome)
    (hstage : c.stage = .receiving mq)
    (hlimit : ∃ channel, h.directory.channels.cell mq = some channel ∧
      channel.limit ≤ size_t c.settings.max_message_size)
    (hwaiting : h.directory.waiting mq = msgs) :
    ∃ h', Run (Host.Moves encode) h (List.replicate msgs.length (.receive t)) h' ∧
      h'.directory.waiting mq = [] ∧ accepted mq (uses h'.log) = accepted mq (uses h.log) ∧
      h'.passedBy t = some (c.passed ++ msgs.flatMap c.settings.passed) := by
  induction msgs generalizing h c with
  | nil =>
    refine ⟨h, .nil, hwaiting, rfl, ?_⟩
    rw [Host.passedBy, hc, List.flatMap_nil, List.append_nil]
    rfl
  | cons msg rest ih =>
    obtain ⟨h₁, hturn, hrest, hsame, hprocesses, hc₁, hlimit₁⟩ :=
      receive_next encode hc hlives hstage hlimit hwaiting
    obtain ⟨h₂, hrun, hempty, haccepted, hpassed⟩ :=
      ih hc₁ (hprocesses ▸ hlives) hstage hlimit₁ hrest
    refine ⟨h₂, Run.cons hturn hrun, hempty, haccepted.trans hsame, ?_⟩
    rw [hpassed, List.flatMap_cons, List.append_assoc]

/-- Whatever the pool has come to, one of its consumers needs nobody else to empty the queue: all
that the queue has accepted has then come out of it, and the consumer has passed on what waited. -/
theorem pool_drains {p : PhpProcess φ} {t : Nat} {c : Consumer} (hpool : Pooled encode p m h)
    (hc : h.consumers.cell t = some c) (hm : c.process = m) (hstage : c.stage = .receiving mq) :
    ∃ h' turns, Run (Host.Moves encode) h turns h' ∧ (∀ turn ∈ turns, turn = .receive t) ∧
      fetched mq (uses h'.log) = accepted mq (uses h.log) ∧
      h'.passedBy t = some (c.passed ++ (h.directory.waiting mq).flatMap c.settings.passed) := by
  obtain ⟨hb | ⟨mq', hs⟩, ha⟩ := hpool.stage
  · exact absurd hm (hb.childless t c hc)
  obtain ⟨-, hsettings, hwhere⟩ := hs.consumers t c hc hm
  rw [hstage] at hwhere
  rcases hwhere with hwhere | hwhere <;> cases hwhere
  obtain ⟨channel, hchannel, hlimit⟩ := hs.limit
  obtain ⟨f, hf, -⟩ := hs.family.founder
  obtain ⟨h', hrun, hempty, haccepted, hpassed⟩ := receive_all encode hc
    (by rw [hm, hf]; rfl) hstage ⟨channel, hchannel, by rw [hsettings, hlimit]⟩ rfl
  refine ⟨h', _, hrun, fun turn hturn => List.eq_of_mem_replicate hturn, ?_, hpassed⟩
  have ha' : Accounted encode h' :=
    hrun.invariant ha fun _ _ _ hturn ha => ha.step hturn
  have hbalanced := Directory.balanced ha'.directory mq
  rw [hempty, List.append_nil] at hbalanced
  exact hbalanced.symm.trans haccepted

/-- The queue of the worker, when its consumer has not got to the message. -/
theorem pool_drains_worker : ∃ h h' : Host Unit, ∃ turns,
    Run (Host.Moves entries) h turns h' ∧ h.directory.waiting 0 = [[1]] ∧
      fetched 0 (uses h'.log) = accepted 0 (uses h.log) ∧ h'.passedBy 0 = some [[1]] := by
  have hplay : ((workerTurns.dropLast.foldlM (Host.play entries) .empty).any fun h =>
      (h.consumers.cell 0).any fun c => decide (c.process = 0) && decide (c.stage = .receiving 0) &&
        decide (c.passed = []) && decide (c.settings = worker.settings) &&
          decide (h.directory.waiting 0 = [[1]])) = true := by decide +kernel
  obtain ⟨h, hrun, hcheck⟩ := Host.run_play hplay
  obtain ⟨c, hc, hcheck⟩ := (Option.any_eq_true _ _).mp hcheck
  simp only [Bool.and_eq_true, decide_eq_true_eq] at hcheck
  obtain ⟨⟨⟨⟨hm, hstage⟩, hnone⟩, hsettings⟩, hwaiting⟩ := hcheck
  obtain ⟨h', turns, hturns, -, hall, hpassed⟩ :=
    pool_drains (pooled_worker hrun (by simp)) hc hm hstage
  refine ⟨h, h', turns, hturns, hwaiting, hall, ?_⟩
  have hsingle : [[(1 : UInt8)]].flatMap worker.settings.passed = [[1]] := by decide
  rw [hpassed, hnone, hwaiting, hsettings, hsingle]
  rfl

end opentelemetry
