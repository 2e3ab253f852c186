import OpentelemetryExt.OtelExporter.Accounts
import OpentelemetryExt.OtelExporter.Frames

open heap stateful run channel

namespace opentelemetry

variable {φ : Type} {encode : Message → Bytes}

theorem queueNameOf_injective {a b : Nat} (h : queueNameOf a = queueNameOf b) : a = b := by
  unfold queueNameOf at h
  have hdecimal := List.append_cancel_left h
  rw [OtelExporter.to_string_natCast, OtelExporter.to_string_natCast] at hdecimal
  have hread := congrArg OtelExporter.readDecimal hdecimal
  rw [OtelExporter.readDecimal_decimal, OtelExporter.readDecimal_decimal] at hread
  exact Option.some.inj hread

/-- The name of the queue of a process. -/
def PhpProcess.queue (p : PhpProcess φ) : Option Bytes := p.world.globals.message_queue_name

/-- Processes have different numbers, and call for their own queues. -/
structure Host.Proper (h : Host φ) : Prop where
  named (i : Nat) (p : PhpProcess φ) : h.processes.cell i = some p → p.world.Named
  calls (i : Nat) (p : PhpProcess φ) : h.processes.cell i = some p →
    ∀ call ∈ p.calls, call.IsOf p.queue
  pids (i j : Nat) (p q : PhpProcess φ) : h.processes.cell i = some p →
    h.processes.cell j = some q → p.world.pid = q.world.pid → i = j
  owners (t : Nat) (c : Consumer) : h.consumers.cell t = some c → c.process < h.processes.next

namespace Host.Proper

variable {h h' : Host φ} {i : Nat} {p q : PhpProcess φ}

theorem withProcess (hproper : h.Proper) (hp : h.processes.cell i = some p)
    (hnamed : q.world.Named) (hcalls : ∀ call ∈ q.calls, call.IsOf q.queue)
    (hpid : q.world.pid = p.world.pid) : (h.withProcess i q).Proper := by
  constructor
  · intro j r hr
    obtain ⟨-, _, -, rfl⟩ | ⟨-, hr⟩ := Heap.cell_modify_cases hr
    · exact hnamed
    · exact hproper.named j r hr
  · intro j r hr
    obtain ⟨-, _, -, rfl⟩ | ⟨-, hr⟩ := Heap.cell_modify_cases hr
    · exact hcalls
    · exact hproper.calls j r hr
  · intro j k r s hr hs hsame
    obtain ⟨rfl, _, -, rfl⟩ | ⟨hj, hr'⟩ := Heap.cell_modify_cases hr <;>
      obtain ⟨rfl, _, -, rfl⟩ | ⟨hk, hs'⟩ := Heap.cell_modify_cases hs
    · rfl
    · exact hproper.pids j k p s hp hs' (hpid.symm.trans hsame)
    · exact hproper.pids j k r p hr' hp (hsame.trans hpid)
    · exact hproper.pids j k r s hr' hs' hsame
  · exact hproper.owners

theorem alloc (hproper : h.Proper) (hnamed : q.world.Named)
    (hcalls : ∀ call ∈ q.calls, call.IsOf q.queue) (hfree : h.Free q.world.pid) :
    Host.Proper { h with processes := h.processes.alloc q } := by
  constructor
  · intro j r hr
    obtain ⟨-, rfl⟩ | hr := Heap.cell_alloc_cases hr
    · exact hnamed
    · exact hproper.named j r hr
  · intro j r hr
    obtain ⟨-, rfl⟩ | hr := Heap.cell_alloc_cases hr
    · exact hcalls
    · exact hproper.calls j r hr
  · intro j k r s hr hs hsame
    obtain ⟨rfl, rfl⟩ | hr' := Heap.cell_alloc_cases hr <;>
      obtain ⟨rfl, rfl⟩ | hs' := Heap.cell_alloc_cases hs
    · rfl
    · exact absurd hsame.symm (hfree k s hs')
    · exact absurd hsame (hfree j r hr')
    · exact hproper.pids j k r s hr' hs' hsame
  · exact fun t c hc => Nat.lt_succ_of_lt (hproper.owners t c hc)

/-- What is done elsewhere than to the processes. -/
theorem of_processes (hproper : h.Proper) (hsame : h'.processes = h.processes)
    (howners : ∀ t c, h'.consumers.cell t = some c → c.process < h.processes.next) :
    h'.Proper := by
  constructor
  · rw [hsame]
    exact hproper.named
  · rw [hsame]
    exact hproper.calls
  · rw [hsame]
    exact hproper.pids
  · rw [hsame]
    exact howners

theorem withConsumer {t : Nat} {c d : Consumer} (hproper : h.Proper)
    (hc : h.consumers.cell t = some c) (hd : d.process = c.process) :
    ∀ u e, (h.withConsumer t d).consumers.cell u = some e → e.process < h.processes.next := by
  intro u e he
  obtain ⟨rfl, _, -, rfl⟩ | ⟨-, he⟩ := Heap.cell_modify_cases he
  · rw [hd]
    exact hproper.owners u c hc
  · exact hproper.owners u e he

theorem free (hproper : h.Proper) :
    Host.Proper { h with processes := h.processes.free [i] } := by
  exact ⟨fun j r hr => hproper.named j r (Heap.cell_of_free hr),
    fun j r hr => hproper.calls j r (Heap.cell_of_free hr),
    fun j k r s hr hs => hproper.pids j k r s (Heap.cell_of_free hr) (Heap.cell_of_free hs),
    hproper.owners⟩

/-- What is left of a call is about the same queue. -/
theorem more_isOf {name : Option Bytes} {s : QueueSettings} {call : QueueCall}
    {more : List QueueCall} (hperform : h.perform i s call = some (h', more)) :
    ∀ c ∈ more, c.IsOf name := by
  intro c hc
  cases call with
  | remove | open_or_create | consumer =>
    cases hperform
    cases hc
  | open_only n msg =>
    cases n with
    | none => cases hperform
    | some n =>
      unfold Host.perform at hperform
      dsimp only at hperform
      split at hperform <;> cases hperform
      · rw [List.mem_singleton.mp hc]
        trivial
      · cases hc
  | try_send mq msg =>
    unfold Host.perform at hperform
    dsimp only at hperform
    split at hperform <;> cases hperform <;> cases hc

theorem step {turn : Turn φ} (hproper : h.Proper) (h : Host.Moves encode turn h h') :
    h'.Proper := by
  cases h with
  | boot hnew hfree hinit =>
    refine hproper.alloc (module_init_named hnew.is_init_consumers hnew.message_queue_name hinit)
      (fun call hcall => isOf_queueCalls hcall) ?_
    obtain ⟨rfl, -⟩ | ⟨hpid, -, -⟩ := module_init_ok hnew.is_init_consumers hinit
    · exact hfree
    · rw [hpid]
      exact hfree
  | event hp hidle hlives hstep hpid =>
    exact hproper.withProcess hp ((hproper.named _ _ hp).step hstep)
      (fun call hcall => isOf_queueCalls hcall) hpid
  | call hp hcalls hperform =>
    obtain ⟨os, hmade⟩ := made_of_perform hperform
    have hsame := hproper.of_processes hmade.processes fun t c hc => by
      rcases hmade.consumers with hsame | ⟨n, -, hnew⟩
      · exact hproper.owners t c (hsame ▸ hc)
      · obtain ⟨-, rfl⟩ | hc := Heap.cell_alloc_cases (hnew ▸ hc)
        · exact Heap.lt_next hp
        · exact hproper.owners t c hc
    rw [← hmade.processes] at hp
    have hnamed := hsame.named _ _ hp
    refine hsame.withProcess hp hnamed (fun c hc => ?_) rfl
    rcases List.mem_append.mp hc with hc | hc
    · exact more_isOf hperform c hc
    · exact hsame.calls _ _ hp c (hcalls ▸ List.mem_cons_of_mem _ hc)
  | fork hp hidle hlives hfree =>
    have hcalls := hproper.calls _ _ hp
    refine hproper.alloc ?_ hcalls hfree
    exact ⟨(hproper.named _ _ hp).name, (hproper.named _ _ hp).flag⟩
  | shutdown hp hidle hlives hshutdown =>
    obtain ⟨-, hglobals, hpid⟩ := module_shutdown_ok hshutdown
    have hnamed := hproper.named _ _ hp
    refine hproper.withProcess hp ⟨?_, ?_⟩ (fun call hcall => ?_) hpid
    · rw [hglobals]
      exact hnamed.name
    · rw [hglobals]
      exact hnamed.flag
    · change call.IsOf (World.globals _).message_queue_name
      rw [hglobals]
      exact (isOf_shutdownCalls hcall).1
  | exit => exact hproper.free
  | openQueue hc hlives hstage =>
    obtain ⟨stage, hopen, -⟩ := Host.openQueue_eq _ _ _
    rw [hopen]
    refine hproper.of_processes rfl (hproper.withConsumer hc ?_)
    rfl
  | receive hc hlives hstage hreceive =>
    obtain ⟨-, -, -, rfl⟩ | ⟨msg, directory, -, rfl⟩ := Host.receive_cases hreceive
    all_goals
      refine hproper.of_processes rfl (hproper.withConsumer hc ?_)
      rfl

end Host.Proper

theorem proper_empty : (Host.empty : Host φ).Proper where
  named i p hp := by cases hp
  calls i p hp := by cases hp
  pids i j p q hp := by cases hp
  owners t c hc := by cases hc

theorem proper_run {h : Host φ} {turns : List (Turn φ)}
    (hrun : Run (Host.Moves encode) .empty turns h) : h.Proper :=
  hrun.invariant proper_empty fun _ _ _ hturn hproper => hproper.step hturn

/-- A call that a member of a family may come to, when the name of the queue leads to `link`. -/
def QueueCall.Fits (link : Option Nat) : QueueCall → Prop
  | .remove _ => link = none
  | .open_or_create _ => False
  | .consumer _ | .open_only _ _ => True
  | .try_send mq _ => link = some mq

/-- What is seen of a process is as it should be when the name leads to `link`. -/
def Observed.Agrees (link : Option Nat) (i : Nat) : Observed → Prop
  | .accepted j mq _ => j = i → link = some mq
  | .refused j _ why => j = i → why = .missing → link = none
  | .removed _ | .created _ _ _ | .received _ _ _ => True

theorem agrees_of_untried {link : Option Nat} {i : Nat} {log : List Observed}
    (h : tried i log = []) : ∀ o ∈ log, o.Agrees link i := by
  intro o ho
  have hnone := List.filterMap_eq_nil_iff.mp h o ho
  cases o with
  | accepted j mq msg =>
    rintro rfl
    simp [Observed.triedBy] at hnone
  | refused j msg why =>
    rintro rfl
    simp [Observed.triedBy] at hnone
  | removed | created | received => trivial

/-- A process whose consumers have been initialised, and which calls for nothing that would change
where the name leads. -/
structure PhpProcess.Settled (link : Option Nat) (p : PhpProcess φ) : Prop where
  flag : p.world.globals.is_init_consumers = true
  calls : ∀ call ∈ p.calls, call.Fits link
  web : link.isSome → p.eng.cli = false

/-- The process `m` and those that have its queue's name from it. The name leads to `link`, and what
has been seen of them since the log had `n` entries agrees with that. -/
structure Kindred (m : Nat) (name : Bytes) (link : Option Nat) (n : Nat) (h : Host φ) : Prop where
  founder : ∃ p, h.processes.cell m = some p ∧ p.queue = some name ∧ name = queueNameOf p.world.pid
  linked : h.directory.names name = link
  member (i : Nat) (p : PhpProcess φ) : h.processes.cell i = some p → p.queue = some name →
    p.Settled link
  told (i : Nat) (p : PhpProcess φ) : h.processes.cell i = some p → p.queue = some name →
    ∀ o ∈ h.log.drop n, o.Agrees link i

section

variable {h h' : Host φ} {i m n : Nat} {name : Bytes} {link : Option Nat} {p q : PhpProcess φ}

theorem mem_drop_append {α : Type} {a : α} {l l' : List α} {n : Nat} (ha : a ∈ (l ++ l').drop n) :
    a ∈ l.drop n ∨ a ∈ l' := by
  rw [List.drop_append] at ha
  rcases List.mem_append.mp ha with ha | ha
  · exact .inl ha
  · exact .inr (List.mem_of_mem_drop ha)

/-- A call about another queue leaves the name alone. -/
theorem perform_names_ne {s : QueueSettings} {call : QueueCall} {more : List QueueCall}
    (hperform : h.perform i s call = some (h', more)) (hof : call.IsOf q.queue)
    (hne : q.queue ≠ some name) : h'.directory.names name = h.directory.names name := by
  cases call with
  | remove n =>
    cases hperform
    refine Directory.names_of_answers (u := .remove n) rfl ?_ (by rintro _ _ ⟨⟩)
    rintro ⟨⟩
    exact hne hof
  | open_or_create n =>
    cases hperform
    refine Directory.names_of_answers (u := .create n _ _) rfl (by rintro ⟨⟩) ?_
    rintro _ _ ⟨⟩
    exact hne hof
  | consumer n =>
    cases hperform
    rfl
  | open_only n msg =>
    cases n with
    | none => cases hperform
    | some n =>
      unfold Host.perform at hperform
      dsimp only at hperform
      split at hperform <;> cases hperform <;> rfl
  | try_send mq msg =>
    unfold Host.perform at hperform
    dsimp only at hperform
    split at hperform
    · rename_i directory hsend
      cases hperform
      exact Directory.names_of_answers (u := .put mq msg) hsend (by rintro ⟨⟩) (by rintro _ _ ⟨⟩)
    · cases hperform
      rfl

/-- A call that fits leaves the name where it leads, and what is left of it fits. -/
theorem perform_fits {s : QueueSettings} {call : QueueCall} {more : List QueueCall}
    (hperform : h.perform i s call = some (h', more)) (hof : call.IsOf (some name))
    (hfits : call.Fits link) (hlinked : h.directory.names name = link) :
    h'.directory.names name = link ∧ (∀ c ∈ more, c.Fits link) ∧
      ∃ os, h'.log = h.log ++ os ∧ ∀ o ∈ os, o.Agrees link i := by
  cases call with
  | remove n =>
    cases hperform
    obtain rfl : link = none := hfits
    obtain rfl : name = n := Option.some.inj hof
    refine ⟨Function.update_self _ _ _, ?_, [.removed name], rfl, ?_⟩
    · exact fun c hc => (List.not_mem_nil hc).elim
    intro o ho
    rw [List.mem_singleton.mp ho]
    trivial
  | open_or_create n => exact hfits.elim
  | consumer n =>
    cases hperform
    exact ⟨hlinked, fun c hc => (List.not_mem_nil hc).elim, [], (List.append_nil _).symm,
      fun o ho => (List.not_mem_nil ho).elim⟩
  | open_only n msg =>
    obtain rfl : n = some name := hof
    unfold Host.perform at hperform
    dsimp only at hperform
    split at hperform
    · rename_i mq hmq
      cases hperform
      refine ⟨hlinked, fun c hc => ?_, [], (List.append_nil _).symm,
        fun o ho => (List.not_mem_nil ho).elim⟩
      rw [List.mem_singleton.mp hc]
      exact hlinked.symm.trans hmq
    · rename_i hmissing
      cases hperform
      refine ⟨hlinked, fun c hc => (List.not_mem_nil hc).elim, [.refused i msg .missing], rfl, ?_⟩
      intro o ho
      rw [List.mem_singleton.mp ho]
      exact fun _ _ => hlinked.symm.trans hmissing
  | try_send mq msg =>
    obtain rfl : link = some mq := hfits
    obtain ⟨c, hc⟩ := Option.isSome_iff_exists.mp (h.directory.live name mq hlinked)
    unfold Host.perform at hperform
    dsimp only at hperform
    split at hperform
    · rename_i directory hsend
      cases hperform
      obtain ⟨-, -, -, rfl⟩ := Directory.trySend_eq_ok_iff.mp hsend
      refine ⟨hlinked, fun c hc => (List.not_mem_nil hc).elim, [.accepted i mq msg], rfl, ?_⟩
      intro o ho
      rw [List.mem_singleton.mp ho]
      exact fun _ => rfl
    · rename_i why hsend
      cases hperform
      refine ⟨hlinked, fun c hc => (List.not_mem_nil hc).elim, [.refused i msg why], rfl, ?_⟩
      intro o ho
      rw [List.mem_singleton.mp ho]
      rintro - rfl
      exact absurd hsend (Directory.trySend_ne_missing hc)

/-- No other process than the founder comes to the name, unless it has it. -/
theorem ownName_ne {f : PhpProcess φ} (hproper : h.Proper) (hfounder : h.processes.cell m = some f)
    (hname : f.queue = some (queueNameOf f.world.pid)) (hp : h.processes.cell i = some p)
    (hne : p.queue ≠ some (queueNameOf f.world.pid)) : p.world.ownName ≠ queueNameOf f.world.pid := by
  intro hown
  cases hqueue : p.world.globals.message_queue_name with
  | none =>
    rw [World.ownName, hqueue] at hown
    obtain rfl : i = m := hproper.pids i m p f hp hfounder (queueNameOf_injective hown)
    rw [hp] at hfounder
    cases hfounder
    exact hne hname
  | some other =>
    rw [World.ownName, hqueue] at hown
    exact hne (hqueue.trans (congrArg some hown))

/-- A process that is started meanwhile names its queue otherwise. -/
theorem boot_queue_ne {f : PhpProcess φ} {hostname ipv4 : Bytes} {w : World φ}
    (hfounder : h.processes.cell m = some f) (hnew : p.New) (hfree : h.Free p.world.pid)
    (hinit : opentelemetry_module_init p.eng hostname ipv4 p.world = .ok ((), w)) :
    w.globals.message_queue_name ≠ some (queueNameOf f.world.pid) := by
  intro hqueue
  obtain ⟨rfl, -⟩ | ⟨-, hname, -⟩ := module_init_ok hnew.is_init_consumers hinit
  · rw [hnew.message_queue_name] at hqueue
    cases hqueue
  · have hsame := queueNameOf_injective (Option.some.inj (hname.symm.trans hqueue))
    exact hfree m f hfounder hsame.symm

/-- A process that goes on without a word keeps the family as it is. -/
theorem Kindred.withProcess (hf : Kindred m name link n h) (hp : h.processes.cell i = some p)
    (hpid : q.world.pid = p.world.pid)
    (hqueue : p.queue = some name → q.queue = some name)
    (hmember : q.queue = some name → p.queue = some name ∧ q.Settled link) :
    Kindred m name link n (h.withProcess i q) := by
  constructor
  · obtain ⟨f, hfounder, hname, rfl⟩ := hf.founder
    change ∃ f, (h.processes.modify i fun _ => q).cell m = some f ∧ _
    by_cases hm : m = i
    · subst hm
      rw [hp] at hfounder
      cases hfounder
      exact ⟨q, by rw [Heap.cell_modify_self, hp]; rfl, hqueue hname, by rw [hpid]⟩
    · rw [Heap.cell_modify_ne hm]
      exact ⟨f, hfounder, hname, rfl⟩
  · exact hf.linked
  · intro j r hr hname
    obtain ⟨-, _, -, rfl⟩ | ⟨-, hr⟩ := Heap.cell_modify_cases hr
    · exact (hmember hname).2
    · exact hf.member j r hr hname
  · intro j r hr hname
    obtain ⟨rfl, _, -, rfl⟩ | ⟨-, hr⟩ := Heap.cell_modify_cases hr
    · exact hf.told j p hp (hmember hname).1
    · exact hf.told j r hr hname

theorem Kindred.alloc (hf : Kindred m name link n h) (hsettled : q.queue = some name → q.Settled link)
    (huntried : tried h.processes.next h.log = []) :
    Kindred m name link n { h with processes := h.processes.alloc q } := by
  constructor
  · obtain ⟨f, hfounder, hname⟩ := hf.founder
    exact ⟨f, Heap.cell_alloc_of_some hfounder, hname⟩
  · exact hf.linked
  · intro j r hr hname
    obtain ⟨-, rfl⟩ | hr := Heap.cell_alloc_cases hr
    · exact hsettled hname
    · exact hf.member j r hr hname
  · intro j r hr hname o ho
    obtain ⟨rfl, rfl⟩ | hr := Heap.cell_alloc_cases hr
    · exact agrees_of_untried huntried o (List.mem_of_mem_drop ho)
    · exact hf.told j r hr hname o ho

theorem Kindred.free (hf : Kindred m name link n h) (hi : i ≠ m) :
    Kindred m name link n { h with processes := h.processes.free [i] } := by
  constructor
  · obtain ⟨f, hfounder, hname⟩ := hf.founder
    refine ⟨f, ?_, hname⟩
    rw [Heap.cell_free, if_neg (by simpa using Ne.symm hi)]
    exact hfounder
  · exact hf.linked
  · exact fun j r hr => hf.member j r (Heap.cell_of_free hr)
  · exact fun j r hr => hf.told j r (Heap.cell_of_free hr)

/-- What is done to the queues keeps the family, if it keeps the name and is as it should be. -/
theorem Kindred.elsewhere (hf : Kindred m name link n h) (hprocesses : h'.processes = h.processes)
    (hnames : h'.directory.names name = link) {os : List Observed} (hlog : h'.log = h.log ++ os)
    (hagrees : ∀ i p, h.processes.cell i = some p → p.queue = some name →
      ∀ o ∈ os, o.Agrees link i) : Kindred m name link n h' := by
  constructor
  · rw [hprocesses]
    exact hf.founder
  · exact hnames
  · rw [hprocesses]
    exact hf.member
  · intro j r hr hname o ho
    rw [hprocesses] at hr
    rw [hlog] at ho
    rcases mem_drop_append ho with ho | ho
    · exact hf.told j r hr hname o ho
    · exact hagrees j r hr hname o ho

theorem Kindred.call (hf : Kindred m name link n h) (hproper : h.Proper)
    (hp : h.processes.cell i = some p) {call : QueueCall} {rest more : List QueueCall}
    (hcalls : p.calls = call :: rest) (hperform : h.perform i p.settings call = some (h', more)) :
    Kindred m name link n (h'.withProcess i { p with calls := more ++ rest }) := by
  obtain ⟨os, hmade⟩ := made_of_perform hperform
  have hof : call.IsOf p.queue := hproper.calls i p hp call (hcalls ▸ List.mem_cons_self)
  have hothers (j : Nat) (hj : j ≠ i) : ∀ o ∈ os, o.Agrees link j :=
    agrees_of_untried (hmade.others j hj)
  have hp' : h'.processes.cell i = some p := by rw [hmade.processes, hp]
  by_cases hname : p.queue = some name
  · have hsettled := hf.member i p hp hname
    rw [hname] at hof
    obtain ⟨hnames, hmore, os', hlog, hagrees⟩ := perform_fits hperform hof
      (hsettled.calls call (hcalls ▸ List.mem_cons_self)) hf.linked
    obtain rfl : os = os' := List.append_cancel_left (hmade.log.symm.trans hlog)
    have hf' : Kindred m name link n h' :=
      hf.elsewhere hmade.processes hnames hmade.log fun j r hr _ => by
        by_cases hj : j = i
        · rw [hj]
          exact hagrees
        · exact hothers j hj
    refine hf'.withProcess hp' rfl (fun hname => hname) fun _ => ⟨hname, hsettled.flag, ?_,
      hsettled.web⟩
    intro c hc
    rcases List.mem_append.mp hc with hc | hc
    · exact hmore c hc
    · exact hsettled.calls c (hcalls ▸ List.mem_cons_of_mem _ hc)
  · have hnames : h'.directory.names name = link :=
      (perform_names_ne hperform hof hname).trans hf.linked
    have hf' : Kindred m name link n h' :=
      hf.elsewhere hmade.processes hnames hmade.log fun j r hr hmember => by
        refine hothers j ?_
        rintro rfl
        rw [hp] at hr
        cases hr
        exact hname hmember
    exact hf'.withProcess hp' rfl (fun hname => hname) fun hmember => absurd hmember hname

/-- While the founder lives, whatever anybody does keeps the family. -/
theorem Kindred.step {turn : Turn φ} (hf : Kindred m name link n h) (hproper : h.Proper)
    (ha : Accounted encode h) (hturn : Host.Moves encode turn h h') (hlives : turn ≠ .exit m) :
    Kindred m name link n h' := by
  cases hturn with
  | boot hnew hfree hinit =>
    refine hf.alloc (fun hqueue => ?_) (ha.untried _ le_rfl)
    obtain ⟨f, hfounder, -, rfl⟩ := hf.founder
    exact absurd hqueue (boot_queue_ne hfounder hnew hfree hinit)
  | event hp hidle _ hstep hpid =>
    obtain ⟨hname, hflag⟩ | ⟨hflag, -, hown⟩ := name_of_step (hproper.named _ _ hp) hstep
    · refine hf.withProcess hp hpid (fun hqueue => hname.trans hqueue) fun hqueue => ?_
      have hmember := hname.symm.trans hqueue
      have hsettled := hf.member _ _ hp hmember
      refine ⟨hmember, hflag.trans hsettled.flag, fun call hcall => ?_, hsettled.web⟩
      obtain ⟨msg, rfl⟩ := queueCalls_of_flag hsettled.flag hcall
      trivial
    · have hstranger : ¬ PhpProcess.queue _ = some name := fun hmember =>
        absurd ((hf.member _ _ hp hmember).flag.symm.trans hflag) Bool.noConfusion
      refine hf.withProcess hp hpid (fun hqueue => absurd hqueue hstranger) fun hqueue => ?_
      obtain ⟨f, hfounder, hname, rfl⟩ := hf.founder
      exact absurd (Option.some.inj (hown.symm.trans hqueue))
        (ownName_ne hproper hfounder hname hp hstranger)
  | call hp hcalls hperform => exact hf.call hproper hp hcalls hperform
  | fork hp hidle _ hfree =>
    refine hf.alloc (fun hqueue => ?_) (ha.untried _ le_rfl)
    have hsettled := hf.member _ _ hp hqueue
    exact ⟨hsettled.flag, hsettled.calls, hsettled.web⟩
  | shutdown hp hidle _ hshutdown =>
    obtain ⟨-, hglobals, hpid⟩ := module_shutdown_ok hshutdown
    have hqueue : World.globals _ = _ := hglobals
    refine hf.withProcess hp hpid (fun hname => ?_) fun hname => ?_
    · exact (congrArg Globals.message_queue_name hglobals).trans hname
    · have hmember := (congrArg Globals.message_queue_name hglobals).symm.trans hname
      have hsettled := hf.member _ _ hp hmember
      refine ⟨hmember, (congrArg Globals.is_init_consumers hglobals).trans hsettled.flag, ?_,
        hsettled.web⟩
      intro call hcall
      obtain ⟨-, hcli, hremove⟩ := isOf_shutdownCalls hcall
      cases hlink : link with
      | none =>
        rw [show Globals.message_queue_name _ = some name from hmember] at hremove
        cases hremove
        rfl
      | some mq =>
        have hweb := hsettled.web (by rw [hlink]; rfl)
        rw [hweb] at hcli
        cases hcli
  | exit =>
    refine hf.free ?_
    rintro rfl
    exact hlives rfl
  | openQueue hc _ hstage =>
    obtain ⟨stage, hopen, -⟩ := Host.openQueue_eq _ _ _
    rw [hopen]
    exact hf.elsewhere rfl hf.linked (List.append_nil _).symm fun _ _ _ _ o ho =>
      (List.not_mem_nil ho).elim
  | receive hc _ hstage hreceive =>
    obtain ⟨-, -, -, rfl⟩ | ⟨msg, directory, htake, rfl⟩ := Host.receive_cases hreceive
    · exact hf.elsewhere rfl hf.linked (List.append_nil _).symm fun _ _ _ _ o ho =>
        (List.not_mem_nil ho).elim
    · obtain ⟨-, -, -, -, rfl⟩ := Directory.receive_eq_some_iff.mp htake
      refine hf.elsewhere rfl hf.linked rfl fun _ _ _ _ o ho => ?_
      rw [List.mem_singleton.mp ho]
      trivial

theorem Kindred.run {turns : List (Turn φ)} (hf : Kindred m name link n h) (hproper : h.Proper)
    (ha : Accounted encode h) (hrun : Run (Host.Moves encode) h turns h')
    (hlives : .exit m ∉ turns) : Kindred m name link n h' ∧ h'.Proper ∧ Accounted encode h' := by
  induction hrun with
  | nil => exact ⟨hf, hproper, ha⟩
  | snoc _ hlast ih =>
    obtain ⟨hf, hproper, ha⟩ := ih fun hexit => hlives (List.mem_append_left _ hexit)
    refine ⟨hf.step hproper ha hlast ?_, hproper.step hlast, ha.step hlast⟩
    rintro rfl
    exact hlives (List.mem_append_right _ List.mem_cons_self)

end

theorem shutdownCalls_of_ends {eng : Engine φ} {g : Globals} {name : Bytes}
    (hname : g.message_queue_name = some name) (hflag : g.is_init_consumers = true)
    (hcli : eng.cli = true ∧ g.enable = true ∧ g.cli_enable = true) :
    shutdownCalls eng g = [.remove name] := by
  simp [shutdownCalls, hname, hflag, hcli]

/-- The end of a process of the CLI, up to its one call: the queue has lost its name. -/
theorem shutdown_removes {h₀ h₁ h₂ : Host φ} {i : Nat} {p : PhpProcess φ} {name : Bytes}
    (hp : h₀.processes.cell i = some p) (hname : p.queue = some name)
    (hflag : p.world.globals.is_init_consumers = true)
    (hcli : p.eng.cli = true ∧ p.world.globals.enable = true ∧ p.world.globals.cli_enable = true)
    (hshutdown : Host.Moves encode (.shutdown i) h₀ h₁)
    (hcall : Host.Moves encode (.call i) h₁ h₂) :
    h₂.directory.names name = none ∧ ∃ q : PhpProcess φ, q.queue = some name ∧
      q.world.globals.is_init_consumers = true ∧ q.world.pid = p.world.pid ∧ q.calls = [] ∧
        h₂.processes = h₀.processes.modify i fun _ => q := by
  cases hshutdown with
  | shutdown hp' _ _ hends =>
    obtain rfl := Option.some.inj (hp.symm.trans hp')
    obtain ⟨-, hglobals, hpid⟩ := module_shutdown_ok hends
    cases hcall with
    | call hq hcalls hperform =>
      obtain ⟨-, _, -, rfl⟩ | ⟨hne, -⟩ := Heap.cell_modify_cases hq
      · rw [shutdownCalls_of_ends hname hflag hcli] at hcalls
        cases hcalls
        cases hperform
        refine ⟨Function.update_self _ _ _, _, ?_, ?_, hpid, rfl, Heap.modify_modify _ _ _ _⟩
        · exact (congrArg Globals.message_queue_name hglobals).trans hname
        · exact (congrArg Globals.is_init_consumers hglobals).trans hflag
      · exact absurd rfl hne

/-- When a process of the CLI ends, the queue of its family is gone for good: as long as the process
lives that the queue is named after, no export of any of the family is accepted any more. -/
theorem family_loses_queue {h₀ h₁ h₂ h : Host φ} {before turns : List (Turn φ)} {m i : Nat}
    {f p : PhpProcess φ} (hreach : Run (Host.Moves encode) .empty before h₀)
    (hf : h₀.processes.cell m = some f) (hp : h₀.processes.cell i = some p)
    (hname : f.queue = some (queueNameOf f.world.pid)) (hmember : p.queue = f.queue)
    (hsettled : ∀ j q, h₀.processes.cell j = some q → q.queue = f.queue →
      q.world.globals.is_init_consumers = true ∧ q.calls = [])
    (hcli : p.eng.cli = true ∧ p.world.globals.enable = true ∧ p.world.globals.cli_enable = true)
    (hshutdown : Host.Moves encode (.shutdown i) h₀ h₁) (hcall : Host.Moves encode (.call i) h₁ h₂)
    (hrun : Run (Host.Moves encode) h₂ turns h) (hlives : .exit m ∉ turns) :
    ∀ j q, h.processes.cell j = some q → q.queue = f.queue →
      ∀ mq msg, .accepted j mq msg ∉ h.log.drop h₂.log.length := by
  have hproper := proper_run hreach
  have hproper₂ := (hproper.step hshutdown).step hcall
  have haccounted := ((accounted_run hreach).step hshutdown).step hcall
  have hp' := hsettled i p hp hmember
  obtain ⟨hnames, q, hqueue, hflag, hpid, hcalls, hprocesses⟩ :=
    shutdown_removes hp (hmember.trans hname) hp'.1 hcli hshutdown hcall
  have hfamily : Kindred m (queueNameOf f.world.pid) none h₂.log.length h₂ := by
    constructor
    · rw [hprocesses]
      by_cases hm : m = i
      · subst hm
        obtain rfl := Option.some.inj (hf.symm.trans hp)
        exact ⟨q, by rw [Heap.cell_modify_self, hp]; rfl, hqueue, by rw [hpid]⟩
      · exact ⟨f, by rw [Heap.cell_modify_ne hm, hf], hname, rfl⟩
    · exact hnames
    · intro j r hr hmember'
      rw [hprocesses] at hr
      obtain ⟨-, _, -, rfl⟩ | ⟨-, hr⟩ := Heap.cell_modify_cases hr
      · refine ⟨hflag, fun c hc => ?_, Bool.noConfusion⟩
        rw [hcalls] at hc
        cases hc
      · obtain ⟨hset, hidle⟩ := hsettled j r hr (hmember'.trans hname.symm)
        refine ⟨hset, fun c hc => ?_, Bool.noConfusion⟩
        rw [hidle] at hc
        cases hc
    · intro j r hr hmember' o ho
      rw [List.drop_length] at ho
      cases ho
  obtain ⟨hfamily, -, -⟩ := hfamily.run hproper₂ haccounted hrun hlives
  intro j q hq hqueue mq msg hlog
  have hagrees := hfamily.told j q hq (hqueue.trans hname) _ hlog rfl
  cases hagrees

/-- A script of the CLI. -/
def script : PhpProcess Unit :=
  { worker with
    eng := .bare true
    world := { World.fresh () with
      globals := { cli_enable := true }
      server := fun key => if key = lit "argv" then some .null else none } }

/-- The script starts its tracer and forks a child. -/
def forkTurns : List (Turn Unit) :=
  [.boot script [] [], .event 0 (.start_cli_tracer (some (none, none, .internal))), .call 0, .call 0,
    .call 0, .fork 0 2]

/-- The child is at the end of its module when the script ends its session. -/
def afterChild : List (Turn Unit) := [.event 0 .shutdown_cli_tracer, .call 0]

/-- What is known of a process from its index. -/
def Host.Knows (h : Host Unit) (i pid : Nat) (P : PhpProcess Unit → Bool) : Bool :=
  (h.processes.cell i).any fun p =>
    p.queue == some (queueNameOf 1) && p.world.pid == pid && p.world.globals.is_init_consumers &&
      p.calls.isEmpty && P p

theorem Host.knows {h : Host Unit} {i pid : Nat} {P : PhpProcess Unit → Bool}
    (hknows : h.Knows i pid P = true) : ∃ p, h.processes.cell i = some p ∧
      p.queue = some (queueNameOf 1) ∧ p.world.pid = pid ∧
        p.world.globals.is_init_consumers = true ∧ p.calls = [] ∧ P p = true := by
  obtain ⟨p, hp, hcheck⟩ := (Option.any_eq_true _ _).mp hknows
  simp only [Bool.and_eq_true, beq_iff_eq, List.isEmpty_iff] at hcheck
  exact ⟨p, hp, hcheck.1.1.1.1, hcheck.1.1.1.2, hcheck.1.1.2, hcheck.1.2, hcheck.2⟩

theorem family_loses_queue_script : ∃ h₂ h : Host Unit,
    Run (Host.Moves entries) h₂ afterChild h ∧
      h.log.drop h₂.log.length = [.refused 0 [1] .missing] ∧
        ∀ mq msg, .accepted 0 mq msg ∉ h.log.drop h₂.log.length := by
  have hplay : ((forkTurns.foldlM (Host.play entries) .empty).any fun h₀ =>
      h₀.Knows 0 1 (fun _ => true) &&
        h₀.Knows 1 2 (fun p => p.eng.cli && p.world.globals.enable && p.world.globals.cli_enable) &&
        (h₀.processes.next == 2) &&
        (h₀.play entries (.shutdown 1)).any fun h₁ => (h₁.play entries (.call 1)).any fun h₂ =>
          (afterChild.foldlM (Host.play entries) h₂).any fun h => h.Knows 0 1 (fun _ => true) &&
            h.log.drop h₂.log.length == [.refused 0 [1] .missing]) = true := by decide +kernel
  obtain ⟨h₀, hreach, hcheck⟩ := Host.run_play hplay
  simp only [Bool.and_eq_true, beq_iff_eq] at hcheck
  obtain ⟨⟨⟨hscript, hchild⟩, hnext⟩, hends⟩ := hcheck
  obtain ⟨f, hf, hname, hpid, hflag, hidle, -⟩ := Host.knows hscript
  obtain ⟨p, hp, hname', -, hflag', hidle', hcli⟩ := Host.knows hchild
  simp only [Bool.and_eq_true] at hcli
  obtain ⟨h₁, hshutdown, hends⟩ := (Option.any_eq_true _ _).mp hends
  obtain ⟨h₂, hcall, hends⟩ := (Option.any_eq_true _ _).mp hends
  obtain ⟨h, hrun, hcheck⟩ := Host.run_play hends
  simp only [Bool.and_eq_true, beq_iff_eq] at hcheck
  obtain ⟨q, hq, hname'', -⟩ := Host.knows hcheck.1
  refine ⟨h₂, h, hrun, hcheck.2, ?_⟩
  refine family_loses_queue hreach hf hp (by rw [hpid, hname]) (hname'.trans hname.symm)
    (fun j r hr _ => ?_) ⟨hcli.1.1, hcli.1.2, hcli.2⟩ (Host.moves_of_play hshutdown)
    (Host.moves_of_play hcall) hrun (by simp [afterChild]) 0 q hq (hname''.trans hname.symm)
  have hj : j < 2 := hnext ▸ Heap.lt_next hr
  obtain rfl | rfl : j = 0 ∨ j = 1 := by omega
  · obtain rfl := Option.some.inj (hf.symm.trans hr)
    exact ⟨hflag, hidle⟩
  · obtain rfl := Option.some.inj (hp.symm.trans hr)
    exact ⟨hflag', hidle'⟩

end opentelemetry
