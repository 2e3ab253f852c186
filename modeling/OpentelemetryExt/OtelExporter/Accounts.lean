import OpentelemetryExt.OtelExporter.Host

open heap stateful run channel

namespace opentelemetry

variable {φ : Type} {encode : Message → Bytes}

/-- The messages that a process has tried to send, in order. -/
def tried (i : Nat) (log : List Observed) : List Bytes := log.filterMap (Observed.triedBy i)

/-- The messages that a consumer has received, in order. -/
def receivedBy (t : Nat) (log : List Observed) : List Bytes := log.filterMap (Observed.receivedBy t)

/-- What has been done to the queues. -/
def uses (log : List Observed) : List (Use Bytes Bytes) := log.filterMap Observed.use

/-- The messages that are on the way into a queue. -/
def unsent (calls : List QueueCall) : List Bytes := calls.filterMap QueueCall.message

theorem tried_append (i : Nat) (log os : List Observed) :
    tried i (log ++ os) = tried i log ++ tried i os := List.filterMap_append

theorem receivedBy_append (t : Nat) (log os : List Observed) :
    receivedBy t (log ++ os) = receivedBy t log ++ receivedBy t os := List.filterMap_append

theorem uses_append (log os : List Observed) : uses (log ++ os) = uses log ++ uses os :=
  List.filterMap_append

theorem unsent_append (calls more : List QueueCall) :
    unsent (calls ++ more) = unsent calls ++ unsent more := List.filterMap_append

theorem unsent_initCalls (name : Bytes) (fails : Bool) (consumers : Nat) :
    unsent (initCalls name fails consumers) = [] := by
  have hthreads : unsent (List.replicate consumers (.consumer name)) = [] := by
    induction consumers with
    | zero => rfl
    | succ n ih => exact ih
  cases fails
  · exact hthreads
  · rfl

theorem unsent_shutdownCalls (eng : Engine φ) (g : Globals) :
    unsent (shutdownCalls eng g) = [] := by
  unfold shutdownCalls
  split
  · rfl
  · split
    · cases g.message_queue_name <;> rfl
    · rfl

/-- What an event exports is what it has yet to send. -/
theorem unsent_queueCalls (w w' : World φ) :
    unsent (queueCalls encode w w') = (w'.exported.drop w.exported.length).map encode := by
  have hsends (requests : List Message) : unsent (requests.map fun request =>
      .open_only w'.globals.message_queue_name (encode request)) = requests.map encode := by
    induction requests with
    | nil => rfl
    | cons request requests ih => exact congrArg (encode request :: ·) ih
  rw [queueCalls, unsent_append, hsends]
  split
  · cases w'.globals.message_queue_name with
    | none => rfl
    | some name =>
      dsimp only
      rw [unsent_initCalls]
      rfl
  · rfl

/-- What a call of the process `i` does, and what is seen of it. -/
structure Made (i : Nat) (s : QueueSettings) (call : QueueCall) (h h' : Host φ)
    (more : List QueueCall) (os : List Observed) : Prop where
  processes : h'.processes = h.processes
  log : h'.log = h.log ++ os
  directory : Run Answers h.directory (uses os) h'.directory
  consumers : h'.consumers = h.consumers ∨ ∃ name, call = .consumer name ∧
    h'.consumers = h.consumers.alloc ⟨i, s, name, .starting, []⟩
  message : tried i os ++ unsent more = call.message.toList
  others (j : Nat) : j ≠ i → tried j os = []
  received (t : Nat) : receivedBy t os = []

/-- Nothing is seen of a call that opens the queue or starts a thread. -/
theorem Made.unseen {i : Nat} {s : QueueSettings} {call : QueueCall} {h h' : Host φ}
    {more : List QueueCall} (hprocesses : h'.processes = h.processes) (hlog : h'.log = h.log)
    (hdirectory : h'.directory = h.directory)
    (hconsumers : h'.consumers = h.consumers ∨ ∃ name, call = .consumer name ∧
      h'.consumers = h.consumers.alloc ⟨i, s, name, .starting, []⟩)
    (hmessage : unsent more = call.message.toList) : Made i s call h h' more [] where
  processes := hprocesses
  log := by rw [hlog, List.append_nil]
  directory := by
    rw [hdirectory]
    exact .nil
  consumers := hconsumers
  message := hmessage
  others _ _ := rfl
  received _ := rfl

/-- A message that is refused leaves the queues alone. -/
theorem Made.refused {i : Nat} {s : QueueSettings} {call : QueueCall} {h : Host φ} {msg : Bytes}
    (hmessage : call.message = some msg) (why : Refusal) :
    Made i s call h (h.record (.refused i msg why)) [] [.refused i msg why] where
  processes := rfl
  log := rfl
  directory := .nil
  consumers := .inl rfl
  message := by simp [hmessage, tried, unsent, Observed.triedBy]
  others j hj := by simp [tried, Observed.triedBy, Ne.symm hj]
  received _ := rfl

theorem made_of_perform {i : Nat} {s : QueueSettings} {call : QueueCall} {h h' : Host φ}
    {more : List QueueCall} (hperform : h.perform i s call = some (h', more)) :
    ∃ os, Made i s call h h' more os := by
  cases call with
  | remove name =>
    cases hperform
    exact ⟨[.removed name], rfl, rfl, Run.nil.snoc rfl, .inl rfl, rfl, fun _ _ => rfl, fun _ => rfl⟩
  | open_or_create name =>
    cases hperform
    exact ⟨[.created name _ _], rfl, rfl, Run.nil.snoc rfl, .inl rfl, rfl, fun _ _ => rfl,
      fun _ => rfl⟩
  | consumer name =>
    cases hperform
    exact ⟨[], .unseen rfl rfl rfl (.inr ⟨name, rfl, rfl⟩) rfl⟩
  | open_only name msg =>
    cases name with
    | none => cases hperform
    | some name =>
      unfold Host.perform at hperform
      dsimp only at hperform
      split at hperform
      · cases hperform
        exact ⟨[], .unseen rfl rfl rfl (.inl rfl) rfl⟩
      · cases hperform
        exact ⟨_, .refused rfl _⟩
  | try_send mq msg =>
    unfold Host.perform at hperform
    dsimp only at hperform
    split at hperform
    · rename_i directory hsend
      cases hperform
      refine ⟨[.accepted i mq msg], rfl, rfl, Run.nil.snoc hsend, .inl rfl, ?_, fun j hj => ?_,
        fun _ => rfl⟩
      · simp [tried, unsent, Observed.triedBy, QueueCall.message]
      · simp [tried, Observed.triedBy, Ne.symm hj]
    · cases hperform
      exact ⟨_, .refused rfl _⟩

/-- Every export of a process has been tried once or is on its way, and every message that a
consumer has received is passed on. -/
structure Accounted (encode : Message → Bytes) (h : Host φ) : Prop where
  directory : Run Answers (.empty : Directory Bytes (List.length : Bytes → Nat)) (uses h.log)
    h.directory
  tried (i : Nat) (p : PhpProcess φ) : h.processes.cell i = some p →
    p.world.exported.map encode = tried i h.log ++ unsent p.calls
  untried (i : Nat) : h.processes.next ≤ i → opentelemetry.tried i h.log = []
  passed (t : Nat) (c : Consumer) : h.consumers.cell t = some c →
    c.passed = (receivedBy t h.log).flatMap c.settings.passed
  unreceived (t : Nat) : h.consumers.next ≤ t → receivedBy t h.log = []

theorem accounted_empty : Accounted encode (Host.empty : Host φ) where
  directory := .nil
  tried i p hp := by cases hp
  untried _ _ := rfl
  passed t c hc := by cases hc
  unreceived _ _ := rfl

namespace Accounted

variable {h h' : Host φ} {i t : Nat} {p q : PhpProcess φ} {c : Consumer}

/-- A process takes a step that nobody sees. -/
theorem withProcess (ha : Accounted encode h)
    (hq : q.world.exported.map encode = opentelemetry.tried i h.log ++ unsent q.calls) :
    Accounted encode (h.withProcess i q) where
  directory := ha.directory
  tried j r hr := by
    obtain ⟨rfl, _, -, rfl⟩ | ⟨-, hr⟩ := Heap.cell_modify_cases hr
    · exact hq
    · exact ha.tried j r hr
  untried := ha.untried
  passed := ha.passed
  unreceived := ha.unreceived

/-- A process is added that has not exported anything. -/
theorem alloc (ha : Accounted encode h)
    (hq : q.world.exported.map encode = unsent q.calls) :
    Accounted encode { h with processes := h.processes.alloc q } where
  directory := ha.directory
  tried j r hr := by
    obtain ⟨rfl, rfl⟩ | hr := Heap.cell_alloc_cases hr
    · change _ = opentelemetry.tried h.processes.next h.log ++ _
      rw [ha.untried _ le_rfl]
      exact hq
    · exact ha.tried j r hr
  untried j hj := ha.untried j (Nat.le_of_succ_le hj)
  passed := ha.passed
  unreceived := ha.unreceived

theorem free (ha : Accounted encode h) :
    Accounted encode { h with processes := h.processes.free [i] } where
  directory := ha.directory
  tried j r hr := ha.tried j r (Heap.cell_of_free hr)
  untried := ha.untried
  passed := ha.passed
  unreceived := ha.unreceived

theorem withConsumer (ha : Accounted encode h) {b : Consumer}
    (hb : b.passed = (receivedBy t h.log).flatMap b.settings.passed) :
    Accounted encode (h.withConsumer t b) where
  directory := ha.directory
  tried := ha.tried
  untried := ha.untried
  passed u d hd := by
    obtain ⟨rfl, _, -, rfl⟩ | ⟨-, hd⟩ := Heap.cell_modify_cases hd
    · exact hb
    · exact ha.passed u d hd
  unreceived := ha.unreceived

/-- A call moves its message from those on their way to those that have been tried. -/
theorem made (ha : Accounted encode h) (hp : h.processes.cell i = some p) {call : QueueCall}
    {rest more : List QueueCall} {os : List Observed} (hcalls : p.calls = call :: rest)
    (hmade : Made i p.settings call h h' more os) :
    Accounted encode (h'.withProcess i { p with calls := more ++ rest }) := by
  constructor
  · change Run Answers _ (uses h'.log) h'.directory
    rw [hmade.log, uses_append]
    exact ha.directory.append hmade.directory
  · intro j r hr
    change _ = opentelemetry.tried j h'.log ++ _
    rw [hmade.log, tried_append]
    obtain ⟨rfl, _, -, rfl⟩ | ⟨hj, hr⟩ := Heap.cell_modify_cases hr
    · have hunsent : unsent (call :: rest) = call.message.toList ++ unsent rest :=
        List.filterMap_append (l := [call])
      rw [ha.tried j p hp, hcalls, unsent_append, hunsent, ← hmade.message]
      simp only [List.append_assoc]
    · rw [hmade.processes] at hr
      rw [hmade.others j hj, List.append_nil]
      exact ha.tried j r hr
  · intro j hj
    have hlt : i < h.processes.next := Heap.lt_next hp
    change h'.processes.next ≤ j at hj
    change opentelemetry.tried j h'.log = []
    rw [hmade.processes] at hj
    rw [hmade.log, tried_append, ha.untried j hj, hmade.others j (by omega)]
    rfl
  · intro u d hd
    change h'.consumers.cell u = some d at hd
    change d.passed = (receivedBy u h'.log).flatMap _
    rw [hmade.log, receivedBy_append, hmade.received, List.append_nil]
    rcases hmade.consumers with hsame | ⟨name, -, hnew⟩
    · rw [hsame] at hd
      exact ha.passed u d hd
    · rw [hnew] at hd
      obtain ⟨rfl, rfl⟩ | hd := Heap.cell_alloc_cases hd
      · rw [ha.unreceived _ le_rfl]
        rfl
      · exact ha.passed u d hd
  · intro u hu
    change h'.consumers.next ≤ u at hu
    change receivedBy u h'.log = []
    rw [hmade.log, receivedBy_append, hmade.received, List.append_nil]
    rcases hmade.consumers with hsame | ⟨name, -, hnew⟩
    · rw [hsame] at hu
      exact ha.unreceived u hu
    · rw [hnew] at hu
      exact ha.unreceived u (Nat.le_of_succ_le hu)

/-- A consumer passes on what it receives. -/
theorem receive (ha : Accounted encode h) {mq : Nat} (hc : h.consumers.cell t = some c)
    (hreceive : h.receive t c mq = some h') : Accounted encode h' := by
  obtain ⟨-, -, -, rfl⟩ | ⟨msg, directory, htake, rfl⟩ := Host.receive_cases hreceive
  · exact ha.withConsumer (ha.passed t c hc)
  have hseen (j : Nat) : opentelemetry.tried j (h.log ++ [.received t mq msg]) =
      opentelemetry.tried j h.log := by
    rw [tried_append]
    exact List.append_nil _
  have hothers {u : Nat} (hu : u ≠ t) : receivedBy u (h.log ++ [.received t mq msg]) =
      receivedBy u h.log := by
    rw [receivedBy_append]
    simp [receivedBy, Observed.receivedBy, Ne.symm hu]
  have hown : receivedBy t (h.log ++ [.received t mq msg]) = receivedBy t h.log ++ [msg] := by
    rw [receivedBy_append]
    simp [receivedBy, Observed.receivedBy]
  constructor
  · change Run Answers _ (uses (h.log ++ [.received t mq msg])) directory
    rw [uses_append]
    exact ha.directory.snoc htake
  · intro j r hr
    change _ = opentelemetry.tried j (h.log ++ [.received t mq msg]) ++ _
    rw [hseen]
    exact ha.tried j r hr
  · intro j hj
    change opentelemetry.tried j (h.log ++ [.received t mq msg]) = []
    rw [hseen]
    exact ha.untried j hj
  · intro u d hd
    change d.passed = (receivedBy u (h.log ++ [.received t mq msg])).flatMap _
    obtain ⟨rfl, _, -, rfl⟩ | ⟨hu, hd⟩ := Heap.cell_modify_cases hd
    · rw [hown, List.flatMap_append, ha.passed u c hc]
      simp
    · rw [hothers hu]
      exact ha.passed u d hd
  · intro u hu
    have hlt : t < h.consumers.next := Heap.lt_next hc
    change h.consumers.next ≤ u at hu
    change receivedBy u (h.log ++ [.received t mq msg]) = []
    rw [hothers (by omega)]
    exact ha.unreceived u hu

theorem step {turn : Turn φ} (ha : Accounted encode h) (h : Host.Moves encode turn h h') :
    Accounted encode h' := by
  cases h with
  | boot hnew hfree hinit =>
    refine ha.alloc ?_
    rw [unsent_queueCalls, module_init_exported hinit, List.drop_length]
    exact congrArg (List.map encode) hnew.exported
  | event hp hidle hlives hstep hpid =>
    refine ha.withProcess ?_
    have hcalls : unsent _ = [] := congrArg unsent hidle
    rw [unsent_queueCalls, ← List.append_nil (opentelemetry.tried _ _), ← hcalls,
      ← ha.tried _ _ hp, ← List.map_append, ← exported_prefix hstep]
  | call hp hcalls hperform =>
    obtain ⟨os, hmade⟩ := made_of_perform hperform
    exact ha.made hp hcalls hmade
  | fork hp hidle hlives hfree =>
    refine ha.alloc ?_
    exact (congrArg unsent hidle).symm
  | shutdown hp hidle hlives hshutdown =>
    refine ha.withProcess ?_
    have hcalls : unsent _ = [] := congrArg unsent hidle
    rw [unsent_shutdownCalls, ← hcalls, ← ha.tried _ _ hp, (module_shutdown_ok hshutdown).1]
  | exit => exact ha.free
  | openQueue hc hlives hstage =>
    obtain ⟨stage, hopen, -⟩ := Host.openQueue_eq _ _ _
    have hpassed := ha.passed _ _ hc
    rw [hopen]
    exact ha.withConsumer hpassed
  | receive hc hlives hstage hreceive => exact ha.receive hc hreceive

end Accounted

theorem accounted_run {h : Host φ} {turns : List (Turn φ)}
    (hrun : Run (Host.Moves encode) .empty turns h) : Accounted encode h :=
  hrun.invariant accounted_empty fun _ _ _ hturn ha => ha.step hturn

/-- Whatever the processes of a machine do, and in whatever order: a process has tried to send its
exports once each and in order, but for those that are on their way; what a queue has accepted has
come out of it once and in order, but for what still waits; and a consumer has passed on all that
it has received. -/
theorem exports_accounted {h : Host φ} {turns : List (Turn φ)}
    (hrun : Run (Host.Moves encode) .empty turns h) :
    (∀ i p, h.processes.cell i = some p →
      p.world.exported.map encode = tried i h.log ++ unsent p.calls) ∧
    (∀ mq, accepted mq (uses h.log) = fetched mq (uses h.log) ++ h.directory.waiting mq) ∧
    ∀ t c, h.consumers.cell t = some c →
      c.passed = (receivedBy t h.log).flatMap c.settings.passed := by
  have haccounted := accounted_run hrun
  refine ⟨haccounted.tried, fun mq => ?_, haccounted.passed⟩
  exact Directory.balanced haccounted.directory mq

/-- A worker that serves one request, with one consumer. -/
def worker : PhpProcess Unit where
  eng := .bare false
  natives := .bare
  settings := ⟨10, 1000, lit "udp"⟩
  world := World.fresh ()
  calls := []
  ending := false

def workerTurns : List (Turn Unit) :=
  [.boot worker [] [], .call 0, .call 0, .call 0, .openQueue 0, .event 0 .request_init,
    .event 0 .request_shutdown, .call 0, .call 0, .receive 0]

/-- What a consumer has passed on. -/
def Host.passedBy (t : Nat) (h : Host φ) : Option (List Bytes) :=
  (h.consumers.cell t).map Consumer.passed

/-- A message that says how many entries the request has. -/
def entries (message : Message) : Bytes := [UInt8.ofNat message.length]

theorem exports_accounted_worker : ∃ h : Host Unit,
    Run (Host.Moves entries) .empty workerTurns h ∧ h.passedBy 0 = some [[1]] ∧
      ∀ mq, accepted mq (uses h.log) = fetched mq (uses h.log) ++ h.directory.waiting mq := by
  have hplay : ((workerTurns.foldlM (Host.play entries) .empty).any fun h =>
      decide (h.passedBy 0 = some [[1]])) = true := by decide +kernel
  obtain ⟨h, hrun, hpassed⟩ := Host.run_play hplay
  exact ⟨h, hrun, of_decide_eq_true hpassed, (exports_accounted hrun).2.1⟩

end opentelemetry
