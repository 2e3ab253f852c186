import OpentelemetryExt.Session.QueueCalls
import OpentelemetryExt.Lib.Channel

open heap stateful run channel

namespace opentelemetry

/-- What the settings say about the message queue and the receiver. -/
structure QueueSettings where
  max_queue_length : Int
  max_message_size : Int
  receiver_type : Bytes
deriving DecidableEq, Repr

/-- An `int` where a size is expected. -/
def size_t (n : Int) : Nat := (n % 2 ^ 64).toNat

/-- What the receiver gets of a message that has come out of the queue. Nothing is passed on
from an empty buffer, or by an exporter of another type. -/
def QueueSettings.passed (s : QueueSettings) (msg : Bytes) : List Bytes :=
  if size_t s.max_message_size ≠ 0 ∧
      (c_str s.receiver_type = lit "grpc" ∨ c_str s.receiver_type = lit "udp") then [msg]
  else []

/-- A process with its module. `calls` are those that its code has come to and not made yet. -/
structure PhpProcess (φ : Type) where
  eng : Engine φ
  natives : CurlNatives φ
  settings : QueueSettings
  world : World φ
  calls : List QueueCall
  ending : Bool

/-- Before its module is started. -/
structure PhpProcess.New {φ : Type} (p : PhpProcess φ) : Prop where
  provider : p.world.globals.provider = none
  is_init_consumers : p.world.globals.is_init_consumers = false
  message_queue_name : p.world.globals.message_queue_name = none
  exported : p.world.exported = []
  calls : p.calls = []
  ending : p.ending = false

/-- Where the function `consumer` is: before it has opened the queue, in its loop, or past the
handler of the exception. -/
inductive ConsumerStage where
  | starting
  | receiving (mq : Nat)
  | failed
deriving DecidableEq, Repr

/-- A consumer thread, and what it has passed on to its exporter. -/
structure Consumer where
  process : Nat
  settings : QueueSettings
  name : Bytes
  stage : ConsumerStage
  passed : List Bytes

/-- What the processes see of each other. -/
inductive Observed where
  | removed (name : Bytes)
  | created (name : Bytes) (capacity limit : Nat)
  | accepted (process mq : Nat) (msg : Bytes)
  | refused (process : Nat) (msg : Bytes) (why : Refusal)
  | received (consumer mq : Nat) (msg : Bytes)
deriving DecidableEq, Repr

/-- All that happens to the queues. -/
def Observed.use : Observed → Option (Use Bytes Bytes)
  | .removed name => some (.remove name)
  | .created name capacity limit => some (.create name capacity limit)
  | .accepted _ mq msg => some (.put mq msg)
  | .received _ mq msg => some (.take mq msg)
  | .refused _ _ _ => none

/-- The message that a process has tried to send. -/
def Observed.triedBy (i : Nat) : Observed → Option Bytes
  | .accepted j _ msg | .refused j msg _ => if j = i then some msg else none
  | .removed _ | .created _ _ _ | .received _ _ _ => none

/-- The message that a consumer has received. -/
def Observed.receivedBy (t : Nat) : Observed → Option Bytes
  | .received u _ msg => if u = t then some msg else none
  | .removed _ | .created _ _ _ | .accepted _ _ _ | .refused _ _ _ => none

/-- The message that a call is on the way to send. -/
def QueueCall.message : QueueCall → Option Bytes
  | .open_only _ msg | .try_send _ msg => some msg
  | .remove _ | .open_or_create _ | .consumer _ => none

/-- The processes of a machine, with their message queues. -/
structure Host (φ : Type) where
  directory : Directory Bytes (List.length : Bytes → Nat)
  processes : Heap (PhpProcess φ)
  consumers : Heap Consumer
  log : List Observed

namespace Host

variable {φ : Type}

def empty : Host φ where
  directory := .empty
  processes := .empty
  consumers := .empty
  log := []

def record (o : Observed) (h : Host φ) : Host φ := { h with log := h.log ++ [o] }

def withProcess (i : Nat) (p : PhpProcess φ) (h : Host φ) : Host φ :=
  { h with processes := h.processes.modify i fun _ => p }

def withConsumer (t : Nat) (c : Consumer) (h : Host φ) : Host φ :=
  { h with consumers := h.consumers.modify t fun _ => c }

/-- A call of the process `i`, and what is left of it to be done. Nothing is opened by a null
pointer. -/
def perform (i : Nat) (s : QueueSettings) (call : QueueCall) (h : Host φ) :
    Option (Host φ × List QueueCall) :=
  match call with
  | .remove name =>
    some ({ h with directory := h.directory.remove name }.record (.removed name), [])
  | .open_or_create name =>
    let capacity := size_t s.max_queue_length
    let limit := size_t s.max_message_size
    some ({ h with directory := h.directory.openOrCreate name capacity limit }.record
      (.created name capacity limit), [])
  | .consumer name =>
    some ({ h with consumers := h.consumers.alloc ⟨i, s, name, .starting, []⟩ }, [])
  | .open_only none _ => none
  | .open_only (some name) msg =>
    match h.directory.names name with
    | some mq => some (h, [.try_send mq msg])
    | none => some (h.record (.refused i msg .missing), [])
  | .try_send mq msg =>
    match h.directory.trySend mq msg with
    | .ok directory => some ({ h with directory }.record (.accepted i mq msg), [])
    | .error why => some (h.record (.refused i msg why), [])

/-- `consumer` opens the queue. -/
def openQueue (t : Nat) (c : Consumer) (h : Host φ) : Host φ :=
  match h.directory.names c.name with
  | some mq => h.withConsumer t { c with stage := .receiving mq }
  | none => h.withConsumer t { c with stage := .failed }

/-- A round of the loop of `consumer`. To receive throws when a message might not fit the buffer,
and waits while there is none. -/
def receive (t : Nat) (c : Consumer) (mq : Nat) (h : Host φ) : Option (Host φ) :=
  match h.directory.channels.cell mq with
  | some channel =>
    if size_t c.settings.max_message_size < channel.limit then
      some (h.withConsumer t { c with stage := .failed })
    else
      match h.directory.receive mq with
      | some (msg, directory) =>
        some (({ h with directory }.record (.received t mq msg)).withConsumer t
          { c with passed := c.passed ++ c.settings.passed msg })
      | none => none
  | none => none

/-- No process has this number. -/
def Free (pid : Nat) (h : Host φ) : Prop :=
  ∀ i p, h.processes.cell i = some p → p.world.pid ≠ pid

end Host

/-- The child of a process. The threads of the parent are not copied, and of what it exports only
its own counts. -/
def PhpProcess.child {φ : Type} (p : PhpProcess φ) (pid : Nat) : PhpProcess φ :=
  { p with world := { p.world with pid := pid, ppid := p.world.pid, exported := [] } }

/-- Who acts next. -/
inductive Turn (φ : Type) where
  | boot (p : PhpProcess φ) (hostname ipv4 : Bytes)
  | event (i : Nat) (e : Event φ)
  | call (i : Nat)
  | fork (i pid : Nat)
  | shutdown (i : Nat)
  | exit (i : Nat)
  | openQueue (t : Nat)
  | receive (t : Nat)

namespace Host

variable {φ : Type}

/-- What may happen on a machine. A process makes its calls one by one, with anything in between,
and may be killed at any time. -/
inductive Moves (encode : Message → Bytes) : Turn φ → Host φ → Host φ → Prop
  | boot {h : Host φ} {p : PhpProcess φ} {hostname ipv4 : Bytes} {w : World φ} (hnew : p.New)
      (hfree : h.Free p.world.pid)
      (hinit : opentelemetry_module_init p.eng hostname ipv4 p.world = .ok ((), w)) :
      Moves encode (.boot p hostname ipv4) h { h with
        processes := h.processes.alloc
          { p with world := w, calls := queueCalls encode p.world w } }
  | event {h : Host φ} {i : Nat} {p : PhpProcess φ} {e : Event φ} {w : World φ}
      (hp : h.processes.cell i = some p) (hidle : p.calls = []) (hlives : p.ending = false)
      (hstep : Step p.eng p.natives e p.world w) (hpid : w.pid = p.world.pid) :
      Moves encode (.event i e) h
        (h.withProcess i { p with world := w, calls := queueCalls encode p.world w })
  | call {h h' : Host φ} {i : Nat} {p : PhpProcess φ} {call : QueueCall} {rest more : List QueueCall}
      (hp : h.processes.cell i = some p) (hcalls : p.calls = call :: rest)
      (hperform : h.perform i p.settings call = some (h', more)) :
      Moves encode (.call i) h (h'.withProcess i { p with calls := more ++ rest })
  | fork {h : Host φ} {i pid : Nat} {p : PhpProcess φ} (hp : h.processes.cell i = some p)
      (hidle : p.calls = []) (hlives : p.ending = false) (hfree : h.Free pid) :
      Moves encode (.fork i pid) h { h with processes := h.processes.alloc (p.child pid) }
  | shutdown {h : Host φ} {i : Nat} {p : PhpProcess φ} {w : World φ}
      (hp : h.processes.cell i = some p) (hidle : p.calls = []) (hlives : p.ending = false)
      (hshutdown : opentelemetry_module_shutdown p.eng p.world = .ok ((), w)) :
      Moves encode (.shutdown i) h (h.withProcess i { p with
        world := w, calls := shutdownCalls p.eng p.world.globals, ending := true })
  | exit {h : Host φ} {i : Nat} :
      Moves encode (.exit i) h { h with processes := h.processes.free [i] }
  | openQueue {h : Host φ} {t : Nat} {c : Consumer} (hc : h.consumers.cell t = some c)
      (hlives : (h.processes.cell c.process).isSome) (hstage : c.stage = .starting) :
      Moves encode (.openQueue t) h (h.openQueue t c)
  | receive {h h' : Host φ} {t mq : Nat} {c : Consumer} (hc : h.consumers.cell t = some c)
      (hlives : (h.processes.cell c.process).isSome) (hstage : c.stage = .receiving mq)
      (hreceive : h.receive t c mq = some h') : Moves encode (.receive t) h h'

theorem openQueue_eq (t : Nat) (c : Consumer) (h : Host φ) :
    ∃ stage, h.openQueue t c = h.withConsumer t { c with stage } ∧
      ∀ mq, h.directory.names c.name = some mq → stage = .receiving mq := by
  unfold openQueue
  split
  · rename_i mq hmq
    refine ⟨_, rfl, fun mq' hmq' => ?_⟩
    rw [Option.some.inj (hmq.symm.trans hmq')]
  · rename_i hnone
    refine ⟨_, rfl, fun mq hmq => ?_⟩
    rw [hnone] at hmq
    cases hmq

/-- A round of the loop ends it, or it receives a message. -/
theorem receive_cases {h h' : Host φ} {t mq : Nat} {c : Consumer}
    (hreceive : h.receive t c mq = some h') :
    (∃ channel, h.directory.channels.cell mq = some channel ∧
      size_t c.settings.max_message_size < channel.limit ∧
        h' = h.withConsumer t { c with stage := .failed }) ∨
    ∃ msg directory, h.directory.receive mq = some (msg, directory) ∧
      h' = ({ h with directory }.record (.received t mq msg)).withConsumer t
        { c with passed := c.passed ++ c.settings.passed msg } := by
  unfold receive at hreceive
  split at hreceive
  · rename_i channel hchannel
    split at hreceive
    · cases hreceive
      exact .inl ⟨channel, hchannel, ‹_›, rfl⟩
    · split at hreceive
      · cases hreceive
        exact .inr ⟨_, _, ‹_›, rfl⟩
      · cases hreceive
  · cases hreceive

instance decidableNew (p : PhpProcess φ) : Decidable p.New :=
  decidable_of_iff (p.world.globals.provider = none ∧ p.world.globals.is_init_consumers = false ∧
      p.world.globals.message_queue_name = none ∧ p.world.exported = [] ∧ p.calls = [] ∧
        p.ending = false)
    ⟨fun h => ⟨h.1, h.2.1, h.2.2.1, h.2.2.2.1, h.2.2.2.2.1, h.2.2.2.2.2⟩,
      fun h => ⟨h.provider, h.is_init_consumers, h.message_queue_name, h.exported, h.calls,
        h.ending⟩⟩

/-- Whether a number is free, by a look at all processes. -/
def free (pid : Nat) (h : Host φ) : Bool :=
  (List.range h.processes.next).all fun i =>
    match h.processes.cell i with
    | some p => p.world.pid != pid
    | none => true

theorem free_of_free {pid : Nat} {h : Host φ} (hfree : h.free pid = true) : h.Free pid := by
  intro i p hp
  have hcheck := List.all_eq_true.mp hfree i (List.mem_range.mpr (Heap.lt_next hp))
  rw [hp] at hcheck
  simpa using hcheck

/-- What comes of a turn. -/
def play (encode : Message → Bytes) (h : Host φ) : Turn φ → Option (Host φ)
  | .boot p hostname ipv4 =>
    if p.New ∧ h.free p.world.pid then
      match opentelemetry_module_init p.eng hostname ipv4 p.world with
      | .ok (_, w) => some { h with
          processes := h.processes.alloc { p with world := w, calls := queueCalls encode p.world w } }
      | .error _ => none
    else none
  | .event i e =>
    match h.processes.cell i with
    | some p =>
      if p.calls = [] ∧ p.ending = false then
        match final (e.run p.eng p.natives) p.world with
        | some w =>
          if w.pid = p.world.pid then
            some (h.withProcess i { p with world := w, calls := queueCalls encode p.world w })
          else none
        | none => none
      else none
    | none => none
  | .call i =>
    match h.processes.cell i with
    | some p =>
      match p.calls with
      | call :: rest =>
        match h.perform i p.settings call with
        | some (h', more) => some (h'.withProcess i { p with calls := more ++ rest })
        | none => none
      | [] => none
    | none => none
  | .fork i pid =>
    match h.processes.cell i with
    | some p =>
      if p.calls = [] ∧ p.ending = false ∧ h.free pid then
        some { h with processes := h.processes.alloc (p.child pid) }
      else none
    | none => none
  | .shutdown i =>
    match h.processes.cell i with
    | some p =>
      if p.calls = [] ∧ p.ending = false then
        match opentelemetry_module_shutdown p.eng p.world with
        | .ok (_, w) => some (h.withProcess i { p with
            world := w, calls := shutdownCalls p.eng p.world.globals, ending := true })
        | .error _ => none
      else none
    | none => none
  | .exit i => some { h with processes := h.processes.free [i] }
  | .openQueue t =>
    match h.consumers.cell t with
    | some c =>
      if (h.processes.cell c.process).isSome ∧ c.stage = .starting then some (h.openQueue t c)
      else none
    | none => none
  | .receive t =>
    match h.consumers.cell t with
    | some c =>
      match c.stage with
      | .receiving mq =>
        if (h.processes.cell c.process).isSome then h.receive t c mq else none
      | .starting | .failed => none
    | none => none

theorem moves_of_play {encode : Message → Bytes} {h h' : Host φ} {turn : Turn φ}
    (hplay : h.play encode turn = some h') : Moves encode turn h h' := by
  unfold play at hplay
  split at hplay
  · split at hplay
    · split at hplay <;> cases hplay
      exact .boot (And.left ‹_›) (free_of_free (And.right ‹_›)) ‹_›
    · cases hplay
  · split at hplay
    · split at hplay
      · split at hplay
        · split at hplay <;> cases hplay
          exact .event ‹_› (And.left ‹_›) (And.right ‹_›) (ends_iff_final.mpr ‹_›) ‹_›
        · cases hplay
      · cases hplay
    · cases hplay
  · split at hplay
    · split at hplay
      · split at hplay <;> cases hplay
        exact .call ‹_› ‹_› ‹_›
      · cases hplay
    · cases hplay
  · split at hplay
    · split at hplay <;> cases hplay
      rename_i hcheck
      exact .fork ‹_› hcheck.1 hcheck.2.1 (free_of_free hcheck.2.2)
    · cases hplay
  · split at hplay
    · split at hplay
      · split at hplay <;> cases hplay
        exact .shutdown ‹_› (And.left ‹_›) (And.right ‹_›) ‹_›
      · cases hplay
    · cases hplay
  · cases hplay
    exact .exit
  · split at hplay
    · split at hplay <;> cases hplay
      exact .openQueue ‹_› (And.left ‹_›) (And.right ‹_›)
    · cases hplay
  · split at hplay
    · split at hplay
      · split at hplay
        · exact .receive ‹_› ‹_› ‹_› hplay
        · cases hplay
      · cases hplay
      · cases hplay
    · cases hplay

/-- A run that is computed. -/
theorem run_play {encode : Message → Bytes} {h : Host φ} {turns : List (Turn φ)}
    {P : Host φ → Bool} (hplay : ((turns.foldlM (play encode) h).any P) = true) :
    ∃ h', Run (Moves encode) h turns h' ∧ P h' = true := by
  obtain ⟨h', hfold, hP⟩ := (Option.any_eq_true _ _).mp hplay
  exact ⟨h', Run.of_foldlM (fun _ _ _ hturn => moves_of_play hturn) hfold, hP⟩

end Host

end opentelemetry
