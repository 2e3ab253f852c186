import OpentelemetryExt.OtelExporter.Shards
import OpentelemetryExt.World
import OpentelemetryExt.Lib.Linked
import OpentelemetryExt.Lib.Run

open heap linked run stateful

namespace opentelemetry

namespace OtelExporter

/-- `struct sockaddr_in`. -/
structure SockaddrIn where
  sin_family : UInt16
  sin_addr : UInt32
  sin_port : UInt16
deriving DecidableEq, Repr

def AF_INET : UInt16 := 2

/-- What a pointer to a socket address points to: the variable of the constructor, or the
address in a node of a resolved list. -/
inductive AddrIn where
  | addr
  | ai_addr (node : Nat)
deriving DecidableEq, Repr

/-- What `getaddrinfo` answers. The codes of its errors are negative, and a list that it finds has
an address. -/
inductive Lookup where
  | found (first : SockaddrIn) (rest : List SockaddrIn)
  | failed (ilRc : Int) (negative : ilRc < 0)

/-- The conversions of the C library. `inet_addr` is `none` for `INADDR_NONE`. -/
structure Inet where
  inet_addr : Bytes → Option UInt32
  htons : Int → UInt16

/-- The members that sending by UDP uses. `addr` is the variable of the constructor, as far as it
is still there, `nodes` holds the lists that `getaddrinfo` returned, and `sent` what has been
handed to `sendto`, with its address. -/
structure Udp where
  sock_fd : Int
  addr_ip : Bytes
  addr_port : Int
  addr_info : Option Nat
  current_addr_info : Option Nat
  addr_in : Option AddrIn
  addr : Option SockaddrIn
  nodes : Heap (Node SockaddrIn)
  sent : List (Bytes × SockaddrIn)

namespace Udp

/-- The exporter when `initUDP` has opened the socket, before it resolves the address. -/
def opened (addr_ip : Bytes) (addr_port sock_fd : Int) (addr : Option SockaddrIn) : Udp where
  sock_fd
  addr_ip
  addr_port
  addr_info := none
  current_addr_info := none
  addr_in := some .addr
  addr
  nodes := .empty
  sent := []

/-- `*addr_in`. -/
def sockaddr (e : Udp) : Except Fault SockaddrIn := do
  match ← deref e.addr_in with
  | .addr =>
    match e.addr with
    | some a => return a
    | none => .error .dangling
  | .ai_addr p => return (← load e.nodes p).value

/-- `*addr_in = a`. -/
def storeSockaddr (a : SockaddrIn) : Prog Udp Fault Unit := do
  let e ← get
  let _ ← lift e.sockaddr
  match ← lift (deref e.addr_in) with
  | .addr => set { e with addr := some a }
  | .ai_addr p => set { e with nodes := e.nodes.modify p fun node => { node with value := a } }

/-- `current_addr_info = p; addr_in = current_addr_info->ai_addr`. -/
def point (p : Option Nat) : Prog Udp Fault Unit := do
  let e ← get
  let q ← lift (deref p)
  let _ ← lift (load e.nodes q)
  set { e with current_addr_info := p, addr_in := some (.ai_addr q) }

/-- A failed lookup leaves `addr_info` as it is. -/
def getaddrinfo (answer : Lookup) : Prog Udp Fault Int := do
  match answer with
  | .found first rest =>
    let e ← get
    let list := chain e.nodes (first :: rest)
    set { e with addr_info := list.1, nodes := list.2 }
    return 0
  | .failed ilRc _ => return ilRc

/-- `answers` has what `getaddrinfo` answers when so many further attempts are left. -/
def resolveUDPAddr (inet : Inet) (answers : Nat → Lookup) : Nat → Prog Udp Fault Unit
  | 0 => return ()
  | reTry + 1 => do
    match inet.inet_addr (← get).addr_ip with
    | some s_addr =>
      storeSockaddr ⟨AF_INET, s_addr, inet.htons (← get).addr_port⟩
      -- the address is printed
      let _ ← lift (← get).sockaddr
    | none =>
      let ilRc ← getaddrinfo (answers reTry)
      if ilRc < 0 then resolveUDPAddr inet answers reTry
      else
        point (← get).addr_info
        let _ ← lift (← get).sockaddr

def sendto (datagram : Bytes) : Prog Udp Fault Unit := do
  let a ← lift (← get).sockaddr
  modify fun e => { e with sent := e.sent ++ [(datagram, a)] }

/-- The next address of the list is for the next payload. -/
def rotate : Prog Udp Fault Unit := do
  let e ← get
  match e.current_addr_info with
  | some p =>
    let node ← lift (load e.nodes p)
    point (node.around e.addr_info)
  | none => return ()

/-- Sending a payload, with the id that is drawn for it if it does not fit one datagram. -/
def sendTracerByUDP (id data : Bytes) : Prog Udp Fault Unit := do
  let e ← get
  if 0 < e.sock_fd ∧ e.addr_in.isSome ∧ data ≠ [] then
    let datagrams ← lift (OtelExporter.sendTracerByUDP id data)
    datagrams.forM sendto
    rotate

end Udp

/-- What is called on an exporter that sends by UDP. -/
inductive Call where
  | sendTracerByUDP (id data : Bytes)
  | resolveUDPAddr (answers : Nat → Lookup)

def Call.run (inet : Inet) : Call → Prog Udp Fault Unit
  | .sendTracerByUDP id data => Udp.sendTracerByUDP id data
  | .resolveUDPAddr answers => Udp.resolveUDPAddr inet answers 3

/-- The call is complete in `e'`. -/
def Completes (inet : Inet) (call : Call) (e e' : Udp) : Prop := call.run inet e = .ok ((), e')

/-- The receivers in turn: the list that was resolved last, and how many payloads it has got. -/
structure Turn where
  receivers : List SockaddrIn
  payloads : Nat

/-- The index of the receiver of the next payload. -/
def Turn.index (t : Turn) : Nat := t.payloads % t.receivers.length

/-- What so many lookups find. -/
def foundBy (answers : Nat → Lookup) : Nat → Option (List SockaddrIn)
  | 0 => none
  | reTry + 1 =>
    match answers reTry with
    | .found first rest => some (first :: rest)
    | .failed _ _ => foundBy answers reTry

/-- How a call on an exporter that was opened as `s` moves the turn: a payload passes it on, a
resolution that finds a list begins it again. -/
def Turn.next (inet : Inet) (s : Udp) (t : Option Turn) : Call → Option Turn
  | .sendTracerByUDP _ data =>
    if 0 < s.sock_fd ∧ data ≠ [] then t.map fun t => { t with payloads := t.payloads + 1 } else t
  | .resolveUDPAddr answers =>
    if (inet.inet_addr s.addr_ip).isSome then t
    else ((foundBy answers 3).map fun receivers => ⟨receivers, 0⟩).or t

/-- The pointers of the exporter stand where the turn says. -/
def OnTurn (e : Udp) : Option Turn → Prop
  | none => e.addr_info = none ∧ e.current_addr_info = none ∧ e.addr_in = some .addr
  | some t => ∃ q, e.current_addr_info = some q ∧ e.addr_in = some (.ai_addr q) ∧
      Stands e.nodes e.addr_info t.receivers t.index q

/-- The datagrams of the payload have been handed over, all with this address. -/
def SentTo (a : SockaddrIn) (id data : Bytes) (e e' : Udp) : Prop :=
  ∃ datagrams, sendTracerByUDP id data = .ok datagrams ∧
    e'.sent = e.sent ++ datagrams.map fun datagram => (datagram, a)

section

variable {inet : Inet} {s e e' : Udp} {t : Option Turn} {a : SockaddrIn} {id data : Bytes}

theorem sockaddr_onTurn {t : Turn} (hturn : OnTurn e (some t)) :
    ∃ a, e.sockaddr = .ok a ∧ t.receivers[t.index]? = some a := by
  obtain ⟨q, -, hin, hstands⟩ := hturn
  obtain ⟨a, next, ha, hcell, -⟩ := hstands.value
  refine ⟨a, ?_, ha⟩
  simp only [Udp.sockaddr, hin, deref_some, ok_bind, load_eq_ok_iff.mpr hcell]
  rfl

/-- All datagrams of a payload are handed over with one address. -/
theorem forM_sendto {datagrams : List Bytes} (hread : e.sockaddr = .ok a) :
    datagrams.forM Udp.sendto e =
      .ok ((), { e with sent := e.sent ++ datagrams.map fun datagram => (datagram, a) }) := by
  induction datagrams generalizing e with
  | nil =>
    rw [List.map_nil, List.append_nil]
    rfl
  | cons datagram datagrams ih =>
    have hsend : Udp.sendto datagram e = .ok ((), { e with sent := e.sent ++ [(datagram, a)] }) := by
      simp only [Udp.sendto, bind_apply, get_apply, ok_bind, hread, lift_ok, modify_apply]
    have hmap : e.sent ++ (datagram :: datagrams).map (fun datagram => (datagram, a)) =
        e.sent ++ [(datagram, a)] ++ datagrams.map fun datagram => (datagram, a) := by
      rw [List.append_assoc]
      rfl
    rw [forM_cons, bind_apply, hsend, ok_bind, hmap]
    exact ih (e := { e with sent := e.sent ++ [(datagram, a)] }) hread

/-- A payload that is handed over goes to one address. -/
theorem forM_sendto_sentTo {datagrams : List Bytes} (hdatagrams : sendTracerByUDP id data = .ok datagrams)
    (h : datagrams.forM Udp.sendto e = .ok ((), e')) :
    ∃ a sent, e' = { e with sent } ∧ SentTo a id data e e' ∧ ∀ b, e.sockaddr = .ok b → a = b := by
  cases hread : e.sockaddr with
  | ok a =>
    rw [forM_sendto hread] at h
    cases h
    exact ⟨a, _, rfl, ⟨datagrams, hdatagrams, rfl⟩, fun b hb => Except.ok.inj hb⟩
  | error fault =>
    cases datagrams with
    | nil =>
      cases h
      refine ⟨⟨0, 0, 0⟩, _, rfl, ⟨[], hdatagrams, by simp⟩, fun b hb => ?_⟩
      cases hb
    | cons datagram datagrams =>
      simp only [forM_cons, bind_apply, Udp.sendto, get_apply, ok_bind, hread, lift_error] at h
      cases h

theorem point_eq {q : Nat} {node : Node SockaddrIn} (hcell : e.nodes.cell q = some node) :
    Udp.point (some q) e =
      .ok ((), { e with current_addr_info := some q, addr_in := some (.ai_addr q) }) := by
  simp only [Udp.point, bind_apply, get_apply, ok_bind, deref_some, lift_ok, load_eq_ok_iff.mpr hcell,
    set_apply]

/-- Rotation passes the turn on. -/
theorem rotate_onTurn (hturn : OnTurn e t) : ∃ current_addr_info addr_in,
    Udp.rotate e = .ok ((), { e with current_addr_info, addr_in }) ∧
      OnTurn { e with current_addr_info, addr_in }
        (t.map fun t => { t with payloads := t.payloads + 1 }) := by
  cases t with
  | none =>
    have hrotate : Udp.rotate e = .ok ((), e) := by
      simp only [Udp.rotate, bind_apply, get_apply, ok_bind, hturn.2.1, pure_apply]
    exact ⟨e.current_addr_info, e.addr_in, hrotate, hturn⟩
  | some t =>
    obtain ⟨q, hcurrent, hin, hstands⟩ := hturn
    obtain ⟨a, next, -, hcell, -⟩ := hstands.value
    obtain ⟨q', haround, hstands'⟩ := hstands.around hcell
    obtain ⟨a', next', -, hcell', -⟩ := hstands'.value
    have hindex : Turn.index { t with payloads := t.payloads + 1 } =
        (t.index + 1) % t.receivers.length := by
      rw [Turn.index, Turn.index, Nat.mod_add_mod]
    refine ⟨some q', some (.ai_addr q'), ?_, q', rfl, rfl, ?_⟩
    · simp only [Udp.rotate, bind_apply, get_apply, ok_bind, hcurrent, load_eq_ok_iff.mpr hcell, lift_ok,
        haround, point_eq hcell']
    · rw [hindex]
      exact hstands'

/-- An address that is a number is written where `addr_in` points. -/
theorem resolve_literal {answers : Nat → Lookup} {reTry : Nat} {s_addr : UInt32}
    (hnumber : inet.inet_addr e.addr_ip = some s_addr) (hin : e.addr_in = some .addr)
    (h : Udp.resolveUDPAddr inet answers reTry e = .ok ((), e')) : ∃ addr, e' = { e with addr } := by
  cases reTry with
  | zero =>
    cases h
    exact ⟨e.addr, rfl⟩
  | succ reTry =>
    simp only [Udp.resolveUDPAddr, bind_apply, get_apply, ok_bind, hnumber, Udp.storeSockaddr, hin,
      deref_some, lift_ok, set_apply] at h
    cases hread : e.sockaddr with
    | error fault =>
      rw [hread] at h
      cases h
    | ok a =>
      rw [hread] at h
      cases h
      exact ⟨some ⟨AF_INET, s_addr, inet.htons e.addr_port⟩, by rw [hin]⟩

/-- The pointers after a lookup that has found these addresses. -/
theorem onTurn_found (receivers : List SockaddrIn) (hne : receivers ≠ []) :
    ∃ current_addr_info addr_in,
      Udp.point (chain e.nodes receivers).1
        { e with addr_info := (chain e.nodes receivers).1, nodes := (chain e.nodes receivers).2 } =
        .ok ((), { e with
          addr_info := (chain e.nodes receivers).1, nodes := (chain e.nodes receivers).2
          current_addr_info, addr_in }) ∧
      OnTurn { e with
          addr_info := (chain e.nodes receivers).1, nodes := (chain e.nodes receivers).2
          current_addr_info, addr_in } (some ⟨receivers, 0⟩) := by
  have hleads := leads_chain e.nodes receivers
  obtain ⟨a, as, rfl⟩ := List.exists_cons_of_ne_nil hne
  obtain ⟨q, next, hq, hcell, -⟩ := hleads.cell
  refine ⟨some q, some (.ai_addr q), ?_, q, rfl, rfl, ?_⟩
  · rw [hq]
    exact point_eq hcell
  · rw [hq] at hleads ⊢
    rw [Turn.index, Nat.zero_mod]
    exact .first hleads

/-- A resolution of a name takes the list of the first lookup that finds one. It leaves the exporter
as it is when none does. -/
theorem resolve_name (answers : Nat → Lookup) (reTry : Nat)
    (hname : inet.inet_addr e.addr_ip = none) :
    match foundBy answers reTry with
    | none => Udp.resolveUDPAddr inet answers reTry e = .ok ((), e)
    | some receivers => ∃ addr_info current_addr_info addr_in nodes,
        Udp.resolveUDPAddr inet answers reTry e =
          .ok ((), { e with addr_info, current_addr_info, addr_in, nodes }) ∧
        OnTurn { e with addr_info, current_addr_info, addr_in, nodes } (some ⟨receivers, 0⟩) := by
  induction reTry with
  | zero => rfl
  | succ reTry ih =>
    cases hanswer : answers reTry with
    | failed ilRc hnegative =>
      have hretry : Udp.resolveUDPAddr inet answers (reTry + 1) e =
          Udp.resolveUDPAddr inet answers reTry e := by
        simp only [Udp.resolveUDPAddr, bind_apply, get_apply, ok_bind, hname, hanswer, Udp.getaddrinfo,
          pure_apply, if_pos hnegative]
      rw [foundBy, hanswer, hretry]
      exact ih
    | found first rest =>
      obtain ⟨current_addr_info, addr_in, hpoint, hturn⟩ :=
        onTurn_found (e := e) (first :: rest) (List.cons_ne_nil _ _)
      obtain ⟨a, hread, -⟩ := sockaddr_onTurn hturn
      have hresolve : Udp.resolveUDPAddr inet answers (reTry + 1) e = .ok ((), { e with
          addr_info := (chain e.nodes (first :: rest)).1, nodes := (chain e.nodes (first :: rest)).2
          current_addr_info, addr_in }) := by
        simp only [Udp.resolveUDPAddr, bind_apply, get_apply, ok_bind, hname, hanswer, Udp.getaddrinfo,
          pure_apply, set_apply, lt_self_iff_false, if_false, hpoint, hread, lift_ok]
      rw [foundBy, hanswer]
      exact ⟨_, _, _, _, hresolve, hturn⟩

/-- The payload goes to one address, the one whose turn it is if a list has been resolved. -/
def ServesInTurn (t : Option Turn) (id data : Bytes) (e e' : Udp) : Prop :=
  ∃ a, SentTo a id data e e' ∧ ∀ turn, t = some turn → turn.receivers[turn.index]? = some a

theorem send_onTurn (hturn : OnTurn e t) (hopen : 0 < e.sock_fd) (hdata : data ≠ [])
    (h : Udp.sendTracerByUDP id data e = .ok ((), e')) :
    ServesInTurn t id data e e' ∧
      OnTurn e' (t.map fun t => { t with payloads := t.payloads + 1 }) ∧
      e'.sock_fd = e.sock_fd ∧ e'.addr_ip = e.addr_ip := by
  have hin : e.addr_in.isSome := by
    cases t with
    | none => rw [hturn.2.2]; rfl
    | some t =>
      obtain ⟨q, -, hin, -⟩ := hturn
      rw [hin]
      rfl
  have hsends : Udp.sendTracerByUDP id data e = (do
      let datagrams ← lift (sendTracerByUDP id data)
      datagrams.forM Udp.sendto
      Udp.rotate : Prog Udp Fault Unit) e := by
    simp only [Udp.sendTracerByUDP, bind_apply, get_apply, ok_bind]
    rw [if_pos ⟨hopen, hin, hdata⟩]
    rfl
  rw [hsends] at h
  obtain ⟨datagrams, v, hframes, hrest⟩ := bind_ok_iff.mp h
  obtain ⟨hdatagrams, rfl⟩ := lift_ok_iff.mp hframes
  obtain ⟨⟨⟩, u, hsent, hrotate⟩ := bind_ok_iff.mp hrest
  obtain ⟨a, sent, hu, hto, ha⟩ := forM_sendto_sentTo hdatagrams hsent
  have hturn' : OnTurn u t := by
    rw [hu]
    exact hturn
  obtain ⟨current_addr_info, addr_in, hrotate', hnext⟩ := rotate_onTurn hturn'
  rw [hrotate'] at hrotate
  cases hrotate
  refine ⟨⟨a, hto, fun turn ht => ?_⟩, hnext, ?_, ?_⟩
  · subst ht
    obtain ⟨b, hread, hb⟩ := sockaddr_onTurn hturn
    rw [ha b hread]
    exact hb
  · rw [hu]
  · rw [hu]

/-- The exporter, opened as `s`, is where the calls have brought the turn. A resolution of an
address that is a number begins no turn. -/
structure Follows (inet : Inet) (s e : Udp) (t : Option Turn) : Prop where
  turn : OnTurn e t
  sock_fd : e.sock_fd = s.sock_fd
  addr_ip : e.addr_ip = s.addr_ip
  number : (inet.inet_addr s.addr_ip).isSome → t = none

theorem send_shut (h : Udp.sendTracerByUDP id data e = .ok ((), e'))
    (hshut : ¬ (0 < e.sock_fd ∧ data ≠ [])) :
    e' = e := by
  have hskip : ¬ (0 < e.sock_fd ∧ e.addr_in.isSome ∧ data ≠ []) :=
    fun hsends => hshut ⟨hsends.1, hsends.2.2⟩
  simp only [Udp.sendTracerByUDP, bind_apply, get_apply, ok_bind, ite_apply, if_neg hskip,
    pure_apply] at h
  cases h
  rfl

theorem Follows.step {call : Call} (hfollows : Follows inet s e t) (h : Completes inet call e e') :
    Follows inet s e' (Turn.next inet s t call) := by
  obtain ⟨hturn, hsock, hip, hnumber⟩ := hfollows
  cases call with
  | sendTracerByUDP id data =>
    by_cases hsends : 0 < s.sock_fd ∧ data ≠ []
    · rw [Turn.next, if_pos hsends]
      obtain ⟨-, hnext, hsock', hip'⟩ := send_onTurn hturn (hsock ▸ hsends.1) hsends.2 h
      refine ⟨hnext, hsock'.trans hsock, hip'.trans hip, fun hsome => ?_⟩
      rw [hnumber hsome]
      rfl
    · rw [Turn.next, if_neg hsends]
      obtain rfl := send_shut h (hsock ▸ hsends)
      exact ⟨hturn, hsock, hip, hnumber⟩
  | resolveUDPAddr answers =>
    rw [Turn.next]
    cases hs : inet.inet_addr s.addr_ip with
    | some s_addr =>
      have hnone : t = none := hnumber (by rw [hs]; rfl)
      subst hnone
      obtain ⟨hlist, hcurrent, hin⟩ := hturn
      obtain ⟨addr, rfl⟩ := resolve_literal (hip ▸ hs) hin h
      exact ⟨⟨hlist, hcurrent, hin⟩, hsock, hip, fun _ => rfl⟩
    | none =>
      have hname : inet.inet_addr e.addr_ip = none := hip ▸ hs
      have hresolve : Udp.resolveUDPAddr inet answers 3 e = .ok ((), e') := h
      have hfinds := resolve_name answers 3 hname
      have hnumber' : (inet.inet_addr s.addr_ip).isSome → ∀ t : Option Turn, t = none := by
        intro hsome
        rw [hs] at hsome
        cases hsome
      cases hfound : foundBy answers 3 with
      | none =>
        rw [hfound, hresolve] at hfinds
        cases hfinds
        exact ⟨hturn, hsock, hip, hnumber⟩
      | some receivers =>
        rw [hfound] at hfinds
        obtain ⟨addr_info, current_addr_info, addr_in, nodes, heq, hbegins⟩ := hfinds
        rw [hresolve] at heq
        cases heq
        exact ⟨hbegins, hsock, hip, fun hsome => hnumber' hsome _⟩

/-- Where the calls on an exporter that was opened as `s` have brought the turn. -/
def turnAfter (inet : Inet) (s : Udp) (calls : List Call) : Option Turn :=
  calls.foldl (Turn.next inet s) none

theorem follows_run {calls : List Call} (hs : OnTurn s none) (h : Run (Completes inet) s calls e) :
    Follows inet s e (turnAfter inet s calls) :=
  h.simulates ⟨hs, rfl, rfl, fun _ => rfl⟩ fun _ _ _ _ hstep hfollows => hfollows.step hstep

/-- A resolution of a name is complete, whatever the lookups answer. -/
theorem resolve_completes (inet : Inet) (hname : inet.inet_addr e.addr_ip = none)
    (answers : Nat → Lookup) :
    ∃ e', Completes inet (.resolveUDPAddr answers) e e' := by
  have hresolve := resolve_name answers 3 hname
  cases hfound : foundBy answers 3 with
  | none =>
    rw [hfound] at hresolve
    exact ⟨e, hresolve⟩
  | some receivers =>
    rw [hfound] at hresolve
    obtain ⟨addr_info, current_addr_info, addr_in, nodes, heq, -⟩ := hresolve
    exact ⟨_, heq⟩

/-- Once a list has been resolved, sending a payload is complete if the payload can be framed. -/
theorem send_completes (inet : Inet) {t : Turn} (hturn : OnTurn e (some t)) {datagrams : List Bytes}
    (hframes : sendTracerByUDP id data = .ok datagrams) :
    ∃ e', Completes inet (.sendTracerByUDP id data) e e' := by
  by_cases hsends : 0 < e.sock_fd ∧ e.addr_in.isSome ∧ data ≠ []
  · obtain ⟨a, hread, -⟩ := sockaddr_onTurn hturn
    have hturn' : OnTurn
        { e with sent := e.sent ++ datagrams.map fun datagram => (datagram, a) } (some t) :=
      hturn
    obtain ⟨current_addr_info, addr_in, hrotate, -⟩ := rotate_onTurn hturn'
    have hsend : Udp.sendTracerByUDP id data e =
        Udp.rotate { e with sent := e.sent ++ datagrams.map fun datagram => (datagram, a) } := by
      simp only [Udp.sendTracerByUDP, bind_apply, get_apply, ok_bind]
      rw [if_pos hsends, bind_apply, hframes, lift_ok, ok_bind, bind_apply, forM_sendto hread]
      rfl
    exact ⟨_, hsend.trans hrotate⟩
  · refine ⟨e, ?_⟩
    simp only [Completes, Call.run, Udp.sendTracerByUDP, bind_apply, get_apply, ok_bind]
    rw [if_neg hsends]
    rfl

end

section

variable {inet : Inet} {addr_ip : Bytes} {addr_port sock_fd : Int} {addr : Option SockaddrIn}
  {calls : List Call} {e : Udp}

end

/-- The call sends a payload, on an exporter that was opened as `s`. -/
def Call.isPayload (s : Udp) : Call → Bool
  | .sendTracerByUDP _ data => 0 < s.sock_fd ∧ data ≠ []
  | .resolveUDPAddr _ => false

/-- As long as no other list is found, the turn counts the payloads since the resolution. -/
theorem turnAfter_resolved {inet : Inet} {s : Udp} (before : List Call) {after : List Call}
    {answers : Nat → Lookup} {receivers : List SockaddrIn} (hname : inet.inet_addr s.addr_ip = none)
    (hfound : foundBy answers 3 = some receivers)
    (hafter : ∀ answers, Call.resolveUDPAddr answers ∈ after → foundBy answers 3 = none) :
    turnAfter inet s (before ++ .resolveUDPAddr answers :: after) =
      some ⟨receivers, after.countP (Call.isPayload s)⟩ := by
  induction after using List.reverseRecOn with
  | nil =>
    rw [turnAfter, List.foldl_append, List.foldl_cons, List.foldl_nil, Turn.next, hname, hfound]
    rfl
  | append_singleton after call ih =>
    have hrest := ih fun answers hmem => hafter answers (List.mem_append_left _ hmem)
    have hlast : turnAfter inet s (before ++ .resolveUDPAddr answers :: (after ++ [call])) =
        Turn.next inet s (turnAfter inet s (before ++ .resolveUDPAddr answers :: after)) call := by
      rw [← List.cons_append, ← List.append_assoc, turnAfter, List.foldl_append]
      rfl
    rw [hlast, hrest, List.countP_append, List.countP_singleton]
    cases call with
    | sendTracerByUDP id data =>
      by_cases hsends : 0 < s.sock_fd ∧ data ≠ []
      · simp [Turn.next, Call.isPayload, hsends]
      · rw [Turn.next, if_neg hsends]
        simp [Call.isPayload, hsends]
    | resolveUDPAddr answers' =>
      have hfails := hafter answers' (by simp)
      simp [Turn.next, hname, hfails, Call.isPayload]

/-- A library that knows no numbers. -/
def namesOnly : Inet := ⟨fun _ => none, fun _ => 0⟩

def twoReceivers : List SockaddrIn := [⟨AF_INET, 1, 80⟩, ⟨AF_INET, 2, 80⟩]

/-- A resolution that finds two addresses, and a payload. -/
def oneServed : List Call :=
  [.resolveUDPAddr fun _ => .found ⟨AF_INET, 1, 80⟩ [⟨AF_INET, 2, 80⟩], .sendTracerByUDP [] [10]]

end OtelExporter

end opentelemetry
