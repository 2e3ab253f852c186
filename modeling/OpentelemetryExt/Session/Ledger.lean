import OpentelemetryExt.Session.HeaderStore

open assoc stateful run

namespace opentelemetry

variable {φ : Type} {eng : Engine φ} {natives : CurlNatives φ} {u v w w' : World φ}

/-- What the code relies on of the curl extension and of the engine: the native `curl_setopt`
replaces the header list that curl holds for a handle, and an integer is read as itself. -/
structure CurlExtension (eng : Engine φ) (natives : CurlNatives φ) where
  headers : φ → Nat → List Zval
  setopt (e : ExecuteData) (php : φ) {zid : Zval} {cid : Nat} {list : List (ArrayKey × Zval)} :
    e.args = [zid, .long CURLOPT_HTTPHEADER, .array list] → curlHandle eng zid = some cid →
      headers (natives.curl_setopt e php).2 cid = list.map Prod.snd
  long (v : Int) : eng.parse_long (.long v) = some v

/-- The events of the process, with the creation and the destruction of curl handles, which
no hook sees. -/
inductive HandleEvent (φ : Type) where
  | event (e : Event φ)
  | create (cid : Nat) (php : φ)
  | destroy (cid : Nat) (php : φ)

def HandleStep (eng : Engine φ) (natives : CurlNatives φ) :
    HandleEvent φ → World φ → World φ → Prop
  | .event e => Step eng natives e
  | .create _ php | .destroy _ php => fun w w' => w' = { w with php := php }

/-- The state after an event, unless the process dies of it. -/
def HandleEvent.final (eng : Engine φ) (natives : CurlNatives φ) (w : World φ) :
    HandleEvent φ → Option (World φ)
  | .event e => stateful.final (e.run eng natives) w
  | .create _ php | .destroy _ php => some { w with php := php }

theorem handleStep_of_final {e : HandleEvent φ} (h : e.final eng natives w = some w') :
    HandleStep eng natives e w w' := by
  cases e with
  | event e => exact ends_iff_final.mpr h
  | create cid php => exact (Option.some.inj h).symm
  | destroy cid php => exact (Option.some.inj h).symm

def asList : Zval → Option (List Zval)
  | .array list => some (list.map Prod.snd)
  | _ => none

/-- What the events say of the handles. `own` has the headers that were set on a handle since
it was created and `last` the list that was set last; `held` is the list recorded for its id
in the current session, and `current` tells whether that was done for this handle. -/
structure Ledger where
  sessions : Sessions
  own : Nat → List Zval
  last : Nat → Option (List Zval)
  held : Nat → Option Zval
  current : Nat → Bool

namespace Ledger

/-- A process in which no handle has been used. -/
def new (sessions : Sessions) : Ledger where
  sessions := sessions
  own _ := []
  last _ := none
  held _ := none
  current _ := false

/-- The application sets a list on a handle. It is recorded if there is a provider. -/
def set (t : Ledger) (cid : Nat) (value : Zval) : Ledger :=
  { t with
    own := Function.update t.own cid (t.own cid ++ (asList value).getD [])
    last := Function.update t.last cid (asList value <|> t.last cid)
    held := if t.sessions.live.isSome then Function.update t.held cid (some value) else t.held
    current :=
      if t.sessions.live.isSome then Function.update t.current cid true else t.current }

/-- The application closes a handle, which stays usable. -/
def close (t : Ledger) (cid : Nat) : Ledger :=
  { t with
    held := if t.sessions.live.isSome then Function.update t.held cid none else t.held }

def record (eng : Engine φ) (t : Ledger) : Event φ → Ledger
  | .call c =>
    match c.sets eng, c.closes eng with
    | some (cid, value), _ => t.set cid value
    | none, some cid => t.close cid
    | none, none => t
  | e => if t.sessions.Starts eng.cli e then { t with held := fun _ => none } else t

def next (eng : Engine φ) (t : Ledger) : HandleEvent φ → Ledger
  | .event e => { t.record eng e with sessions := t.sessions.next eng.cli e }
  | .create cid _ =>
    { t with
      own := Function.update t.own cid []
      last := Function.update t.last cid none
      current := Function.update t.current cid false }
  | .destroy _ _ => t

end Ledger

/-- The ledger tells of a state which sessions there are, and what its header store has grown
from. -/
structure Follows (w : World φ) (t : Ledger) : Prop where
  sessions : w.sessions = t.sessions
  held : ∀ entries, w.globals.curl_header = some entries →
    ∀ cid, Grown (t.held cid) (storedList entries cid)

theorem Follows.live {t : Ledger} (h : Follows w t) :
    t.sessions.live.isSome = w.globals.provider.isSome := by
  rw [← h.sessions, World.sessions, Option.isSome_map]

theorem storedList_assign (cid id : Nat) (value : Zval) (entries : List (ArrayKey × Zval)) :
    storedList (assign (.index cid) value entries) id =
      Function.update (storedList entries) cid (some value) id := by
  by_cases h : id = cid
  · subst h
    rw [Function.update_self, storedList, lookup_assign_self]
  · rw [Function.update_of_ne h, storedList,
      lookup_assign_ne _ _ fun heq => h (by simpa using heq)]
    rfl

theorem storedList_remove (cid id : Nat) (entries : List (ArrayKey × Zval)) :
    storedList (remove (.index cid) entries) id =
      Function.update (storedList entries) cid none id := by
  by_cases h : id = cid
  · subst h
    rw [Function.update_self, storedList, lookup_remove_self]
  · rw [Function.update_of_ne h, storedList, lookup_remove_ne _ fun heq => h (by simpa using heq)]
    rfl

theorem grown_update {a b : Nat → Option Zval} (h : ∀ id, Grown (a id) (b id)) (cid : Nat)
    (entry : Option Zval) (id : Nat) :
    Grown (Function.update a cid entry id) (Function.update b cid entry id) := by
  by_cases hid : id = cid
  · subst hid
    rw [Function.update_self, Function.update_self]
    exact .same _
  · rw [Function.update_of_ne hid, Function.update_of_ne hid]
    exact h id

/-- What a call writes to the store, the ledger notes. -/
theorem grown_rewrites {c : Call} {t : Ledger} {entries : List (ArrayKey × Zval)}
    (hlive : t.sessions.live.isSome = true)
    (h : ∀ cid, Grown (t.held cid) (storedList entries cid)) (cid : Nat) :
    Grown ((t.record eng (.call c)).held cid) (storedList (c.rewrites eng entries) cid) := by
  simp only [Ledger.record, Call.rewrites]
  cases hsets : c.sets eng with
  | some set =>
    simp only [Ledger.set, hlive, if_true, storedList_assign]
    exact grown_update h _ _ cid
  | none =>
    cases hcloses : c.closes eng with
    | some closed =>
      simp only [Ledger.close, hlive, if_true, storedList_remove]
      exact grown_update h _ _ cid
    | none => exact h cid

/-- The entry of the handle that a call is about, if it has one, gets what the tracer appends; the
others stay. -/
theorem Appends.stored_update {zid : Zval} {cid q : Nat}
    {entries entries' base tail : List (ArrayKey × Zval)}
    (h : Appends eng natives zid cid q entries base tail w w')
    (hentries' : w'.globals.curl_header = some entries') :
    storedList entries' = Function.update (storedList entries) cid
      ((storedList entries cid).map fun _ => .array (base ++ tail)) := by
  obtain rfl := Option.some.inj (h.stored.symm.trans hentries')
  cases hfound : storedList entries cid with
  | none =>
    rw [Option.map_none, ← hfound, Function.update_eq_self, hfound, Option.isSome_none,
      if_neg Bool.false_ne_true]
  | some list =>
    funext id
    exact storedList_assign cid id _ entries

theorem Appends.grows {zid : Zval} {cid q : Nat} {entries entries' base tail : List (ArrayKey × Zval)}
    (h : Appends eng natives zid cid q entries base tail w w')
    (hentries' : w'.globals.curl_header = some entries') (id : Nat) :
    Grown (storedList entries id) (storedList entries' id) := by
  rw [h.stored_update hentries']
  by_cases hid : id = cid
  · subst hid
    rw [Function.update_self]
    cases hfound : storedList entries id with
    | none => exact .same _
    | some list =>
      obtain rfl : list = .array base := by simpa [hfound] using h.found
      exact .tail h.isTracing
  · rw [Function.update_of_ne hid]
    exact .same _

theorem Ledger.record_starts {t : Ledger} {e : Event φ} (hcall : ∀ c, e ≠ .call c)
    (hstarts : t.sessions.Starts eng.cli e) : (t.record eng e).held = fun _ => none := by
  cases e with
  | call c => exact absurd rfl (hcall c)
  | _ => simp only [Ledger.record, if_pos hstarts]

theorem Ledger.record_aside {t : Ledger} {e : Event φ} (hcall : ∀ c, e ≠ .call c)
    (hstarts : ¬ t.sessions.Starts eng.cli e) : t.record eng e = t := by
  cases e with
  | call c => exact absurd rfl (hcall c)
  | _ => simp only [Ledger.record, if_neg hstarts]

/-- The ledger notes what an event writes to the header store. -/
theorem Follows.store {t : Ledger} {e : Event φ} (h : Follows w t)
    (hstore : StoreStep eng natives w w' e) {entries' : List (ArrayKey × Zval)}
    (hentries' : w'.globals.curl_header = some entries') (cid : Nat) :
    Grown ((t.record eng e).held cid) (storedList entries' cid) := by
  cases hstore with
  | rewrites _ hhas hrewrites =>
    obtain ⟨entries, hentries, rfl⟩ := Option.map_eq_some_iff.mp (hrewrites.symm.trans hentries')
    exact grown_rewrites (h.live.trans hhas) (h.held entries hentries) cid
  | @unrecorded c _ hno hsame =>
    have hlive : t.sessions.live.isSome = false := h.live.trans hno
    have hheld : (t.record eng (.call c)).held = t.held := by
      cases hsets : c.sets eng with
      | some set => simp [Ledger.record, hsets, Ledger.set, hlive]
      | none => cases hcloses : c.closes eng <;>
          simp [Ledger.record, hsets, hcloses, Ledger.close, hlive]
    rw [hheld]
    exact h.held _ (hsame ▸ hentries') cid
  | passes _ hsame => exact h.held _ (hsame ▸ hentries') cid
  | records _ happends =>
    exact (h.held _ happends.store cid).trans (happends.grows hentries' cid)
  | starts hcall hstarts hempty =>
    obtain rfl := Option.some.inj (hempty.symm.trans hentries')
    rw [h.sessions] at hstarts
    rw [Ledger.record_starts hcall hstarts]
    exact .same _
  | aside hcall hstarts hkept =>
    rw [h.sessions] at hstarts
    rw [Ledger.record_aside hcall hstarts]
    obtain hsame | hnone := hkept
    · exact h.held _ (hsame ▸ hentries') cid
    · rw [hnone] at hentries'
      cases hentries'

theorem follows_step {t : Ledger} {e : HandleEvent φ} (curl : CurlExtension eng natives)
    (h : Follows w t) (hstep : HandleStep eng natives e w w') : Follows w' (t.next eng e) := by
  cases e with
  | create cid php =>
    cases hstep
    exact ⟨h.sessions, h.held⟩
  | destroy cid php =>
    cases hstep
    exact ⟨h.sessions, h.held⟩
  | event e =>
    refine ⟨?_, fun entries hentries cid => h.store (store_step curl.long hstep) hentries cid⟩
    rw [sessions_step hstep, h.sessions]
    rfl

theorem follows_run {es : List (HandleEvent φ)} (curl : CurlExtension eng natives)
    (hinit : w.globals.curl_header = none) (hrun : Run (HandleStep eng natives) w es w') :
    Follows w' (es.foldl (Ledger.next eng) (.new w.sessions)) := by
  refine hrun.simulates (R := Follows) ⟨rfl, fun entries hentries => ?_⟩ fun e u v t hstep ht =>
    follows_step curl ht hstep
  rw [hinit] at hentries
  cases hentries

/-- What the records have to do with what the application did: a list recorded for the current
handle is the one it set last, and for a handle that was recorded under the id of an earlier one
it has set none yet. -/
def Ledger.Sound (t : Ledger) : Prop :=
  t.sessions.live.isSome → ∀ cid value, t.held cid = some value →
    if t.current cid then
      ∀ list, asList value = some list → t.last cid = some list ∧ ∀ z ∈ list, z ∈ t.own cid
    else t.last cid = none ∧ t.own cid = []

theorem Ledger.Sound.set {t : Ledger} (h : t.Sound) (cid : Nat) (value : Zval) :
    (t.set cid value).Sound := by
  intro hlive id entry hheld
  have hlive' : t.sessions.live.isSome = true := hlive
  simp only [Ledger.set, hlive', if_true] at hheld ⊢
  by_cases hid : id = cid
  · subst hid
    simp only [Function.update_self, Option.some.injEq] at hheld ⊢
    subst hheld
    intro list hlist
    simp +contextual [hlist]
  · simp only [Function.update_of_ne hid] at hheld ⊢
    exact h hlive id entry hheld

theorem Ledger.Sound.close {t : Ledger} (h : t.Sound) (cid : Nat) : (t.close cid).Sound := by
  intro hlive id entry hheld
  have hlive' : t.sessions.live.isSome = true := hlive
  simp only [Ledger.close, hlive', if_true] at hheld ⊢
  by_cases hid : id = cid
  · subst hid
    rw [Function.update_self] at hheld
    cases hheld
  · rw [Function.update_of_ne hid] at hheld
    exact h hlive id entry hheld

theorem Ledger.Sound.create {t : Ledger} (h : t.Sound) (cid : Nat) (php : φ) :
    (t.next eng (.create cid php)).Sound := by
  intro hlive id entry hheld
  simp only [Ledger.next]
  by_cases hid : id = cid
  · subst hid
    simp
  · simp only [Function.update_of_ne hid]
    exact h hlive id entry hheld

/-- Only a start brings the provider into being. -/
theorem live_next {t : Sessions} {cli : Bool} {e : Event φ} (hstarts : ¬ t.Starts cli e)
    (h : (t.next cli e).live.isSome) : t.live.isSome := by
  have hclosed (h : (t.closed cli).live.isSome) : t.live.isSome := by
    cases hlive : t.live with
    | none => simp [Sessions.closed, hlive] at h
    | some live => rfl
  cases e with
  | request_init =>
    rwa [Sessions.next, if_neg (show ¬ (_ ∧ _) from hstarts)] at h
  | start_cli_tracer args =>
    rwa [Sessions.next, if_neg (show ¬ ((_ ∧ _ ∧ _) ∧ _) from hstarts)] at h
  | request_shutdown =>
    simp only [Sessions.next] at h
    split at h
    · exact hclosed h
    · exact h
  | shutdown_cli_tracer =>
    simp only [Sessions.next] at h
    split at h
    · exact hclosed h
    · exact h
  | _ => exact h

theorem Ledger.Sound.event {t : Ledger} (h : t.Sound) {e : Event φ} (hcall : ∀ c, e ≠ .call c) :
    (t.next eng (.event e)).Sound := by
  intro hlive cid value hheld
  by_cases hstarts : t.sessions.Starts eng.cli e
  · have hempty : (t.record eng e).held = fun _ => none := Ledger.record_starts hcall hstarts
    have hnone : (t.next eng (.event e)).held cid = none := congrFun hempty cid
    rw [hnone] at hheld
    cases hheld
  · have hrecord : t.record eng e = t := Ledger.record_aside hcall hstarts
    simp only [Ledger.next, hrecord] at hheld hlive ⊢
    exact h (live_next hstarts hlive) cid value hheld

theorem sound_next {t : Ledger} (e : HandleEvent φ) (h : t.Sound) : (t.next eng e).Sound := by
  cases e with
  | create cid php => exact h.create cid php
  | destroy cid php => exact h
  | event e =>
    cases e with
    | call c =>
      simp only [Ledger.next, Ledger.record]
      cases hsets : c.sets eng with
      | some set => exact h.set set.1 set.2
      | none =>
        cases hcloses : c.closes eng with
        | some cid => exact h.close cid
        | none => exact h
    | _ => exact h.event (by simp)

theorem sound_run (es : List (HandleEvent φ)) (sessions : Sessions) :
    (es.foldl (Ledger.next eng) (.new sessions)).Sound := by
  refine List.foldlRecOn es _ (fun _ cid value hheld => ?_) fun t h e _ => sound_next e h
  cases hheld

/-- A call of `curl_exec` on the handle that is recorded, up to the transfer. -/
def Records (eng : Engine φ) (natives : CurlNatives φ) (cid : Nat) (v v' : World φ) : Prop :=
  ∃ (execute_data : ExecuteData) (zid : Zval) (url : Url), execute_data.args = [zid] ∧
    curlHandle eng zid = some cid ∧ v.globals.provider.isSome = true ∧
    recordedUrl eng zid v = .ok (some url, v) ∧
    Step eng natives (.call (.enter .curl_exec execute_data)) v v'

theorem Records.appends {cid : Nat} (hlong : ∀ v, eng.parse_long (.long v) = some v)
    (hexec : Records eng natives cid v w) : ∃ zid q entries base tail,
      curlHandle eng zid = some cid ∧ Appends eng natives zid cid q entries base tail v w := by
  obtain ⟨execute_data, zid, url, hargs, hcid, hhas, hurl, hstep⟩ := hexec
  have henter : Ends (curlExecEnter eng natives.originals execute_data zid cid) v w := by
    obtain ⟨b, u, hb, hrest⟩ | hleft := ends_bind_iff.mp (ends_ignore_iff.mp hstep)
    · cases hb
      simpa only [hhas, if_true, hargs, hcid] using hrest
    · cases hleft
  obtain ⟨span, hok⟩ := (Direct.curlExecEnter zid cid).ok henter
  obtain ⟨q, entries, base, tail, happends⟩ := curlExecEnter_appends hhas hlong hcid hurl hok
  exact ⟨zid, q, entries, base, tail, hcid, happends⟩

theorem Appends.headers {zid : Zval} {cid q : Nat} {entries base tail : List (ArrayKey × Zval)}
    (h : Appends eng natives zid cid q entries base tail v w) (curl : CurlExtension eng natives)
    (hcid : curlHandle eng zid = some cid) :
    curl.headers w.php cid = base.map Prod.snd ++ tail.map Prod.snd := by
  obtain ⟨e, php, he, hphp⟩ := h.installs
  rw [hphp, curl.setopt e php he hcid, List.map_append]

/-- What is installed on the handle: the list that the ledger has for its id, and headers of
the tracer. -/
theorem installed {t : Ledger} {cid : Nat} (curl : CurlExtension eng natives) (h : Follows v t)
    (hexec : Records eng natives cid v w) :
    ∃ list tail, curl.headers w.php cid = list ++ tail ∧ (∀ z ∈ tail, IsTracing z) ∧
      (t.held cid = none ∧ list = [] ∨
        ∃ value, t.held cid = some value ∧ asList value = some list) := by
  obtain ⟨zid, q, entries, base, tail, hcid, happends⟩ := hexec.appends curl.long
  have hheaders := happends.headers curl hcid
  have hbase := happends.found
  have htracing : ∀ z ∈ tail.map Prod.snd, IsTracing z := by
    simpa using fun z k hz => happends.isTracing _ hz
  have hgrown := h.held entries happends.store cid
  generalize t.held cid = held at hgrown ⊢
  generalize storedList entries cid = stored at hgrown hbase
  cases hgrown with
  | same =>
    refine ⟨_, _, hheaders, htracing, ?_⟩
    cases held with
    | none =>
      cases hbase
      exact .inl ⟨rfl, rfl⟩
    | some value =>
      obtain rfl : value = .array base := hbase
      exact .inr ⟨_, rfl, rfl⟩
  | @tail list grown hgrown =>
    cases hbase
    refine ⟨list.map Prod.snd, grown.map Prod.snd ++ tail.map Prod.snd, ?_, ?_, .inr ⟨_, rfl, rfl⟩⟩
    · rw [hheaders, List.map_append, List.append_assoc]
    · intro z hz
      rcases List.mem_append.mp hz with hz | hz
      · obtain ⟨e, he, rfl⟩ := List.mem_map.mp hz
        exact hgrown e he
      · exact htracing z hz

end opentelemetry
