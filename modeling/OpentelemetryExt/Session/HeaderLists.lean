import OpentelemetryExt.Session.Ledger

open stateful run

namespace opentelemetry

variable {φ : Type} {eng : Engine φ} {natives : CurlNatives φ} {v v' w : World φ} {t : Ledger}
  {cid : Nat} {es : List (HandleEvent φ)}

/-- Every header that is installed on the handle is the tracer's or was set on this handle. -/
def Isolated (curl : CurlExtension eng natives) (t : Ledger) (cid : Nat) (w : World φ) : Prop :=
  ∀ z ∈ curl.headers w.php cid, IsTracing z ∨ z ∈ t.own cid

/-- The list held for the id was recorded for the handle that has the id now, unless there is
nothing in it but the tracer's headers. -/
def Ledger.Unshared (t : Ledger) (cid : Nat) : Prop :=
  ∀ value list, t.held cid = some value → asList value = some list →
    t.current cid = true ∨ ∀ z ∈ list, IsTracing z

theorem Follows.live_of_records (hfollows : Follows v t) (hexec : Records eng natives cid v v') :
    t.sessions.live.isSome = true := by
  obtain ⟨-, -, -, -, -, hhas, -⟩ := hexec
  exact hfollows.live.trans hhas

theorem isolated_iff_unshared (curl : CurlExtension eng natives) (hfollows : Follows v t)
    (hsound : t.Sound) (hexec : Records eng natives cid v v') :
    Isolated curl t cid v' ↔ t.Unshared cid := by
  obtain ⟨list, tail, hheaders, htail, hheld⟩ := installed curl hfollows hexec
  have hlive : t.sessions.live.isSome = true := hfollows.live_of_records hexec
  simp only [Isolated, hheaders, List.mem_append]
  constructor
  · intro h value list' hvalue hlist'
    obtain ⟨hnone, -⟩ | ⟨value', hvalue', hlist⟩ := hheld
    · rw [hnone] at hvalue
      cases hvalue
    obtain rfl : value = value' := Option.some.inj (hvalue.symm.trans hvalue')
    obtain rfl : list' = list := Option.some.inj (hlist'.symm.trans hlist)
    have hrecord := hsound hlive cid value hvalue
    cases hcurrent : t.current cid with
    | true => exact .inl rfl
    | false =>
      simp only [hcurrent, Bool.false_eq_true, if_false] at hrecord
      refine .inr fun z hz => (h z (.inl hz)).resolve_right ?_
      rw [hrecord.2]
      exact List.not_mem_nil
  · rintro h z (hz | hz)
    · obtain ⟨-, rfl⟩ | ⟨value, hvalue, hlist⟩ := hheld
      · cases hz
      obtain hcurrent | htracing := h value list hvalue hlist
      · have hrecord := hsound hlive cid value hvalue
        rw [if_pos hcurrent] at hrecord
        exact .inr ((hrecord list hlist).2 z hz)
      · exact .inl (htracing z hz)
    · exact .inl (htail z hz)

theorem installed_last {list : List Zval} (curl : CurlExtension eng natives)
    (hfollows : Follows v t) (hsound : t.Sound) (hexec : Records eng natives cid v v')
    (hlast : t.last cid = some list) (hheld : (t.held cid).isSome) :
    list.Sublist (curl.headers v'.php cid) := by
  obtain ⟨list', tail, hheaders, -, ⟨hnone, -⟩ | ⟨value, hvalue, hlist⟩⟩ :=
    installed curl hfollows hexec
  · simp [hnone] at hheld
  have hlive : t.sessions.live.isSome = true := hfollows.live_of_records hexec
  have hrecord := hsound hlive cid value hvalue
  split at hrecord
  · obtain rfl : list = list' := Option.some.inj (hlast.symm.trans (hrecord _ hlist).1)
    rw [hheaders]
    exact List.sublist_append_left _ _
  · rw [hlast] at hrecord
    cases hrecord.1

theorem held_of_installed {list : List Zval} (curl : CurlExtension eng natives)
    (hfollows : Follows v t) (hexec : Records eng natives cid v v')
    (hheader : ∃ z ∈ list, ¬ IsTracing z) (h : list.Sublist (curl.headers v'.php cid)) :
    (t.held cid).isSome := by
  obtain ⟨list', tail, hheaders, htail, ⟨hnone, rfl⟩ | ⟨value, hvalue, -⟩⟩ :=
    installed curl hfollows hexec
  · obtain ⟨z, hz, hother⟩ := hheader
    rw [hheaders] at h
    exact absurd (htail z (h.subset hz)) hother
  · rw [hvalue]
    rfl

/-- The state of a curl extension that keeps no more than the header list of each handle. -/
abbrev CurlLists := Nat → List Zval

/-- A process all of whose transfers are to one address. -/
def curlClient (cli : Bool) : Engine CurlLists :=
  { Engine.bare cli with
    parse_long := fun z => match z with
      | .long v => some v
      | _ => none
    curl_getinfo := fun _ _ => .array [(.str (lit "url"), .string (lit "http://a/"))]
    php_url_parse := fun _ => some ⟨some (lit "http"), some (lit "a"), none, none⟩ }

def curlListNatives : CurlNatives CurlLists :=
  { CurlNatives.bare with
    curl_setopt := fun execute_data php => match execute_data.args with
      | [.object cid _, .long options, .array list] =>
        (.bool true, if options = CURLOPT_HTTPHEADER then
          Function.update php cid (list.map Prod.snd) else php)
      | _ => (.bool false, php) }

theorem curlHandle_eq_some {cli : Bool} {zid : Zval} {cid : Nat}
    (h : curlHandle (curlClient cli) zid = some cid) : zid = .object cid (lit "CurlHandle") := by
  cases zid with
  | object id class_name =>
    simp only [curlHandle] at h
    split at h
    · obtain ⟨-, rfl⟩ := ‹_ ∧ _›
      cases h
      rfl
    · cases h
  | resource id =>
    rw [curlHandle, if_neg (by simp [curlClient, Engine.bare])] at h
    cases h
  | _ => cases h

def curlLists (cli : Bool) : CurlExtension (curlClient cli) curlListNatives where
  headers php cid := php cid
  setopt e php zid cid list hargs hcid := by
    obtain rfl := curlHandle_eq_some hcid
    simp [curlListNatives, hargs]
  long v := rfl

def curlFrame (args : List Zval) : ExecuteData := ⟨⟨none, none, false⟩, args, .undef, []⟩

def setHeader (cid : Nat) (header : String) : HandleEvent CurlLists :=
  .event (.call (.curl_setopt (curlFrame [.object cid (lit "CurlHandle"),
    .long CURLOPT_HTTPHEADER, .array [(.index 0, .string (lit header))]])))

/-- The call of `curl_exec`, up to the transfer. -/
def exec (cid : Nat) : HandleEvent CurlLists :=
  .event (.call (.enter .curl_exec (curlFrame [.object cid (lit "CurlHandle")])))

/-- A computed run whose last event is a transfer within a session. -/
theorem records_last (cli : Bool) (cid : Nat) (w : World CurlLists) (es : List (HandleEvent CurlLists))
    (hrun : ((es ++ [exec cid]).foldlM (HandleEvent.final (curlClient cli) curlListNatives) w).isSome)
    (hinit : w.globals.curl_header = none)
    (hlive : (es.foldl (Ledger.next (curlClient cli)) (.new w.sessions)).sessions.live.isSome) :
    ∃ v v', Run (HandleStep (curlClient cli) curlListNatives) w es v ∧
      Records (curlClient cli) curlListNatives cid v v' := by
  obtain ⟨v', hfold⟩ := Option.isSome_iff_exists.mp hrun
  obtain ⟨v, hrun, hexec⟩ := (Run.of_foldlM (fun _ _ _ => handleStep_of_final) hfold).last
  have hhas := (follows_run (curlLists cli) hinit hrun).live.symm.trans hlive
  exact ⟨v, v', hrun, _, _, _, rfl, rfl, hhas, rfl, hexec⟩

/-- A process of a web server, before its first request. -/
def webProcess : World CurlLists := World.fresh fun _ => []

/-- A process of the command line, in which tracers may be started. -/
def cliProcess : World CurlLists :=
  { World.fresh fun _ => [] with
    globals := { cli_enable := true }
    server := fun _ => some (.string []) }

theorem header_not_tracing : ¬ IsTracing (.string (lit "Authorization: 1")) := by
  rintro ⟨s, hs, hprefix⟩
  cases hs
  revert hprefix
  decide

/-- Two handles, with a list set on each. -/
def twoHandles : List (HandleEvent CurlLists) :=
  [.event .request_init, .create 7 fun _ => [], .create 8 fun _ => [],
    setHeader 7 "Authorization: 1", setHeader 8 "Accept: */*"]

/-- A handle is created under the id of one that was destroyed with a list set. -/
def reuse : List (HandleEvent CurlLists) :=
  [.event .request_init, .create 7 fun _ => [], setHeader 7 "Authorization: 1",
    .destroy 7 fun _ => [], .create 7 fun _ => []]

def startTracer : HandleEvent CurlLists :=
  .event (.start_cli_tracer (some (none, none, .unspecified)))

/-- A list is set in the session, then the handle is used. -/
def setAfterStart : List (HandleEvent CurlLists) :=
  [startTracer, .create 7 fun _ => [], setHeader 7 "Authorization: 1"]

/-- The same list is set before the tracer is started. -/
def setBeforeStart : List (HandleEvent CurlLists) :=
  [.create 7 fun _ => [], setHeader 7 "Authorization: 1", startTracer]

end opentelemetry
