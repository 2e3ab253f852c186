import OpentelemetryExt.Session.HeaderLists

open assoc stateful run

namespace opentelemetry

variable {φ : Type} {eng : Engine φ} {natives : CurlNatives φ} {u v w w' : World φ}
  {es : List (Event φ)} {entries : List (ArrayKey × Zval)} {e : Event φ}

/-- Every stored value is an array. -/
def World.HoldsArrays (w : World φ) : Prop :=
  ∀ entries, w.globals.curl_header = some entries → ∀ entry ∈ entries, IsArray entry.2

/-- The calls of the two hooks end with the same header store. -/
def RecordsAlike (eng : Engine φ) (natives : CurlNatives φ) (w : World φ)
    (frame frame' : ExecuteData) : Prop :=
  ∃ u v, Ends (opentelemetry_curl_setopt_handler eng natives.originals frame) w u ∧
    Ends (opentelemetry_curl_setopt_array_handler eng natives.originals frame') w v ∧
    u.globals.curl_header = v.globals.curl_header

/-- A header list that the event records is an array. -/
def GivesArray (eng : Engine φ) (w : World φ) (e : Event φ) : Prop :=
  ∀ c, e = .call c → w.globals.provider.isSome = true →
    ∀ cid value, c.sets eng = some (cid, value) → IsArray value

/-- A step with nothing but an array recorded. -/
def ArrayStep (eng : Engine φ) (natives : CurlNatives φ) (e : Event φ) (w w' : World φ) : Prop :=
  Step eng natives e w w' ∧ GivesArray eng w e

theorem step_unique (h : Step eng natives e w u) (h' : Step eng natives e w v) : u = v :=
  Option.some.inj ((ends_iff_final.mp h).symm.trans (ends_iff_final.mp h'))

theorem Call.mem_rewrites {c : Call} {entry : ArrayKey × Zval} (h : entry ∈ c.rewrites eng entries) :
    (∃ cid, c.sets eng = some (cid, entry.2)) ∨ entry ∈ entries := by
  unfold Call.rewrites at h
  split at h
  · rename_i cid value hsets
    obtain rfl | hmem := mem_assign h
    · exact .inl ⟨cid, hsets⟩
    · exact .inr hmem
  · exact .inr (List.mem_of_mem_filter h)
  · exact .inr h

/-- What one event leaves in the store are arrays, if the arrays before and those that it is given
are. -/
theorem holdsArrays_step (hlong : ∀ v, eng.parse_long (.long v) = some v)
    (hstep : ArrayStep eng natives e w w') (h : w.HoldsArrays) : w'.HoldsArrays := by
  obtain ⟨hstep, hgives⟩ := hstep
  have hkept (hsame : w'.globals.curl_header = w.globals.curl_header) : w'.HoldsArrays := by
    intro entries hentries
    exact h entries (hsame ▸ hentries)
  cases store_step hlong hstep with
  | rewrites _ hhas hrewrites =>
    intro entries' hentries' entry hentry
    obtain ⟨entries, hentries, rfl⟩ := Option.map_eq_some_iff.mp (hrewrites.symm.trans hentries')
    obtain ⟨cid, hsets⟩ | hmem := Call.mem_rewrites hentry
    · exact hgives _ rfl hhas cid entry.2 hsets
    · exact h entries hentries entry hmem
  | unrecorded _ _ hsame => exact hkept hsame
  | passes _ hsame => exact hkept hsame
  | @records frame zid cid q entries base tail _ happends =>
    intro entries' hentries' entry hentry
    obtain rfl := Option.some.inj (happends.stored.symm.trans hentries')
    split at hentry
    · obtain rfl | hmem := mem_assign hentry
      · exact ⟨_, rfl⟩
      · exact h entries happends.store entry hmem
    · exact h entries happends.store entry hentry
  | starts _ _ hempty =>
    intro entries hentries entry hentry
    obtain rfl := Option.some.inj (hempty.symm.trans hentries)
    exact absurd hentry List.not_mem_nil
  | aside _ _ hkept' =>
    obtain hsame | hnone := hkept'
    · exact hkept hsame
    · intro entries hentries
      rw [hnone] at hentries
      cases hentries

theorem holdsArrays_run (hlong : ∀ v, eng.parse_long (.long v) = some v) (hinit : w.HoldsArrays)
    (hrun : Run (ArrayStep eng natives) w es v) : v.HoldsArrays :=
  hrun.invariant hinit fun _ _ _ => holdsArrays_step hlong

theorem storeHeader_eq (hstore : w.globals.curl_header = some entries) (cid : Nat) (value : Zval) :
    storeHeader cid value w = .ok ((), w.withHeaders (assign (.index cid) value entries)) := by
  have hread : curlHeader w = .ok (entries, w) := by
    simp only [curlHeader, bind_apply, globals_apply, ok_bind, hstore]
    rfl
  rw [storeHeader, bind_apply, hread]
  rfl

section

variable {frame frame' : ExecuteData} {zid opt value : Zval} {cid : Nat}

theorem curl_setopt_array_apply {arr : List (ArrayKey × Zval)}
    (hhas : w.globals.provider.isSome = true) (hargs : frame.args = [zid, .array arr])
    (hcid : curlHandle eng zid = some cid)
    (hvalue : zend_hash_index_find arr CURLOPT_HTTPHEADER = some value) :
    opentelemetry_curl_setopt_array_handler eng natives.originals frame w =
      (do storeHeader cid value; native natives.curl_setopt_array frame) w := by
  unfold opentelemetry_curl_setopt_array_handler
  rw [bind_apply, is_has_provider_of_some hhas]
  simp only [ok_bind, not_true_eq_false, if_false, hargs, hcid, hvalue]
  rfl

/-- The hook of `curl_setopt_array` stores whatever is given. -/
theorem curl_setopt_array_eq {arr : List (ArrayKey × Zval)}
    (hhas : w.globals.provider.isSome = true) (hstore : w.globals.curl_header = some entries)
    (hargs : frame.args = [zid, .array arr]) (hcid : curlHandle eng zid = some cid)
    (hvalue : zend_hash_index_find arr CURLOPT_HTTPHEADER = some value) :
    opentelemetry_curl_setopt_array_handler eng natives.originals frame w =
      native natives.curl_setopt_array frame
        (w.withHeaders (assign (.index cid) value entries)) := by
  rw [curl_setopt_array_apply hhas hargs hcid hvalue, bind_apply, storeHeader_eq hstore]
  rfl

/-- Without a store the process would have died. -/
theorem stored_of_curl_setopt_array {arr : List (ArrayKey × Zval)}
    (hhas : w.globals.provider.isSome = true) (hargs : frame.args = [zid, .array arr])
    (hcid : curlHandle eng zid = some cid)
    (hvalue : zend_hash_index_find arr CURLOPT_HTTPHEADER = some value)
    (h : Ends (opentelemetry_curl_setopt_array_handler eng natives.originals frame) w w') :
    ∃ entries, w.globals.curl_header = some entries := by
  unfold Ends at h
  rw [curl_setopt_array_apply hhas hargs hcid hvalue] at h
  obtain ⟨_, u, hsave, -⟩ | hleft := ends_bind_iff.mp h
  · obtain ⟨entries, hstore, -⟩ := update_ok hsave
    exact ⟨entries, hstore⟩
  · obtain ⟨_, hok⟩ := (Direct.storeHeader cid value).ok (.inr hleft)
    obtain ⟨entries, hstore, -⟩ := update_ok hok
    exact ⟨entries, hstore⟩

/-- The hook of `curl_setopt` stores an array. -/
theorem curl_setopt_eq_of_array {list : List (ArrayKey × Zval)}
    (hhas : w.globals.provider.isSome = true) (hstore : w.globals.curl_header = some entries)
    (hargs : frame.args = [zid, opt, .array list]) (hcid : curlHandle eng zid = some cid)
    (hopt : eng.parse_long opt = some CURLOPT_HTTPHEADER) :
    opentelemetry_curl_setopt_handler eng natives.originals frame w =
      native natives.curl_setopt frame
        (w.withHeaders (assign (.index cid) (.array list) entries)) := by
  have hown : CURLOPT_HTTPHEADER ≠ OPENTELEMETRY_CURLOPT_HTTPHEADER := by decide
  unfold opentelemetry_curl_setopt_handler
  rw [bind_apply, is_has_provider_of_some hhas]
  simp only [ok_bind, not_true_eq_false, if_false, hargs, hcid, hopt, if_neg hown, if_true]
  rw [bind_apply, storeHeader_eq hstore]
  rfl

/-- It stores nothing else. -/
theorem curl_setopt_eq_of_other (hhas : w.globals.provider.isSome = true)
    (hvalue : ¬ IsArray value) (hargs : frame.args = [zid, opt, value])
    (hcid : curlHandle eng zid = some cid) (hopt : eng.parse_long opt = some CURLOPT_HTTPHEADER) :
    opentelemetry_curl_setopt_handler eng natives.originals frame w =
      native natives.curl_setopt frame w := by
  have hown : CURLOPT_HTTPHEADER ≠ OPENTELEMETRY_CURLOPT_HTTPHEADER := by decide
  unfold opentelemetry_curl_setopt_handler
  rw [bind_apply, is_has_provider_of_some hhas]
  simp only [ok_bind, not_true_eq_false, if_false, hargs, hcid, hopt, if_neg hown]
  cases value with
  | array list => exact absurd ⟨list, rfl⟩ hvalue
  | _ => rfl

theorem recordsAlike_of_eq {f f' : ExecuteData → φ → Zval × φ}
    (h : opentelemetry_curl_setopt_handler eng natives.originals frame w = native f frame u)
    (h' : opentelemetry_curl_setopt_array_handler eng natives.originals frame' w =
      native f' frame' v) :
    RecordsAlike eng natives w frame frame' ↔
      u.globals.curl_header = v.globals.curl_header := by
  constructor
  · rintro ⟨x, y, hx, hy, hsame⟩
    obtain rfl := hx.eq_of_ok h
    obtain rfl := hy.eq_of_ok h'
    exact hsame
  · intro hsame
    exact ⟨_, _, .of_ok h, .of_ok h', hsame⟩

/-- The two hooks leave the same store exactly when there is nothing to record, the list is an
array, or the store has this very value for the handle. -/
theorem recordsAlike_iff (hstore : w.globals.curl_header = some entries)
    (hcid : curlHandle eng zid = some cid) (hopt : eng.parse_long opt = some CURLOPT_HTTPHEADER)
    (hargs : frame.args = [zid, opt, value])
    (hargs' : frame'.args = [zid, .array [(.index CURLOPT_HTTPHEADER, value)]]) :
    RecordsAlike eng natives w frame frame' ↔ (w.globals.provider.isSome = true →
      IsArray value ∨ storedList entries cid = some value) := by
  cases hhas : w.globals.provider.isSome with
  | false =>
    have hguard : is_has_provider w = .ok (false, w) := by
      simp only [is_has_provider, bind_apply, globals_apply, ok_bind, hhas, pure_apply]
    have hsetopt : opentelemetry_curl_setopt_handler eng natives.originals frame w =
        native natives.curl_setopt frame w := by
      unfold opentelemetry_curl_setopt_handler
      rw [bind_apply, hguard]
      rfl
    have hsetopt_array : opentelemetry_curl_setopt_array_handler eng natives.originals frame' w =
        native natives.curl_setopt_array frame' w := by
      unfold opentelemetry_curl_setopt_array_handler
      rw [bind_apply, hguard]
      rfl
    rw [recordsAlike_of_eq hsetopt hsetopt_array]
    exact iff_of_true rfl fun h => absurd h Bool.false_ne_true
  | true =>
    have harray : opentelemetry_curl_setopt_array_handler eng natives.originals frame' w =
        native natives.curl_setopt_array frame'
          (w.withHeaders (assign (.index cid) value entries)) :=
      curl_setopt_array_eq hhas hstore hargs' hcid List.lookup_cons_self
    by_cases hvalue : IsArray value
    · obtain ⟨list, rfl⟩ := hvalue
      rw [recordsAlike_of_eq (curl_setopt_eq_of_array hhas hstore hargs hcid hopt) harray]
      exact iff_of_true rfl fun _ => .inl ⟨list, rfl⟩
    · rw [recordsAlike_of_eq (curl_setopt_eq_of_other hhas hvalue hargs hcid hopt) harray, hstore]
      have hassign : some entries = some (assign (.index cid) value entries) ↔
          storedList entries cid = some value := by
        rw [storedList, ← assign_eq_self_iff, Option.some.injEq, eq_comm]
      rw [show (w.withHeaders (assign (.index cid) value entries)).globals.curl_header =
        some (assign (.index cid) value entries) from rfl, hassign]
      simp [hvalue]

/-- What a call of `curl_setopt_array` has stored is an array if all that is stored is. -/
theorem givesArray_of_holdsArrays (hstep : Step eng natives e w w') (h : w'.HoldsArrays) :
    GivesArray eng w e := by
  rintro c rfl hhas cid value hsets
  cases c with
  | curl_setopt frame =>
    simp only [Call.sets] at hsets
    split at hsets
    · split at hsets
      · obtain ⟨id, -, heq⟩ := Option.map_eq_some_iff.mp hsets
        cases heq
        exact ⟨_, rfl⟩
      · cases hsets
    · cases hsets
  | curl_setopt_array frame =>
    have hends : Ends (opentelemetry_curl_setopt_array_handler eng natives.originals frame) w w' :=
      ends_ignore_iff.mp hstep
    simp only [Call.sets] at hsets
    split at hsets
    · rename_i zid arr hargs
      split at hsets
      · rename_i id list hcid hvalue
        cases hsets
        obtain ⟨entries, hstore⟩ := stored_of_curl_setopt_array hhas hargs hcid hvalue hends
        obtain rfl := hends.eq_of_ok (curl_setopt_array_eq hhas hstore hargs hcid hvalue)
        exact h _ rfl (.index cid, value) (mem_of_lookup_eq_some (lookup_assign_self ..))
      · cases hsets
    · cases hsets
  | _ => cases hsets

/-- In a run all that is stored is an array at every point if and only if every call of it gives
an array. -/
theorem holdsArrays_iff (hlong : ∀ v, eng.parse_long (.long v) = some v) (hinit : w.HoldsArrays)
    (hrun : Run (Step eng natives) w es v) :
    (∀ before after x, es = before ++ after → Run (Step eng natives) w before x →
      x.HoldsArrays) ↔ Run (ArrayStep eng natives) w es v := by
  constructor
  · intro hall
    induction hrun with
    | nil => exact .nil
    | @snoc es e x y hfirst hlast ih =>
      have hgives : GivesArray eng x e :=
        givesArray_of_holdsArrays hlast (hall _ [] y (List.append_nil _).symm (.snoc hfirst hlast))
      refine .snoc (ih fun before after z hes => hall before (after ++ [e]) z ?_) ⟨hlast, hgives⟩
      rw [hes, List.append_assoc]
  · rintro harrays before after x rfl hbefore
    obtain ⟨y, hfirst, -⟩ := harrays.split
    have hsteps : Run (Step eng natives) w before y := hfirst.mono fun _ _ _ hstep => hstep.1
    have hdet (e : Event φ) (s t t' : World φ) (h : Step eng natives e s t)
        (h' : Step eng natives e s t') : t = t' := step_unique h h'
    have hsame : x = y := hbefore.unique hdet hsteps
    rw [hsame]
    exact holdsArrays_run hlong hinit hfirst

/-- The two hooks record alike, and in a run nothing but arrays is stored, exactly when what they
are given are arrays: the hook of `curl_setopt_array` does not look. -/
theorem headers_recorded_iff (hlong : ∀ v, eng.parse_long (.long v) = some v)
    (hstore : u.globals.curl_header = some entries) (hcid : curlHandle eng zid = some cid)
    (hopt : eng.parse_long opt = some CURLOPT_HTTPHEADER)
    (hargs : frame.args = [zid, opt, value])
    (hargs' : frame'.args = [zid, .array [(.index CURLOPT_HTTPHEADER, value)]])
    (hinit : w.HoldsArrays) (hrun : Run (Step eng natives) w es v) :
    (RecordsAlike eng natives u frame frame' ↔ (u.globals.provider.isSome = true →
      IsArray value ∨ storedList entries cid = some value)) ∧
    ((∀ before after x, es = before ++ after → Run (Step eng natives) w before x →
      x.HoldsArrays) ↔ Run (ArrayStep eng natives) w es v) :=
  ⟨recordsAlike_iff hstore hcid hopt hargs hargs', holdsArrays_iff hlong hinit hrun⟩

end

/-- A handle, its option and a header list. -/
def setoptFrame (value : Zval) : ExecuteData :=
  curlFrame [.object 7 (lit "CurlHandle"), .long CURLOPT_HTTPHEADER, value]

def setoptArrayFrame (value : Zval) : ExecuteData :=
  curlFrame [.object 7 (lit "CurlHandle"), .array [(.index CURLOPT_HTTPHEADER, value)]]

/-- A request in which `curl_setopt_array` is called. -/
def setArray (value : Zval) : List (Event CurlLists) :=
  [.request_init, .call (.curl_setopt_array (setoptArrayFrame value))]

/-- A request that has set no header yet. -/
def requestWorld : World CurlLists :=
  { webProcess with globals := { provider := some ⟨0, fun _ => {}⟩, curl_header := some [] } }

theorem holdsArrays_webProcess : webProcess.HoldsArrays := by
  intro entries hentries
  cases hentries

/-- Two headers. -/
def headerList : Zval := .array [(.index 0, .string (lit "a: b")), (.index 1, .string (lit "c: d"))]

theorem headers_recorded_iff_list : ∃ v,
    Run (Step (curlClient false) curlListNatives) webProcess (setArray headerList) v ∧
    ((RecordsAlike (curlClient false) curlListNatives requestWorld (setoptFrame headerList)
        (setoptArrayFrame headerList) ↔
      (requestWorld.globals.provider.isSome = true →
        IsArray headerList ∨ storedList [] 7 = some headerList)) ∧
    ((∀ before after x, setArray headerList = before ++ after →
      Run (Step (curlClient false) curlListNatives) webProcess before x → x.HoldsArrays) ↔
        Run (ArrayStep (curlClient false) curlListNatives) webProcess (setArray headerList) v)) := by
  have hruns : ∃ v, Run (Step (curlClient false) curlListNatives) webProcess (setArray headerList) v :=
    run_final _ rfl
  obtain ⟨v, hrun⟩ := hruns
  exact ⟨v, hrun, headers_recorded_iff (fun _ => rfl) rfl rfl rfl rfl rfl holdsArrays_webProcess hrun⟩

/-- `curl_setopt_array($curl, [CURLOPT_HTTPHEADER => "a: b"])`, a string where a list is wanted. -/
theorem not_headers_recorded_string :
    ¬ RecordsAlike (curlClient false) curlListNatives requestWorld
        (setoptFrame (.string (lit "a: b"))) (setoptArrayFrame (.string (lit "a: b"))) ∧
      ∃ v, Run (Step (curlClient false) curlListNatives) webProcess
        (setArray (.string (lit "a: b"))) v ∧ ¬ v.HoldsArrays := by
  have hstring : ¬ IsArray (.string (lit "a: b")) := by
    rintro ⟨list, h⟩
    cases h
  constructor
  · intro halike
    have hstore : requestWorld.globals.curl_header = some [] := rfl
    have hheld := (recordsAlike_iff hstore rfl rfl rfl rfl).mp halike rfl
    obtain harray | hstored := hheld
    · exact hstring harray
    · cases hstored
  · have hstore : ((setArray (.string (lit "a: b"))).foldlM (fun w e =>
        final (Event.run (curlClient false) curlListNatives e) w) webProcess).map
          (fun v => v.globals.curl_header) = some (some [(.index 7, .string (lit "a: b"))]) := rfl
    obtain ⟨v, hfold, hheader⟩ := Option.map_eq_some_iff.mp hstore
    have hrun : Run (Step (curlClient false) curlListNatives) webProcess
        (setArray (.string (lit "a: b"))) v :=
      Run.of_foldlM (fun _ _ _ hlast => ends_iff_final.mpr hlast) hfold
    exact ⟨v, hrun, fun h => hstring (h _ hheader (.index 7, _) (List.mem_singleton_self _))⟩

end opentelemetry
