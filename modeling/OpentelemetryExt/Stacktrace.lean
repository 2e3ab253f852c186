import OpentelemetryExt.Utils

namespace opentelemetry

/-- The functions from the caller outward, up to the first frame without one. -/
def stackFrames (callers : List (Option ZendFunction)) : List ZendFunction :=
  (callers.takeWhile Option.isSome).reduceOption

/-- The names along the way, without those that are empty. -/
def frameNames (frames : List ZendFunction) : List Bytes :=
  (frames.map ZendFunction.name).filter (· ≠ [])

/-- The call path: the names from the outermost inward, with a backslash between two of them. -/
def callPath (frames : List ZendFunction) : Bytes := (lit "\\").intercalate (frameNames frames).reverse

/-- A frame without a name, such as an included file, has no named frame around it. -/
def UnnamedOutermost (frames : List ZendFunction) : Prop :=
  frames.Pairwise fun inner outer => inner.name = [] → outer.name = []

theorem stackFrames_cons (f : ZendFunction) (callers : List (Option ZendFunction)) :
    stackFrames (some f :: callers) = f :: stackFrames callers := rfl

/-- The separator is put before the name is looked at. -/
theorem find_code_stacktrace_cons (f : ZendFunction) (callers : List (Option ZendFunction)) :
    find_code_stacktrace (some f :: callers) =
      (if find_code_stacktrace callers ≠ [] then find_code_stacktrace callers ++ lit "\\" else []) ++
        f.name := by
  have hname (outer : Bytes) : (if f.name ≠ [] then outer ++ f.name else outer) = outer ++ f.name := by
    split
    case isTrue => rfl
    case isFalse hempty =>
      rw [not_not] at hempty
      rw [hempty, List.append_nil]
  rcases callers with _ | ⟨_ | g, callers⟩
  · exact hname []
  · exact hname []
  · rw [find_code_stacktrace, hname]
    congr 1
    by_cases houter : find_code_stacktrace (some g :: callers) = []
    · simp only [houter, ne_eq, not_true_eq_false, if_false]
    · simp only [houter, ne_eq, not_false_eq_true, if_true]

theorem frameNames_cons_unnamed {f : ZendFunction} {frames : List ZendFunction} (h : f.name = []) :
    frameNames (f :: frames) = frameNames frames := by
  rw [frameNames, List.map_cons, h]
  exact List.filter_cons_of_neg (by simp)

theorem frameNames_cons_named {f : ZendFunction} {frames : List ZendFunction} (h : f.name ≠ []) :
    frameNames (f :: frames) = f.name :: frameNames frames :=
  List.filter_cons_of_pos (by simpa using h)

theorem frameNames_eq_nil_iff {frames : List ZendFunction} :
    frameNames frames = [] ↔ ∀ f ∈ frames, f.name = [] := by
  simp [frameNames]

/-- A path with one name more at its inner end. -/
theorem intercalate_concat {sep s : Bytes} {names : List Bytes} :
    sep.intercalate (names ++ [s]) =
      if names = [] then s else sep.intercalate names ++ sep ++ s := by
  induction names with
  | nil => simp [List.intercalate]
  | cons t names ih =>
    rw [List.cons_append, List.intercalate_cons_of_ne_nil (by simp), ih, if_neg (List.cons_ne_nil _ _)]
    by_cases hnil : names = []
    · subst hnil
      simp [List.intercalate]
    · rw [if_neg hnil, List.intercalate_cons_of_ne_nil hnil]
      simp

theorem callPath_cons_unnamed {f : ZendFunction} {frames : List ZendFunction} (h : f.name = []) :
    callPath (f :: frames) = callPath frames := by
  rw [callPath, frameNames_cons_unnamed h, callPath]

theorem callPath_cons_named {f : ZendFunction} {frames : List ZendFunction} (h : f.name ≠ []) :
    callPath (f :: frames) =
      if frameNames frames = [] then f.name else callPath frames ++ lit "\\" ++ f.name := by
  rw [callPath, frameNames_cons_named h, List.reverse_cons, intercalate_concat]
  simp only [List.reverse_eq_nil_iff]
  rfl

theorem callPath_eq_nil_iff {frames : List ZendFunction} :
    callPath frames = [] ↔ frameNames frames = [] := by
  induction frames with
  | nil => exact iff_of_true rfl rfl
  | cons f frames ih =>
    by_cases hname : f.name = []
    · rw [callPath_cons_unnamed hname, frameNames_cons_unnamed hname, ih]
    · refine iff_of_false ?_ ?_
      · rw [callPath_cons_named hname]
        split
        · exact hname
        · simp [hname]
      · rw [frameNames_cons_named hname]
        exact List.cons_ne_nil _ _

/-- Where the unnamed frames are outermost the trace is the call path, and otherwise it is longer:
every unnamed frame with a named one around it leaves a backslash. -/
theorem find_code_stacktrace_compare (callers : List (Option ZendFunction)) :
    (UnnamedOutermost (stackFrames callers) →
      find_code_stacktrace callers = callPath (stackFrames callers)) ∧
    (¬ UnnamedOutermost (stackFrames callers) →
      (callPath (stackFrames callers)).length < (find_code_stacktrace callers).length) := by
  induction callers with
  | nil => exact ⟨fun _ => rfl, fun h => absurd .nil h⟩
  | cons caller callers ih =>
    cases caller with
    | none => exact ⟨fun _ => rfl, fun h => absurd .nil h⟩
    | some f =>
      obtain ⟨hpath, hlonger⟩ := ih
      rw [stackFrames_cons, find_code_stacktrace_cons, UnnamedOutermost, List.pairwise_cons]
      by_cases hname : f.name = []
      · rw [callPath_cons_unnamed hname, hname, List.append_nil]
        by_cases hnone : frameNames (stackFrames callers) = []
        · -- No name around it: the trace so far is empty, and so no separator is put.
          have hunnamed := frameNames_eq_nil_iff.mp hnone
          have houtermost : UnnamedOutermost (stackFrames callers) :=
            List.pairwise_of_forall_mem_list fun g _ h hmem _ => hunnamed h hmem
          have hempty : find_code_stacktrace callers = [] := by
            rw [hpath houtermost, callPath_eq_nil_iff, hnone]
          rw [hempty, callPath_eq_nil_iff.mpr hnone]
          exact ⟨fun _ => rfl, fun h => absurd ⟨fun g hg _ => hunnamed g hg, houtermost⟩ h⟩
        · have hne : callPath (stackFrames callers) ≠ [] := mt callPath_eq_nil_iff.mp hnone
          have hle : (callPath (stackFrames callers)).length ≤ (find_code_stacktrace callers).length := by
            by_cases houtermost : UnnamedOutermost (stackFrames callers)
            · rw [hpath houtermost]
            · exact (hlonger houtermost).le
          have hpos := List.length_pos_iff.mpr hne
          have htrace : find_code_stacktrace callers ≠ [] := List.length_pos_iff.mp (by omega)
          rw [if_pos htrace, List.length_append]
          refine ⟨fun h => ?_, fun _ => ?_⟩
          · exact absurd (frameNames_eq_nil_iff.mpr fun g hg => h.1 g hg rfl) hnone
          · have hsep : (lit "\\").length = 1 := by decide
            omega
      · rw [callPath_cons_named hname]
        have hvacuous : ∀ g ∈ stackFrames callers, f.name = [] → g.name = [] :=
          fun _ _ h => absurd h hname
        refine ⟨fun h => ?_, fun h => ?_⟩
        · rw [hpath h.2]
          by_cases hnone : frameNames (stackFrames callers) = []
          · rw [if_pos hnone, callPath_eq_nil_iff.mpr hnone, if_neg (not_not.mpr rfl), List.nil_append]
          · rw [if_neg hnone, if_pos (mt callPath_eq_nil_iff.mp hnone)]
        · have hlt := hlonger fun houtermost => h ⟨hvacuous, houtermost⟩
          have htrace : find_code_stacktrace callers ≠ [] := List.length_pos_iff.mp (by omega)
          rw [if_pos htrace]
          split
          · simp only [List.length_append]
            omega
          · simp only [List.length_append]
            omega

/-- The trace is the joined call path if and only if no unnamed frame has a named frame around
it. -/
theorem find_code_stacktrace_eq_iff (callers : List (Option ZendFunction)) :
    find_code_stacktrace callers = callPath (stackFrames callers) ↔
      UnnamedOutermost (stackFrames callers) := by
  obtain ⟨hpath, hlonger⟩ := find_code_stacktrace_compare callers
  refine ⟨fun heq => ?_, hpath⟩
  by_contra hinside
  have hlt := hlonger hinside
  rw [heq] at hlt
  omega

/-- A function that is called from a file which another function includes. -/
theorem find_code_stacktrace_include :
    find_code_stacktrace [some ⟨some (lit "g"), none, false⟩, some ⟨none, none, false⟩,
      some ⟨some (lit "f"), none, false⟩] ≠
    callPath (stackFrames [some ⟨some (lit "g"), none, false⟩, some ⟨none, none, false⟩,
      some ⟨some (lit "f"), none, false⟩]) := by
  decide

end opentelemetry
