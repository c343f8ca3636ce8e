import Shading.Proofs.Grammar.Source

/-! A place that breaks the grammar ends the reading. It is the last thing that is reported and the
only one of its kind, and what can only be seen at the end of the source is not looked for any
more. -/
namespace Shading

namespace Journal

variable {j : Journal}

lemma foldl_reports (j : Journal) (found : List Report) :
    j.foldl (fun found e => match e.report? with | some r => r :: found | none => found) found =
      (j.filterMap Event.report?).reverse ++ found := by
  induction j generalizing found with
  | nil => rfl
  | cons e j ih =>
    rw [List.foldl_cons, ih]
    cases he : e.report? <;> simp [he]

lemma reports_eq (j : Journal) : j.reports = (j.filterMap Event.report?).reverse :=
  (foldl_reports j []).trans (List.append_nil _)

lemma mem_reports {r : Report} : r ∈ j.reports ↔ .problemFound r ∈ j := by
  rw [reports_eq, List.mem_reverse, List.mem_filterMap]
  constructor
  · rintro ⟨e, he, hr⟩
    cases e with
    | problemFound q =>
      cases hr
      exact he
    | _ => cases hr
  · exact fun hr => ⟨_, hr, rfl⟩

lemma hasProblems_eq_true_iff : j.hasProblems = true ↔ j.reports ≠ [] := by
  rw [hasProblems, List.any_eq_true, reports_eq, Ne, List.reverse_eq_nil_iff, List.filterMap_eq_nil_iff]
  simp [Option.isSome_iff_ne_none]

lemma hasErrors_diagnostics : j.diagnostics.hasErrors = j.hasProblems := by
  rw [Bool.eq_iff_iff, hasProblems_eq_true_iff]
  simp [Diagnostics.hasErrors, diagnostics, Report.diagnostic, List.eq_nil_iff_forall_not_mem]

lemma mem_diagnostics {d : Diagnostic} : d ∈ j.diagnostics ↔ ∃ r ∈ j.reports, r.diagnostic = d := by
  simp [diagnostics]

lemma exists_grammatical_iff :
    (∃ d ∈ j.diagnostics, d.stage = .grammatical) ↔ ∃ r ∈ j.reports, r.problem.occasion = .fatal := by
  simp only [mem_diagnostics, Problem.occasion_eq_fatal_iff]
  constructor
  · rintro ⟨_, ⟨r, hr, rfl⟩, hstage⟩
    exact ⟨r, hr, hstage⟩
  · rintro ⟨r, hr, hstage⟩
    exact ⟨_, ⟨r, hr, rfl⟩, hstage⟩

lemma IsPassing.occasion_eq {r : Report} (h : j.IsPassing) (hr : r ∈ j.reports) : r.problem.occasion = .passing :=
  h _ (mem_reports.mp hr)

lemma IsFatal.exists_reports_eq (h : j.IsFatal) : ∃ before r, j.reports = before ++ [r] ∧
    r.problem.occasion = .fatal ∧
    ∀ q ∈ before, q.problem.occasion = .passing := by
  obtain ⟨e, older, rfl, he, holder⟩ := h
  cases e with
  | problemFound r =>
    refine ⟨reports older, r, ?_, he, fun q hq => holder.occasion_eq hq⟩
    rw [reports_eq, reports_eq, List.filterMap_cons, Event.report?, List.reverse_cons]
  | _ => cases he

lemma IsFatal.countP_diagnostics (h : j.IsFatal) : j.diagnostics.countP (·.stage = .grammatical) = 1 := by
  obtain ⟨before, r, hreports, hr, hbefore⟩ := h.exists_reports_eq
  have hnone : before.countP (fun q => q.diagnostic.stage = .grammatical) = 0 := by
    refine List.countP_eq_zero.mpr fun q hq => ?_
    rw [decide_eq_true_iff]
    intro hstage
    exact Occasion.noConfusion ((hbefore q hq).symm.trans (Problem.occasion_eq_fatal_iff.mpr hstage))
  have hlast : r.diagnostic.stage = .grammatical := Problem.occasion_eq_fatal_iff.mp hr
  rw [diagnostics, List.countP_toArray, List.countP_map, hreports, List.countP_append]
  change before.countP (fun q => q.diagnostic.stage = .grammatical) + _ = 1
  rw [hnone]
  simp [hlast]

/-- The one diagnostic of the grammar is the last one, and nothing was found at the end of the
source. -/
lemma IsFatal.back?_diagnostics (h : j.IsFatal) {d : Diagnostic} (hd : d ∈ j.diagnostics)
    (hstage : d.stage = .grammatical) :
    j.diagnostics.back? = some d ∧ ∀ r ∈ j.reports, r.problem.occasion ≠ .final := by
  obtain ⟨before, r, hreports, hr, hbefore⟩ := h.exists_reports_eq
  constructor
  · obtain ⟨q, hq, rfl⟩ := mem_diagnostics.mp hd
    rw [hreports] at hq
    obtain hq | hq := List.mem_append.mp hq
    · exact Occasion.noConfusion ((hbefore q hq).symm.trans (Problem.occasion_eq_fatal_iff.mpr hstage))
    · obtain rfl := List.mem_singleton.mp hq
      simp [diagnostics, hreports]
  · intro q hq hfinal
    rw [hreports] at hq
    obtain hq | hq := List.mem_append.mp hq
    · exact Occasion.noConfusion ((hbefore q hq).symm.trans hfinal)
    · obtain rfl := List.mem_singleton.mp hq
      exact Occasion.noConfusion (hr.symm.trans hfinal)

end Journal

namespace Grammar

variable {source : String} {kind : ShaderKind} {options : CompileOptions}

lemma passing_beginning : (beginning source kind options).IsPassing := by
  refine ⟨?_, fun w hw r hr => ?_⟩
  · rw [context_beginning]
    exact List.forall_mem_cons.mpr ⟨rfl, List.forall_mem_singleton.mpr rfl⟩
  obtain hw | rfl := words_beginning hw
  · obtain ⟨t, -, before, rfl, hbefore⟩ := Word.exists_of_mem_ofTokens hw
    have hrejected {q : Report} (hq : q ∈ before) : q.problem.occasion = .passing := by
      obtain ⟨u, rfl⟩ := hbefore q hq
      unfold Word.rejection
      split <;> rfl
    unfold Word.ofToken at hr
    split at hr
    · obtain rfl | hr := List.mem_cons.mp (List.mem_reverse.mp hr)
      · rfl
      · exact hrejected hr
    · exact hrejected (List.mem_reverse.mp hr)
  · cases hr

/-- Where reading stops, it is at an end: the report of the place is the newest one. -/
lemma finish_of_error {why : Stop} {t : State}
    (h : reading source (beginning source kind options) = .error why t) :
    finish source kind options = t ∧ t.context.journal.IsFatal := by
  refine ⟨?_, KeepsJournal.fatal h passing_beginning⟩
  rw [finish_eq_after_reading, KeepsJournal.after_bind, h]

/-- If reading does not stop, only what is found at the end of the source comes after what was found
on the way. -/
lemma finish_of_ok {t : State} (h : reading source (beginning source kind options) = .ok () t) :
    Closes t.context (finish source kind options).context ∧ t.context.journal.IsPassing := by
  refine ⟨?_, (KeepsJournal.passing h passing_beginning).journal⟩
  obtain ⟨c, hcloses, hclosing⟩ := closes_closing source.utf8ByteSize t
  rw [finish_eq_after_reading, KeepsJournal.after_bind, h]
  dsimp only
  rwa [after_ok hclosing]

lemma occasion_of_ok {t : State} {r : Report} (h : reading source (beginning source kind options) = .ok () t)
    (hr : r ∈ (finish source kind options).context.journal.reports) : r.problem.occasion ≠ .fatal := by
  obtain ⟨⟨late, hlate, hfinish⟩, hpassing⟩ := finish_of_ok h
  rw [hfinish] at hr
  intro hfatal
  obtain hr | hr := List.mem_append.mp (Journal.mem_reports.mp hr)
  · exact Occasion.noConfusion ((hlate _ hr).symm.trans hfatal)
  · exact Occasion.noConfusion ((hpassing _ hr).symm.trans hfatal)

/-- Reading stops exactly if a place that breaks the grammar has been reported. -/
lemma exists_error_iff : (∃ why t, reading source (beginning source kind options) = .error why t) ↔
    ∃ r ∈ (finish source kind options).context.journal.reports, r.problem.occasion = .fatal := by
  constructor
  · rintro ⟨why, t, h⟩
    obtain ⟨hfinish, hfatal⟩ := finish_of_error h
    obtain ⟨before, r, hreports, hr, -⟩ := hfatal.exists_reports_eq
    exact ⟨r, by rw [hfinish, hreports]; exact List.mem_concat_self, hr⟩
  · rintro ⟨r, hr, hfatal⟩
    cases h : reading source (beginning source kind options) with
    | ok a t => exact absurd hfatal (occasion_of_ok h hr)
    | error why t => exact ⟨why, t, rfl⟩

/-- If a place that breaks the grammar has been reported, its report is the newest. -/
lemma isFatal_finish {d : Diagnostic} (hd : d ∈ (finish source kind options).context.journal.diagnostics)
    (hstage : d.stage = .grammatical) : (finish source kind options).context.journal.IsFatal := by
  obtain ⟨why, t, h⟩ := exists_error_iff.mpr (Journal.exists_grammatical_iff.mp ⟨d, hd, hstage⟩)
  obtain ⟨hfinish, hfatal⟩ := finish_of_error h
  rwa [hfinish]

end Grammar

namespace Program

variable {source : String} {kind : ShaderKind} {options : CompileOptions}

lemma read_eq_none_iff : (Program.read source kind options).1 = none ↔
    (Grammar.finish source kind options).context.journal.hasProblems = true := by
  unfold Program.read
  dsimp only
  split <;> simp_all

lemma parse_result_eq_error_iff {e : CompileError} : (Program.parse source kind options).result = .error e ↔
    if CompileError.maxSourceLength < source.length then e = .sourceTooLarge source.length
    else (Grammar.finish source kind options).context.journal.hasProblems = true ∧
      e = .failed (Grammar.finish source kind options).context.journal.diagnostics := by
  unfold Program.parse
  dsimp only
  split
  · exact ⟨fun h => (Except.error.inj h).symm, fun h => h ▸ rfl⟩
  by_cases hproblems : (Grammar.finish source kind options).context.journal.hasProblems = true
  · have hread : Program.read source kind options =
      (none, .readingFailed (Grammar.finish source kind options).context.journal.reports.length ::
        (Grammar.finish source kind options).context.journal) := if_pos hproblems
    rw [hread]
    exact ⟨fun h => ⟨hproblems, (Except.error.inj h).symm⟩, fun h => h.2 ▸ rfl⟩
  · cases hread : Program.read source kind options with
    | mk result journal =>
      have hresult : result ≠ none := fun hnone => hproblems (read_eq_none_iff.mp (by rw [hread, hnone]))
      obtain ⟨p, rfl⟩ := Option.ne_none_iff_exists'.mp hresult
      exact ⟨nofun, fun h => absurd h.1 hproblems⟩

end Program

/-- A problem of the grammar is fatal. Among the diagnostics of a source there is at most one, it is
the last of them, and then neither a missing `main` nor a missing body has been looked for: the
state is the one in which reading stopped. Reading stops exactly if there is one. A source is
rejected exactly if there are diagnostics at all, too long a source apart, and a failure carries
them. -/
theorem Program.grammatical_problem_fatal (source : String) (kind : ShaderKind) (options : CompileOptions) :
    let s := Grammar.finish source kind options
    let diagnostics := s.context.journal.diagnostics
    let isGrammatical := fun d : Diagnostic => d.stage = .grammatical
    diagnostics.countP (isGrammatical ·) ≤ 1 ∧
    (∀ d ∈ diagnostics, isGrammatical d → diagnostics.back? = some d ∧
      ∀ r ∈ s.context.journal.reports, r.problem ≠ .missingMain ∧ ∀ name, r.problem ≠ .undefinedFunction name) ∧
    ((∃ why t, Grammar.reading source (Grammar.beginning source kind options) = .error why t) ↔
      ∃ d ∈ diagnostics, isGrammatical d) ∧
    (∀ why t, Grammar.reading source (Grammar.beginning source kind options) = .error why t → s = t) ∧
    ((Program.read source kind options).1 = none ↔ diagnostics.hasErrors = true) ∧
    ((∃ e, (Program.parse source kind options).result = .error e) ↔
      CompileError.maxSourceLength < source.length ∨ diagnostics.hasErrors = true) ∧
    ∀ ds, (Program.parse source kind options).result = .error (.failed ds) → ds = diagnostics ∧ 0 < ds.size := by
  refine ⟨?_, fun d hd hstage => ?_, ?_, fun why t h => (Grammar.finish_of_error h).1, ?_, ?_, fun ds h => ?_⟩
  · by_cases h : ∃ d ∈ (Grammar.finish source kind options).context.journal.diagnostics, d.stage = .grammatical
    · obtain ⟨d, hd, hstage⟩ := h
      exact (Grammar.isFatal_finish hd hstage).countP_diagnostics.le
    · have hnone : Array.countP (fun d : Diagnostic => d.stage = .grammatical) _ = 0 :=
        Array.countP_eq_zero.mpr fun d hd => by simpa using fun hstage => h ⟨d, hd, hstage⟩
      exact hnone.le.trans (Nat.zero_le 1)
  · obtain ⟨hback, hfinal⟩ := (Grammar.isFatal_finish hd hstage).back?_diagnostics hd hstage
    exact ⟨hback, fun r hr => ⟨fun h => hfinal r hr (h ▸ rfl), fun name h => hfinal r hr (h ▸ rfl)⟩⟩
  · exact Grammar.exists_error_iff.trans Journal.exists_grammatical_iff.symm
  · rw [Journal.hasErrors_diagnostics]
    exact read_eq_none_iff
  · rw [Journal.hasErrors_diagnostics]
    simp only [parse_result_eq_error_iff]
    split <;> simp_all
  · have herror := parse_result_eq_error_iff.mp h
    split at herror
    · cases herror
    · obtain ⟨hproblems, hds⟩ := herror
      cases hds
      refine ⟨rfl, Array.size_pos_iff.mpr fun hnone => ?_⟩
      rw [← Journal.hasErrors_diagnostics, hnone] at hproblems
      simp [Diagnostics.hasErrors] at hproblems

end Shading
