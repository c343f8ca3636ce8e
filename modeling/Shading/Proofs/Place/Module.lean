import Shading.Proofs.Spirv.Trace

/-! Problems in a module are found at places of the program. -/
namespace Shading

variable {P : Span → Prop}

namespace Spirv.Build

variable {α : Type} {s : Setting} {b : Builder}

lemma spanned_once {part : Section} {t : Template} (ht : t.belongs part = true) (hb : b.Spanned P) :
    (once part t s b).2.Spanned P := by
  rw [once_eq]
  cases b.ids[t]? with
  | some id =>
    refine ⟨hb.span, fun r hr => ?_, hb.deferred⟩
    obtain ⟨⟨⟩⟩ | hr := List.mem_cons.mp hr
    exact hb.reports r hr
  | none =>
    change (write part t s b).2.Spanned P
    by_cases hresult : t.sharing = .noResult
    · rw [write_note hresult]
      cases part <;> exact ⟨hb.span, hb.reports, hb.deferred⟩
    · obtain rfl := Template.eq_globals_of_belongs ht hresult
      rw [write_eq hresult]
      exact ⟨hb.span, hb.reports, hb.deferred⟩

lemma spanned_named {p : Setting → Bool} {t : Template} (ht : t.belongs .names = true) (hb : b.Spanned P) :
    ((do if p (← read) then let _ ← once .names t : Build Unit) s b).2.Spanned P := by
  change ((if p s then once .names t >>= fun _ => pure () else pure () : Build Unit) s b).2.Spanned P
  split
  · exact spanned_once ht hb
  · exact hb

lemma Quiet.spanned {m : Build α} (h : Quiet P α m) (hb : b.Spanned P) : (m s b).2.Spanned P := by
  cases h with
  | @note e h =>
    refine ⟨hb.span, fun r hr => ?_, hb.deferred⟩
    obtain rfl | hr := List.mem_cons.mp hr
    · exact h r rfl
    · exact hb.reports r hr
  | fresh => exact ⟨hb.span, hb.reports, hb.deferred⟩
  | once hpart ht => exact spanned_once ht hb
  | name target text => exact spanned_named (p := fun s => s.program.options.emitNames && !text.isEmpty) rfl hb
  | nameMember target member text => exact spanned_named (p := fun s => s.program.options.emitNames) rfl hb
  | setSpan h => exact ⟨h, hb.reports, hb.deferred⟩

lemma Outside.spanned {m : Build α} (h : Outside P α m) (hb : b.Spanned P) : (m s b).2.Spanned P := by
  cases h with
  | quiet h => exact h.spanned hb
  | declare type operands => exact ⟨hb.span, hb.reports, hb.deferred⟩
  | modify h hbody hframe => exact h.spanned b hb

lemma Whole.spanned {m : Build α} (h : Whole P α m) (hb : b.Spanned P) : (m s b).2.Spanned P := by
  cases h with
  | active h =>
    cases h with
    | outside h => exact h.spanned hb
    | modify h => exact h.spanned b hb
    | push h | pushLocal h | appendHeader h => exact ⟨hb.span, hb.reports, hb.deferred⟩
  | clear | endFunction => exact ⟨hb.span, hb.reports, hb.deferred⟩

lemma Composed.spanned {m : Build α} (h : Composed Whole P m) (hs : s.program.Spanned P)
    (hb : b.Spanned P) : (m s b).2.Spanned P := by
  induction h generalizing b with
  | elementary h => exact h.spanned hb
  | pure a => exact hb
  | bind_of _ hQ _ ihm ihf => exact ihf _ (hQ s b hs) (ihm hb)
  | ask _ _ ih => exact ih s hs hb
  | look _ _ ih => exact ih b hb hb

end Spirv.Build

namespace Program

variable {p : Program}

/-- The problems that are found while a program is written as a module stand at places with the
property. -/
lemma spanned_written [p.Spanned P] (hstart : P (.point 0)) (version : SpirvVersion) :
    (p.written version).Spanned P := by
  have hparts : Spirv.Build.Composed Spirv.Build.Whole P Spirv.Build.parts := inferInstance
  refine hparts.spanned (s := ⟨p, version⟩) ‹p.Spanned P› ⟨hstart, fun r hr => ?_, nofun⟩
  cases List.mem_singleton.mp hr

end Program
end Shading
