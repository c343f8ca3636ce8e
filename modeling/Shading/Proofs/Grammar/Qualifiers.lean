import Shading.Proofs.Grammar.Sound

/-! Modifiers are read without any effect on what is declared, and the numbers in layouts are 32-bit
ones. -/
namespace Shading.Grammar

lemma fitsWords_put {spec : LayoutSpec} {key : LayoutKey} {value : Option Nat} (hspec : spec.FitsWords)
    (hvalue : ∀ n ∈ value, n ≤ MemoryLayout.limit) : (spec.put key value).FitsWords := by
  intro key' n hn
  by_cases hkey : key' = key
  · rw [hkey, LayoutSpec.get?_put_self] at hn
    exact hvalue n hn
  · rw [LayoutSpec.get?_put_of_ne hkey] at hn
    exact hspec key' n hn

variable {v : View} {s : State} {key : String} {c : Context}

lemma layoutNumber_ensures {w : Word} : Check.Ensures v c (layoutNumber key w) fun n _ =>
    n ≤ MemoryLayout.limit := by
  unfold layoutNumber
  split
  · refine .ite (fun hvalue => .bind .reportIf fun _ _ _ _ _ => .pure (Nat.le_of_lt_succ hvalue))
      fun _ => .report_bind
  · exact .report_bind

variable {spec : LayoutSpec} {seen : List (String × Span)} {span : Span}

lemma enterLayout_ensures {value : Option Nat} (hspec : spec.FitsWords)
    (hvalue : ∀ n ∈ value, n ≤ MemoryLayout.limit) :
    Check.Ensures v c (enterLayout spec key value span) fun spec _ => spec.FitsWords := by
  unfold enterLayout
  split
  · exact .bind .reportIf fun _ _ _ _ _ => .pure hspec
  · split
    · exact .pure (fitsWords_put hspec hvalue)
    · exact .report_bind
    · exact .report_bind

lemma dropBoundKeys_ensures {keys : List LayoutKey} (hspec : spec.FitsWords) :
    Check.Ensures v c (keys.foldlM (dropBoundKey seen span) spec) fun spec _ => spec.FitsWords := by
  induction keys generalizing c spec with
  | nil => exact .pure hspec
  | cons key keys ih =>
    rw [List.foldlM_cons]
    refine .bind (Q := fun spec _ => spec.FitsWords) ?_ fun _ _ _ _ hspec => ih hspec
    exact .ite (fun _ => .report_bind) fun _ => .pure hspec

/-! ### Reading -/

lemma layoutValue?_ensures : Ensures v s (layoutValue? key) fun value _ =>
    ∀ n ∈ value, n ≤ MemoryLayout.limit := by
  refine .after .acceptMark fun _ _ _ _ _ => .ite (fun _ => .after .expect fun _ _ _ _ _ => ?_)
    fun _ => .pure nofun
  refine .bind (.lift layoutNumber_ensures) fun value _ _ _ hvalue => .pure ?_
  rintro _ ⟨⟩
  exact hvalue

variable {n : Nat}

lemma layoutKeys_ensures (hspec : spec.FitsWords) : Ensures v s (layoutKeys n spec seen) fun r _ =>
    r.1.FitsWords := by
  induction n generalizing s spec seen with
  | zero => exact .exhausted
  | succ n ih =>
    refine .after .expectIdentifier fun key _ _ _ _ =>
      .bind layoutValue?_ensures fun _ _ _ _ hvalue => .bind .reportIf fun _ _ _ _ _ => ?_
    refine .bind (.lift (enterLayout_ensures hspec hvalue)) fun _ _ _ _ hspec => ?_
    exact .after .next fun w _ _ _ _ => .ite (fun _ => ih hspec) fun _ =>
      .ite (fun _ => .pure hspec) fun _ => .unexpected

lemma layoutGroup_ensures {fuel : Nat} (hspec : spec.FitsWords) :
    Ensures v s (layoutGroup fuel spec) fun spec _ => spec.FitsWords := by
  refine .after .expectMark fun _ _ _ _ _ => .bind (layoutKeys_ensures hspec) fun _ _ _ _ hspec =>
    .ite (fun _ => ?_) fun _ => .pure hspec
  refine .after .lastEnd fun _ _ _ _ _ => ?_
  exact .lift (dropBoundKeys_ensures hspec)

lemma modifierWords_ensures {m : Modifiers} {stop : Nat} (hm : m.layout.FitsWords) :
    Ensures v s (modifierWords n m stop) fun r _ => r.1.layout.FitsWords := by
  induction n generalizing s m stop with
  | zero => exact .exhausted
  | succ n ih =>
    unfold modifierWords
    refine .after .peek fun w _ _ _ _ => .ite (fun _ => ?_) fun _ => ?_
    · refine .after .advance fun _ _ _ _ _ => .bind (layoutGroup_ensures hm) fun _ _ _ _ hspec => ?_
      exact .after .lastEnd fun _ _ _ _ _ => ih hspec
    · split
      · exact .after .advance fun _ _ _ _ _ => .bind .reportIf fun _ _ _ _ _ => ih hm
      · exact .pure hm

lemma modifiers_ensures {fuel : Nat} : Ensures v s (modifiers fuel) fun m _ => m.layout.FitsWords := by
  refine .after .peek fun _ _ _ _ _ => .bind (modifierWords_ensures ?_) fun _ _ _ _ hm => .pure hm
  rintro (_ | _) _ ⟨⟩

end Shading.Grammar
