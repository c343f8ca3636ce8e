import Shading.Proofs.Check.Call
import Shading.Proofs.Check.Constructor
import Shading.Proofs.Grammar.Sound

/-! Expressions are read as well-typed trees, level by level. -/
namespace Shading.Grammar

/-- The reading of inner expressions gives good ones. -/
class Inner.Sound (inner : Inner) : Prop extends Still.OfInner inner where
  ensures_whole : ∀ v s env, Ensures v s (inner.whole env) fun e d => e.Good v d
  ensures_single : ∀ v s env, Ensures v s (inner.single env) fun e d => e.Good v d

variable {v : View} {c : Context}

lemma integerLiteral_ensures {w : Word} : Check.Ensures v c (integerLiteral w) fun e d => e.Good v d := by
  unfold integerLiteral
  split
  · refine .ite (fun _ => .report_bind) fun hvalue => .ite (fun _ => ?_) fun _ => ?_
    · exact .pure (Expr.good_literal (.inr ⟨rfl, by omega, by omega⟩))
    · exact .pure (Expr.good_literal (.inl ⟨rfl, Literal.toInt_range _⟩))
  · exact .report_bind

lemma floatLiteral_ensures {w : Word} : Check.Ensures v c (floatLiteral w) fun e d => e.Good v d :=
  .ite (fun h => .pure (Expr.good_literal (Literal.fits_numeral h))) fun _ => .report_bind

lemma arraySize_ensures {e : Expr} : Check.Ensures v c (arraySize e) fun _ _ => True := by
  unfold arraySize
  refine .ite (fun _ => .pure trivial) fun _ => ?_
  split
  · exact .ite (fun _ => .pure trivial) fun _ => .report_bind
  · exact .report_bind

lemma wrap_ensures {span : Span} {ty : Ty} {found : List (Option Nat × Span)} (hty : ty.Good v) :
    Check.Ensures v c (wrap span ty found) fun ty' _ => ty'.Good v := by
  induction found generalizing c ty with
  | nil => exact .pure hty
  | cons f found ih =>
    unfold wrap
    refine .ite (fun _ => .report_bind) fun _ => .bind .reportIf fun _ _ _ _ _ => ?_
    refine .bind Check.arrayOf_ensures fun array _ _ _ harray => .bind .reportIf fun _ _ _ _ _ => ih ?_
    rw [harray]
    exact ⟨by simpa [Ty.isProper] using hty.1, hty.2⟩

section

variable {s : State} {inner : Inner} [hinner : inner.Sound] {fuel : Nat} {env : Surroundings} {n : Nat}

lemma suffixes_ensures {found : List (Option Nat × Span)} :
    Ensures v s (suffixes inner env n found) fun _ _ => True := by
  induction n generalizing s found with
  | zero => exact .exhausted
  | succ n ih =>
    unfold suffixes
    refine .after .accept? fun opening _ _ _ _ => ?_
    split
    · exact .pure trivial
    · refine .after .acceptMark fun _ _ _ _ _ => .ite (fun _ => .after .spanFrom fun _ _ _ _ _ => ih) fun _ => ?_
      refine .bind (hinner.ensures_whole v _ env) fun e _ _ _ _ => .after .expectMark fun _ _ _ _ _ => ?_
      exact .bind (.lift arraySize_ensures) fun _ _ _ _ _ => .after .spanFrom fun _ _ _ _ _ => ih

lemma arraySuffixes_ensures {ty : Ty} {span : Span} (hty : ty.Good v) :
    Ensures v s (arraySuffixes inner fuel env ty span) fun ty' _ => ty'.Good v :=
  .bind suffixes_ensures fun _ _ _ _ _ => .lift (wrap_ensures hty)

lemma typeName_ensures : Ensures v s (typeName inner fuel env) fun ty _ => ty.Good v := by
  refine .after .next fun w t _ _ _ => .get_bind fun ht => ?_
  dsimp only
  split
  · rename_i ty hfound
    split at hfound
    · exact arraySuffixes_ensures ⟨ht.context.type? hfound, fun h => (ht.regular h).type? hfound⟩
    · cases hfound
  · exact .unexpected

lemma argumentsFrom_ensures {found : List Expr} (hfound : ∀ e ∈ found, e.Good v s.declared) :
    Ensures v s (argumentsFrom inner env n found) fun es d => ∀ e ∈ es, e.Good v d := by
  induction n generalizing s found with
  | zero => exact .exhausted
  | succ n ih =>
    refine .bind (hinner.ensures_single v s env) fun e t hle _ he => .after .next fun w u hle' _ _ => ?_
    have hmore : ∀ a ∈ e :: found, a.Good v u.declared :=
      List.forall_mem_cons.mpr ⟨he.grow hle'.grows, fun a ha => (hfound a ha).grow (hle.trans hle').grows⟩
    refine .ite (fun _ => ih hmore) fun _ => .ite (fun _ => .pure ?_) fun _ => .unexpected
    exact fun a ha => hmore a (List.mem_reverse.mp ha)

lemma arguments_ensures : Ensures v s (arguments inner fuel env) fun es d => ∀ e ∈ es, e.Good v d :=
  .after .acceptMark fun _ _ _ _ _ => .ite (fun _ => .pure (by simp)) fun _ => argumentsFrom_ensures (by simp)

lemma named_ensures {w : Word} : Ensures v s (named inner fuel env w) fun e d => e.Good v d := by
  refine .get_bind fun hs => ?_
  split
  · rename_i ty hfind
    refine .bind (arraySuffixes_ensures ⟨hs.context.find? hfind, fun h =>
      (hs.regular h).find? hfind⟩) fun ty' _ _ _ hty => .after .expectMark fun _ _ _ _ _ => ?_
    refine .bind arguments_ensures fun es t _ _ hes => .after .spanFrom fun span u hle _ _ => ?_
    exact .lift (Check.constructor_ensures hty fun e he => (hes e he).grow hle.grows)
  · rename_i overloads hfind
    refine .after .expectMark fun _ t hle1 _ _ => .bind arguments_ensures fun es u hle2 _ hes => ?_
    refine .after .spanFrom fun span x hle3 _ _ =>
      .lift (Check.call_ensures ?_ fun e he => (hes e he).grow hle3.grows)
    exact (hs.context.find? hfind).grow ((hle1.trans hle2).trans hle3).grows
  · rename_i n hfind
    obtain ⟨x, hx⟩ := hs.context.find? hfind
    exact .lift (Check.reference_ensures hx fun h => (hs.regular h).find? hfind)
  · rename_i block i hfind
    exact .lift (Check.anonymousField_ensures (hs.context.find? hfind))
  · exact .bind (Q := fun _ _ => False) .report fun _ _ _ _ h => h.elim

lemma primary_ensures : Ensures v s (primary inner fuel env) fun e d => e.Good v d := by
  refine .after .next fun w t _ _ _ => ?_
  split
  · exact .lift integerLiteral_ensures
  · exact .lift floatLiteral_ensures
  · exact .pure (Expr.good_literal rfl)
  · refine .bind (.nested fun room => hinner.ensures_whole v t _) fun e u _ _ he =>
      .after .expectMark fun _ _ hle _ _ => ?_
    exact .after .spanFrom fun span x hle' _ _ => .pure (he.grow (hle.trans hle').grows).withSpan
  · exact named_ensures
  · exact .unexpected

lemma trailers_ensures {e : Expr} (he : e.Good v s.declared) :
    Ensures v s (trailers inner env n e) fun e d => e.Good v d := by
  induction n generalizing s e with
  | zero => exact .exhausted
  | succ n ih =>
    unfold trailers
    refine .after .peek fun w t1 hle1 _ _ => ?_
    split
    · refine .after .advance fun _ t2 hle2 _ _ => .after .accept? fun closing t3 hle3 _ _ => ?_
      split
      · exact .unexpected
      · refine .bind (hinner.ensures_whole v _ env) fun i t4 hle4 _ hi =>
          .after .expectMark fun _ t5 hle5 _ _ => ?_
        refine .after .spanFrom fun span t6 hle6 _ _ =>
          .bind (.lift (Check.index_ensures ?_ ?_)) fun _ _ _ _ h => ih h
        · exact he.grow (hle1.trans (hle2.trans (hle3.trans (hle4.trans (hle5.trans hle6))))).grows
        · exact hi.grow (hle5.trans hle6).grows
    · refine .after .advance fun _ t2 hle2 _ _ => .after .expectIdentifier fun name t3 hle3 _ hname => ?_
      have he' := he.grow (hle1.trans (hle2.trans hle3)).grows
      exact .bind (.lift (Check.field_ensures he' hname)) fun _ _ _ _ h => ih h
    · refine .after .advance fun _ t2 hle2 _ _ => ?_
      have he' := he.grow (hle1.trans hle2).grows
      exact .bind (.lift (Check.step_ensures rfl he')) fun _ _ _ _ h => ih h
    · refine .after .advance fun _ t2 hle2 _ _ => ?_
      have he' := he.grow (hle1.trans hle2).grows
      exact .bind (.lift (Check.step_ensures rfl he')) fun _ _ _ _ h => ih h
    · exact .pure (he.grow hle1.grows)

lemma trailing_ensures : Ensures v s (trailing inner fuel env) fun e d => e.Good v d :=
  .bind primary_ensures fun _ _ _ _ he => trailers_ensures he

lemma leading_ensures {room : Nat} : Ensures v s (leading inner fuel env room) fun e d => e.Good v d := by
  induction room generalizing s with
  | zero =>
    unfold leading
    refine .after .peek fun w _ _ _ _ => ?_
    split
    · exact trailing_ensures
    · exact .after .advance fun _ _ _ _ _ => .stop
  | succ room ih =>
    unfold leading
    refine .after .peek fun w _ _ _ _ => ?_
    split
    · exact trailing_ensures
    · refine .after .advance fun _ _ _ _ _ => .bind ih fun e t _ _ he => ?_
      exact .lift (Check.unary_ensures he)

/-- Operators of one level are applied from the left, to operands that are read all in the same
way. -/
lemma chain_ensures {operand : Parse Expr} [Still operand] {level : Precedence} {left : Expr}
    (hoperand : ∀ t, Ensures v t operand fun e d => e.Good v d) (hleft : left.Good v s.declared) :
    Ensures v s (chain operand level n left) fun e d => e.Good v d := by
  induction n generalizing s left with
  | zero => exact .exhausted
  | succ n ih =>
    unfold chain
    refine .after .peek fun w t1 hle1 _ _ => ?_
    split
    · exact .pure (hleft.grow hle1.grows)
    · refine .ite (fun _ => ?_) fun _ => .pure (hleft.grow hle1.grows)
      refine .after .advance fun _ t2 hle2 _ _ => .bind (hoperand t2) fun right t3 hle3 _ hright => ?_
      have hleft' := hleft.grow (hle1.trans (hle2.trans hle3)).grows
      exact .bind (.lift (Check.binary_ensures hleft' hright)) fun _ _ _ _ h => ih h

lemma binaryLevels_ensures {levels : Nat} : Ensures v s (binaryLevels inner fuel env levels)
    fun e d => e.Good v d := by
  induction levels generalizing s with
  | zero => exact leading_ensures
  | succ levels ih => exact .bind ih fun left _ _ _ hleft => chain_ensures (fun _ => ih) hleft

lemma conditional_ensures : Ensures v s (conditional inner fuel env) fun e d => e.Good v d := by
  refine .bind binaryLevels_ensures fun e t1 _ _ he => .after .acceptMark fun b t2 hle2 _ _ => ?_
  refine .ite (fun _ => ?_) fun _ => .pure (he.grow hle2.grows)
  refine .bind (hinner.ensures_whole v t2 env) fun t t3 hle3 _ ht => .after .expectMark fun _ t4 hle4 _ _ => ?_
  refine .bind (hinner.ensures_single v t4 env) fun f t5 hle5 _ hf => .lift (Check.conditional_ensures ?_ ?_ hf)
  · exact he.grow (hle2.trans (hle3.trans (hle4.trans hle5))).grows
  · exact ht.grow (hle4.trans hle5).grows

lemma single_ensures : Ensures v s (single inner fuel env) fun e d => e.Good v d := by
  refine .bind_of (fun left => ?_) conditional_ensures fun left t1 _ _ hleft =>
    .after .peek fun w t2 hle2 _ _ => ?_
  · refine @KeepsJournal.bind _ _ _ _ inferInstance fun _ => ?_
    split <;> infer_instance
  split
  · exact .pure (hleft.grow hle2.grows)
  · refine .after .advance fun _ t3 hle3 _ _ =>
      .bind (hinner.ensures_single v t3 env) fun right t4 hle4 _ hright => ?_
    have hleft' := hleft.grow (hle2.trans (hle3.trans hle4)).grows
    exact .lift (Check.binary_ensures hleft' hright)

lemma sequence_ensures {left : Expr} (hleft : left.Good v s.declared) :
    Ensures v s (sequence inner fuel env n left) fun e d => e.Good v d := by
  induction n generalizing s left with
  | zero => exact .exhausted
  | succ n ih =>
    refine .after .acceptMark fun b t1 hle1 _ _ => .ite (fun _ => ?_) fun _ => .pure (hleft.grow hle1.grows)
    refine .bind single_ensures fun right t2 hle2 _ hright => ?_
    have hleft' := hleft.grow (hle1.trans hle2).grows
    exact .bind (.lift (Check.binary_ensures hleft' hright)) fun _ _ _ _ h => ih h

end

instance sound_expressions (n : Nat) : (expressions n).Sound := by
  induction n with
  | zero =>
    exact { Still.expressions 0 with
      ensures_whole := fun _ _ _ => .exhausted, ensures_single := fun _ _ _ => .exhausted }
  | succ n ih =>
    refine { Still.expressions (n + 1) with ensures_whole := fun v s env => ?_, ensures_single := fun v s env => ?_ }
    · exact .bind single_ensures fun _ _ _ _ h => sequence_ensures h
    · exact single_ensures

end Shading.Grammar
