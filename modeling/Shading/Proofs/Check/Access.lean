import Shading.Proofs.Check.Operator

/-! References, parts of values and calls are well typed. A reference means what its number is
declared as, a part exists, and the arguments of a call have the types of the parameters, with
generic types bound to one choice. -/
namespace Shading

variable {n : Nat}

lemma Context.variableAt_of_getElem? {c : Context} {v : Variable} (h : c.variables[n]? = some v) :
    c.variableAt n = v := by
  simp [Context.variableAt, Array.getD_eq_getD_getElem?, h]

lemma Context.functionAt_of_get? {c : Context} {f : Function} (h : c.functions.get? n = some f) :
    c.functionAt n = f := by
  simp [Context.functionAt, h]

namespace Check

variable {o : View} {c : Context} {span : Span}

lemma reference_ensures {v : Variable} (hv : c.variables[n]? = some v) (hname : o.isFull → o.final.HasName n) :
    Ensures o c (reference n span) fun e d => e.Good o d := by
  refine .get_bind fun hc => ?_
  simp only [Context.variableAt_of_getElem? hv]
  split
  · rename_i l hl
    obtain ⟨s, hs, hkind⟩ := (hc.variable_ hv).constant l hl
    refine .pure ⟨?_, fun hfull => ((hc.regular hfull).variable_ hv).constant l hl⟩
    rw [hs]
    exact Expr.wellTyped_literal hkind
  · exact .pure ⟨Expr.wellTyped_iff.mpr ⟨(hc.variable_ hv).proper, ⟨v, hv, rfl⟩, by simp [Expr.parts]⟩, hname⟩

lemma isProper_of_fields? {ty : Ty} {fields : List (Field Ty)} (hty : ty.isProper = true)
    (h : ty.fields? = some fields)
    {f : Field Ty} (hf : f ∈ fields) : f.ty.isProper = true := by
  cases ty <;> simp only [Ty.fields?, reduceCtorEq, Option.some.injEq] at h
  subst h
  exact Ty.areProper_iff.mp hty f hf

lemma anonymousField_ensures {block i : Nat} (h : (Symbol.field block i).Sound c.declared) :
    Ensures o c (anonymousField block i span) fun e d => e.Good o d := by
  obtain ⟨v, fields, hv, hfields, hi⟩ := h
  refine .get_bind fun hc => ?_
  have hproper := (hc.variable_ hv).proper
  have hget : fields[i]? = some fields[i] := List.getElem?_eq_getElem hi
  simp only [Context.variableAt_of_getElem? hv, hfields, Option.getD_some, hget, Option.map_some]
  refine .pure ⟨Expr.wellTyped_iff.mpr
    ⟨isProper_of_fields? hproper hfields (List.getElem_mem hi), ⟨fields, fields[i], hfields, hget, rfl⟩, ?_⟩,
    fun _ => .inl ⟨rfl, _, _, _, rfl⟩⟩
  simp only [Expr.parts, List.mem_singleton, forall_eq]
  exact Expr.wellTyped_iff.mpr ⟨hproper, ⟨v, hv, rfl⟩, by simp [Expr.parts]⟩

lemma isProper_elements? {ty element : Ty} {count : Option Nat} (hty : ty.isProper = true)
    (h : elements? ty = some (element, count)) : element.isProper = true := by
  cases ty <;> simp only [elements?, reduceCtorEq, Option.some.injEq, Prod.mk.injEq] at h
  all_goals
    obtain ⟨rfl, rfl⟩ := h
    simp_all [Ty.isProper]

lemma lt_of_outside? {d : Declared} {e : Expr} {count : Option Nat} {v : Literal} (he : e.WellTyped d)
    (hinteger : e.ty.isInteger = true) (h : outside? e count = none) (hv : e.literal? = some v)
    (hn : count = some n) :
    ∃ k : Nat, v = .int k ∧ k < n := by
  obtain ⟨s, hs, hkind⟩ := he.literal? hv
  have hint : ∃ i, v = .int i := by
    rw [hs] at hinteger
    cases v <;> cases s <;> simp_all [Literal.isOf, Ty.isInteger, Ty.scalar?, Scalar.kind, Scalar.isInteger]
  obtain ⟨i, rfl⟩ := hint
  subst hn
  simp only [outside?, Expr.constantInt?, hv, Option.bind_some, Literal.int?, Bool.or_eq_true, decide_eq_true_eq,
    ite_eq_right_iff, reduceCtorEq, imp_false, not_or] at h
  exact ⟨i.toNat, by rw [Int.toNat_of_nonneg (by omega)], by omega⟩

lemma index_ensures {b i : Expr} (hb : b.Good o c.declared) (hi : i.Good o c.declared) :
    Ensures o c (index b i span) fun e d => e.Good o d := by
  unfold index
  simp only [hb.1.not_isPoisoned, hi.1.not_isPoisoned, Bool.or_false, Bool.false_eq_true, if_false]
  refine .ite (fun _ => .report_bind) fun hinteger => ?_
  simp only [Bool.not_eq_true', Bool.not_eq_false, Bool.and_eq_true] at hinteger
  split
  · exact .report_bind
  rename_i element count helements
  split
  · exact .report_bind
  rename_i houtside
  refine .pure ⟨Expr.wellTyped_iff.mpr ⟨isProper_elements? hb.1.proper helements,
    ⟨hinteger.1, hinteger.2, count, helements, ?_⟩, ?_⟩,
    fun hfull => ⟨hb.2 hfull, hi.2 hfull⟩⟩
  · exact fun v n hv hn => lt_of_outside? hi.1 hinteger.2 houtside hv hn
  · simpa [Expr.parts] using ⟨hb.1, hi.1⟩

/-- The components that a mask names are as many as its letters, and each exists. -/
lemma components_eq_ok {mask : String} {size : Nat} {letters : List Char} {set : Option Nat}
    {found cs : List (Fin 4)}
    (hfound : ∀ i ∈ found, i.val < size) (h : components mask size set found letters = .ok cs) :
    cs.length = found.length + letters.length ∧ ∀ i ∈ cs, i.val < size := by
  induction letters generalizing set found with
  | nil =>
    obtain rfl := Except.ok.inj h
    simpa using hfound
  | cons a letters ih =>
    simp only [components] at h
    split at h
    · cases h
    split at h
    · cases h
    split at h
    · cases h
    rename_i s i _ _ hlt
    have hfound' : ∀ j ∈ i :: found, j.val < size := by
      intro j hj
      obtain rfl | hj := List.mem_cons.mp hj
      · omega
      · exact hfound j hj
    obtain ⟨hlength, hcs⟩ := ih hfound' h
    exact ⟨by simp only [List.length_cons] at hlength ⊢; omega, hcs⟩

lemma exists_vector? (s : Scalar) (hpos : 1 ≤ n) (hle : n ≤ 4) :
    ∃ ty, Ty.vector? (.scalar s) n = some ty ∧ ty.isProper = true := by
  obtain rfl | rfl | rfl | rfl : n = 1 ∨ n = 2 ∨ n = 3 ∨ n = 4 := by omega
  all_goals exact ⟨_, rfl, rfl⟩

lemma swizzle_ensures {b : Expr} {mask : String} (hb : b.Good o c.declared)
    (hty : b.ty.isScalar = true ∨ b.ty.isVector = true) (hmask : mask.toList ≠ []) :
    Ensures o c (swizzle b mask span) fun e d => e.Good o d := by
  unfold swizzle
  dsimp only
  refine .ite (fun _ => .report_bind) fun hlength => ?_
  split
  · exact .report_bind
  rename_i cs hcs
  obtain ⟨hcount, hlt⟩ := components_eq_ok (by simp) hcs
  have hpos := List.length_pos_iff.mpr hmask
  simp only [List.length_nil, Nat.zero_add] at hcount
  rw [← hcount] at hpos hlength
  obtain ⟨s, hs⟩ : ∃ s, b.ty.component = .scalar s := by
    obtain h | h := hty <;> cases hb : b.ty <;> simp_all [Ty.isScalar, Ty.isVector, Ty.component]
  obtain ⟨ty, hvector, hproper⟩ := exists_vector? s hpos (by omega)
  rw [hs, hvector]
  exact .pure ⟨Expr.wellTyped_iff.mpr
    ⟨hproper, ⟨hty, hpos, by omega, hlt, by rw [hs]; exact hvector⟩, by simpa [Expr.parts] using hb.1⟩, hb.2⟩

lemma field_ensures {b : Expr} {name : String} (hb : b.Good o c.declared) (hname : name.toList ≠ []) :
    Ensures o c (field b name span) fun e d => e.Good o d := by
  unfold field
  simp only [hb.1.not_isPoisoned, Bool.false_eq_true, if_false]
  split
  · rename_i fields hfields
    split
    · rename_i f i hfind
      have hget : fields[i]? = some f := List.mem_zipIdx_iff_getElem?.mp (List.mem_of_find?_eq_some hfind)
      refine .pure ⟨Expr.wellTyped_iff.mpr
        ⟨isProper_of_fields? hb.1.proper hfields (List.mem_of_getElem? hget), ⟨fields, f, hfields, hget, rfl⟩, ?_⟩,
        fun hfull => .inr (hb.2 hfull)⟩
      simpa [Expr.parts] using hb.1
    · exact .report_bind
  · refine .ite (fun h => ?_) fun _ => .report_bind
    exact swizzle_ensures hb (by simpa [or_comm] using h) hname

end Check
end Shading
