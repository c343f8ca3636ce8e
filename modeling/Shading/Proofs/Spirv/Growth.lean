import Shading.Proofs.Spirv.ComposedParts

/-! What is written stays. Inside of a function only its own lists and those of the types,
constants, names and decorations grow. -/
namespace Shading.Spirv

namespace Builder

/-- A state that continues another one. -/
structure Advances (b b' : Builder) : Prop where
  next : b.next ≤ b'.next
  journal : b.journal <:+ b'.journal
  functionIds : b'.functionIds = b.functionIds
  mathSet : b'.mathSet = b.mathSet
  globals : ∃ g, b'.globals = g ++ b.globals ∧ ∀ i ∈ g, i.isDeclaration = true
  functions : b.functions <:+ b'.functions
  notes : ∀ i ∈ b'.names ++ b'.decorations, i ∈ b.names ++ b.decorations ∨ i.isNote = true
  keeps : Keeps b b'

lemma Advances.refl (b : Builder) : Advances b b :=
  ⟨Nat.le_refl _, List.suffix_rfl, rfl, rfl, ⟨[], rfl, by simp⟩, List.suffix_rfl, fun _ hi => .inl hi, .refl b⟩

lemma declares_trans {g0 g1 g2 : List Instruction} (h : ∃ g, g1 = g ++ g0 ∧ ∀ i ∈ g, i.isDeclaration = true)
    (h' : ∃ g, g2 = g ++ g1 ∧ ∀ i ∈ g, i.isDeclaration = true) : ∃ g, g2 = g ++ g0 ∧
    ∀ i ∈ g, i.isDeclaration = true := by
  obtain ⟨g, rfl, hg⟩ := h
  obtain ⟨g', rfl, hg'⟩ := h'
  exact ⟨g' ++ g, (List.append_assoc ..).symm, fun i hi => (List.mem_append.mp hi).elim (hg' i) (hg i)⟩

lemma Advances.trans {b b' b'' : Builder} (h : Advances b b') (h' : Advances b' b'') : Advances b b'' where
  next := Nat.le_trans h.next h'.next
  journal := h.journal.trans h'.journal
  functionIds := h'.functionIds.trans h.functionIds
  mathSet := h'.mathSet.trans h.mathSet
  globals := declares_trans h.globals h'.globals
  functions := h.functions.trans h'.functions
  notes i hi := (h'.notes i hi).elim (h.notes i) .inr
  keeps := h.keeps.trans h'.keeps

lemma Advances.body (b : Builder) (body : Body) : Advances b { b with body } :=
  ⟨Nat.le_refl _, List.suffix_rfl, rfl, rfl, ⟨[], rfl, by simp⟩, List.suffix_rfl, fun _ hi =>
    .inl hi, .of_eq rfl rfl rfl (Nat.le_refl _)⟩

/-- A state that continues another one inside of the same function. -/
structure Extends (b b' : Builder) : Prop where
  next : b.next ≤ b'.next
  journal : b.journal <:+ b'.journal
  outer : b'.outer = b.outer
  globals : ∃ g, b'.globals = g ++ b.globals ∧ ∀ i ∈ g, i.isDeclaration = true
  locals : b.body.locals <:+ b'.body.locals
  code : b.body.code <:+ b'.body.code
  notes : ∀ i ∈ b'.names ++ b'.decorations, i ∈ b.names ++ b.decorations ∨ i.isNote = true
  keeps : Keeps b b'

namespace Extends

variable {b b' b'' : Builder}

lemma refl (b : Builder) : Extends b b :=
  ⟨Nat.le_refl _, List.suffix_rfl, rfl, ⟨[], rfl, by simp⟩, List.suffix_rfl, List.suffix_rfl,
    fun _ hi => .inl hi, .refl b⟩

lemma trans (h : Extends b b') (h' : Extends b' b'') : Extends b b'' where
  next := Nat.le_trans h.next h'.next
  journal := h.journal.trans h'.journal
  outer := h'.outer.trans h.outer
  globals := declares_trans h.globals h'.globals
  locals := h.locals.trans h'.locals
  code := h.code.trans h'.code
  notes i hi := (h'.notes i hi).elim (h.notes i) .inr
  keeps := h.keeps.trans h'.keeps

end Extends

lemma Extends.advances {b b' : Builder} (h : Extends b b') : Advances b b' where
  next := h.next
  journal := h.journal
  functionIds := congrArg Outer.functionIds h.outer
  mathSet := congrArg Outer.mathSet h.outer
  globals := h.globals
  functions := ⟨[], (congrArg Outer.functions h.outer).symm⟩
  notes := h.notes
  keeps := h.keeps

lemma Straight.extends {b b' : Builder} (h : Straight b b') : Extends b b' := by
  obtain ⟨g, l, c, hadds, -⟩ := h.added
  exact ⟨h.next, h.journal, congrArg Frame.outer h.frame, ⟨g, hadds.globals, hadds.isDeclaration⟩,
    ⟨l, hadds.locals.symm⟩,
    ⟨c, hadds.code.symm⟩, h.notes, h.keeps⟩

lemma Extends.body {b : Builder} {body : Body} (hheader : body.header = b.body.header)
    (hlocals : body.locals = b.body.locals)
    (hcode : b.body.code <:+ body.code) : Extends b { b with body } where
  next := Nat.le_refl _
  journal := List.suffix_rfl
  outer := congrArg (Outer.mk b.functions b.functionIds b.mathSet) hheader
  globals := ⟨[], rfl, by simp⟩
  locals := ⟨[], hlocals.symm⟩
  code := hcode
  notes _ hi := .inl hi
  keeps := .of_eq rfl rfl rfl (Nat.le_refl _)

lemma Notes.extends {P : Span → Prop} {f : Builder → Builder} (h : Notes P f) {b : Builder}
    (houter : (f b).outer = b.outer) :
    Extends b (f b) := by
  have hcontent {γ : Type} (part : Builder → γ) : part (f b).content = part b.content :=
    congrArg part (h.content b)
  have hnext : (f b).next = b.next := hcontent next
  have hnotes : (f b).names ++ (f b).decorations = b.names ++ b.decorations := hcontent fun b =>
    b.names ++ b.decorations
  exact ⟨Nat.le_of_eq hnext.symm, h.journal_eq b ▸ List.suffix_rfl, houter, ⟨[], hcontent globals, by simp⟩,
    ⟨[], (hcontent (·.body.locals)).symm⟩, ⟨[], (hcontent (·.body.code)).symm⟩, fun _ hi => .inl (hnotes ▸ hi),
    .of_eq (hcontent ids) (hcontent templates) (hcontent globals) (Nat.le_of_eq hnext.symm)⟩

end Builder

namespace Build

open Builder (Extends)

variable {α β : Type}

/-- The step only adds to what has been written. -/
class IsGrowing (m : Build α) : Prop where
  grows : ∀ s b, Extends b (m s b).2

namespace IsGrowing

lemma of_straight {m : Build α} (h : IsStraight m) : IsGrowing m := ⟨fun s b => (h.straight s b).extends⟩

instance (priority := low) (m : Build α) [h : IsStraight m] : IsGrowing m := of_straight h

instance bind (m : Build α) (f : α → Build β) [hm : IsGrowing m] [hf : ∀ a, IsGrowing (f a)] :
    IsGrowing (m >>= f) :=
  ⟨fun s b => (hm.grows s b).trans ((hf (m s b).1).grows s (m s b).2)⟩

instance (a : α) : IsGrowing (pure a : Build α) := of_straight inferInstance

instance : IsGrowing (get : Build Builder) := of_straight inferInstance

instance (p : Prop) [Decidable p] (m n : Build α) [hm : IsGrowing m] [hn : IsGrowing n] :
    IsGrowing (if p then m else n) := by
  split <;> assumption

instance mapM (f : α → Build β) [hf : ∀ a, IsGrowing (f a)] (as : List α) : IsGrowing (as.mapM f) := by
  induction as with
  | nil => rw [List.mapM_nil]; infer_instance
  | cons a as ih => rw [List.mapM_cons]; infer_instance

instance forIn (f : α → β → Build (ForInStep β)) [hf : ∀ a b, IsGrowing (f a b)] (as : List α)
    (b : β) : IsGrowing (forIn as b f) := by
  induction as generalizing b with
  | nil => rw [List.forIn_nil]; infer_instance
  | cons a as ih =>
    rw [List.forIn_cons]
    refine @bind _ _ _ _ inferInstance fun r => ?_
    cases r <;> infer_instance

lemma of_body {f : Body → Body} (hheader : ∀ body, (f body).header = body.header)
    (hlocals : ∀ body, (f body).locals = body.locals)
    (hcode : ∀ body, (f body).code = body.code) :
    IsGrowing (modify fun b => { b with body := f b.body } : Build Unit) :=
  ⟨fun _ _ => .body (hheader _) (hlocals _) ⟨[], (hcode _).symm⟩⟩

instance (i : Instruction) : IsGrowing (modify fun b =>
    { b with body := { b.body with code := i :: b.body.code } } : Build Unit) :=
  ⟨fun _ _ => .body rfl rfl (List.suffix_cons _ _)⟩

instance (op : Op) (operands : List Operand) : IsGrowing (emit op operands) := by unfold emit; infer_instance

instance (op : Op) (operands : List Operand) : IsGrowing (terminate op operands) :=
    ⟨fun _ _ => .body rfl rfl (List.suffix_cons _ _)⟩

end IsGrowing

lemma Inner.isGrowing {P : Span → Prop} {m : Build α} (h : Inner P α m) : IsGrowing m := by
  cases h with
  | plain h => exact .of_straight h.isStraight
  | push h => exact ⟨fun _ _ => .body rfl rfl (List.suffix_cons _ _)⟩
  | modify h houter => exact ⟨fun _ b => h.extends (houter b)⟩

instance (priority := low) (m : Build α) [h : Composed Inner Span.Anywhere m] : IsGrowing m := by
  induction h with
  | elementary h => exact h.isGrowing
  | pure a => infer_instance
  | bind_of _ hQ _ ihm ihf => exact ⟨fun s b => (ihm.grows s b).trans ((ihf _ (hQ s b inferInstance)).grows s _)⟩
  | ask _ _ ih => exact ⟨fun s => (ih s inferInstance).grows s⟩
  | look _ _ ih => exact ⟨fun s b => (ih b b.spanned_anywhere).grows s b⟩

/-! Shortcuts for what occurs most often. -/

instance : IsGrowing fresh := inferInstance

instance (op : Op) (type : Nat) (operands : List Operand) :
    IsGrowing (compute op type operands) := by unfold compute; infer_instance

instance (op : Op) (ty : Ty) (operands : List Operand) : IsGrowing (result op ty operands) := by
    unfold result; infer_instance

instance (op : Op) (ty : Ty) (values : List Nat) : IsGrowing (apply op ty values) := by
    unfold apply; infer_instance

instance : IsGrowing openBlock? := inferInstance

instance (l : Nat) : IsGrowing (label l) := inferInstance

instance (target : Nat) : IsGrowing (branch target) := inferInstance

instance (condition whenTrue whenFalse : Nat) : IsGrowing (branchOn condition whenTrue whenFalse) := inferInstance

instance (merge : Nat) : IsGrowing (selectionMerge merge) := inferInstance

instance (ty : Ty) (ways : List (Nat × Nat)) : IsGrowing (phi ty ways) := inferInstance

end Build
end Shading.Spirv
