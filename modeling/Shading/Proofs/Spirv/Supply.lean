import Shading.Proofs.Spirv.Order

/-! The logic of steps that write in order, and its rules for types and constants. What is said of a
step concerns runs that end without a problem. -/
namespace Shading.Spirv

set_option synthInstance.maxSize 1000

open Builder (Extends Ordered IsGlobal IsTaken IsFunction Has Keeps)

namespace Operand

/-- The ids among operands. -/
def used (operands : List Operand) : List Nat := operands.filterMap id?

@[simp] lemma used_nil : used [] = [] := rfl

@[simp] lemma used_cons_id (x : Nat) (rest : List Operand) : used (.id x :: rest) = x :: used rest := rfl

@[simp] lemma used_cons_number (n : UInt32) (rest : List Operand) : used (.number n :: rest) = used rest := rfl

@[simp] lemma used_append (xs ys : List Operand) : used (xs ++ ys) = used xs ++ used ys := List.filterMap_append

@[simp] lemma used_ids (xs : List Nat) : used (ids xs) = xs := by
  simp [used, ids, List.filterMap_map, Function.comp_def, id?]

@[simp] lemma used_numbers (ns : List UInt32) : used (numbers ns) = [] := by
  simp [used, numbers, List.filterMap_map, Function.comp_def, id?]

@[simp] lemma used_textOperands (text : String) : used (textOperands text) = [] := used_numbers _

end Operand

namespace Build

variable {α β : Type} {d : Declared} {s : Setting} {b : Builder} {m : Build α}
    {P Q : α → Builder → Prop} {R : β → Builder → Prop}

/-- If no problem has been found by then, a step keeps the order, and the answer is as stated. -/
def Supplies (d : Declared) (m : Build α) (s : Setting) (b : Builder) (Q : α → Builder → Prop) : Prop :=
  (m s b).2.journal.Clean → b.Ordered d → (m s b).2.Ordered d ∧ Q (m s b).1 (m s b).2

namespace Supplies

/-- Every builder that is reached in order, after an expression, a statement or a whole function,
has composite types for structs. -/
lemma typed (h : Supplies d m s b Q) (hclean : (m s b).2.journal.Clean) (hb : b.Ordered d) :
    (m s b).2.Typed := (h hclean hb).1.typed

lemma pure {a : α} (h : Q a b) : Supplies d (pure a) s b Q := fun _ hb => ⟨hb, h⟩

lemma weaken (hm : Supplies d m s b P) (h : ∀ a b', P a b' → Q a b') : Supplies d m s b Q :=
  fun hclean hb => (hm hclean hb).imp_right (h _ _)

variable {f : α → Build β}

lemma bind [hm' : IsGrowing m] [hf' : ∀ a, IsGrowing (f a)] (hm : Supplies d m s b P)
    (hf : ∀ a b', Extends b b' → P a b' → Supplies d (f a) s b' R) : Supplies d (m >>= f) s b R := by
  intro hclean hb
  obtain ⟨hb1, ha⟩ := hm (hclean.of_suffix ((hf' (m s b).1).grows s (m s b).2).journal) hb
  exact hf _ _ (hm'.grows s b) ha hclean hb1

lemma bind_of [IsGrowing m] (hf' : ∀ a, IsGrowing (f a)) (hm : Supplies d m s b P)
    (hf : ∀ a b', Extends b b' → P a b' → Supplies d (f a) s b' R) : Supplies d (m >>= f) s b R :=
  bind hm hf

lemma get_bind {f : Builder → Build β} (h : b.Ordered d → Supplies d (f b) s b R) :
    Supplies d (get >>= f) s b R :=
  fun hclean hb => h hb hclean hb

lemma read_bind {f : Setting → Build β} (h : Supplies d (f s) s b R) : Supplies d (read >>= f) s b R := h

lemma ite {p : Prop} [Decidable p] {n : Build α} (hm : p → Supplies d m s b Q) (hn : ¬ p → Supplies d n s b Q) :
    Supplies d (if p then m else n) s b Q := by
  split
  · exact hm ‹_›
  · exact hn ‹_›

lemma ite_bind {p : Prop} [Decidable p] {n : Build α} [IsGrowing m] [IsGrowing n] [∀ a, IsGrowing (f a)]
    (h : Supplies d (if p then m else n) s b P) (hf : ∀ a b', Extends b b' → P a b' → Supplies d (f a) s b' R) :
    Supplies d (if p then m >>= f else n >>= f) s b R := by
  have hbind := bind h hf
  split at hbind
  · rwa [if_pos ‹_›]
  · rwa [if_neg ‹_›]

lemma of_ordered (h : b.Ordered d → Supplies d m s b Q) : Supplies d m s b Q := fun hclean hb => h hb hclean hb

lemma of_eq (h : ∀ b, b.Ordered d → (m s b).2.Ordered d) : Supplies d m s b fun _ _ => True :=
    fun _ hb => ⟨h b hb, trivial⟩

lemma note {e : Event} : Supplies d (note e) s b fun _ _ => True :=
  of_eq fun _ hb => hb.congr (Nat.le_refl _) rfl rfl rfl rfl ⟨rfl, rfl⟩ ⟨rfl, rfl⟩ rfl ⟨rfl, rfl⟩

variable {span : Span}

lemma setSpan : Supplies d (setSpan span) s b fun _ _ => True :=
  of_eq fun _ hb => hb.congr (Nat.le_refl _) rfl rfl rfl rfl ⟨rfl, rfl⟩ ⟨rfl, rfl⟩ rfl ⟨rfl, rfl⟩

variable {problem : Problem}

lemma report {Q : Unit → Builder → Prop} : Supplies d (report problem) s b Q := fun hclean _ => nomatch hclean

lemma reportAt {Q : Unit → Builder → Prop} : Supplies d (reportAt span problem) s b Q :=
  fun hclean _ => nomatch hclean

lemma report_bind {f : Unit → Build β} [∀ u, IsGrowing (f u)] : Supplies d (Build.report problem >>= f) s b R :=
  bind (P := fun _ _ => False) report fun _ _ _ h => h.elim

lemma reportAt_bind {f : Unit → Build β} [∀ u, IsGrowing (f u)] :
    Supplies d (Build.reportAt span problem >>= f) s b R :=
  bind (P := fun _ _ => False) reportAt fun _ _ _ h => h.elim

lemma fresh : Supplies d fresh s b fun x b' => b'.IsTaken x :=
  fun _ hb => ⟨hb.congr (Nat.le_succ _) rfl rfl rfl rfl ⟨rfl, rfl⟩ ⟨rfl, rfl⟩ rfl ⟨rfl, rfl⟩,
    hb.next, Nat.lt_succ_self _⟩

/-- Each entry of a list is made after those before it, and keeps its property while the others are
made. -/
lemma mapM [∀ a, IsGrowing (f a)] {as : List α} (hmono : ∀ x b b', Extends b b' → R x b → R x b')
    (hf : ∀ a ∈ as, ∀ b', Extends b b' → Supplies d (f a) s b' R) :
    Supplies d (as.mapM f) s b fun xs b' => xs.length = as.length ∧ ∀ x ∈ xs, R x b' := by
  induction as generalizing b with
  | nil =>
    rw [List.mapM_nil]
    exact .pure ⟨rfl, nofun⟩
  | cons a as ih =>
    rw [List.forall_mem_cons] at hf
    rw [List.mapM_cons]
    refine .bind (hf.1 b (.refl b)) fun x b1 h1 hx => ?_
    refine .bind (ih fun a ha b' h' => hf.2 a ha b' (h1.trans h')) fun xs b2 h2 ⟨hlength, hxs⟩ => ?_
    exact .pure ⟨congrArg (· + 1) hlength, List.forall_mem_cons.mpr ⟨hmono x b1 b2 h2 hx, hxs⟩⟩

lemma forIn {f : α → PUnit → Build (ForInStep PUnit)} [∀ a u, IsGrowing (f a u)] {as : List α}
    (hf : ∀ a ∈ as, ∀ u b', Extends b b' → Supplies d (f a u) s b' fun _ _ => True) :
    Supplies d (forIn as PUnit.unit f) s b fun _ _ => True := by
  induction as generalizing b with
  | nil =>
    rw [List.forIn_nil]
    exact .pure trivial
  | cons a as ih =>
    rw [List.forall_mem_cons] at hf
    rw [List.forIn_cons]
    refine .bind_of (fun r => by cases r <;> infer_instance) (hf.1 .unit b (.refl b)) fun r b1 h1 _ => ?_
    cases r with
    | done u => exact .pure trivial
    | yield u => exact ih fun a ha u b' h' => hf.2 a ha u b' (h1.trans h')

end Supplies

/-! ### Notes -/

lemma supplies_once_note {part : Section} {t : Template} (hpart : part ≠ .globals) (ht : t.sharing = .noResult)
    (hids : ∀ x ∈ t.type.toList ++ Operand.used t.operands, b.IsTaken x) :
    Supplies d (once part t) s b fun _ _ => True := by
  intro _ hb
  rw [once_eq]
  cases hfound : b.ids[t]? with
  | some id => exact ⟨hb.congr (Nat.le_refl _) rfl rfl rfl rfl ⟨rfl, rfl⟩ ⟨rfl, rfl⟩ rfl ⟨rfl, rfl⟩, trivial⟩
  | none =>
    refine ⟨?_, trivial⟩
    dsimp only
    rw [write_note ht]
    cases part with
    | globals => exact absurd rfl hpart
    | names =>
      refine hb.note (t.instruction 0 :: b.names) b.decorations (i := t.instruction 0) (fun j hj => ?_) hids
        (.rememberNote hfound ht)
      simpa [or_comm, or_assoc] using hj
    | decorations =>
      refine hb.note b.names (t.instruction 0 :: b.decorations) (i := t.instruction 0) (fun j hj => ?_) hids
        (.rememberNote hfound ht)
      simpa [or_comm, or_assoc, or_left_comm] using hj

lemma supplies_note {part : Section} {t : Template} (hpart : part ≠ .globals) (ht : t.sharing = .noResult)
    (hop : Instruction.isNote { op := t.op } = true)
    (hids : ∀ x ∈ t.type.toList ++ Operand.used t.operands, b.IsTaken x) :
    Supplies d (do let _ ← once part t) s b fun _ _ => True :=
  have _ := IsStraight.note_ hpart ht hop
  .bind (supplies_once_note hpart ht hids) fun _ _ _ _ => .pure trivial

variable {text : String} {ty : Ty}

section Notes

variable {target member : Nat} (h : b.IsTaken target)
include h

lemma supplies_decorate {decoration : Decoration} {ns : List UInt32} :
    Supplies d (decorate target decoration ns) s b fun _ _ => True :=
  supplies_note (by simp) rfl rfl (by simpa using h)

lemma supplies_decorateMember {decoration : Decoration} {ns : List UInt32} :
    Supplies d (decorateMember target member decoration ns) s b fun _ _ => True :=
  supplies_note (by simp) rfl rfl (by simpa using h)

lemma supplies_name : Supplies d (name target text) s b fun _ _ => True :=
  .read_bind (.ite (fun _ => supplies_note (by simp) rfl rfl (by simpa using h)) fun _ => .pure trivial)

lemma supplies_nameMember : Supplies d (nameMember target member text) s b fun _ _ => True :=
  .read_bind (.ite (fun _ => supplies_note (by simp) rfl rfl (by simpa using h)) fun _ => .pure trivial)

lemma supplies_relax : Supplies d (relax target ty) s b fun _ _ => True :=
  .ite (fun _ => supplies_decorate h) fun _ => .pure trivial

lemma supplies_decorateField {modifiers : Modifiers} :
    Supplies d (decorateField modifiers target member) s b fun _ _ => True := by
  unfold decorateField
  refine .bind (.forIn fun _ _ _ b' h' => .bind (supplies_decorateMember (h'.isTaken h))
    fun _ _ _ _ => .pure trivial) fun _ b1 h1 _ => ?_
  exact .bind (.forIn fun _ _ _ b' h' => .bind (supplies_decorateMember (h'.isTaken (h1.isTaken h)))
    fun _ _ _ _ => .pure trivial)
    fun _ _ _ _ => .pure trivial

end Notes

/-! ### Types -/

lemma supplies_global {t : Template} (ht : t.sharing ≠ .noResult)
    (hneeds : ∀ x ∈ t.type.toList ++ Operand.used t.operands, b.IsGlobal x) :
    Supplies d (global t) s b fun x b' => b'.IsGlobal x := by
  intro _ hb
  rw [global, once_eq]
  cases hfound : b.ids[t]? with
  | some id =>
    refine ⟨hb.congr (Nat.le_refl _) rfl rfl rfl rfl ⟨rfl, rfl⟩ ⟨rfl, rfl⟩ rfl ⟨rfl, rfl⟩, ?_⟩
    exact mem_results.mpr ⟨_, (hb.tabled.written (hb.tabled.shared hfound ht)).2, if_neg ht⟩
  | none =>
    dsimp only
    rw [write_eq ht]
    have hkeeps : Keeps b { b with
        next := b.next + 1
        globals := t.instruction b.next :: b.globals
        ids := if t.sharing = .unique then b.ids else b.ids.insert t b.next
        templates := b.templates.insert b.next t } := by
      refine .remember ?_ hfound ht
      split
      · exact .inl rfl
      · exact .inr rfl
    refine ⟨hb.global (if_neg ht) (fun x hx => hneeds x (Instruction.needs_subset _ hx)) hkeeps, ?_⟩
    exact mem_results.mpr ⟨_, List.mem_cons_self, if_neg ht⟩

lemma supplies_scalarType {t : Scalar} : Supplies d (scalarType t) s b fun x b' => b'.IsGlobal x := by
  unfold scalarType
  split <;> exact supplies_global (by simp) (by simp)

lemma supplies_vectorType {t : Scalar} {n : Dim} : Supplies d (vectorType t n) s b fun x b' => b'.IsGlobal x := by
  have hstraight (c : Nat) : IsStraight (global
    { op := .typeVector, operands := [.id c, .number (.ofNat n.toNat)] }) := .global (by simp) rfl
  exact .bind supplies_scalarType fun c b1 _ hc => supplies_global (by simp) (by simpa using hc)

lemma supplies_matrixType {t : Scalar} {c r : Dim} : Supplies d (matrixType t c r) s b fun x b' =>
    b'.IsGlobal x := by
  have hstraight (column : Nat) : IsStraight (global
    { op := .typeMatrix, operands := [.id column, .number (.ofNat c.toNat)] }) :=
    .global (by simp) rfl
  exact .bind supplies_vectorType fun c b1 _ hc => supplies_global (by simp) (by simpa using hc)

lemma supplies_intConstant {i : Int} : Supplies d (intConstant i) s b fun x b' => b'.IsGlobal x := by
  have hstraight (type : Nat) : IsStraight (global
    { op := .constant, type, operands := [.number (wordOf i)] }) := .global nofun rfl
  exact .bind supplies_scalarType fun c b1 _ hc => supplies_global nofun (by simpa using hc)

lemma supplies_arrayType {element stride : Nat} {size : Option Nat} (h : b.IsGlobal element) :
    Supplies d (arrayType element size stride) s b fun x b' => b'.IsGlobal x := by
  have hsized (length : Nat) : IsStraight (global
    { op := .typeArray, operands := [.id element, .id length], sharing := .keyed stride }) :=
    .global (by simp) rfl
  have hruntime : IsStraight
    (global { op := .typeRuntimeArray, operands := [.id element], sharing := .keyed stride }) := .global (by simp)
    rfl
  have hstride (x : Nat) (b : Builder) (hx : b.IsGlobal x) : Supplies d (do
      if 0 < stride then decorate x .arrayStride [.ofNat stride]
      return x) s b fun x b' => b'.IsGlobal x := by
    refine .ite (fun _ => ?_) fun _ => .pure hx
    refine .bind (.of_ordered fun hb => supplies_decorate (hb.isTaken hx)) fun _ b1 h1 _ => .pure (h1.isGlobal hx)
  unfold arrayType
  cases size with
  | some n =>
    refine .bind supplies_intConstant fun length b1 h1 hlength =>
      .bind (supplies_global (by simp) ?_) fun x b2 _ hx => hstride x b2 hx
    simpa using ⟨h1.isGlobal h, hlength⟩
  | none => exact .bind (supplies_global (by simp) (by simpa using h)) fun x b1 _ hx => hstride x b1 hx

/-! ### Structs -/

variable {fields : List (Field Ty)} {layout : Option MemoryLayout}

lemma supplies_reusedStruct? {n : Nat} :
    Supplies d (reusedStruct? n text fields layout) s b fun found b' => ∀ x ∈ found, b'.IsComposite x := by
  refine .get_bind fun hb => .ite (fun _ => .pure (by simp)) fun _ => ?_
  split
  · split
    · rename_i x hfound
      refine .bind .note fun _ b1 h1 _ => .pure ?_
      rintro _ ⟨⟩
      refine Builder.IsComposite.mono ?_ hb.tabled h1.keeps
      obtain h | ⟨-, h⟩ := Option.or_eq_some_iff.mp hfound
      · exact hb.typed.isComposite (some .std140) h
      · exact hb.typed.isComposite (some .std430) h
    · exact .pure (by simp)
  · split
    · rename_i x hfound
      have hx : b.IsComposite x := hb.typed.isComposite none hfound
      refine .bind .note fun _ b1 h1 _ => .bind (P := fun _ b' => b'.IsComposite x)
        ?_ fun _ b2 _ hx => .pure (by rintro _ ⟨⟩; exact hx)
      have hmono {y : Nat} (hy : b.IsComposite y) : b1.IsComposite y := hy.mono hb.tabled h1.keeps
      exact fun _ hb1 => ⟨hb1.insertStruct fun _ _ hid => hmono (hb.typed.take hid), hmono hx⟩
    · exact .pure (by simp)

lemma supplies_newStruct {block : Bool} {members : List Nat} (h : ∀ x ∈ members, b.IsGlobal x) :
    Supplies d (newStruct text fields block members) s b fun x b' => b'.IsComposite x := by
  have hstraight : IsStraight (global { op := .typeStruct, operands := Operand.ids members, sharing := .unique }) :=
    .global (by simp) rfl
  have hstruct : Supplies d (global { op := .typeStruct, operands := Operand.ids members, sharing := .unique }) s b
      fun x b' => b'.IsComposite x := fun hclean hb =>
    ⟨(supplies_global (by simp) (by simpa using h) hclean hb).1, _, global_template hb.tabled (by simp), rfl⟩
  unfold newStruct
  refine .bind hstruct fun x b1 _ hx => .of_ordered fun hb1 => ?_
  have htaken := hb1.isTaken (hx.isGlobal hb1.tabled)
  refine .bind (supplies_name htaken) fun _ b2 h2 _ =>
    .bind (.forIn fun field _ _ b3 h3 => ?_) fun _ b3 h3 _ => ?_
  · have htaken := h3.isTaken (h2.isTaken htaken)
    refine .bind (supplies_nameMember htaken) fun _ b4 h4 _ => .ite (fun _ => ?_) fun _ => ?_
    · refine .bind (supplies_decorateMember (h4.isTaken htaken)) fun _ b5 h5 _ => ?_
      exact .bind (supplies_decorateField (h5.isTaken (h4.isTaken htaken))) fun _ _ _ _ => .pure trivial
    · exact .bind (supplies_decorateField (h4.isTaken htaken)) fun _ _ _ _ => .pure trivial
  · have hkeeps := h2.keeps.trans h3.keeps
    refine .ite (fun _ => ?_) fun _ => .pure (hx.mono hb1.tabled hkeeps)
    exact .bind (supplies_decorate (h3.isTaken (h2.isTaken htaken))) fun _ b4 h4 _ =>
      .pure (hx.mono hb1.tabled (hkeeps.trans h4.keeps))

lemma supplies_placeMember {x i : Nat} {f : Field Ty} {p : Placement} (h : b.IsTaken x) :
    Supplies d (placeMember x i f p) s b fun _ _ => True := by
  have hplaced (b : Builder) (h : b.IsTaken x) : Supplies d (do
      if !f.modifiers.isBuiltin then
        decorateMember x i .offset [.ofNat p.offset]
        if 0 < p.metrics.matrixStride then
          decorateMember x i .colMajor []
          decorateMember x i .matrixStride [.ofNat p.metrics.matrixStride]) s b fun _ _ => True := by
    refine .ite (fun _ => .bind (supplies_decorateMember h) fun _ b1 h1 _ =>
      .ite (fun _ => ?_) fun _ => .pure trivial) fun _ => .pure trivial
    exact .bind (supplies_decorateMember (h1.isTaken h)) fun _ b2 h2 _ =>
      supplies_decorateMember (h2.isTaken (h1.isTaken h))
  unfold placeMember
  dsimp only
  refine .ite (fun _ => .reportAt) fun _ => ?_
  split
  · rename_i problem _
    refine .bind (P := fun _ _ => False) ?_ fun _ _ _ h => h.elim
    cases problem <;> exact .reportAt
  · exact hplaced b h

lemma supplies_placeMembers {x : Nat} (h : b.IsTaken x) :
    Supplies d (placeMembers x fields layout) s b fun _ _ => True := by
  unfold placeMembers
  split
  · exact .pure trivial
  · refine .bind (.forIn fun _ _ _ b' h' => ?_) fun _ _ _ _ => .pure trivial
    exact .bind (supplies_placeMember (h'.isTaken h)) fun _ _ _ _ => .pure trivial

lemma supplies_rememberStruct {n x : Nat} (h : b.IsComposite x) :
    Supplies d (rememberStruct n layout x) s b fun _ b' => b'.IsGlobal x :=
  fun _ hb => ⟨hb.insertStruct fun _ _ => hb.typed.put h, h.isGlobal hb.tabled⟩

mutual
lemma supplies_typeIn {b : Builder} (ty : Ty) : Supplies d (typeIn layout ty) s b fun x b' => b'.IsGlobal x := by
  cases ty with
  | void => exact supplies_global nofun (by simp)
  | scalar t => exact supplies_scalarType
  | vector t n => exact supplies_vectorType
  | matrix t c r => exact supplies_matrixType
  | array e n => exact .bind (supplies_typeIn e) fun x b1 _ hx => supplies_arrayType hx
  | struct n text fields block =>
    unfold typeIn
    refine .get_bind fun hb => ?_
    split
    · rename_i x hfound
      exact .pure ((hb.structs hfound).isGlobal hb.tabled)
    refine .bind_of (fun found => by split <;> infer_instance) supplies_reusedStruct? fun found b1 _ hfound => ?_
    cases found with
    | some x =>
      have hx := hfound x rfl
      refine .ite (fun _ => .bind (supplies_rememberStruct hx) fun _ b2 h2 hx => .of_ordered fun hb2 => ?_)
        fun _ => .of_ordered fun hb1 => .pure (hx.isGlobal hb1.tabled)
      exact .bind (supplies_placeMembers (hb2.isTaken hx)) fun _ b3 h3 _ => .pure (h3.isGlobal hx)
    | none =>
      refine .bind (supplies_memberTypes fields) fun members b2 _ hmembers =>
        .bind (supplies_newStruct hmembers) fun x b3 _ hx => ?_
      refine .bind (supplies_rememberStruct hx) fun _ b4 h4 hx => .of_ordered fun hb4 => ?_
      exact .bind (supplies_placeMembers (hb4.isTaken hx)) fun _ b5 h5 _ => .pure (h5.isGlobal hx)
  | generic t => exact .report_bind
  | poison => exact .report_bind
  | invalid => exact .report_bind
lemma supplies_memberTypes {b : Builder} (fields : List (Field Ty)) :
    Supplies d (memberTypes layout fields) s b fun xs b' => ∀ x ∈ xs, b'.IsGlobal x := by
  cases fields with
  | nil => exact .pure nofun
  | cons f fields =>
    obtain ⟨text, ty, modifiers, span⟩ := f
    unfold memberTypes
    refine .bind .setSpan fun _ b1 _ _ => .bind (supplies_typeIn ty) fun x b2 _ hx => ?_
    refine .bind (supplies_memberTypes fields) fun xs b3 h3 hxs => .pure ?_
    exact List.forall_mem_cons.mpr ⟨h3.isGlobal hx, hxs⟩
end

lemma supplies_typeOf : Supplies d (typeOf ty) s b fun x b' => b'.IsGlobal x := supplies_typeIn ty

lemma supplies_pointerType {type : Nat} {storage : StorageClass} (h : b.IsGlobal type) :
    Supplies d (pointerType type storage) s b fun x b' => b'.IsGlobal x :=
  supplies_global nofun (by simpa using h)

lemma supplies_functionType {f : Function} : Supplies d (functionType f) s b fun x b' => b'.IsGlobal x := by
  have hstraight (xs : List Nat) : IsStraight
    (global { op := .typeFunction, operands := Operand.ids xs }) := .global nofun rfl
  refine .bind supplies_typeOf fun returns b1 _ hreturns => ?_
  refine .bind (.mapM (R := fun x b' => b'.IsGlobal x) (fun _ _ _ h hx => h.isGlobal hx) fun p _ b' _ => ?_)
    fun parameters b2 h2 ⟨_, hparameters⟩ => supplies_global nofun ?_
  · exact .bind supplies_typeOf fun type b2 _ htype => supplies_pointerType htype
  · simpa using ⟨h2.isGlobal hreturns, hparameters⟩

/-! ### Constants -/

lemma supplies_constant {v : Literal} : Supplies d (constant v ty) s b fun x b' => b'.IsGlobal x := by
  refine .bind_of (fun type => .of_straight (by split <;> exact .global (by simp) rfl))
    supplies_typeOf fun type b1 _ htype => ?_
  split <;> exact supplies_global (by simp) (by simpa using htype)

lemma supplies_constantComposite {parts : List Nat} (h : ∀ x ∈ parts, b.IsGlobal x) :
    Supplies d (constantComposite ty parts) s b fun x b' => b'.IsGlobal x := by
  have hstraight (type : Nat) : IsStraight (global
    { op := .constantComposite, type, operands := Operand.ids parts }) := .global (by simp) rfl
  refine .bind supplies_typeOf fun type b1 h1 htype => supplies_global (by simp) ?_
  simpa using ⟨htype, fun x hx => h1.isGlobal (h x hx)⟩

lemma supplies_splatConstant {i : Int} : Supplies d (splatConstant i ty) s b fun x b' => b'.IsGlobal x := by
  have hreplicate {b : Builder} {n x : Nat} (hx : b.IsGlobal x) : ∀ y ∈ List.replicate n x, b.IsGlobal y :=
    fun y hy => List.eq_of_mem_replicate hy ▸ hx
  refine .bind_of (fun _ => by split <;> infer_instance) supplies_constant fun scalar b1 _ hscalar => ?_
  split
  · exact supplies_constantComposite (hreplicate hscalar)
  · exact .bind (supplies_constantComposite (hreplicate hscalar)) fun column b2 _ hcolumn =>
      supplies_constantComposite (hreplicate hcolumn)
  · exact .pure hscalar

end Build
end Shading.Spirv
