import Shading.Check.Operator
import Shading.Proofs.Check.Wrap
import Shading.Proofs.Spirv.Blocks
import Shading.Proofs.Spirv.ComposedValue

/-! What integer operators compute. An operator between literals is computed while a program is
read, and leaves a constant; otherwise it is an instruction on the constants of its operands. Both
give the same word. -/
namespace Shading

/-- The integers that the words of a scalar type stand for. -/
def Scalar.Stores (s : Scalar) (i : Int) : Prop :=
  if s.kind = .unsigned then 0 ≤ i ∧ i < 2 ^ 32 else -2 ^ 31 ≤ i ∧ i < 2 ^ 31

instance (s : Scalar) (i : Int) : Decidable (s.Stores i) := by
  unfold Scalar.Stores
  infer_instance

namespace Literal

variable {s : Scalar} {a b : Int}

@[simp] lemma word_natCast (w : BitVec 32) : word w.toNat = w := by simp [word]

@[simp] lemma word_toInt (w : BitVec 32) : word w.toInt = w := BitVec.ofInt_toInt

@[simp] lemma word_ofWord (s : Scalar) (w : BitVec 32) : word (ofWord s w) = w := by
  unfold ofWord
  split
  · exact word_natCast w
  · exact word_toInt w

lemma toNat_word (h : s.kind = .unsigned) (ha : s.Stores a) : ((word a).toNat : Int) = a := by
  rw [Scalar.Stores, if_pos h] at ha
  simp only [word, BitVec.toNat_ofInt]
  omega

lemma toInt_word (h : s.kind ≠ .unsigned) (ha : s.Stores a) : (word a).toInt = a := by
  rw [Scalar.Stores, if_neg h] at ha
  simp only [word, BitVec.toInt_ofInt]
  exact Int.bmod_eq_of_le (by omega) (by omega)

lemma word_inj (ha : s.Stores a) (hb : s.Stores b) : word a = word b ↔ a = b := by
  refine ⟨fun h => ?_, congrArg _⟩
  by_cases hs : s.kind = .unsigned
  · rw [← toNat_word hs ha, h, toNat_word hs hb]
  · rw [← toInt_word hs ha, h, toInt_word hs hb]

lemma stores_zero (s : Scalar) : s.Stores 0 := by
  unfold Scalar.Stores
  split <;> omega

lemma word_ne_zero (hb : s.Stores b) (h : b ≠ 0) : word b ≠ 0 := by
  intro hzero
  exact h ((word_inj hb (stores_zero s)).mp hzero)

/-- A shift by less than the width does not depend on the type of the amount. -/
lemma toNat_word_amount (h : 0 ≤ b ∧ b < 32) : (word b).toNat = b.toNat := by
  simp only [word, BitVec.toNat_ofInt]
  omega

end Literal

namespace Spirv

/-! ### The meaning of instructions -/

/-- A value of 32 bits, or a truth value. -/
inductive Datum where
  | word (bits : BitVec 32)
  | truth (value : Bool)
deriving DecidableEq

/-- What an instruction on integers of 32 bits computes. There is no result where SPIR-V leaves it
undefined: division by zero, a quotient that does not fit, and shifts by the width or more. -/
def Op.eval? : Op → List Datum → Option Datum
  | .iAdd, [.word a, .word b] => some (.word (a + b))
  | .iSub, [.word a, .word b] => some (.word (a - b))
  | .iMul, [.word a, .word b] => some (.word (a * b))
  | .sDiv, [.word a, .word b] => if b = 0 ∨ (a = .intMin 32 ∧ b = -1) then none else some (.word (a.sdiv b))
  | .uDiv, [.word a, .word b] => if b = 0 then none else some (.word (a.udiv b))
  | .uMod, [.word a, .word b] => if b = 0 then none else some (.word (a.umod b))
  | .sMod, [.word a, .word b] => if b = 0 ∨ (a = .intMin 32 ∧ b = -1) then none else some (.word (a.smod b))
  | .shiftLeftLogical, [.word a, .word b] => if b.toNat < 32 then some (.word (a <<< b.toNat)) else none
  | .shiftRightLogical, [.word a, .word b] => if b.toNat < 32 then some (.word (a >>> b.toNat)) else none
  | .shiftRightArithmetic, [.word a, .word b] =>
    if b.toNat < 32 then some (.word (a.sshiftRight b.toNat)) else none
  | .bitwiseAnd, [.word a, .word b] => some (.word (a &&& b))
  | .bitwiseOr, [.word a, .word b] => some (.word (a ||| b))
  | .bitwiseXor, [.word a, .word b] => some (.word (a ^^^ b))
  | .iEqual, [.word a, .word b] => some (.truth (a == b))
  | .iNotEqual, [.word a, .word b] => some (.truth (a != b))
  | .sLessThan, [.word a, .word b] => some (.truth (a.slt b))
  | .sLessThanEqual, [.word a, .word b] => some (.truth (a.sle b))
  | .sGreaterThan, [.word a, .word b] => some (.truth (b.slt a))
  | .sGreaterThanEqual, [.word a, .word b] => some (.truth (b.sle a))
  | .uLessThan, [.word a, .word b] => some (.truth (a.ult b))
  | .uLessThanEqual, [.word a, .word b] => some (.truth (a.ule b))
  | .uGreaterThan, [.word a, .word b] => some (.truth (b.ult a))
  | .uGreaterThanEqual, [.word a, .word b] => some (.truth (b.ule a))
  | .sNegate, [.word a] => some (.word (-a))
  | .not, [.word a] => some (.word (~~~ a))
  | _, _ => none

/-- The datum that instructions compute for an id. -/
inductive Computes (is : List Instruction) : Nat → Datum → Prop
  | yes {type : Option Nat} {x : Nat} (h : { op := .constantTrue, type, result := some x } ∈ is) :
    Computes is x (.truth true)
  | no {type : Option Nat} {x : Nat} (h : { op := .constantFalse, type, result := some x } ∈ is) :
    Computes is x (.truth false)
  | constant {type : Option Nat} {x : Nat} {w : UInt32}
      (h : { op := .constant, type, result := some x, operands := [.number w] } ∈ is) :
        Computes is x (.word w.toBitVec)
  | unary {op : Op} {type : Option Nat} {x y : Nat} {a d : Datum}
      (h : { op, type, result := some x, operands := [.id y] } ∈ is) (ha : Computes is y a)
        (hd : op.eval? [a] = some d) : Computes is x d
  | binary {op : Op} {type : Option Nat} {x y z : Nat} {a b d : Datum}
      (h : { op, type, result := some x, operands := [.id y, .id z] } ∈ is) (ha : Computes is y a)
        (hb : Computes is z b)
      (hd : op.eval? [a, b] = some d) : Computes is x d

namespace Computes

variable {is js : List Instruction} {x : Nat} {d d' : Datum}

lemma mono (h : Computes is x d) (hsub : is ⊆ js) : Computes js x d := by
  induction h with
  | yes h => exact .yes (hsub h)
  | no h => exact .no (hsub h)
  | constant h => exact .constant (hsub h)
  | unary h _ hd ih => exact .unary (hsub h) ih hd
  | binary h _ _ hd iha ihb => exact .binary (hsub h) iha ihb hd

lemma unique (hnodup : (results is).Nodup) (h : Computes is x d) (h' : Computes is x d') : d = d' := by
  induction h generalizing d' with
  | yes h => cases h' with
    | yes => rfl
    | _ h' => cases eq_of_result hnodup h h' rfl rfl
  | no h => cases h' with
    | no => rfl
    | _ h' => cases eq_of_result hnodup h h' rfl rfl
  | constant h => cases h' with
    | constant h' =>
      cases eq_of_result hnodup h h' rfl rfl
      rfl
    | _ h' => cases eq_of_result hnodup h h' rfl rfl
  | unary h _ hd ih => cases h' with
    | unary h' ha' hd' =>
      cases eq_of_result hnodup h h' rfl rfl
      rw [ih ha', hd'] at hd
      exact (Option.some.inj hd).symm
    | _ h' => cases eq_of_result hnodup h h' rfl rfl
  | binary h _ _ hd iha ihb => cases h' with
    | binary h' ha' hb' hd' =>
      cases eq_of_result hnodup h h' rfl rfl
      rw [iha ha', ihb hb', hd'] at hd
      exact (Option.some.inj hd).symm
    | _ h' => cases eq_of_result hnodup h h' rfl rfl

end Computes

/-! ### Integers -/

/-- The datum of a literal; a floating-point number has none. -/
def Datum.of? : Literal → Option Datum
  | .bool b => some (.truth b)
  | .int i => some (.word (Literal.word i))
  | .float _ => none

section Integer

variable {op : Operator} {s : Scalar} {a b : Int} {v : Literal}

attribute [local simp] Op.eval?

lemma kind_of_isInteger (hs : s.isInteger = true) : s.kind = .signed ∨ s.kind = .unsigned := by
  simpa [Scalar.isInteger] using hs

lemma eval?_quotient (hs : s.isInteger = true) (ha : s.Stores a) (hb : s.Stores b) (hzero : b ≠ 0)
    (hmin : s.kind = .signed → ¬ (a = -2 ^ 31 ∧ b = -1)) :
    ∃ code, Build.arithmeticOp? .div s.kind = some code ∧
      code.eval? [.word (Literal.word a), .word (Literal.word b)] =
      some (.word (Literal.word (Literal.quotient s a b))) := by
  have hword : Literal.word b ≠ 0 := Literal.word_ne_zero hb hzero
  obtain hkind | hkind := kind_of_isInteger hs
  · refine ⟨.sDiv, by rw [hkind]; rfl, ?_⟩
    have hfits : ¬ (Literal.word a = .intMin 32 ∧ Literal.word b = -1) := by
      rintro ⟨hmin', hone⟩
      have hsigned : s.kind ≠ .unsigned := by simp [hkind]
      have hbounds : s.Stores (-2 ^ 31) ∧ s.Stores (-1) := by simp [Scalar.Stores, hkind]
      exact hmin hkind ⟨(Literal.word_inj ha hbounds.1).mp (hmin'.trans (by decide)),
        (Literal.word_inj hb hbounds.2).mp (hone.trans (by decide))⟩
    rw [Op.eval?, if_neg (not_or.mpr ⟨hword, hfits⟩), Literal.quotient, if_pos hkind, Literal.word_toInt]
  · refine ⟨.uDiv, by rw [hkind]; rfl, ?_⟩
    rw [Op.eval?, if_neg hword, Literal.quotient, if_neg (by simp [hkind]), Literal.word_natCast]

lemma eval?_remainder (hs : s.kind = .unsigned) (hb : s.Stores b) (hzero : b ≠ 0) :
    Op.eval? .uMod [.word (Literal.word a), .word (Literal.word b)] =
    some (.word (Literal.word (Literal.remainder s a b))) := by
  have hword : Literal.word b ≠ 0 := Literal.word_ne_zero hb hzero
  rw [Op.eval?, if_neg hword, Literal.remainder, if_neg (by simp [hs]), Literal.word_natCast]

lemma eval?_shiftRight (hs : s.isInteger = true) (hb : 0 ≤ b ∧ b < 32) :
    ∃ code, Build.arithmeticOp? .shr s.kind = some code ∧
      code.eval? [.word (Literal.word a), .word (Literal.word b)] =
      some (.word ((Literal.shiftRight s a b.toNat).setWidth 32)) := by
  have hamount := Literal.toNat_word_amount hb
  have hlt : (Literal.word b).toNat < 32 := by omega
  obtain hkind | hkind := kind_of_isInteger hs
  · refine ⟨.shiftRightArithmetic, by rw [hkind]; rfl, ?_⟩
    rw [Op.eval?, if_pos hlt, hamount, Literal.setWidth_shiftRight, if_pos hkind]
  · refine ⟨.shiftRightLogical, by rw [hkind]; rfl, ?_⟩
    rw [Op.eval?, if_pos hlt, hamount, Literal.setWidth_shiftRight, if_neg (by simp [hkind])]

/-- The literal that an arithmetic operator between integers leaves is what its instruction
computes. -/
lemma eval?_arithmeticOp (hs : s.isInteger = true) (hop : op.isArithmetic = true)
    (hrem : op = .rem → s.kind = .unsigned)
    (ha : s.Stores a) (hb : op ≠ .shl → op ≠ .shr → s.Stores b)
    (hmin : op = .div → s.kind = .signed → ¬ (a = -2 ^ 31 ∧ b = -1)) (hv : Literal.binaryInt op s a b = .value v) :
    ∃ code i, Build.arithmeticOp? op s.kind = some code ∧ v = .int i ∧
      code.eval? [.word (Literal.word a), .word (Literal.word b)] = some (.word (Literal.word i)) := by
  -- the operators of which signed and unsigned words have the same
  have hboth {code : Op} {w : BitVec 32} (hsigned : Build.arithmeticOp? op .signed = some code)
      (hunsigned : Build.arithmeticOp? op .unsigned = some code) (hv : v = .int (Literal.ofWord s w))
      (hw : code.eval? [.word (Literal.word a), .word (Literal.word b)] = some (.word w)) :
      ∃ code i, Build.arithmeticOp? op s.kind = some code ∧ v = .int i ∧
        code.eval? [.word (Literal.word a), .word (Literal.word b)] = some (.word (Literal.word i)) := by
    refine ⟨code, _, ?_, hv, by rw [Literal.word_ofWord]; exact hw⟩
    obtain hkind | hkind := kind_of_isInteger hs
    · rw [hkind, hsigned]
    · rw [hkind, hunsigned]
  unfold Literal.binaryInt at hv
  cases op <;> try cases hop
  case add =>
    cases hv
    exact hboth rfl rfl rfl (by rw [Literal.setWidth_long_add]; rfl)
  case sub =>
    cases hv
    exact hboth rfl rfl rfl (by rw [Literal.setWidth_long_sub]; rfl)
  case mul =>
    cases hv
    exact hboth rfl rfl rfl (by rw [Literal.setWidth_long_mul]; rfl)
  case bitAnd =>
    cases hv
    exact hboth rfl rfl rfl (by rw [BitVec.setWidth_and, Literal.setWidth_long, Literal.setWidth_long]; rfl)
  case bitOr =>
    cases hv
    exact hboth rfl rfl rfl (by rw [BitVec.setWidth_or, Literal.setWidth_long, Literal.setWidth_long]; rfl)
  case bitXor =>
    cases hv
    exact hboth rfl rfl rfl (by rw [BitVec.setWidth_xor, Literal.setWidth_long, Literal.setWidth_long]; rfl)
  case div =>
    dsimp only at hv
    split at hv
    · cases hv
    · rename_i hzero
      cases hv
      obtain ⟨code, hcode, heval⟩ := eval?_quotient hs ha (hb nofun nofun) hzero (hmin rfl)
      exact ⟨code, _, hcode, rfl, heval⟩
  case rem =>
    dsimp only at hv
    split at hv
    · cases hv
    · rename_i hzero
      cases hv
      exact ⟨.uMod, _, by rw [hrem rfl]; rfl, rfl, eval?_remainder (hrem rfl) (hb nofun nofun) hzero⟩
  case shl =>
    dsimp only at hv
    split at hv
    · rename_i hamount
      cases hv
      refine @hboth .shiftLeftLogical _ rfl rfl rfl ?_
      rw [Op.eval?, if_pos (by rw [Literal.toNat_word_amount hamount]; omega), Literal.toNat_word_amount hamount,
        BitVec.setWidth_shiftLeft_of_le (by decide), Literal.setWidth_long]
    · cases hv
  case shr =>
    dsimp only at hv
    split at hv
    · rename_i hamount
      cases hv
      obtain ⟨code, hcode, heval⟩ := eval?_shiftRight hs hamount
      exact ⟨code, _, hcode, rfl, by rw [Literal.wrap, Literal.word_ofWord]; exact heval⟩
    · cases hv

lemma ult_word (hs : s.kind = .unsigned) (ha : s.Stores a) (hb : s.Stores b) :
    (Literal.word a).ult (Literal.word b) = decide (a < b) := by
  rw [BitVec.ult, decide_eq_decide, ← Int.ofNat_lt, Literal.toNat_word hs ha, Literal.toNat_word hs hb]

lemma ule_word (hs : s.kind = .unsigned) (ha : s.Stores a) (hb : s.Stores b) :
    (Literal.word a).ule (Literal.word b) = decide (a ≤ b) := by
  rw [BitVec.ule, decide_eq_decide, ← Int.ofNat_le, Literal.toNat_word hs ha, Literal.toNat_word hs hb]

lemma slt_word (hs : s.kind ≠ .unsigned) (ha : s.Stores a) (hb : s.Stores b) :
    (Literal.word a).slt (Literal.word b) = decide (a < b) := by
  rw [BitVec.slt, Literal.toInt_word hs ha, Literal.toInt_word hs hb]

lemma sle_word (hs : s.kind ≠ .unsigned) (ha : s.Stores a) (hb : s.Stores b) :
    (Literal.word a).sle (Literal.word b) = decide (a ≤ b) := by
  rw [BitVec.sle, Literal.toInt_word hs ha, Literal.toInt_word hs hb]

lemma beq_word (ha : s.Stores a) (hb : s.Stores b) : (Literal.word a == Literal.word b) = (a == b) := by
  rw [Bool.eq_iff_iff, beq_iff_eq, beq_iff_eq]
  exact Literal.word_inj ha hb

/-- The literal that a comparison of integers leaves is what its instruction computes. -/
lemma eval?_comparisonOp (hs : s.isInteger = true) (hop : op.isComparison = true) (ha : s.Stores a)
    (hb : s.Stores b)
    (hv : Literal.binaryInt op s a b = .value v) :
    ∃ t, v = .bool t ∧
      (Build.comparisonOp op s.kind).eval? [.word (Literal.word a), .word (Literal.word b)] = some (.truth t) := by
  unfold Literal.binaryInt at hv
  obtain hkind | hkind := kind_of_isInteger hs
  · have hsigned : s.kind ≠ .unsigned := by simp [hkind]
    rw [hkind]
    cases op <;> try cases hop
    all_goals
      cases hv
      refine ⟨_, rfl, ?_⟩
      simp [Build.comparisonOp, bne, beq_word ha hb, slt_word hsigned ha hb, slt_word hsigned hb ha,
        sle_word hsigned ha hb, sle_word hsigned hb ha]
  · rw [hkind]
    cases op <;> try cases hop
    all_goals
      cases hv
      refine ⟨_, rfl, ?_⟩
      simp [Build.comparisonOp, bne, beq_word ha hb, ult_word hkind ha hb, ult_word hkind hb ha,
        ule_word hkind ha hb, ule_word hkind hb ha]

/-- The literal that an operator in front of an integer leaves is what its instruction computes. -/
lemma eval?_unary (hs : s.isInteger = true) (hop : op = .sub ∨ op = .bitNot)
    (hv : Literal.unary? op s (.int a) = some v) :
    ∃ i, v = .int i ∧ Op.eval? (if op = .sub then Build.negateOp (.scalar s) else .not) [.word (Literal.word a)] =
      some (.word (Literal.word i)) := by
  have hnegate : Build.negateOp (.scalar s) = .sNegate := by
    obtain h | h := kind_of_isInteger hs <;> simp [Build.negateOp, Build.componentKind, Ty.scalar?, h]
  obtain rfl | rfl := hop
  · cases hv
    refine ⟨_, rfl, ?_⟩
    rw [if_pos rfl, hnegate, Literal.wrap, Literal.word_ofWord, Literal.setWidth_long_neg]
    rfl
  · cases hv
    refine ⟨_, rfl, ?_⟩
    rw [if_neg (by decide), Literal.wrap, Literal.word_ofWord, BitVec.setWidth_not (by decide),
      Literal.setWidth_long]
    rfl

end Integer

/-! ### Expressions -/

namespace Builder

/-- The constants and the instructions of the function that is being written. -/
def computed (b : Builder) : List Instruction := b.globals ++ b.body.code

lemma Straight.computed_subset {b b' : Builder} (h : Straight b b') : b.computed ⊆ b'.computed := by
  obtain ⟨g, l, c, hadds, -⟩ := h.added
  intro i hi
  rw [computed, hadds.globals, hadds.code]
  simp only [computed, List.mem_append] at hi ⊢
  tauto

lemma Distinct.nodup_computed {R : List Nat} {b : Builder} (h : Distinct R b) :
    (Spirv.results b.computed).Nodup := by
  refine (h.nodup.of_append_right).sublist (List.Sublist.filterMap _ ?_)
  refine List.Sublist.append_left ?_ _
  exact ((List.sublist_append_right _ _).trans (List.sublist_append_right _ _)).trans
    (List.sublist_append_right _ _)

end Builder

namespace Build

open Builder (Tabled Straight Distinct)

variable {s : Setting} {b : Builder}

lemma computes_constant {v : Literal} {ty : Ty} {d : Datum} (hb : Tabled b) (hd : Datum.of? v = some d)
    (hty : ty.scalar?.map (·.kind) ≠ some .float) : Holds (constant v ty) s b fun x b' =>
    Computes b'.computed x d := by
  have hstraight : Straight b (typeOf ty s b).2 := IsStraight.straight s b
  refine .bind (P := fun _ b1 => Tabled b1) (hstraight.keeps.tabled hb) fun type b1 h1 => ?_
  have hwritten {t : Template} (ht : t.sharing = .shared)
    (hdeclaration : Instruction.isDeclaration { op := t.op } = true) :
      Holds (global t) s b1 fun x b' =>
        { op := t.op, type := t.type, result := some x, operands := t.operands } ∈ b'.computed := by
    have hresult : t.sharing ≠ .noResult := by simp [ht]
    have hkeeps := ((IsStraight.global hresult hdeclaration).straight s b1).keeps
    have hmem := ((hkeeps.tabled h1).written (global_template h1 hresult)).2
    rw [Template.instruction, if_neg hresult] at hmem
    exact List.mem_append_left _ hmem
  cases v with
  | float x => cases hd
  | int i =>
    cases hd
    have hword : literalWord (.int i) (ty.scalar?.map (·.kind)) = wordOf i := by
      unfold literalWord
      split <;> simp_all
    refine .weaken (hwritten rfl rfl) fun x b' hmem => ?_
    rw [hword] at hmem
    exact .constant hmem
  | bool t =>
    cases hd
    cases t with
    | true => exact .weaken (hwritten rfl rfl) fun x b' hmem => .yes hmem
    | false => exact .weaken (hwritten rfl rfl) fun x b' hmem => .no hmem

lemma apply_mem (op : Op) (ty : Ty) (vs : List Nat) :
    Holds (apply op ty vs) s b fun x b' => ∃ type,
    { op, type, result := some x, operands := Operand.ids vs } ∈ b'.computed := by
  refine .bind (P := fun _ _ => True) trivial fun type b1 _ => ⟨type, List.mem_append_right _ ?_⟩
  exact List.mem_cons_self

/-- An expression computes a datum, if it is written from the given state on. -/
def Yields (s : Setting) (b : Builder) (e : Expr) (d : Datum) : Prop :=
    Holds (value e) s b fun x b' => Computes b'.computed x d

lemma value_binary {op : Operator} {l r : Expr} {ty : Ty} {span : Span}
    (hop : op.isArithmetic = true ∨ op.isComparison = true) :
    value (.binary op l r ty span) = (do
      let x ← value l
      let y ← value r
      if op.isComparison then compare op x y l.ty else arithmetic op x l.ty y r.ty ty) := by
  rw [value]
  cases op <;> simp [Operator.isArithmetic, Operator.isComparison] at hop <;> rfl

section Scalars

variable {op : Operator} {t u : Scalar} {x y : Nat}

lemma arithmetic_integers {code : Op} (ht : t.isInteger = true) (hcode : arithmeticOp? op t.kind = some code) :
    arithmetic op x (.scalar t) y (.scalar u) (.scalar t) = apply code (.scalar t) [x, y] := by
  have hkind : componentKind (.scalar t) = t.kind := rfl
  have hfloat : t.kind ≠ .float := by obtain h | h := kind_of_isInteger ht <;> simp [h]
  simp [arithmetic, hkind, hfloat, Ty.column?, componentwise, Ty.isScalar, hcode]

lemma compare_scalars : compare op x y (.scalar t) = apply (comparisonOp op t.kind) .bool [x, y] := rfl

end Scalars

/-- Between two literals the whole of an expression is one instruction on their constants. -/
lemma isStraight_literal (v : Literal) (ty : Ty) (span : Span) : IsStraight (value (.literal v ty span)) := by
  rw [value]
  infer_instance

section Literals

variable {op : Operator} {t u : Scalar} {v w : Literal} {ty : Ty} {lspan rspan span : Span} {d e r : Datum}

lemma isStraight_binary (hop : op.isArithmetic = true ∨ op.isComparison = true) :
    IsStraight (value (.binary op (.literal v (.scalar t) lspan) (.literal w (.scalar u) rspan) ty span)) := by
  rw [value_binary hop]
  have hl := isStraight_literal v (.scalar t) lspan
  have hr := isStraight_literal w (.scalar u) rspan
  infer_instance

lemma isStraight_unary (hop : op = .sub ∨ op = .bitNot) :
    IsStraight (value (.unary op (.literal v (.scalar t) lspan) ty span)) := by
  have hl := isStraight_literal v (.scalar t) lspan
  obtain rfl | rfl := hop
  · rw [value]
    infer_instance
  · rw [value]
    exact @IsStraight.bind _ _ _ _ hl fun _ => .apply rfl

lemma scalar_kind_ne_float (ht : t.isInteger = true) : (Ty.scalar t).scalar?.map (·.kind) ≠ some .float := by
  obtain h | h := kind_of_isInteger ht <;> simp [Ty.scalar?, h]

/-- An operator whose operands are literals, and which is written as the given instruction, computes
what that one does. -/
lemma yields_binary {code : Op} (result : Ty) (hb : Tabled b)
    (hop : op.isArithmetic = true ∨ op.isComparison = true)
    (ht : t.isInteger = true) (hu : u.isInteger = true) (hd : Datum.of? v = some d) (he : Datum.of? w = some e)
    (hcode : ∀ x y, (if op.isComparison then compare op x y (.scalar t) else arithmetic op x
    (.scalar t) y (.scalar u) ty) =
      apply code result [x, y]) (hplain : Instruction.isPlain { op := code } = true)
      (hr : code.eval? [d, e] = some r) :
    Yields s b (.binary op (.literal v (.scalar t) lspan) (.literal w (.scalar u) rspan) ty span) r := by
  rw [Yields, value_binary hop]
  refine .bind (P := fun x b1 => Computes b1.computed x d ∧ Tabled b1)
    ⟨computes_constant hb hd (scalar_kind_ne_float ht), ?_⟩
    fun x b1 ⟨hx, hb1⟩ => ?_
  · exact ((isStraight_literal v (.scalar t) lspan).straight s b).keeps.tabled hb
  refine .bind (P := fun y b2 => Computes b2.computed y e ∧ b1.computed ⊆ b2.computed)
    ⟨computes_constant hb1 he (scalar_kind_ne_float hu), ?_⟩ fun y b2 ⟨hy, hsub⟩ => ?_
  · exact ((isStraight_literal w (.scalar u) rspan).straight s b1).computed_subset
  simp only [Expr.ty]
  rw [hcode]
  obtain ⟨type, hmem⟩ := apply_mem (s := s) (b := b2) code result [x, y]
  have hsub' : b2.computed ⊆ (apply code result [x, y] s b2).2.computed :=
    ((IsStraight.apply hplain).straight s b2).computed_subset
  exact .binary hmem (hx.mono (List.Subset.trans hsub hsub')) (hy.mono hsub') hr

lemma yields_unary (hb : Tabled b) (hop : op = .sub ∨ op = .bitNot) (ht : t.isInteger = true)
    (hd : Datum.of? v = some d)
    (hr : Op.eval? (if op = .sub then negateOp (.scalar t) else .not) [d] = some r) :
    Yields s b (.unary op (.literal v (.scalar t) lspan) (.scalar t) span) r := by
  have hplain : Instruction.isPlain { op := if op = .sub then negateOp (.scalar t) else .not } = true := by
    unfold negateOp
    split
    · split <;> rfl
    · rfl
  have hvalue : value (.unary op (.literal v (.scalar t) lspan) (.scalar t) span) = (do
      apply (if op = .sub then negateOp (.scalar t) else .not) (.scalar t)
        [← value (.literal v (.scalar t) lspan)]) := by
    obtain rfl | rfl := hop
    · rfl
    · rfl
  rw [Yields, hvalue]
  refine .bind (computes_constant hb hd (scalar_kind_ne_float ht)) fun x b1 hx => ?_
  generalize (if op = .sub then negateOp (.scalar t) else .not) = code at hplain hr
  obtain ⟨type, hmem⟩ := apply_mem (s := s) (b := b1) code (.scalar t) [x]
  exact .unary hmem (hx.mono ((IsStraight.apply hplain).straight s b1).computed_subset) hr

end Literals

/-- Two expressions compute one datum each, the same for both, in every state. -/
def Agree (e e' : Expr) : Prop :=
  ∀ s R b, Tabled b → Distinct R b → ∃ d, (∀ d', Yields s b e d' ↔ d' = d) ∧ ∀ d', Yields s b e' d' ↔ d' = d

/-- A straight expression computes no other datum than one that it computes. -/
lemma Yields.eq_iff {R : List Nat} {e : Expr} {d : Datum} (hb : Distinct R b)
    (he : IsStraight (value e)) (h : Yields s b e d) (d' : Datum) :
    Yields s b e d' ↔ d' = d := by
  refine ⟨fun h' => ?_, fun heq => heq ▸ h⟩
  exact Computes.unique (hb.straight (he.straight s b)).nodup_computed h' h

lemma agree_of_yields {e e' : Expr} (he : IsStraight (value e)) (he' : IsStraight (value e'))
    (h : ∃ d, ∀ s b, Tabled b → Yields s b e d ∧ Yields s b e' d) : Agree e e' := by
  obtain ⟨d, h⟩ := h
  exact fun s R b htabled hdistinct => ⟨d, (h s b htabled).1.eq_iff hdistinct he,
    (h s b htabled).2.eq_iff hdistinct he'⟩

end Build

/-- An operator between two integers that means something: a shift may have an amount of another
type, the quotient has to fit, and the remainder is one of unsigned numbers. -/
structure Foldable (op : Operator) (t u : Scalar) (a b : Int) : Prop where
  left : t.isInteger = true
  right : u.isInteger = true
  operator : op.isArithmetic = true ∨ op.isComparison = true
  same : op ≠ .shl → op ≠ .shr → u = t
  remainder : op = .rem → t.kind = .unsigned
  quotient : op = .div → t.kind = .signed → ¬ (a = -2 ^ 31 ∧ b = -1)
  storesLeft : t.Stores a
  storesRight : u.Stores b

lemma Foldable.agree {op : Operator} {t u : Scalar} {a b : Int} {lspan rspan span : Span}
    {v : Literal} (h : Foldable op t u a b)
    (hv : Literal.binaryInt op t a b = .value v) :
    Build.Agree (.binary op (.literal (.int a) (.scalar t) lspan) (.literal (.int b) (.scalar u) rspan)
      (if op.isComparison then .bool else .scalar t) span)
      (.literal v (if op.isComparison then .bool else .scalar t) span) := by
  refine Build.agree_of_yields (Build.isStraight_binary h.operator) (Build.isStraight_literal _ _ _) ?_
  by_cases hcomparison : op.isComparison = true
  · simp only [hcomparison, if_true]
    have hb : t.Stores b := by
      have hsame := h.same (by rintro rfl; cases hcomparison) (by rintro rfl; cases hcomparison)
      exact hsame ▸ h.storesRight
    obtain ⟨truth, rfl, heval⟩ := eval?_comparisonOp h.left hcomparison h.storesLeft hb hv
    refine ⟨.truth truth, fun s b hb => ⟨?_, Build.computes_constant hb rfl (by simp [Ty.scalar?, Scalar.kind])⟩⟩
    refine Build.yields_binary .bool hb h.operator h.left h.right rfl rfl (fun x y => ?_)
      (Op.isPlain_of_isCode (Build.Composed.isCode_comparisonOp op t.kind)) heval
    rw [if_pos hcomparison, Build.compare_scalars]
  · have harithmetic := h.operator.resolve_right hcomparison
    simp only [hcomparison, if_false, Bool.false_eq_true]
    obtain ⟨code, i, hcode, rfl, heval⟩ := eval?_arithmeticOp h.left harithmetic h.remainder h.storesLeft
      (fun hshl hshr => h.same hshl hshr ▸ h.storesRight) h.quotient hv
    refine ⟨.word (Literal.word i), fun s b hb =>
      ⟨?_, Build.computes_constant hb rfl (Build.scalar_kind_ne_float h.left)⟩⟩
    refine Build.yields_binary (.scalar t) hb h.operator h.left h.right rfl rfl (fun x y => ?_)
      (Op.isPlain_of_isCode (Build.Composed.isCode_arithmeticOp? hcode)) heval
    rw [if_neg hcomparison, Build.arithmetic_integers h.left hcode]

lemma eq_literal_of_foldBinary {op : Operator} {t u : Scalar} {a b : Int} {lspan rspan span : Span}
    {ty : Ty} {c : Context} {e : Expr}
    (h : (Check.foldBinary op (.literal (.int a) (.scalar t) lspan)
    (.literal (.int b) (.scalar u) rspan) ty span c).1 = some e) :
    ∃ v, Literal.binaryInt op t a b = .value v ∧ e = .literal v ty span := by
  unfold Check.foldBinary at h
  dsimp only [Literal.binary] at h
  cases hv : Literal.binaryInt op t a b with
  | value v =>
    rw [hv] at h
    exact ⟨v, rfl, (Option.some.inj h).symm⟩
  | open_ =>
    rw [hv] at h
    cases h
  | divisionByZero =>
    rw [hv] at h
    cases h

/-- What is left of an operator on integer literals computes the same as the instruction that it
would otherwise become. -/
theorem folded_agrees_with_instruction :
    (∀ {op : Operator} {t u : Scalar} {a b : Int} {lspan rspan span : Span} {c : Context}
      {e : Expr}, Foldable op t u a b →
      (Check.foldBinary op (.literal (.int a) (.scalar t) lspan) (.literal (.int b) (.scalar u) rspan)
        (if op.isComparison then .bool else .scalar t) span c).1 = some e →
      Build.Agree (.binary op (.literal (.int a) (.scalar t) lspan) (.literal (.int b) (.scalar u) rspan)
        (if op.isComparison then .bool else .scalar t) span) e) ∧
    ∀ {op : Operator} {t : Scalar} {a : Int} {lspan span : Span} {e : Expr}, t.isInteger = true →
    op = .sub ∨ op = .bitNot →
      Check.foldUnary? op (.literal (.int a) (.scalar t) lspan) span = some e →
      Build.Agree (.unary op (.literal (.int a) (.scalar t) lspan) (.scalar t) span) e := by
  constructor
  · intro op t u a b lspan rspan span c e h hfold
    obtain ⟨v, hv, rfl⟩ := eq_literal_of_foldBinary hfold
    exact h.agree hv
  · intro op t a lspan span e ht hop hfold
    obtain ⟨v, hv, rfl⟩ := Option.map_eq_some_iff.mp hfold
    obtain ⟨i, rfl, heval⟩ := eval?_unary ht hop hv
    refine Build.agree_of_yields (Build.isStraight_unary hop) (Build.isStraight_literal _ _ _) ?_
    refine ⟨.word (Literal.word i), fun s b hb =>
      ⟨?_, Build.computes_constant hb rfl (Build.scalar_kind_ne_float ht)⟩⟩
    exact Build.yields_unary hb hop ht rfl heval

/-- A product of two unsigned numbers that is too large for a word. -/
theorem folded_agrees_with_instruction_product :
    (Check.foldBinary .mul (.literal (.int 65536) (.scalar .uint) (.point 0))
      (.literal (.int 65537) (.scalar .uint) (.point 1))
      (.scalar .uint) (.point 0) (.initial .fragment {})).1 =
      some (.literal (.int 65536) (.scalar .uint) (.point 0)) ∧
    Builder.Tabled {} ∧ Builder.Distinct [] {} ∧
    Build.Agree (.binary .mul (.literal (.int 65536) (.scalar .uint) (.point 0))
      (.literal (.int 65537) (.scalar .uint) (.point 1))
      (.scalar .uint) (.point 0)) (.literal (.int 65536) (.scalar .uint) (.point 0)) := by
  have hfold : (Check.foldBinary .mul (.literal (.int 65536) (.scalar .uint) (.point 0))
    (.literal (.int 65537) (.scalar .uint) (.point 1))
      (.scalar .uint) (.point 0) (.initial .fragment {})).1 =
        some (.literal (.int 65536) (.scalar .uint) (.point 0)) := rfl
  refine ⟨hfold, ⟨?_, ?_, ?_⟩, ⟨Nat.le_refl 1, List.nodup_nil, ?_⟩, ?_⟩
  · simp
  · simp
  · simp
  · intro x hx
    cases hx
  · exact folded_agrees_with_instruction.1 ⟨rfl, rfl, .inl rfl, fun _ _ => rfl, fun _ =>
      rfl, nofun, by decide, by decide⟩ hfold

end Spirv
end Shading
