import Shading.Glsl.Expression
import Shading.Proofs.Check.Fits
import Shading.Proofs.Number.Text
import Shading.Proofs.Typing.Operands

/-! The tokens of what is written in GLSL: marks and operators read as themselves, names as names
and literals as a number, after a minus if they are negative. -/
namespace Shading

namespace Glsl

/-! ### Pieces -/

lemma kind?_spelling (p : Punctuator) : (Scan.kind? (String.ofList p.spelling)).getD .invalid = .mark p := by
  have hall : ∀ p ∈ Punctuator.all, (Scan.kind? (String.ofList p.spelling)).getD .invalid =
    .mark p := by decide +kernel
  exact hall p (Punctuator.mem_all p)

/-! ### Operators -/

/-- The mark of an operator. -/
def punctuator : Operator → Punctuator
  | .add =>
    .plus | .sub => .minus | .mul => .star | .div => .slash | .rem => .percent | .shl => .shl | .shr => .shr
  | .lt => .lt | .gt => .gt | .le => .le | .ge => .ge | .eq => .eqEq | .ne => .bangEq
  | .logicalAnd => .ampAmp | .logicalOr => .pipePipe | .logicalXor => .caretCaret
  | .bitAnd => .amp | .bitOr => .pipe | .bitXor => .caret
  | .logicalNot => .bang | .bitNot => .tilde
  | .assign =>
    .eq | .addAssign => .plusEq | .subAssign => .minusEq | .mulAssign => .starEq | .divAssign => .slashEq
  | .remAssign =>
    .percentEq | .shlAssign => .shlEq | .shrAssign => .shrEq | .andAssign => .ampEq | .orAssign => .pipeEq
  | .xorAssign => .caretEq
  | .increment => .plusPlus | .decrement => .minusMinus
  | .comma => .comma

lemma symbol_eq (op : Operator) : op.symbol = String.ofList (punctuator op).spelling := by cases op <;> rfl

/-! ### Literals -/

/-- Whether a literal is written with a minus. -/
def isNegative : Literal → Bool
  | .bool _ => false
  | .int i => i < 0
  | .float x => x.isNegative

/-- The text of a literal without its sign. -/
def magnitude (v : Literal) (ty : Ty) : String :=
  match v with
  | .bool b => toString b
  | .int i => if isUnsigned ty then s!"{i.natAbs}u" else toString i.natAbs
  | .float x => Number.text Number.glslStyle (if x.isNegative then x.neg else x)

lemma precedence_literal {v : Literal} {ty : Ty} {span : Span} :
    precedence (.literal v ty span) = if isNegative v then Precedence.leading else Precedence.parentheses := by
  cases v with
  | bool b => rfl
  | int i => simp [precedence, isNegative]
  | float x => rfl

variable {text : String}

lemma signed_minus : signed ("-" ++ text) = [.lexeme "-", .lexeme text] := by
  simp [signed]

lemma signed_digit {c : Char} {cs : List Char} (htext : text.toList = c :: cs)
    (hc : c.isDigit = true) : signed text = [.lexeme text] := by
  unfold signed
  split
  · rename_i hminus
    rw [htext] at hminus
    cases hminus
    cases hc
  · rfl

lemma signed_of_isDigits {ds rest : List Char} (htext : text.toList = ds ++ rest) (hds : Scan.isDigits ds = true) :
    signed text = [.lexeme text] := by
  obtain ⟨c, cs, rfl⟩ := Scan.exists_cons_of_isDigits hds
  exact signed_digit htext (Bool.and_eq_true_iff.mp (Scan.all_of_isDigits hds)).1

lemma signed_toString {i : Int} : signed (toString i) =
    if i < 0 then [.lexeme "-", .lexeme (toString i.natAbs)] else [.lexeme (toString i.natAbs)] := by
  cases i with
  | ofNat n =>
    have hdigits : signed (toString n) = [.lexeme (toString n)] :=
      signed_of_isDigits (List.append_nil _).symm (Number.isDigits_toString n)
    rw [if_neg (by simp)]
    exact hdigits
  | negSucc n =>
    rw [if_pos (Int.negSucc_lt_zero n)]
    exact signed_minus

lemma signed_text {x : Number.Double} (hx : x.biased ≠ 0x7ff) : signed (Number.text Number.glslStyle x) =
    if x.isNegative then [.lexeme "-", .lexeme (Number.text Number.glslStyle x.neg)]
    else [.lexeme (Number.text Number.glslStyle x)] := by
  split
  · rw [Number.text_of_isNegative ‹_› hx]
    exact signed_minus
  · rename_i hpositive
    obtain ⟨whole, point, power, htext, hwhole, -⟩ :=
      Number.isNumeral_text_of_nonneg (Bool.eq_false_iff.mpr hpositive) hx
    exact signed_of_isDigits htext hwhole

variable {v : Literal} {s : Scalar}

lemma toInt_word {i : Int} (h : -2 ^ 31 ≤ i ∧ i < 2 ^ 31) : (Literal.word i).toInt = i := by
  rw [Literal.word, BitVec.toInt_ofInt]
  simp [Int.bmod]
  omega

lemma toNat_word {i : Int} (h : 0 ≤ i ∧ i < 2 ^ 32) : (Literal.word i).toNat = i.natAbs := by
  rw [Literal.word, BitVec.toNat_ofInt]
  omega

/-- A literal of its type is its magnitude, after a minus if it is negative. -/
lemma literal_eq (h : v.Fits s) : literal v (.scalar s) =
    if isNegative v then [.lexeme "-", .lexeme (magnitude v (.scalar s))]
    else [.lexeme (magnitude v (.scalar s))] := by
  cases v with
  | bool b => rfl
  | int i =>
    have hunsigned : isUnsigned (.scalar s) = (s.kind == .unsigned) := rfl
    obtain ⟨hs, hi⟩ | ⟨hs, hi⟩ := h
    · simp only [literal, integer, hunsigned, hs, toInt_word hi, signed_toString, magnitude, isNegative]
      by_cases hneg : i < 0 <;> simp [hneg]
    · have hneg : ¬ i < 0 := by omega
      simp [literal, integer, hunsigned, hs, toNat_word hi, magnitude, isNegative, hneg]
  | float x =>
    simp only [literal, signed_text (Number.biased_of_isWithin h.2), magnitude, isNegative]
    split <;> simp

lemma kind?_magnitude (h : v.Fits s) :
    (∃ b, Scan.kind? (magnitude v (.scalar s)) = some (.truth b) ∧
    Scan.isWord (magnitude v (.scalar s)).toList = true) ∨
    ∃ whole rest, (magnitude v (.scalar s)).toList = whole ++ rest ∧ Scan.isDigits whole = true ∧
      (Scan.kind? (magnitude v (.scalar s)) = some .integer ∨
      Scan.kind? (magnitude v (.scalar s)) = some .float) := by
  cases v with
  | bool b =>
    have htruth : ∀ b : Bool, Scan.kind? (toString b) = some (.truth b) ∧
      Scan.isWord (toString b).toList = true := by decide +kernel
    exact .inl ⟨b, htruth b⟩
  | int i =>
    have hdigits := Number.isDigits_toString i.natAbs
    right
    unfold magnitude
    dsimp only
    split
    · have htext : (s!"{i.natAbs}u").toList = (toString i.natAbs).toList ++ ['u'] := by simp [Number.toString_text]
      exact ⟨_, _, htext, hdigits, .inl (Scan.kind?_of_isDigits_u htext hdigits)⟩
    · exact ⟨_, [], (List.append_nil _).symm, hdigits, .inl (Scan.kind?_of_isDigits hdigits)⟩
  | float x =>
    have hnumeral : Number.IsNumeral (Number.text Number.glslStyle
      (if x.isNegative then x.neg else x)).toList := by
      have hx := Number.biased_of_isWithin h.2
      cases hneg : x.isNegative with
      | true => exact Number.isNumeral_text_of_nonneg (by simp [hneg]) (by rwa [if_pos rfl, Number.biased_neg])
      | false => exact Number.isNumeral_text_of_nonneg hneg hx
    obtain ⟨whole, point, power, htext, hwhole, hpoint, hpower, hne⟩ := hnumeral
    exact .inr ⟨whole, point ++ power, htext, hwhole,
      .inr (Scan.kind?_of_isFraction htext hwhole hpoint hpower hne)⟩

lemma kind?_bounds : Scan.kind? "0.0" = some .float ∧ Scan.kind? "1.0" = some .float := by decide +kernel

/-! ### Names -/

/-- The names of builtin types, of builtin functions and of the variables of the pipeline. -/
def builtinNames : List String :=
  Scalar.all.map Scalar.glslName ++ Scalar.all.flatMap (fun s => Dim.all.map fun n => (Ty.vector s n).glslName) ++
    Dim.all.flatMap (fun c => Dim.all.map fun r => (Ty.matrix .float c r).glslName) ++
    [Intrinsic.abs, .sign, .floor, .ceil, .fract, .min, .max, .clamp, .mix, .step, .smoothStep,
      .sqrt, .inverseSqrt, .pow, .exp, .log,
      .exp2, .log2, .sin, .cos, .tan, .length, .distance, .dot, .cross, .normalize, .reflect, .fma,
        .saturate].map Intrinsic.name ++
    ["gl_Position", "gl_PointSize", "gl_VertexID", "gl_InstanceID", "gl_FragCoord",
      "gl_FrontFacing", "gl_FragDepth", "gl_VertexIndex",
      "gl_InstanceIndex"]

lemma isName_of_mem_builtinNames : ∀ name ∈ builtinNames, IsName name := by decide +kernel

lemma isName_of_scalar? {ty : Ty} (h : ty.scalar? = some s) : IsName ty.glslName := by
  have hs (s : Scalar) : s ∈ Scalar.all := by cases s <;> decide
  have hn (n : Dim) : n ∈ Dim.all := by cases n <;> decide
  refine isName_of_mem_builtinNames _ ?_
  simp only [builtinNames, List.mem_append, List.mem_flatMap, List.mem_map]
  cases ty with
  | scalar s => exact .inl (.inl (.inl (.inl ⟨s, hs s, rfl⟩)))
  | vector s n => exact .inl (.inl (.inl (.inr ⟨s, hs s, n, hn n, rfl⟩)))
  | matrix s c r => exact .inl (.inl (.inr ⟨c, hn c, r, hn r, rfl⟩))
  | _ => cases h

lemma exists_intrinsic {f : Function} (h : f ∈ Intrinsic.signatures) : ∃ i : Intrinsic, f.name = i.name := by
  have hsignature (i : Intrinsic) (parameters : List Ty) (returns : Ty) :
      ∃ j : Intrinsic, (i.signature parameters returns).name = j.name := ⟨i, rfl⟩
  revert f
  simp only [Intrinsic.signatures, Intrinsic.overFloat, Intrinsic.overNumber, List.flatMap_cons,
    List.flatMap_nil, List.map_cons,
    List.map_nil, List.forall_mem_append, List.forall_mem_cons, hsignature, List.append_nil]
  simp

lemma isName_intrinsic (i : Intrinsic) : IsName i.name := by
  refine isName_of_mem_builtinNames _ ?_
  simp only [builtinNames, List.mem_append, List.mem_map]
  exact .inl (.inr ⟨i, by cases i <;> decide, rfl⟩)

/-- Every word with a meaning of its own has a letter that names no component, and none starts with
an underscore. -/
lemma specialWords_spec : ∀ w ∈ Scan.specialWords, (∃ c ∈ w.toList, c ∉ ['x', 'y', 'z', 'w']) ∧
    w.toList.head? ≠ some '_' := by
  have hall : (Scan.specialWords.all fun w =>
      w.toList.any (fun c => (['x', 'y', 'z', 'w'].contains c).not) && w.toList.head? != some '_') =
        true := by decide +kernel
  intro w hw
  simpa using List.all_eq_true.mp hall w hw

lemma isName_letters {cs : List (Fin 4)} (h : cs ≠ []) : IsName (String.ofList (cs.map componentLetter)) := by
  have hletter (i : Fin 4) : componentLetter i ∈ ['x', 'y', 'z', 'w'] := by revert i; decide
  have hword : ∀ c ∈ ['x', 'y', 'z', 'w'], Scan.isWordStart c = true :=
    List.all_eq_true.mp (show ['x', 'y', 'z', 'w'].all Scan.isWordStart = true by decide)
  have hall : ∀ c ∈ (cs.map componentLetter), c ∈ ['x', 'y', 'z', 'w'] :=
    List.forall_mem_map.mpr fun i _ => hletter i
  refine Scan.isName_of_isWord ?_ fun hmem => ?_
  · rw [String.toList_ofList]
    cases cs with
    | nil => exact absurd rfl h
    | cons i cs =>
      simp only [List.map_cons, List.forall_mem_cons] at hall
      rw [List.map_cons, Scan.isWord, hword _ hall.1, Bool.true_and, List.all_cons,
        Scan.isWordChar_of_isWordStart (hword _ hall.1), Bool.true_and]
      exact List.all_eq_true.mpr fun c hc => Scan.isWordChar_of_isWordStart (hword c (hall.2 c hc))
  · obtain ⟨c, hc, hnot⟩ := (specialWords_spec _ hmem).1
    rw [String.toList_ofList] at hc
    exact hnot (hall c hc)

lemma isName_numbered {name : String} (h : IsName name) (n : Nat) : IsName s!"_{name}_{n}" := by
  have htext : (s!"_{name}_{n}").toList = '_' :: (name.toList ++ '_' :: (toString n).toList) := by
    simp [Number.toString_text]
  refine Scan.isName_of_isWord ?_ fun hmem => (specialWords_spec _ hmem).2 (by rw [htext]; rfl)
  have hword := Scan.isWord_of_isName h
  have hall : name.toList.all Scan.isWordChar = true := by
    unfold Scan.isWord at hword
    split at hword
    · cases hword
    · rename_i htext
      rw [htext]
      exact (Bool.and_eq_true_iff.mp hword).2
  have hdigits : (toString n).toList.all Scan.isWordChar = true := by
    refine List.all_eq_true.mpr fun c hc => ?_
    have hc := List.all_eq_true.mp (Scan.all_of_isDigits (Number.isDigits_toString n)) c hc
    simp [Scan.isWordChar, Char.isAlphanum, hc]
  rw [htext, Scan.isWord]
  simp only [List.all_cons, List.all_append, hall, hdigits, Bool.and_true]
  decide

lemma isName_pipeline {n : Nat} {name : String} (h : PipelineVariable.glslName? n = some name) : IsName name := by
  refine isName_of_mem_builtinNames _ ?_
  simp only [builtinNames, List.mem_append]
  right
  unfold PipelineVariable.glslName? at h
  split at h <;> simp_all

end Glsl
end Shading
