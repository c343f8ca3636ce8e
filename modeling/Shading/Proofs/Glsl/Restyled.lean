import Shading.Glsl.Source
import Shading.Proofs.Glsl.Legible

/-! A program written under other options. Expressions are written the same; declarations may get
other precisions, and nothing else of them changes. Whatever is written can be read however it is
laid out. -/
namespace Shading.Glsl

open Scan (kind? isWord)

/-- The same target under other options. -/
def Target.restyled (t : Target) (options : CompileOptions) : Target :=
    { t with program := { t.program with options } }

/-- The target under its own options and under other ones. Problems are found at nodes of the
program. -/
def Target.manner (t : Target) (options : CompileOptions) : Manner where
  before := t.program.options
  after := options
  places span := ∃ e ∈ t.program.nodes, span = e.span

variable {t : Target} {o' : CompileOptions} {c : Context}

/-! ### Expressions -/

lemma expression_restyled {e : Expr} {allowed : Precedence} :
    expression (t.restyled o') allowed e = expression t allowed e := by
  induction e using Expr.of_parts generalizing allowed with
  | _ e ih =>
  have hlist (es : List Expr) (hes : ∀ x ∈ es, x ∈ e.parts) (allowed : Precedence) :
      expressions (t.restyled o') allowed es = expressions t allowed es := by
    rw [expressions_eq, expressions_eq]
    exact List.map_congr_left fun x hx => ih x (hes x hx)
  cases e with
  | literal | poison => rw [expression, expression]
  | variable_ => rw [expression, expression]; rfl
  | unary | step | swizzle => rw [expression, expression, ih _ List.mem_cons_self]
  | field a i anonymous ty span => rw [expression, expression, ih a List.mem_cons_self]
  | binary op a b ty span | index a b ty span =>
    rw [expression, expression, ih a List.mem_cons_self, ih b (List.mem_cons_of_mem _ List.mem_cons_self)]
  | conditional a b d ty span =>
    rw [expression, expression, ih a List.mem_cons_self, ih b (List.mem_cons_of_mem _ List.mem_cons_self),
      ih d (List.mem_cons_of_mem _ (List.mem_cons_of_mem _ List.mem_cons_self))]
  | construct kind as ty span =>
    have has := hlist as fun _ hx => hx
    rw [expression, expression, has, has]
  | call f as ty span =>
    have has := hlist as fun _ hx => hx
    rw [expression, expression, has, has]
    rfl

/-! ### What has been checked -/

/-- An expression of the program that has been checked. -/
structure Checked (t : Target) (c : Context) (e : Expr) : Prop where
  wellTyped : e.WellTyped t.program.declared
  regular : e.Regular c
  nodes : ∀ x ∈ e.nodes, x ∈ t.program.nodes

/-- A declarator with a variable of the program. -/
def CheckedDeclarator (t : Target) (c : Context) (d : Nat × Option Expr) : Prop :=
  (∃ v, t.program.variables[d.1]? = some v) ∧ ∀ e ∈ d.2, Checked t c e

/-- Every expression of the statement has been checked, and every variable that it declares
exists. -/
def CheckedStmt (t : Target) (c : Context) (s : Stmt) : Prop :=
  ∀ x ∈ s.nodes, (∀ e ∈ x.exprs, Checked t c e) ∧ ∀ n init span, x = .declare n init span →
    ∃ v, t.program.variables[n]? = some v

variable {ds : List (Nat × Option Expr)}

/-- What a statement declares it declares itself, or a statement right inside it does. -/
lemma exists_declare {s : Stmt} (hds : s.declarators? = some ds) {d : Nat × Option Expr} (hd : d ∈ ds) :
    ∃ span, .declare d.1 d.2 span = s ∨ .declare d.1 d.2 span ∈ s.parts := by
  unfold Stmt.declarators? at hds
  split at hds
  · rename_i n init span
    cases hds
    rw [List.mem_singleton.mp hd]
    exact ⟨span, .inl rfl⟩
  · rename_i body _
    suffices hbody : ∃ span, Stmt.declare d.1 d.2 span ∈ body from hbody.imp fun _ => .inr
    induction body generalizing ds with
    | nil =>
      cases hds
      cases hd
    | cons x body ih =>
      simp only [List.mapM_cons, Option.bind_eq_bind, Option.pure_def, Option.bind_eq_some_iff,
        Option.some.injEq] at hds
      obtain ⟨first, hfirst, ds, hds, rfl⟩ := hds
      obtain rfl | hd := List.mem_cons.mp hd
      · cases x with
        | declare n init span =>
          cases hfirst
          exact ⟨span, List.mem_cons_self⟩
        | _ => cases hfirst
      · exact (ih hd hds).imp fun _ => List.mem_cons_of_mem _
  · cases hds

namespace CheckedStmt

variable {s x : Stmt}

lemma exprs (h : CheckedStmt t c s) : ∀ e ∈ s.exprs, Checked t c e := (h s (Stmt.mem_nodes.mpr (.inl rfl))).1

lemma part (h : CheckedStmt t c s) (hx : x ∈ s.parts) : CheckedStmt t c x := fun y hy =>
    h y (Stmt.mem_nodes.mpr (.inr ⟨x, hx, hy⟩))

lemma declare {n : Nat} {init : Option Expr} {span : Span} (h : CheckedStmt t c (.declare n init span)) :
    CheckedDeclarator t c (n, init) := by
  obtain ⟨hexprs, hdeclared⟩ := h _ (Stmt.mem_nodes.mpr (.inl rfl))
  exact ⟨hdeclared n init span rfl, fun e he => hexprs e (Option.mem_toList.mpr he)⟩

lemma declarators? (h : CheckedStmt t c s) (hds : s.declarators? = some ds) :
    ∀ d ∈ ds, CheckedDeclarator t c d := by
  intro d hd
  obtain ⟨span, rfl | hx⟩ := exists_declare hds hd
  · exact h.declare
  · exact (h.part hx).declare

end CheckedStmt

/-! ### Precisions -/

/-- The word for the precision of a scalar, if the options ask for one. -/
def precisionWord (options : CompileOptions) (s : Scalar) : List String :=
  if !options.precisionQualifiers || s.kind = .boolean then []
  else if s.isRelaxed && !options.forceHighPrecision then ["mediump"]
  else ["highp"]

lemma precision_eq {ty : Ty} : t.precision ty =
    (ty.leaf.scalar?.toList.flatMap (precisionWord t.program.options)).flatMap word := by
  unfold Target.precision precisionWord
  cases ty.leaf.scalar? with
  | none => rfl
  | some s =>
    dsimp only [Option.toList_some]
    rw [List.flatMap_singleton]
    repeat' split
    all_goals rfl

lemma mem_precisionWord {options : CompileOptions} {s : Scalar} {w : String}
    (h : w ∈ precisionWord options s) : w = "mediump" ∨ w = "highp" := by
  unfold precisionWord at h
  repeat' split at h
  · cases h
  · exact .inl (List.mem_singleton.mp h)
  · exact .inr (List.mem_singleton.mp h)

/-- The word for a precision as a token. -/
def qualifierToken (w : String) : TokenKind × List Char := (.reserved, w.toList)

lemma alike_precisionWord {o : CompileOptions} {s : Scalar} :
    Alike o o' ((precisionWord o s).map qualifierToken) ((precisionWord o' s).map qualifierToken) := by
  have hplain (options : CompileOptions) : ((precisionWord options s).map qualifierToken).filter isPlain = [] := by
    refine List.filter_eq_nil_iff.mpr (List.forall_mem_map.mpr fun w hw => ?_)
    obtain rfl | rfl := mem_precisionWord hw <;> decide
  refine ⟨by rw [hplain, hplain], fun hqualifiers hforce => ?_, fun hqualifiers => ?_⟩
  · unfold precisionWord
    rw [hqualifiers, hforce]
  · have hnone : precisionWord o' s = [] := by simp [precisionWord, hqualifiers]
    rw [hnone]
    exact List.nil_sublist _

lemma spells_precisionWord {options : CompileOptions} {s : Scalar} {a : Option String} (ha : Free a) :
    ∃ z, Free z ∧ Spells a ((precisionWord options s).flatMap word)
    ((precisionWord options s).map qualifierToken) z := by
  have hword {w : String} (hw : kind? w = some .reserved) : Spells a (word w) [qualifierToken w] none :=
    .lexeme hw rfl ha.head (.firm rfl .nil)
  have hkinds : kind? "mediump" = some .reserved ∧ kind? "highp" = some .reserved := by decide +kernel
  unfold precisionWord
  split
  · exact ⟨a, ha, .nil⟩
  · split
    · exact ⟨none, free_none, hword hkinds.1⟩
    · exact ⟨none, free_none, hword hkinds.2⟩

lemma styled_precision {ty : Ty} : Styled (t.manner o') Free (t.precision ty)
    ((t.restyled o').precision ty) Free := by
  have hreports (words : List String) : (words.flatMap word).filterMap Piece.report? = [] := by
    induction words with
    | nil => rfl
    | cons w words ih => exact ih
  refine ⟨by rw [precision_eq, precision_eq, hreports, hreports],
    by rw [precision_eq, hreports]; exact List.forall_mem_nil _, fun a a' ha ha' => ?_⟩
  rw [precision_eq, precision_eq]
  cases ty.leaf.scalar? with
  | none => exact ⟨a, a', [], [], ha, ha', .nil, .nil, .refl []⟩
  | some s =>
    rw [Option.toList_some, List.flatMap_singleton, List.flatMap_singleton]
    obtain ⟨z, hz, hspells⟩ := @spells_precisionWord t.program.options s a ha
    obtain ⟨z', hz', hspells'⟩ := @spells_precisionWord o' s a' ha'
    exact ⟨z, z', _, _, hz, hz', hspells, hspells', alike_precisionWord⟩

/-! ### Modifiers -/

variable {o : Manner}

lemma legible_word {w : String} (h : isWord w.toList = true) : Legible o Free (word w) Free :=
  .cons (.word h fun _ => Free.opens) .blank

lemma legible_words {flags : Qualifiers} {names : List (Qualifier × String)}
    (h : ∀ n ∈ names, isWord n.2.toList = true) :
    Legible o Free (Target.words flags names) Free := by
  refine .flatMap fun n hn => ?_
  dsimp only
  split
  · exact legible_word (h n hn)
  · exact .nil fun _ => id

lemma legible_layout {l : LayoutSpec} : Legible o Free (t.layout l) Free := by
  have hflags : ∀ f : LayoutFlag, isWord f.keyword.toList = true := by intro f; cases f <;> decide
  have hkeys : ∀ k : LayoutKey, isWord k.keyword.toList = true := by intro k; cases k <;> decide
  have hflag (f : LayoutFlag) : Legible o Free [.lexeme f.keyword] Shuts :=
    (Styled.word (hflags f) fun _ => Free.opens).after fun _ => Dotted.shuts
  have hnumber (k : LayoutKey) (n : Nat) : Legible o Free (Target.layoutNumber k n) Shuts :=
    .cons (.word (hkeys k) fun _ => Free.opens)
      (.cons .gap (.cons (.mark .eq (by decide) fun _ => Dotted.shuts) (.cons .gap (.number n fun _ => id))))
  unfold Target.layout
  dsimp only
  split
  · exact .nil fun _ => id
  · refine .append (.cons (.word rfl fun _ => Free.opens)
      (.applied (.separated (List.forall₂_same.mpr ?_)))) .blank
    refine List.forall_mem_append.mpr ⟨?_, ?_⟩
    · exact List.forall_mem_map.mpr fun f _ => hflag f
    · exact List.forall_mem_map.mpr fun k _ => hnumber k.1 k.2

lemma legible_modifiers {m : Modifiers} : Legible o Free (t.modifiers m) Free :=
  .append (.append legible_layout (legible_words (by decide))) (legible_words (by decide))

lemma legible_parameterModifiers {m : Modifiers} : Legible o Free (Target.parameterModifiers m) Free := by
  refine .append (legible_words (by decide)) ?_
  repeat' split
  · exact legible_word rfl
  · exact legible_word rfl
  · exact legible_word rfl
  · exact .nil fun _ => id

/-! ### Labels, braces and bodies -/

section

variable {A : Option String → Prop} {level : Nat} {s : Stmt}

lemma legible_integer {unsigned : Bool} {i : Int} : Legible o Free (integer unsigned i) Shuts := by
  unfold integer
  dsimp only
  split
  · have hdigits := Number.isDigits_toString (Literal.word i).toNat
    have htext : (s!"{(Literal.word i).toNat}u").toList =
      (toString (Literal.word i).toNat).toList ++ ['u'] := by simp [Number.toString_text]
    have hkind := Scan.kind?_of_isDigits_u htext hdigits
    exact .lexeme hkind rfl (fun _ ha => ha.head) (shuts_of_integer hkind)
  · rw [signed_toString]
    split
    · exact .cons (.lexeme (kind?_markText .minus) rfl (fun _ ha => ha.head)
        (@opens_mark .minus (by decide))) (.number _ fun _ => id)
    · exact .number _ fun _ => Free.opens

lemma legible_caseLabel {unsigned : Bool} {value : Option Int} :
    Legible o Free (caseLabel unsigned value) Free := by
  have hcolon : Legible o Shuts [.lexeme ":"] Free := .final .colon rfl fun _ => id
  cases value with
  | none => exact .cons ((Styled.word rfl fun _ => Free.opens).after fun _ => Dotted.shuts) hcolon
  | some v => exact .append (.append (legible_word rfl) legible_integer) hcolon

lemma Styled.braced {ps qs : List Piece} (h : Styled o Free ps qs Free) :
    Styled o Dotted (braced level ps) (braced level qs) Free :=
  .append (.cons (.final .lbrace rfl fun _ => Dotted.shuts) h)
    (.cons (.room rfl) (.cons (.room rfl) (.final .rbrace rfl fun _ => Free.shuts)))

/-- What may stand before a statement: a word too if the statement has braces. -/
def bodyStart (s : Stmt) : Option String → Prop := if isBraced s then Dotted else Free

lemma bodyStart_of_free {a : Option String} (h : Free a) : bodyStart s a := by
  unfold bodyStart
  split
  · exact h.dotted
  · exact h

lemma legible_beforeBody : Legible o Dotted (beforeBody level s) (bodyStart s) := by
  unfold beforeBody bodyStart
  split
  · exact .gap
  · exact .cons (.firm rfl free_none) (.room rfl)

lemma legible_afterBody : Legible o Free (afterBody level s) Free := by
  unfold afterBody
  split
  · exact .gap
  · exact .cons (.room rfl) (.room rfl)

lemma legible_beforeElse : Legible o Dotted (beforeElse level s) (bodyStart s) := by
  unfold beforeElse
  split
  · exact .blank
  · exact legible_beforeBody

lemma legible_lineStart : Legible o A [.newline, .indent level] A := .cons (.room rfl) (.room rfl)

lemma Styled.semicolon : Legible o Shuts [.lexeme ";"] Free := .final .semicolon rfl fun _ => id

end

/-! ### Types and variables -/

section Accepted

variable (hp : t.program.Regular c)

include hp

lemma legible_variableName (n : Nat) : Legible o Free [.lexeme (t.program.variableAt n).name] Dotted := by
  by_cases hempty : (t.program.variableAt n).name = ""
  · rw [hempty]
    exact Styled.empty.after fun _ => Free.dotted
  · refine .name ?_ fun _ => Free.opens
    rw [Program.variableAt, Array.getD_eq_getD_getElem?] at hempty ⊢
    cases hv : t.program.variables[n]? with
    | none =>
      rw [hv] at hempty
      exact absurd rfl hempty
    | some v =>
      rw [hv] at hempty
      rw [hp.variables] at hv
      exact (hp.context.variable_ hv).name hempty hp.clean

lemma legible_baseType {ty : Ty} (h : ty.Known c) : Legible o Free [baseType ty] Dotted :=
  .name (isName_leaf hp.clean h) fun _ => Free.opens

variable (hs : t.program.Sound)

include hs

lemma styled_expression {e : Expr} {allowed : Precedence} (h : Checked t c e) :
    Styled (t.manner o') Opens (expression t allowed e) (expression (t.restyled o') allowed e) Shuts := by
  have hshown : Shown (t.manner o') t e := shown hp hs h.wellTyped h.regular fun x hx => ⟨x, h.nodes x hx, rfl⟩
  rw [expression_restyled]
  exact hshown.whole allowed

/-! ### Declarations -/

lemma styled_declarator {d : Nat × Option Expr} (h : ∀ e ∈ d.2, Checked t c e) :
    Styled (t.manner o') Free (declarator t d) (declarator (t.restyled o') d) Shuts := by
  have hname : Legible (t.manner o') Free (.lexeme (t.program.variableAt d.1).name ::
    dimensions (t.program.variableAt d.1).ty) Dotted :=
    .cons (legible_variableName hp d.1) (legible_dimensions _)
  refine .append hname ?_
  cases hinit : d.2 with
  | none => exact .nil fun _ => Dotted.shuts
  | some e =>
    have hequals : Legible (t.manner o') Dotted [.gap, .lexeme "=", .gap] Opens :=
      .cons .gap (.cons (.mark .eq (by decide) fun _ => Dotted.shuts) .gap)
    exact .append hequals (styled_expression hp hs (h e hinit))

lemma styled_declaration (h : ∀ d ∈ ds, CheckedDeclarator t c d) :
    Styled (t.manner o') Free (declaration t ds) (declaration (t.restyled o') ds) Shuts := by
  cases ds with
  | nil => exact .nil fun _ => Free.shuts
  | cons d ds =>
    obtain ⟨v, hv⟩ := (h d List.mem_cons_self).1
    have hknown : (t.program.variableAt d.1).ty.Known c := by
      rw [Program.variableAt, Array.getD_eq_getD_getElem?, hv, Option.getD_some]
      rw [hp.variables] at hv
      exact (hp.context.variable_ hv).known
    have hbase : Legible (t.manner o') Free [baseType (t.program.variableAt d.1).ty, .blank] Free :=
      .cons (legible_baseType hp hknown) .blank
    refine .append (.append (.append legible_modifiers styled_precision) hbase) (.separated ?_)
    rw [List.forall₂_map_left_iff, List.forall₂_map_right_iff, List.forall₂_same]
    exact fun x hx => styled_declarator hp hs (h x hx).2

/-! ### Heads of statements -/

lemma styled_loose {e : Expr} (h : Checked t c e) :
    Styled (t.manner o') Free (loose t e) (loose (t.restyled o') e) Shuts :=
  (styled_expression hp hs h).before fun _ => Free.opens

lemma styled_condition {e : Option Expr} (h : ∀ x ∈ e, Checked t c x) :
    Styled (t.manner o') Dotted (condition t e) (condition (t.restyled o') e) Free := by
  refine .cons .gap (.applied ?_)
  cases e with
  | none => exact .nil fun _ => Free.shuts
  | some e => exact styled_loose hp hs (h e rfl)

lemma styled_forInit {init : Option Stmt} (h : ∀ s ∈ init, CheckedStmt t c s) :
    Styled (t.manner o') Free (forInit t init) (forInit (t.restyled o') init) Shuts := by
  cases init with
  | none => exact .nil fun _ => Free.shuts
  | some s =>
    have hs' := h s rfl
    unfold forInit
    dsimp only
    split
    · exact styled_declaration hp hs (hs'.declarators? ‹_›)
    · exact styled_loose hp hs (hs'.exprs _ List.mem_cons_self)
    · exact .nil fun _ => Free.shuts

lemma styled_forPart {e : Option Expr} (h : ∀ x ∈ e, Checked t c x) :
    Styled (t.manner o') Free (forPart t e) (forPart (t.restyled o') e) Shuts := by
  cases e with
  | none => exact .nil fun _ => Free.shuts
  | some e => exact .cons .gap (styled_loose hp hs (h e rfl))

lemma styled_loopHead {kind : LoopKind} {init : Option Stmt} {cond step : Option Expr}
    (hinit : ∀ s ∈ init, CheckedStmt t c s)
    (hcond : ∀ e ∈ cond, Checked t c e) (hstep : ∀ e ∈ step, Checked t c e) :
    Styled (t.manner o') Free (loopHead t kind init cond step)
    (loopHead (t.restyled o') kind init cond step) Dotted := by
  cases kind with
  | for_ =>
    have hhead : Legible (t.manner o') Free [.lexeme "for", .gap] Dotted :=
      .cons (.word rfl fun _ => Free.opens) .gap
    refine Styled.after (.append hhead (.applied ?_)) fun _ => Free.dotted
    exact .append (.append (.append (.append (styled_forInit hp hs hinit) .semicolon)
      (styled_forPart hp hs hcond)) .semicolon)
      (styled_forPart hp hs hstep)
  | while_ =>
    exact (Styled.cons (.word rfl fun _ => Free.opens) (styled_condition hp hs hcond)).after fun _ => Free.dotted
  | doWhile => exact .word rfl fun _ => Free.opens

lemma styled_loopTail {level : Nat} {kind : LoopKind} {cond : Option Expr} {body : Stmt}
    (hcond : ∀ e ∈ cond, Checked t c e) :
    Styled (t.manner o') Free (loopTail t level kind cond body)
    (loopTail (t.restyled o') level kind cond body) Free := by
  cases kind with
  | doWhile =>
    refine .append (.append legible_afterBody ?_) (Styled.semicolon.before fun _ => Free.shuts)
    exact .cons (.word rfl fun _ => Free.opens) (styled_condition hp hs hcond)
  | _ => exact .nil fun _ => id

end Accepted

/-! ### Statements -/

mutual
lemma styled_statement (hp : t.program.Regular c) (hs : t.program.Sound) (s : Stmt)
    (h : CheckedStmt t c s) (level : Nat) :
    Styled (t.manner o') (bodyStart s) (statement t level s) (statement (t.restyled o') level s) Free := by
  have hword (w : String) (hw : isWord w.toList = true) :
    Legible (t.manner o') Free [.lexeme w] Dotted := .word hw fun _ => Free.opens
  cases s with
  | block braced body span =>
    have hbody := styled_lines hp hs body fun x hx => h.part hx
    cases braced with
    | true =>
      rw [statement, statement]
      exact (hbody _).braced
    | false =>
      rw [statement, statement]
      split
      · exact .append (styled_declaration hp hs (h.declarators? ‹_›)) .semicolon
      · exact hbody _
  | if_ e a b span =>
    have he : Styled (t.manner o') Dotted (condition t (some e)) (condition (t.restyled o') (some e)) Free :=
      styled_condition hp hs fun x hx => h.exprs x (by simp_all [Stmt.exprs])
    have ha := styled_statement hp hs a (h.part List.mem_cons_self) (bodyLevel level a)
    have hbefore : Legible (t.manner o') Free (beforeBody level a) (bodyStart a) :=
      legible_beforeBody.before fun _ => Free.dotted
    have hthen := Styled.append (.append (.cons (hword "if" rfl) he) hbefore) ha
    cases b with
    | none =>
      rw [statement, statement]
      exact hthen
    | some b =>
      have hb := styled_statement hp hs b (h.part (by simp [Stmt.parts])) (elseLevel level b)
      rw [statement, statement]
      exact .append (.append (.append hthen legible_afterBody) (.cons (hword _ rfl) legible_beforeElse)) hb
  | loop kind init cond step body span =>
    have hinit : ∀ x ∈ init, CheckedStmt t c x := fun x hx => h.part (by simp_all [Stmt.parts])
    have hcond : ∀ e ∈ cond, Checked t c e := fun e he => h.exprs e (by simp_all [Stmt.exprs])
    have hstep : ∀ e ∈ step, Checked t c e := fun e he => h.exprs e (by simp_all [Stmt.exprs])
    have hbody := styled_statement hp hs body (h.part (by simp [Stmt.parts])) (bodyLevel level body)
    rw [statement, statement]
    exact .append (.append (.append (styled_loopHead hp hs hinit hcond hstep) legible_beforeBody)
      hbody) (styled_loopTail hp hs hcond)
  | switch e cases span =>
    have he : Styled (t.manner o') Dotted (condition t (some e)) (condition (t.restyled o') (some e)) Free :=
      styled_condition hp hs fun x hx => h.exprs x (by simp_all [Stmt.exprs])
    have hcases := styled_switchCases hp hs cases (fun x hx => h.part hx) (isUnsigned e.ty) (level + 1)
    rw [statement, statement]
    exact .append (.cons (hword _ rfl) he) (.cons .gap (hcases.braced.before fun _ => Free.dotted))
  | return_ e span =>
    cases e with
    | none =>
      rw [statement, statement]
      exact .cons (hword _ rfl) (.final .semicolon rfl fun _ => Dotted.shuts)
    | some e =>
      rw [statement, statement]
      exact .append (.append (legible_word rfl) (styled_loose hp hs (h.exprs e (by simp [Stmt.exprs])))) .semicolon
  | break_ span | continue_ span | discard span =>
    rw [statement, statement]
    exact .cons (hword _ rfl) (.final .semicolon rfl fun _ => Dotted.shuts)
  | declare n init span =>
    rw [statement, statement]
    exact .append (styled_declaration hp hs (List.forall_mem_singleton.mpr h.declare)) .semicolon
  | expr e span =>
    rw [statement, statement]
    exact .append (styled_loose hp hs (h.exprs e List.mem_cons_self)) .semicolon
  | empty span =>
    rw [statement, statement]
    exact .final .semicolon rfl fun _ => Free.shuts
lemma styled_lines (hp : t.program.Regular c) (hs : t.program.Sound) (ss : List Stmt)
    (h : ∀ s ∈ ss, CheckedStmt t c s) (level : Nat) :
    Styled (t.manner o') Free (lines t level ss) (lines (t.restyled o') level ss) Free := by
  cases ss with
  | nil =>
    rw [lines, lines]
    exact .nil fun _ => id
  | cons s ss =>
    obtain ⟨hs', hss⟩ := List.forall_mem_cons.mp h
    rw [lines, lines]
    have hfirst := (styled_statement hp hs s hs' level).before fun _ => bodyStart_of_free
    exact .append (.append legible_lineStart hfirst) (styled_lines hp hs ss hss level)
lemma styled_switchCases (hp : t.program.Regular c) (hs : t.program.Sound) (cases : List (SwitchCase Stmt))
    (h : ∀ s ∈ cases.flatMap (·.body), CheckedStmt t c s) (unsigned : Bool) (level : Nat) :
    Styled (t.manner o') Free (switchCases t unsigned level cases)
    (switchCases (t.restyled o') unsigned level cases) Free := by
  cases cases with
  | nil =>
    rw [switchCases, switchCases]
    exact .nil fun _ => id
  | cons first rest =>
    obtain ⟨value, body, span⟩ := first
    rw [List.flatMap_cons, List.forall_mem_append] at h
    rw [switchCases, switchCases]
    exact .append (.append (.append legible_lineStart legible_caseLabel) (styled_lines hp hs body h.1 (level + 1)))
      (styled_switchCases hp hs rest h.2 unsigned level)
end

end Shading.Glsl
