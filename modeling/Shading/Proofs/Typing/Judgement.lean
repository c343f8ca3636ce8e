import Mathlib
import Shading.Check.Access
import Shading.Check.Call
import Shading.Program

/-! The typing rules of checked expressions. A rule speaks of one node: of its own type, the types
of its parts, and what is declared under the numbers it names. A tree is well typed if every node in
it keeps its rule. -/
namespace Shading

namespace Ty

mutual
/-- Types that values can have. Matrices are made of floating-point numbers, and nothing stands for
a missing type. -/
def isProper : Ty → Bool
  | .void | .scalar _ | .vector .. => true
  | .matrix s _ _ => s.isFloat
  | .array e _ => e.isProper
  | .struct _ _ fs _ => areProper fs
  | .generic _ | .poison | .invalid => false
def areProper : List (Field Ty) → Bool
  | [] => true
  | ⟨_, ty, _, _⟩ :: fs => ty.isProper && areProper fs
end

lemma areProper_iff {fs : List (Field Ty)} : areProper fs = true ↔ ∀ f ∈ fs, f.ty.isProper = true := by
  induction fs with
  | nil => simp [areProper]
  | cons f fs ih => simp [areProper, ih]

lemma isPoison_of_isProper {ty : Ty} (h : ty.isProper = true) : ty.isPoison = false := by
  cases ty <;> simp_all [isProper, isPoison]

lemma isGeneric_of_isProper {ty : Ty} (h : ty.isProper = true) : ty.isGeneric = false := by
  cases ty <;> simp_all [isProper, isGeneric]

end Ty

/-- Whether a literal is a value of a scalar type of this kind. -/
def Literal.isOf : Literal → ScalarKind → Bool
  | .bool _, .boolean => true
  | .int _, .signed | .int _, .unsigned => true
  | .float _, .float => true
  | _, _ => false

/-- What expressions refer to by number. -/
structure Declared where
  «variables» : Array Variable
  functions : Arena Function
  /-- The functions that may be called. -/
  callable : Nat → Prop

/-- While a program is being read, a call is kept in mind until the end. -/
def Context.declared (c : Context) : Declared where
  «variables» := c.variables
  functions := c.functions
  callable f := c.functions.isBase f = true ∨ ∃ span, (f, span) ∈ c.calls

/-- The types of the parameters and of the result, where generic types stand for one of their
choices. -/
def Function.Takes (g : Function) (parameters : List Ty) (result : Ty) : Prop :=
  ∃ choice, g.parameterTypes.mapM (Overload.bindGeneric choice) = some parameters ∧
    Overload.bindGeneric choice g.returns = some result

/-- The arguments from which a constructor of a kind makes a value of a type. -/
def ConstructorKind.Takes (arguments : List Ty) (ty : Ty) : ConstructorKind → Prop
  | .array => ∃ element, ty = .array element (some arguments.length) ∧ ∀ a ∈ arguments, a = element
  | .struct => ∃ id name fields, ty = .struct id name fields false ∧ arguments = fields.map (·.ty)
  | .compound => (ty.isVector ∨ ty.isMatrix) ∧
      (∀ a ∈ arguments, (a.isScalar ∨ a.isVector) ∧ a.component = ty.component) ∧
      (arguments.map Ty.slots).sum = ty.slots
  | .splat => ty.isVector ∧ arguments = [ty.component]
  | .diagonal => ty.isMatrix ∧ arguments = [ty.component]
  | .resize => ty.isMatrix ∧ ∃ a, arguments = [a] ∧ a.isMatrix ∧ a.component = ty.component
  | .scalarCast => ty.isScalar ∧ ∃ a, arguments = [a] ∧ a.isScalar
  | .compoundCast => (ty.isVector ∨ ty.isMatrix) ∧
      ∃ a, arguments = [a] ∧ a.withComponent? ty.component = some ty

namespace Expr

/-- The rule of a node. -/
def Typed (d : Declared) : Expr → Prop
  | .literal v ty _ => ∃ s, ty = .scalar s ∧ v.isOf s.kind
  | .unary op e ty _ => ty = e.ty ∧ Check.takesUnary op e.ty
  | .step op e ty _ => op.isStep ∧ ty = e.ty ∧ Check.takesUnary op e.ty
  | .binary op l r ty _ => op.operands? l.ty r.ty = some ⟨l.ty, r.ty, ty⟩ ∧ (op.isAssignment → l.ty = ty)
  | .conditional c t f ty _ => c.ty = .bool ∧ t.ty = ty ∧ f.ty = ty
  | .variable_ n ty _ => ∃ v, d.variables[n]? = some v ∧ ty = v.ty
  | .index b i ty _ => i.ty.isScalar ∧ i.ty.isInteger ∧ ∃ count, Check.elements? b.ty = some (ty, count) ∧
      ∀ v n, i.literal? = some v → count = some n → ∃ k : Nat, v = .int k ∧ k < n
  | .field b i _ ty _ => ∃ fields f, b.ty.fields? = some fields ∧ fields[i]? = some f ∧ ty = f.ty
  | .swizzle b cs ty _ => (b.ty.isScalar ∨ b.ty.isVector) ∧ 1 ≤ cs.length ∧ cs.length ≤ 4 ∧
      (∀ c ∈ cs, c.val < b.ty.rows) ∧ Ty.vector? b.ty.component cs.length = some ty
  | .construct kind as ty _ => as ≠ [] ∧ kind.Takes (as.map Expr.ty) ty
  | .call f as ty _ => d.callable f ∧ ∃ g, d.functions.get? f = some g ∧ g.Takes (as.map Expr.ty) ty
  | .poison .. => False

/-- The expressions right below a node. -/
def parts : Expr → List Expr
  | .literal .. | .variable_ .. | .poison .. => []
  | .unary _ e _ _ | .step _ e _ _ | .field e _ _ _ _ | .swizzle e _ _ _ => [e]
  | .binary _ l r _ _ => [l, r]
  | .conditional c t f _ _ => [c, t, f]
  | .index b i _ _ => [b, i]
  | .construct _ as _ _ | .call _ as _ _ => as

mutual
/-- The nodes of a tree, the root among them. -/
def nodes : Expr → List Expr
  | .literal v ty span => [.literal v ty span]
  | .variable_ n ty span => [.variable_ n ty span]
  | .poison ty span => [.poison ty span]
  | .unary op e ty span => .unary op e ty span :: e.nodes
  | .step op e ty span => .step op e ty span :: e.nodes
  | .field e i a ty span => .field e i a ty span :: e.nodes
  | .swizzle e cs ty span => .swizzle e cs ty span :: e.nodes
  | .binary op l r ty span => .binary op l r ty span :: (l.nodes ++ r.nodes)
  | .conditional c t f ty span => .conditional c t f ty span :: (c.nodes ++ (t.nodes ++ f.nodes))
  | .index b i ty span => .index b i ty span :: (b.nodes ++ i.nodes)
  | .construct kind as ty span => .construct kind as ty span :: nodesOf as
  | .call f as ty span => .call f as ty span :: nodesOf as
def nodesOf : List Expr → List Expr
  | [] => []
  | e :: es => e.nodes ++ nodesOf es
end

lemma mem_nodesOf {x : Expr} {es : List Expr} : x ∈ nodesOf es ↔ ∃ e ∈ es, x ∈ e.nodes := by
  induction es with
  | nil => simp [nodesOf]
  | cons e es ih => simp [nodesOf, ih]

lemma mem_nodes {x e : Expr} : x ∈ e.nodes ↔ x = e ∨ ∃ p ∈ e.parts, x ∈ p.nodes := by
  cases e <;> simp [nodes, parts, mem_nodesOf]

/-- Something holds of all nodes if it holds of the root and of all nodes of the parts. -/
lemma forall_nodes {P : Expr → Prop} {e : Expr} : (∀ x ∈ e.nodes, P x) ↔ P e ∧
    ∀ p ∈ e.parts, ∀ x ∈ p.nodes, P x := by
  constructor
  · exact fun h => ⟨h e (mem_nodes.mpr (.inl rfl)), fun p hp x hx => h x (mem_nodes.mpr (.inr ⟨p, hp, hx⟩))⟩
  · rintro ⟨hroot, hparts⟩ x hx
    obtain rfl | ⟨p, hp, hx⟩ := mem_nodes.mp hx
    · exact hroot
    · exact hparts p hp x hx

/-- Every node of the tree has a proper type and keeps its rule. -/
def WellTyped (d : Declared) (e : Expr) : Prop := ∀ x ∈ e.nodes, x.ty.isProper = true ∧ x.Typed d

lemma wellTyped_iff {d : Declared} {e : Expr} :
    e.WellTyped d ↔ e.ty.isProper = true ∧ e.Typed d ∧ ∀ p ∈ e.parts, p.WellTyped d :=
  forall_nodes.trans and_assoc

end Expr

namespace Stmt

/-- The expressions of a statement itself, without those of the statements inside it. -/
def exprs : Stmt → List Expr
  | .if_ c _ _ _ => [c]
  | .loop _ _ c step _ _ => c.toList ++ step.toList
  | .switch e _ _ | .expr e _ => [e]
  | .return_ e _ | .declare _ e _ => e.toList
  | .block .. | .break_ _ | .continue_ _ | .discard _ | .empty _ => []

/-- The statements right inside a statement. -/
def parts : Stmt → List Stmt
  | .block _ body _ => body
  | .if_ _ t f _ => t :: f.toList
  | .loop _ init _ _ body _ => init.toList ++ [body]
  | .switch _ cases _ => cases.flatMap (·.body)
  | _ => []

mutual
/-- The statements of a tree, the root among them. -/
def nodes : Stmt → List Stmt
  | .block b body span => .block b body span :: nodesOf body
  | .if_ c t (some f) span => .if_ c t (some f) span :: (t.nodes ++ f.nodes)
  | .if_ c t none span => .if_ c t none span :: t.nodes
  | .loop k (some init) c step body span => .loop k (some init) c step body span :: (init.nodes ++ body.nodes)
  | .loop k none c step body span => .loop k none c step body span :: body.nodes
  | .switch e cases span => .switch e cases span :: nodesOfCases cases
  | .return_ e span => [.return_ e span]
  | .break_ span => [.break_ span]
  | .continue_ span => [.continue_ span]
  | .discard span => [.discard span]
  | .declare n e span => [.declare n e span]
  | .expr e span => [.expr e span]
  | .empty span => [.empty span]
def nodesOf : List Stmt → List Stmt
  | [] => []
  | s :: ss => s.nodes ++ nodesOf ss
def nodesOfCases : List (SwitchCase Stmt) → List Stmt
  | [] => []
  | ⟨_, body, _⟩ :: cases => nodesOf body ++ nodesOfCases cases
end

lemma mem_nodesOf {x : Stmt} {ss : List Stmt} : x ∈ nodesOf ss ↔ ∃ s ∈ ss, x ∈ s.nodes := by
  induction ss with
  | nil => simp [nodesOf]
  | cons s ss ih => simp [nodesOf, ih]

lemma mem_nodesOfCases {x : Stmt} {cases : List (SwitchCase Stmt)} :
    x ∈ nodesOfCases cases ↔ ∃ s ∈ cases.flatMap (·.body), x ∈ s.nodes := by
  induction cases with
  | nil => simp [nodesOfCases]
  | cons case cases ih => simp [nodesOfCases, ih, mem_nodesOf, or_and_right, exists_or]

lemma mem_nodes {x s : Stmt} : x ∈ s.nodes ↔ x = s ∨ ∃ p ∈ s.parts, x ∈ p.nodes := by
  cases s with
  | if_ c t f span => cases f <;> simp [nodes, parts]
  | loop k init c step body span => cases init <;> simp [nodes, parts]
  | switch e cases span => rw [nodes, List.mem_cons, mem_nodesOfCases, parts]
  | _ => simp [nodes, parts, mem_nodesOf]

mutual
/-- Induction over a statement: what holds of a statement if it holds of the statements right inside
it holds of all. -/
lemma of_parts {P : Stmt → Prop} (h : ∀ s, (∀ x ∈ s.parts, P x) → P s) (s : Stmt) : P s := by
  refine h s ?_
  cases s with
  | block braced body span => exact all_of_parts h body
  | if_ c a b span =>
    cases b with
    | none => exact List.forall_mem_singleton.mpr (of_parts h a)
    | some b => exact List.forall_mem_cons.mpr ⟨of_parts h a, List.forall_mem_singleton.mpr (of_parts h b)⟩
  | loop kind init c step body span =>
    cases init with
    | none => exact List.forall_mem_singleton.mpr (of_parts h body)
    | some init =>
      exact List.forall_mem_cons.mpr ⟨of_parts h init, List.forall_mem_singleton.mpr (of_parts h body)⟩
  | switch e cases span => exact cases_of_parts h cases
  | _ => exact List.forall_mem_nil _
lemma all_of_parts {P : Stmt → Prop} (h : ∀ s, (∀ x ∈ s.parts, P x) → P s) (ss : List Stmt) : ∀ x ∈ ss, P x := by
  cases ss with
  | nil => exact List.forall_mem_nil _
  | cons s ss => exact List.forall_mem_cons.mpr ⟨of_parts h s, all_of_parts h ss⟩
lemma cases_of_parts {P : Stmt → Prop} (h : ∀ s, (∀ x ∈ s.parts, P x) → P s) (cases : List (SwitchCase Stmt)) :
    ∀ x ∈ cases.flatMap (·.body), P x := by
  obtain _ | ⟨⟨value, body, span⟩, cases⟩ := cases
  · exact List.forall_mem_nil _
  · rw [List.flatMap_cons]
    exact List.forall_mem_append.mpr ⟨all_of_parts h body, cases_of_parts h cases⟩
end

/-- What may stand first in the header of a loop. -/
def isHeader : Stmt → Bool
  | .expr .. => true
  | s => s.declarators?.isSome

/-- A statement that declares one variable. -/
def IsDeclare (s : Stmt) : Prop := ∃ n e span, s = .declare n e span

lemma isSome_mapM {α β : Type} {f : α → Option β} {xs : List α} : (xs.mapM f).isSome = true ↔
    ∀ x ∈ xs, (f x).isSome = true := by
  induction xs with
  | nil => simp
  | cons x xs ih =>
    rw [List.forall_mem_cons, ← ih, List.mapM_cons]
    cases f x <;> cases xs.mapM f <;> simp

lemma isHeader_block {body : List Stmt} {span : Span} :
    (Stmt.block false body span).isHeader = true ↔ ∀ s ∈ body, s.IsDeclare := by
  refine isSome_mapM.trans (forall₂_congr fun s _ => ?_)
  cases s <;> simp [IsDeclare]

/-- The rule of a statement in a function with this result type. -/
def Typed (d : Declared) (returns : Ty) : Stmt → Prop
  | .if_ c _ _ _ => c.ty = .bool
  | .loop _ init c _ _ _ => (∀ i ∈ init, i.isHeader) ∧ ∀ e ∈ c, e.ty = .bool
  | .switch e _ _ => e.ty.isScalar ∧ e.ty.isInteger
  | .return_ e _ => (e = none ↔ returns.isVoid) ∧ ∀ v ∈ e, v.ty = returns
  | .declare n e _ => ∃ v, d.variables[n]? = some v ∧ ∀ i ∈ e, i.ty = v.ty
  | _ => True

lemma forall_nodes {P : Stmt → Prop} {s : Stmt} : (∀ x ∈ s.nodes, P x) ↔ P s ∧
    ∀ p ∈ s.parts, ∀ x ∈ p.nodes, P x := by
  constructor
  · exact fun h => ⟨h s (mem_nodes.mpr (.inl rfl)), fun p hp x hx => h x (mem_nodes.mpr (.inr ⟨p, hp, hx⟩))⟩
  · rintro ⟨hroot, hparts⟩ x hx
    obtain rfl | ⟨p, hp, hx⟩ := mem_nodes.mp hx
    · exact hroot
    · exact hparts p hp x hx

/-- Every statement of the tree keeps its rule, and so does every expression in it. -/
def WellTyped (d : Declared) (returns : Ty) (s : Stmt) : Prop :=
  ∀ x ∈ s.nodes, x.Typed d returns ∧ ∀ e ∈ x.exprs, e.WellTyped d

lemma wellTyped_iff {d : Declared} {returns : Ty} {s : Stmt} :
    s.WellTyped d returns ↔
      s.Typed d returns ∧ (∀ e ∈ s.exprs, e.WellTyped d) ∧ ∀ p ∈ s.parts, p.WellTyped d returns :=
  forall_nodes.trans and_assoc

end Stmt

namespace Element

/-- The expression nodes of a declaration. -/
def nodes : Element → List Expr
  | .global _ e _ => e.toList.flatMap Expr.nodes
  | .definition _ _ body _ => body.nodes.flatMap fun s => s.exprs.flatMap Expr.nodes
  | .struct .. | .block .. | .prototype .. => []

/-- What is declared exists. An initializer has the type of its variable; parameters have the types
that callers see, a body is well typed for the result of its function, and it cannot be left at its
end if there is a result. -/
def WellTyped (d : Declared) : Element → Prop
  | .struct ty _ => ty.isProper = true
  | .block n _ => ∃ v, d.variables[n]? = some v
  | .global n e _ => ∃ v, d.variables[n]? = some v ∧ ∀ i ∈ e, i.WellTyped d ∧ i.ty = v.ty
  | .prototype f _ => ∃ g, d.functions.get? f = some g
  | .definition f ps body _ => ∃ g, d.functions.get? f = some g ∧ g.intrinsic = none ∧
      List.Forall₂ (fun n ty => ∃ v, d.variables[n]? = some v ∧ v.ty = ty) ps g.parameterTypes ∧
      body.WellTyped d g.returns ∧ (g.returns.isVoid = true ∨ body.alwaysExits = true)

/-- The function that a declaration gives a body to. -/
def defined? : Element → Option Nat
  | .definition f _ _ _ => some f
  | .struct .. | .block .. | .global .. | .prototype .. => none

end Element

namespace Program

/-- In a whole program, the functions that are called have a body or are part of the language. -/
def declared (p : Program) : Declared where
  «variables» := p.variables
  functions := p.functions
  callable f := p.functions.isBase f = true ∨ f ∈ p.elements.filterMap Element.defined?

/-- The expression nodes of a program. -/
def nodes (p : Program) : List Expr := p.elements.flatMap Element.nodes

end Program

end Shading
