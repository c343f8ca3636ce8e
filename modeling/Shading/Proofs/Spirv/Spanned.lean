import Shading.Proofs.Memory.Alignment
import Shading.Proofs.Typing.Judgement
import Shading.Spirv.Builder

/-! Programs, and modules in the making, whose places have a property. -/
namespace Shading

variable {P : Span → Prop}

/-- No demand on a place. -/
abbrev Span.Anywhere : Span → Prop := fun _ => True

/-- The members of the type, and of the types it is made of, stand at places with the property. -/
class Ty.Spanned (P : Span → Prop) (ty : Ty) : Prop where
  fields : ∀ u ∈ ty.nested, ∀ fs, u.fields? = some fs → ∀ f ∈ fs, P f.span

namespace Ty

variable {ty u : Ty}

lemma spanned_flat (hparts : ty.parts = []) (hfields : ty.fields? = none) : ty.Spanned P := by
  refine ⟨fun u hu fs hfs => ?_⟩
  obtain rfl | ⟨x, hx, -⟩ := mem_nested.mp hu
  · rw [hfields] at hfs
    cases hfs
  · rw [hparts] at hx
    cases hx

lemma Spanned.nested (h : ty.Spanned P) (hu : u ∈ ty.parts) : u.Spanned P :=
  ⟨fun v hv => h.fields v (mem_nested.mpr (.inr ⟨u, hu, hv⟩))⟩

lemma Spanned.struct {id : Nat} {name : String} {fs : List (Field Ty)} {block : Bool}
    (h : (Ty.struct id name fs block).Spanned P) :
    ∀ f ∈ fs, P f.span ∧ f.ty.Spanned P :=
  fun f hf => ⟨h.fields _ self_mem_nested fs rfl f hf, h.nested (List.mem_map_of_mem hf)⟩

instance (ty : Ty) : ty.Spanned Span.Anywhere := ⟨fun _ _ _ _ _ _ => trivial⟩

instance : Ty.void.Spanned P := spanned_flat rfl rfl

instance (s : Scalar) : (Ty.scalar s).Spanned P := spanned_flat rfl rfl

instance (s : Scalar) (n : Dim) : (Ty.vector s n).Spanned P := spanned_flat rfl rfl

instance (ty : Ty) [h : ty.Spanned P] : ty.component.Spanned P := by
  unfold component
  split
  all_goals infer_instance

lemma spanned_column {column : Ty} (h : ty.column? = some column) : column.Spanned P := by
  unfold column? at h
  split at h
  · cases h
    infer_instance
  · cases h

lemma spanned_vector? {component : Ty} {n : Nat} [component.Spanned P]
    (h : vector? component n = some ty) : ty.Spanned P := by
  unfold vector? at h
  split at h
  · cases h
    assumption
  · split at h <;> cases h
    infer_instance

end Ty

/-- The nodes of the expression stand at places with the property, and so do the members of their
types. -/
class Expr.Spanned (P : Span → Prop) (e : Expr) : Prop where
  nodes : ∀ x ∈ e.nodes, P x.span ∧ x.ty.Spanned P

instance (e : Expr) : e.Spanned Span.Anywhere := ⟨fun _ _ => ⟨trivial, inferInstance⟩⟩

lemma Expr.Spanned.part {e x : Expr} (h : e.Spanned P) (hx : x ∈ e.parts) : x.Spanned P :=
  ⟨fun y hy => h.nodes y (mem_nodes.mpr (.inr ⟨x, hx, hy⟩))⟩

lemma Expr.Spanned.root {e : Expr} (h : e.Spanned P) : P e.span ∧ e.ty.Spanned P :=
    h.nodes e (mem_nodes.mpr (.inl rfl))

/-- The statements of the tree and their expressions stand at places with the property. -/
class Stmt.Spanned (P : Span → Prop) (s : Stmt) : Prop where
  nodes : ∀ x ∈ s.nodes, P x.span ∧ ∀ e ∈ x.exprs, e.Spanned P

instance (s : Stmt) : s.Spanned Span.Anywhere := ⟨fun _ _ => ⟨trivial, fun _ _ => inferInstance⟩⟩

lemma Stmt.Spanned.part {s x : Stmt} (h : s.Spanned P) (hx : x ∈ s.parts) : x.Spanned P :=
  ⟨fun y hy => h.nodes y (mem_nodes.mpr (.inr ⟨x, hx, hy⟩))⟩

lemma Stmt.Spanned.root {s : Stmt} (h : s.Spanned P) : P s.span ∧ ∀ e ∈ s.exprs, e.Spanned P :=
    h.nodes s (mem_nodes.mpr (.inl rfl))

def Element.Spanned (P : Span → Prop) : Element → Prop
  | .struct ty span => P span ∧ ty.Spanned P
  | .block _ span | .prototype _ span => P span
  | .global _ e span => P span ∧ ∀ i ∈ e, i.Spanned P
  | .definition _ _ body span => P span ∧ body.Spanned P

lemma Element.spanned_anywhere (e : Element) : e.Spanned Span.Anywhere := by
  cases e with
  | struct | definition => exact ⟨trivial, inferInstance⟩
  | block | prototype => trivial
  | global n e span => exact ⟨trivial, fun _ _ => inferInstance⟩

/-- The declarations of the program stand at places with the property, and so do the members of the
types of its variables and functions. -/
class Program.Spanned (P : Span → Prop) (p : Program) : Prop where
  «variables» : ∀ n, (p.variableAt n).ty.Spanned P
  functions : ∀ n, (p.functionAt n).returns.Spanned P ∧ ∀ q ∈ (p.functionAt n).parameters, q.ty.Spanned P
  elements : ∀ e ∈ p.elements, e.Spanned P

instance (p : Program) [h : p.Spanned P] (n : Nat) : (p.variableAt n).ty.Spanned P := h.variables n

instance (p : Program) : p.Spanned Span.Anywhere :=
  ⟨fun _ => inferInstance, fun _ => ⟨inferInstance, fun _ _ => inferInstance⟩, fun e _ => e.spanned_anywhere⟩

namespace Spirv

/-- The place for problems has the property, the problems found so far have been at such places, and
so will be those found in initial values that have been put off. -/
structure Builder.Spanned (P : Span → Prop) (b : Builder) : Prop where
  span : P b.span
  reports : ∀ r, .problemFound r ∈ b.journal → P r.span
  deferred : ∀ d ∈ b.deferred, d.2.Spanned P

lemma Builder.spanned_anywhere (b : Builder) : b.Spanned Span.Anywhere :=
    ⟨trivial, fun _ _ => trivial, fun _ _ => inferInstance⟩

end Spirv
end Shading
