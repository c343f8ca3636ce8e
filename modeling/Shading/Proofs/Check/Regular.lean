import Shading.Memory.Layout
import Shading.Proofs.Check.Fits
import Shading.Proofs.Check.Sound
import Shading.Proofs.Token.Name

/-! What holds of everything that is read, besides its types. Names are names, the number of a
struct tells which struct it is, and literals fit their types. All of this is said with a view to
the context at the end of reading: types, variables and functions are the ones in its tables, and
what only holds if no problem is reported refers to its journal. -/
namespace Shading

/-- The text is a name unless a problem is reported, which a reserved word is. -/
def Context.Names (o : Context) (text : String) : Prop := o.journal.Clean → IsName text

/-- The numbers of a layout are 32-bit ones. -/
def LayoutSpec.FitsWords (l : LayoutSpec) : Prop := ∀ key, ∀ n ∈ l.get? key, n ≤ MemoryLayout.limit

variable {o c : Context} {name : String} {symbol : Symbol}

namespace Ty

mutual
/-- Every struct in the type is the one in the table, it has names, and the numbers of its members
fit. The type is poison only if a problem is reported. -/
def Known (o : Context) : Ty → Prop
  | .array e _ => e.Known o
  | .struct id name fields block =>
    o.types.get? id = some (.struct id name fields block) ∧ o.Names name ∧ AreKnown o fields
  | .poison | .invalid => ¬ o.journal.Clean
  | .void | .scalar _ | .vector .. | .matrix .. | .generic _ => True
def AreKnown (o : Context) : List (Field Ty) → Prop
  | [] => True
  | ⟨name, ty, modifiers, _⟩ :: fields =>
    (o.Names name ∧ ty.Known o ∧ modifiers.layout.FitsWords) ∧ AreKnown o fields
end

lemma areKnown_iff {fields : List (Field Ty)} :
    AreKnown o fields ↔ ∀ f ∈ fields, o.Names f.name ∧ f.ty.Known o ∧ f.modifiers.layout.FitsWords := by
  induction fields with
  | nil => simp [AreKnown]
  | cons f fields ih => simp [AreKnown, ih]

lemma Known.fields {id : Nat} {fields : List (Field Ty)} {block : Bool}
    (h : (Ty.struct id name fields block).Known o) :
    ∀ f ∈ fields, o.Names f.name ∧ f.ty.Known o ∧ f.modifiers.layout.FitsWords :=
  areKnown_iff.mp h.2.2

end Ty

/-- A literal is a value of its type. -/
def Literal.Regular (v : Literal) (ty : Ty) : Prop := ∃ s, ty = .scalar s ∧ Fits s v

/-- The variable of this number has a name. -/
def Context.HasName (o : Context) (n : Nat) : Prop := ∀ v, o.variables[n]? = some v → o.Names v.name

mutual
def Expr.Regular (o : Context) : Expr → Prop
  | .literal v ty _ => v.Regular ty
  | .variable_ n _ _ => o.HasName n
  | .poison .. => True
  | .unary _ e _ _ | .step _ e _ _ | .swizzle e _ _ _ => e.Regular o
  | .field b _ anonymous _ _ => (anonymous = true ∧ ∃ n ty span, b = .variable_ n ty span) ∨ b.Regular o
  | .binary _ l r _ _ => l.Regular o ∧ r.Regular o
  | .conditional c t f _ _ => c.Regular o ∧ t.Regular o ∧ f.Regular o
  | .index b i _ _ => b.Regular o ∧ i.Regular o
  | .construct kind as ty _ => (kind = .struct ∨ kind = .array → ty.Known o) ∧ Expr.AreRegular o as
  | .call _ as _ _ => Expr.AreRegular o as
def Expr.AreRegular (o : Context) : List Expr → Prop
  | [] => True
  | e :: es => e.Regular o ∧ Expr.AreRegular o es
end

lemma Expr.areRegular_iff {es : List Expr} : AreRegular o es ↔ ∀ e ∈ es, e.Regular o := by
  induction es with
  | nil => simp [AreRegular]
  | cons e es ih => simp [AreRegular, ih]

@[simp] lemma Expr.regular_withSpan {e : Expr} {span : Span} : (e.withSpan span).Regular o ↔ e.Regular o := by
  cases e <;> simp [withSpan, Regular]

structure Variable.Regular (o : Context) (v : Variable) : Prop where
  known : v.ty.Known o
  name : v.name ≠ "" → o.Names v.name
  constant : ∀ l ∈ v.constant, l.Regular v.ty

structure Function.Regular (o : Context) (f : Function) : Prop where
  name : o.Names f.name
  returns : f.returns.Known o
  parameters : ∀ ty ∈ f.parameterTypes, ty.Known o

def Symbol.Regular (o : Context) : Symbol → Prop
  | .type ty => ty.Known o
  | .variable_ n => o.HasName n
  | _ => True

structure Context.Regular (o c : Context) : Prop where
  variable_ : ∀ {n : Nat} {v}, c.variables[n]? = some v → v.Regular o
  function : ∀ {n : Nat} {f}, c.functions.items[n]? = some f → f.Regular o
  scopes : ∀ scope ∈ c.scopes.global :: c.scopes.inner, ∀ binding ∈ scope, binding.2.Regular o

namespace Context.Regular

lemma builtin (hs : (name, symbol) ∈ Bindings.builtin) : symbol.Regular o := by
  simp only [Bindings.builtin, List.mem_append, List.mem_flatMap, List.mem_map, Prod.mk.injEq] at hs
  obtain ⟨ty, hty, _, -, -, rfl⟩ | ⟨_, -, rfl, rfl⟩ := hs
  · have hplain : ∀ ty ∈ Ty.nameable, ty.isArray = false ∧ ty.isStruct = false ∧ ty.isPoison = false := by decide
    obtain ⟨harray, hstruct, hpoison⟩ := hplain ty hty
    cases ty <;> simp_all [Symbol.Regular, Ty.Known, Ty.isArray, Ty.isStruct, Ty.isPoison]
  · trivial

lemma find? (h : o.Regular c) (hs : c.scopes.find? name = some symbol) : symbol.Regular o := by
  obtain ⟨scope, hscope, hmem⟩ | hbuiltin := Scopes.mem_of_find? hs
  · exact h.scopes scope hscope _ hmem
  · exact builtin hbuiltin

lemma type? (h : o.Regular c) {ty : Ty} (hty : c.scopes.type? name = some ty) : ty.Known o := by
  unfold Scopes.type? at hty
  split at hty
  · rename_i found hfound
    obtain rfl := Option.some.inj hty
    exact h.find? hfound
  · cases hty

lemma bind (h : o.Regular c) (hs : symbol.Regular o) :
    o.Regular { c with scopes := c.scopes.bind name symbol } := by
  refine ⟨h.variable_, h.function, fun scope hscope b hb => ?_⟩
  obtain rfl | ⟨old, hold, hb⟩ := Scopes.mem_bind hb hscope
  · exact hs
  · exact h.scopes old hold b hb

lemma insert? (h : o.Regular c) {scopes : Scopes} (hs : symbol.Regular o)
    (hinsert : c.scopes.insert? name symbol = some scopes) :
    o.Regular { c with scopes } := by
  unfold Scopes.insert? at hinsert
  split at hinsert
  · obtain rfl := Option.some.inj hinsert
    exact h.bind trivial
  · cases hinsert
  · obtain rfl := Option.some.inj hinsert
    exact h.bind trivial
  · obtain rfl := Option.some.inj hinsert
    exact h.bind hs

end Context.Regular

end Shading
