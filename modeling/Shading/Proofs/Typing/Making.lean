import Shading.Proofs.Grammar.Source

/-! What is made while a source is read. Reading calls the steps of checking one after the other,
each on expressions and types that steps before it have given; here they may come in any order.
Whatever order they come in, as long as nothing has been reported every expression is well typed. -/
namespace Shading

namespace Check

/-- The expressions and types that have been made so far, newest first. -/
structure Made where
  exprs : List Expr := []
  types : List Ty := []

variable {c : Context} {made : Made}

/-- The steps that give an expression. A step takes expressions that have been made before, and a
name only if it is known. -/
inductive GivesExpr (c : Context) (made : Made) : Check Expr → Prop
  | integer (w : Word) : GivesExpr c made (Grammar.integerLiteral w)
  | float (w : Word) : GivesExpr c made (Grammar.floatLiteral w)
  | truth (b : Bool) (span : Span) : GivesExpr c made (pure (.literal (.bool b) .bool span))
  | unknown (name : String) (span whole : Span) :
      GivesExpr c made (do report (.unknownSymbol name) span; return poisoned whole)
  | reference {name : String} {n : Nat} (h : c.scopes.find? name = some (.variable_ n)) (span : Span) :
      GivesExpr c made (reference n span)
  | anonymousField {name : String} {block i : Nat} (h : c.scopes.find? name = some (.field block i)) (span : Span) :
      GivesExpr c made (anonymousField block i span)
  | call {name : String} {overloads : List Nat} (h : c.scopes.find? name = some (.functions overloads))
    {arguments : List Expr}
      (ha : arguments ⊆ made.exprs) (span : Span) : GivesExpr c made (call name overloads arguments span)
  | constructor {ty : Ty} (h : ty ∈ made.types) {arguments : List Expr} (ha : arguments ⊆ made.exprs) (span : Span) :
      GivesExpr c made (constructor ty arguments span)
  | unary {e : Expr} (he : e ∈ made.exprs) (op : Operator) (span : Span) : GivesExpr c made (unary op e span)
  | step {e : Expr} (he : e ∈ made.exprs) {op : Operator} (hop : op.isStep = true) (span : Span) :
      GivesExpr c made (step op e span)
  | binary {l r : Expr} (hl : l ∈ made.exprs) (hr : r ∈ made.exprs) (op : Operator) :
    GivesExpr c made (binary l op r)
  | conditional {e t f : Expr} (he : e ∈ made.exprs) (ht : t ∈ made.exprs) (hf : f ∈ made.exprs) :
      GivesExpr c made (conditional e t f)
  | index {b i : Expr} (hb : b ∈ made.exprs) (hi : i ∈ made.exprs) (span : Span) : GivesExpr c made (index b i span)
  | field {b : Expr} (hb : b ∈ made.exprs) {name : String} (hname : name.toList ≠ []) (span : Span) :
      GivesExpr c made (field b name span)
  | coerce {e : Expr} (he : e ∈ made.exprs) {ty : Ty} (hty : ty ∈ made.types) : GivesExpr c made (coerce e ty)
  | withSpan {e : Expr} (he : e ∈ made.exprs) (span : Span) : GivesExpr c made (pure (e.withSpan span))

/-- The steps that give a type. -/
inductive GivesType (c : Context) (made : Made) : Check Ty → Prop
  | bool : GivesType c made (pure .bool)
  | named {name : String} {ty : Ty} (h : c.scopes.type? name = some ty) : GivesType c made (pure ty)
  | ofExpr {e : Expr} (he : e ∈ made.exprs) : GivesType c made (pure e.ty)
  | array {ty : Ty} (hty : ty ∈ made.types) (span : Span) (dimensions : List (Option Nat × Span)) :
      GivesType c made (Grammar.wrap span ty dimensions)
  | struct {fields : List (Field Ty)} (hfields : ∀ f ∈ fields, f.ty ∈ made.types) (name : String) (block : Bool) :
      GivesType c made (declareStruct name fields block)

/-- The steps that only enter something into the context: a note, a problem, a scope, a name, a
table entry. -/
inductive Enters (c : Context) (made : Made) : {α : Type} → Check α → Prop
  | note (e : Event) : Enters c made (note e)
  | enterScope : Enters c made enterScope
  | leaveScope : Enters c made leaveScope
  | type {ty : Ty} (hty : ty ∈ made.types) (name : String) (span : Span) :
    Enters c made (bindName name (.type ty) span)
  | block {ty : Ty} (hty : ty ∈ made.types) {fields : List (Field Ty)} (hfields : ty.fields? = some fields)
      {named : Option (Word × Ty)} (hnamed : ∀ w ∈ named, w.2 ∈ made.types) (m : Modifiers) (name : Word) :
      Enters c made (Grammar.declareBlock m name ty fields named)
  | parameter {p : Grammar.NamedParameter} (hp : p.parameter.ty ∈ made.types) :
    Enters c made (Grammar.declareParameter p)
  | function {returns : Ty} (hreturns : returns ∈ made.types) {parameters : List Parameter}
      (hparameters : ∀ p ∈ parameters, p.ty ∈ made.types) (m : Modifiers) (name : String) (span : Span) :
      Enters c made (declareFunction m returns name span parameters)

/-- What reading comes to, step by step: a context, and what has been made on the way. -/
inductive Arises : Context → Made → Prop
  | start (kind : ShaderKind) (options : CompileOptions) (bytes : Nat) :
      Arises { Context.initial kind options with
        journal := .readingStarted bytes kind :: (Context.initial kind options).journal } {}
  | expr {c : Context} {made : Made} {m : Check Expr} (h : Arises c made) (hm : GivesExpr c made m) :
      Arises (m c).2 { made with exprs := (m c).1 :: made.exprs }
  | type {c : Context} {made : Made} {m : Check Ty} (h : Arises c made) (hm : GivesType c made m) :
      Arises (m c).2 { made with types := (m c).1 :: made.types }
  | enter {c : Context} {made : Made} {α : Type} {m : Check α} (h : Arises c made) (hm : Enters c made m) :
    Arises (m c).2 made
  | variable_ {c : Context} {made : Made} (h : Arises c made) {ty : Ty} (hty : ty ∈ made.types)
    {initializer : Option Expr}
      (hi : ∀ e ∈ initializer, e ∈ made.exprs) (m : Modifiers) (name : String) (span : Span) (storage : Storage) :
      Arises (declareVariable m ty name span initializer storage c).2
        { made with exprs := (declareVariable m ty name span initializer storage c).1.2.toList ++ made.exprs }
  | body {c : Context} {made : Made} (h : Arises c made) {n : Nat} {f : Function} (hf : c.functions.get? n = some f)
      (hbase : c.functions.isBase n = false) (name : String) (span : Span) :
        Arises (markDefined n name span c).2 made

/-! ### One step -/

/-- What holds of everything that has been made, while nothing has been reported. -/
structure Made.Sound (made : Made) (c : Context) : Prop where
  context : c.Sound
  exprs : ∀ e ∈ made.exprs, e.WellTyped c.declared
  types : ∀ ty ∈ made.types, ty.isProper = true

lemma Made.Sound.grow {c' : Context} (h : made.Sound c) (hc : c'.Sound)
    (hd : c.declared.Grows c'.declared) : made.Sound c' :=
  ⟨hc, fun e he => (h.exprs e he).grow hd, h.types⟩

lemma GivesExpr.keepsJournal {m : Check Expr} (hm : GivesExpr c made m) : KeepsJournal m := by
  cases hm <;> infer_instance

lemma GivesExpr.ensures {m : Check Expr} (hm : GivesExpr c made m) (h : made.Sound c) :
    Ensures .ofTypes c m fun e d => e.Good .ofTypes d := by
  cases hm with
  | integer w => exact Grammar.integerLiteral_ensures
  | float w => exact Grammar.floatLiteral_ensures
  | truth b span => exact .pure (Expr.good_literal rfl)
  | unknown name span whole => exact .report_bind
  | reference hfind span =>
    obtain ⟨v, hv⟩ := h.context.find? hfind
    exact reference_ensures hv False.elim
  | anonymousField hfind span => exact anonymousField_ensures (h.context.find? hfind)
  | call hfind ha span => exact call_ensures (h.context.find? hfind) fun e he => (h.exprs e (ha he)).good
  | constructor hty ha span =>
    exact constructor_ensures (Ty.good_of_isProper (h.types _ hty)) fun e he => (h.exprs e (ha he)).good
  | unary he op span => exact unary_ensures (h.exprs _ he).good
  | step he hop span => exact step_ensures hop (h.exprs _ he).good
  | binary hl hr op => exact binary_ensures (h.exprs _ hl).good (h.exprs _ hr).good
  | conditional he ht hf => exact conditional_ensures (h.exprs _ he).good (h.exprs _ ht).good (h.exprs _ hf).good
  | index hb hi span => exact index_ensures (h.exprs _ hb).good (h.exprs _ hi).good
  | field hb hname span => exact field_ensures (h.exprs _ hb).good hname
  | coerce he hty => exact .weaken (coerce_ensures (h.exprs _ he).good (h.types _ hty)) fun _ _ _ h => h.1
  | withSpan he span => exact .pure (h.exprs _ he).good.withSpan

lemma GivesType.keepsJournal {m : Check Ty} (hm : GivesType c made m) : KeepsJournal m := by
  cases hm <;> infer_instance

lemma GivesType.ensures {m : Check Ty} (hm : GivesType c made m) (h : made.Sound c) :
    Ensures .ofTypes c m fun ty _ => ty.isProper = true := by
  cases hm with
  | bool => exact .pure rfl
  | named hfind => exact .pure (h.context.type? hfind)
  | ofExpr he => exact .pure (Expr.wellTyped_iff.mp (h.exprs _ he)).1
  | array hty span dimensions =>
    exact .weaken (Grammar.wrap_ensures (Ty.good_of_isProper (h.types _ hty))) fun _ _ _ h => h.1
  | struct hfields name block =>
    exact .weaken (Grammar.declareStruct_ensures False.elim fun f hf =>
      ⟨h.types _ (hfields f hf), False.elim⟩) fun _ _ _ h => h.1.1

lemma Enters.precedes {α : Type} {m : Check α} (hm : Enters c made m) : c.Precedes (m c).2 := by
  cases hm with
  | note e => exact KeepsJournal.precedes_note e c
  | _ => exact KeepsJournal.precedes c

lemma Enters.ensures {α : Type} {m : Check α} (hm : Enters c made m) (h : made.Sound c) :
    Ensures .ofTypes c m fun _ _ => True := by
  cases hm with
  | note e => exact .note
  | enterScope => exact enterScope_ensures
  | leaveScope => exact leaveScope_ensures
  | type hty name span =>
    exact .weaken (bindName_ensures (Ty.good_of_isProper (h.types _ hty))) fun _ _ _ _ => trivial
  | block hty hfields hnamed m name =>
    refine .weaken (Grammar.declareBlock_ensures (Ty.good_of_isProper (h.types _ hty)) hfields fun w hw =>
      ⟨False.elim, Ty.good_of_isProper (h.types _ (hnamed w hw))⟩) ?_
    exact fun _ _ _ _ => trivial
  | parameter hp =>
    exact .weaken (Grammar.declareParameter_ensures
      ⟨Ty.good_of_isProper (h.types _ hp), fun _ _ => False.elim⟩) fun _ _ _ _ => trivial
  | function hreturns hparameters m name span =>
    refine .weaken (declareFunction_ensures (Ty.good_of_isProper (h.types _ hreturns)) False.elim fun p hp =>
      Ty.good_of_isProper (h.types _ (hparameters p hp))) ?_
    exact fun _ _ _ _ => trivial

/-! ### Every run -/

/-- While nothing has been reported, everything that has been made is sound. A context without
problems had none before its last step either, so the step starts from what the steps before it have
established. -/
lemma Arises.sound (h : Arises c made) (hclean : c.journal.Clean) : made.Sound c := by
  induction h with
  | start kind bytes =>
    refine ⟨⟨fun hv => ?_, rfl, ?_, ?_⟩, ?_, ?_⟩
    · simp [Context.initial] at hv
    all_goals simp [Context.initial]
  | @expr c made m _ hm ih =>
    have hbefore := ih (hclean.of_suffix (hm.keepsJournal.precedes c).journal)
    obtain ⟨hc, hd, he⟩ := hm.ensures hbefore hclean False.elim ⟨hbefore.context, False.elim⟩
    have hafter := hbefore.grow hc.toSound hd.toGrows
    exact ⟨hc.toSound, List.forall_mem_cons.mpr ⟨he.1, hafter.exprs⟩, hafter.types⟩
  | @type c made m _ hm ih =>
    have hbefore := ih (hclean.of_suffix (hm.keepsJournal.precedes c).journal)
    obtain ⟨hc, hd, hty⟩ := hm.ensures hbefore hclean False.elim ⟨hbefore.context, False.elim⟩
    have hafter := hbefore.grow hc.toSound hd.toGrows
    exact ⟨hc.toSound, hafter.exprs, List.forall_mem_cons.mpr ⟨hty, hafter.types⟩⟩
  | @enter c made α m _ hm ih =>
    have hbefore := ih (hclean.of_suffix hm.precedes.journal)
    obtain ⟨hc, hd, -⟩ := hm.ensures hbefore hclean False.elim ⟨hbefore.context, False.elim⟩
    exact hbefore.grow hc.toSound hd.toGrows
  | @variable_ c made _ ty hty i hi m name span storage ih =>
    have hbefore := ih (hclean.of_suffix (KeepsJournal.suffix c))
    have hi' : ∀ e ∈ i, e.Good .ofTypes c.declared := fun e he => (hbefore.exprs e (hi e he)).good
    obtain ⟨hc, hd, v, -, hnew⟩ := declareVariable_ensures
      (Ty.good_of_isProper (hbefore.types _ hty)) False.elim hi' hclean False.elim
      ⟨hbefore.context, False.elim⟩
    have hafter := hbefore.grow hc.toSound hd.toGrows
    refine ⟨hc.toSound, fun e he => ?_, hafter.types⟩
    obtain he | he := List.mem_append.mp he
    · exact (hnew e (Option.mem_toList.mp he)).1.1
    · exact hafter.exprs e he
  | @body c made _ n f hf hbase name span ih =>
    have hbefore := ih (hclean.of_suffix (KeepsJournal.suffix c))
    obtain ⟨-, hmark⟩ := markDefined_eq hf hclean
    rw [hmark]
    exact hbefore.grow (sound_defining hbase hbefore.context) (grows_defining hbase)

end Check
end Shading
