import Shading.Proofs.Check.Journal
import Shading.Proofs.Typing.Judgement

/-! Where things stand. Everything that is read or reported has a span that is a part of the source,
cut between characters, and the span of an expression goes around the spans of its parts. A step of
checking that is given such spans gives such spans on. -/
namespace Shading

/-- The span is a part of the text, and no character is cut. -/
structure Span.Within (source : String) (s : Span) : Prop where
  ordered : s.start ≤ s.stop
  start : (⟨s.start⟩ : String.Pos.Raw).IsValid source
  stop : (⟨s.stop⟩ : String.Pos.Raw).IsValid source

namespace Span

variable {source : String} {a b c : Span}

lemma Within.cover (ha : a.Within source) (hb : b.Within source) : (a.cover b).Within source := by
  have hle : (a.cover b).start ≤ (a.cover b).stop := (min_le_left ..).trans (ha.ordered.trans (le_max_left ..))
  refine ⟨hle, ?_, ?_⟩
  · obtain h | h := min_choice a.start b.start <;> rw [cover_start, h]
    exacts [ha.start, hb.start]
  · obtain h | h := max_choice a.stop b.stop <;> rw [cover_stop, h]
    exacts [ha.stop, hb.stop]

lemma contains_self (a : Span) : a.contains a = true := contains_iff.mpr ⟨le_rfl, le_rfl⟩

lemma contains_trans (hab : a.contains b = true) (hbc : b.contains c = true) : a.contains c = true := by
  rw [contains_iff] at *
  omega

end Span

/-- Some variable is known by a name, or a member of an interface block whose variable it is. -/
def Scopes.Refers (s : Scopes) (n : Nat) : Prop :=
  ∃ name, s.find? name = some (.variable_ n) ∨ ∃ i, s.find? name = some (.field n i)

/-- A place in a source where something is known about the names in scope and about the declarations
so far, the last one first. -/
structure Site where
  source : String
  holds : Scopes → Arena Function → Prop
  follows : List Element → Prop

/-- The place in a source of which nothing more is known. -/
def Site.ofSource (source : String) : Site := ⟨source, fun _ _ => True, fun _ => True⟩

/-- The variable can be named at the place. -/
def Site.Binds (site : Site) (n : Nat) : Prop := ∃ scopes functions, site.holds scopes functions ∧ scopes.Refers n

variable {site : Site}

namespace Expr

/-- The span of the node is a part of the source that goes around its parts, and a variable is one
that can be named here. -/
structure Stands (site : Site) (e : Expr) : Prop where
  within : e.span.Within site.source
  around : ∀ p ∈ e.parts, e.span.contains p.span = true
  binds : ∀ {n ty span}, e = .variable_ n ty span → site.Binds n

def LiesIn (site : Site) (e : Expr) : Prop := ∀ x ∈ e.nodes, x.Stands site

variable {e : Expr} {span : Span}

lemma liesIn_iff : e.LiesIn site ↔ e.Stands site ∧ ∀ p ∈ e.parts, p.LiesIn site :=
  forall_nodes

lemma LiesIn.within (h : e.LiesIn site) : e.span.Within site.source := (liesIn_iff.mp h).1.within

lemma LiesIn.part {p : Expr} (h : e.LiesIn site) (hp : p ∈ e.parts) : p.LiesIn site := (liesIn_iff.mp h).2 p hp

lemma LiesIn.ofSource (h : e.LiesIn site) : e.LiesIn (.ofSource site.source) := by
  intro x hx
  obtain ⟨hwithin, haround, hbinds⟩ := h x hx
  refine ⟨hwithin, haround, fun heq => ?_⟩
  obtain ⟨scopes, functions, -, hrefers⟩ := hbinds heq
  exact ⟨scopes, functions, trivial, hrefers⟩

/-- The expression lies at the place, inside a span. -/
structure Inside (site : Site) (span : Span) (e : Expr) : Prop where
  liesIn : e.LiesIn site
  contains : span.contains e.span = true

lemma Inside.ofSource (h : e.Inside site span) : e.Inside (.ofSource site.source) span :=
    ⟨h.liesIn.ofSource, h.contains⟩

lemma liesIn_of_parts (hspan : e.span.Within site.source) (hparts : ∀ p ∈ e.parts, p.Inside site e.span)
    (hvariable : ∀ n ty span, e ≠ .variable_ n ty span) : e.LiesIn site :=
  liesIn_iff.mpr ⟨⟨hspan, fun p hp => (hparts p hp).contains, fun h => absurd h (hvariable _ _ _)⟩,
    fun p hp => (hparts p hp).liesIn⟩

lemma liesIn_leaf (hspan : e.span.Within site.source) (hparts : e.parts = [])
    (hvariable : ∀ n ty span, e ≠ .variable_ n ty span) :
    e.LiesIn site :=
  liesIn_of_parts hspan (hparts ▸ List.forall_mem_nil _) hvariable

@[simp] lemma parts_withSpan : (e.withSpan span).parts = e.parts := by cases e <;> rfl

/-- The expression lies at the place, with the given span. -/
structure Fills (site : Site) (span : Span) (e : Expr) : Prop where
  liesIn : e.LiesIn site
  span_eq : e.span = span

lemma LiesIn.fills (h : e.LiesIn site) : e.Fills site e.span := ⟨h, rfl⟩

lemma Fills.inside {outer : Span} (h : e.Fills site span) (houter : outer.contains span = true) :
    e.Inside site outer :=
  ⟨h.liesIn, h.span_eq ▸ houter⟩

lemma fills_literal {v : Literal} {ty : Ty} (h : span.Within site.source) :
    (Expr.literal v ty span).Fills site span :=
  ⟨liesIn_leaf h rfl nofun, rfl⟩

lemma fills_poison {ty : Ty} (h : span.Within site.source) : (Expr.poison ty span).Fills site span :=
  ⟨liesIn_leaf h rfl nofun, rfl⟩

lemma Inside.withSpan (h : e.Inside site span) (hspan : span.Within site.source) :
    (e.withSpan span).Fills site span := by
  obtain ⟨⟨-, haround, hbinds⟩, hparts⟩ := liesIn_iff.mp h.liesIn
  refine ⟨liesIn_iff.mpr ⟨⟨by rwa [span_withSpan], fun p hp => ?_, fun {n ty s} heq => ?_⟩, ?_⟩,
    span_withSpan span e⟩
  · rw [span_withSpan]
    exact Span.contains_trans h.contains (haround p (parts_withSpan ▸ hp))
  · cases e with
    | variable_ n' ty' s' =>
      cases heq
      exact hbinds rfl
    | _ => cases heq
  · rwa [parts_withSpan]

end Expr

/-! ### Contexts -/

variable {i : Nat}

lemma Arena.mem_of_get? {α : Type} {a : Arena α} {x : α} (h : a.get? i = some x) : x ∈ a.base ∨ x ∈ a.items := by
  unfold get? at h
  split at h
  · exact .inl (Array.mem_of_getElem? h)
  · exact .inr (Array.mem_of_getElem? h)

lemma Arena.get?_of_push {α : Type} {a : Arena α} {x y : α} (h : (a.push x).get? i = some y) :
    a.get? i = some y ∨ y = x := by
  unfold get? push at h
  unfold get?
  dsimp only at h
  split at h
  · rw [if_pos ‹_›]
    exact .inl h
  · rw [if_neg ‹_›]
    rw [Array.getElem?_push] at h
    split at h
    · exact .inr (Option.some.inj h).symm
    · exact .inl h

def Modifiers.Within (source : String) (m : Modifiers) : Prop := m.span.Within source

/-- The fields of a struct or an interface block stand in the source. -/
def Ty.Within (source : String) (ty : Ty) : Prop :=
  ∀ fields, ty.fields? = some fields → ∀ f ∈ fields, f.span.Within source ∧ f.modifiers.Within source

def Variable.Within (source : String) (v : Variable) : Prop := v.span.Within source ∧ v.modifiers.Within source

def Function.Within (source : String) (f : Function) : Prop :=
  f.span.Within source ∧ f.modifiers.Within source ∧ ∀ p ∈ f.parameters, p.modifiers.Within source

/-- What has been declared and reported so far stands in the source, and the names in scope are as
they should be. -/
structure Context.Placed (site : Site) (c : Context) : Prop where
  reports : ∀ r, .problemFound r ∈ c.journal → r.span.Within site.source
  calls : ∀ call ∈ c.calls, call.2.Within site.source
  types : ∀ n ty, c.types.get? n = some ty → ty.Within site.source
  «variables» : ∀ v ∈ c.variables, v.Within site.source
  functions : ∀ f ∈ c.functions.items, f.Within site.source
  names : site.holds c.scopes c.functions

namespace Check

variable {α β : Type} {m : Check α} {P Q : α → Prop} {R : β → Prop}

/-- From a context in place another one is reached, with a result as stated. -/
def Gives (site : Site) (m : Check α) (Q : α → Prop) : Prop :=
  ∀ c : Context, c.Placed site → (m c).2.Placed site ∧ Q (m c).1

namespace Gives

lemma pure {a : α} (h : Q a) : Gives site (pure a) Q := fun _ hc => ⟨hc, h⟩

lemma weaken (hm : Gives site m P) (h : ∀ a, P a → Q a) : Gives site m Q := fun c hc => (hm c hc).imp_right (h _)

lemma bind {f : α → Check β} (hm : Gives site m P) (hf : ∀ a, P a → Gives site (f a) R) :
    Gives site (m >>= f) R := by
  intro c hc
  obtain ⟨hc', ha⟩ := hm c hc
  exact hf _ ha _ hc'

lemma map {f : α → β} (hm : Gives site m fun a => R (f a)) : Gives site (f <$> m) R := hm

lemma get_bind {f : Context → Check β} (h : ∀ c, c.Placed site → Gives site (f c) R) : Gives site (get >>= f) R :=
  fun c hc => h c hc c hc

lemma modify {f : Context → Context} (h : ∀ c : Context, c.Placed site → (f c).Placed site) :
    Gives site (modify f) fun _ => True :=
  fun c hc => ⟨h c hc, trivial⟩

lemma ite {p : Prop} [Decidable p] {n : Check α} (hm : p → Gives site m Q) (hn : ¬ p → Gives site n Q) :
    Gives site (if p then m else n) Q := by
  split
  · exact hm ‹_›
  · exact hn ‹_›

lemma note {e : Event} (h : ∀ r, e = .problemFound r → r.span.Within site.source) :
    Gives site (note e) fun _ => True := by
  refine .modify fun c hc => ⟨fun r hr => ?_, hc.calls, hc.types, hc.variables, hc.functions, hc.names⟩
  obtain hr | hr := List.mem_cons.mp hr
  · exact h r hr.symm
  · exact hc.reports r hr

lemma report {p : Problem} {span : Span} (h : span.Within site.source) :
    Gives site (report p span) fun _ => True :=
  note fun r hr => by
    cases hr
    exact h

lemma reportIf {b : Bool} {p : Problem} {span : Span} (h : span.Within site.source) :
    Gives site (reportIf b p span) fun _ => True :=
  .ite (fun _ => report h) fun _ => .pure trivial

lemma mapM {f : α → Check β} {as : List α} (h : ∀ a ∈ as, Gives site (f a) R) :
    Gives site (as.mapM f) fun bs => ∀ b ∈ bs, R b := by
  induction as with
  | nil =>
    rw [List.mapM_nil]
    exact .pure (List.forall_mem_nil _)
  | cons a as ih =>
    rw [List.forall_mem_cons] at h
    rw [List.mapM_cons]
    exact .bind h.1 fun b hb => .bind (ih h.2) fun bs hbs => .pure (List.forall_mem_cons.mpr ⟨hb, hbs⟩)

lemma forM {f : α → Check PUnit} {as : List α} (h : ∀ a ∈ as, Gives site (f a) fun _ => True) :
    Gives site (as.forM f) fun _ => True := by
  induction as with
  | nil => exact .pure trivial
  | cons a as ih =>
    rw [List.forall_mem_cons] at h
    exact .bind h.1 fun _ _ => ih h.2

lemma foldlM {f : β → α → Check β} {b : β} {as : List α} (hb : R b)
    (h : ∀ b, R b → ∀ a ∈ as, Gives site (f b a) R) :
    Gives site (as.foldlM f b) R := by
  induction as generalizing b with
  | nil =>
    rw [List.foldlM_nil]
    exact .pure hb
  | cons a as ih =>
    rw [List.foldlM_cons]
    exact .bind (h b hb a List.mem_cons_self) fun b' hb' => ih hb' fun b hb a ha =>
      h b hb a (List.mem_cons_of_mem _ ha)

end Gives

variable {e l r c t f : Expr} {es : List Expr} {ty : Ty} {span : Span}

lemma gives_poisoned (h : span.Within site.source) :
    Gives site (pure (poisoned span)) (·.Fills site span) := .pure (Expr.fills_poison h)

lemma gives_reported {p : Problem} {place : Span} (hplace : place.Within site.source)
    (h : span.Within site.source) :
    Gives site (do report p place; return poisoned span) (·.Fills site span) :=
  .bind (.report hplace) fun _ _ => gives_poisoned h

/-! ### Conversions -/

lemma fills_of_retype? (he : l.LiesIn site) (h : l.retype? ty = some e) : e.Fills site l.span := by
  unfold Expr.retype? at h
  split at h
  · split at h
    · cases h
    · obtain ⟨w, -, rfl⟩ := Option.map_eq_some_iff.mp h
      exact Expr.fills_literal he.within
  · cases h

lemma fills_getD_retype? (he : e.LiesIn site) : ((e.retype? ty).getD e).Fills site e.span := by
  cases h : e.retype? ty with
  | none => exact he.fills
  | some e' => exact fills_of_retype? he h

lemma gives_castLiteral {v : Literal} (h : span.Within site.source) :
    Gives site (castLiteral v ty span) (·.Fills site span) := by
  unfold castLiteral
  split
  · exact .pure (Expr.fills_poison h)
  split
  · exact .pure (Expr.fills_literal h)
  · exact .bind (.report h) fun _ _ => .pure (Expr.fills_literal h)

lemma fills_construct {kind : ConstructorKind} (h : span.Within site.source)
    (hes : ∀ e ∈ es, e.Inside site span) : (Expr.construct kind es ty span).Fills site span :=
  ⟨Expr.liesIn_of_parts h hes nofun, rfl⟩

lemma gives_cast (he : e.LiesIn site) : Gives site (cast e ty) (·.Fills site e.span) := by
  refine .ite (fun _ => .pure he.fills) fun _ => ?_
  split
  · exact gives_castLiteral he.within
  · exact .pure (fills_construct he.within (List.forall_mem_singleton.mpr ⟨he, Span.contains_self _⟩))

lemma gives_coerce (he : e.LiesIn site) : Gives site (coerce e ty) (·.Fills site e.span) := by
  refine .ite (fun _ => .pure he.fills) fun _ => ?_
  split
  · exact .pure (fills_of_retype? he ‹_›)
  refine .ite (fun _ => gives_cast he) fun _ => ?_
  exact .bind (.report he.within) fun _ _ => .pure (Expr.fills_poison he.within)

/-! ### Operators -/

lemma within_obstacle? {declared : Nat → Option Variable} {r : Report} (he : e.LiesIn site)
    (h : e.obstacle? declared = some r) :
    r.span.Within site.source := by
  fun_induction Expr.obstacle? declared e with
  | case1 => cases h
  | case2 =>
    obtain ⟨_, -, rfl⟩ := Option.map_eq_some_iff.mp h
    exact he.within
  | case4 _ _ _ _ _ ih | case5 _ _ _ _ ih | case6 _ _ _ _ _ ih => exact ih (he.part (.head _)) h
  | case3 | case7 | case8 =>
    cases h
    exact he.within

lemma gives_assignable (he : e.LiesIn site) : Gives site (assignable e) fun _ => True := by
  refine .get_bind fun c _ => ?_
  split
  · exact .bind (.report (within_obstacle? he ‹_›)) fun _ _ => .pure trivial
  · exact .pure trivial

variable {op : Operator}

lemma gives_foldBinary (h : span.Within site.source) :
    Gives site (foldBinary op l r ty span) fun e => ∀ i ∈ e, i.Fills site span := by
  unfold foldBinary
  split
  · split
    · refine .pure fun i hi => ?_
      obtain rfl := Option.some.inj hi
      exact Expr.fills_literal h
    · exact .pure (by simp)
    · exact .bind (.report h) fun _ _ => .pure (by simp)
  · exact .pure (by simp)

lemma fills_adaptLiterals (hl : l.LiesIn site) (hr : r.LiesIn site) :
    (adaptLiterals op l r).1.Fills site l.span ∧ (adaptLiterals op l r).2.Fills site r.span := by
  have hadapt {e : Expr} (b : Bool) (ty : Ty) (he : e.LiesIn site) :
    (if b then e else (e.retype? ty).getD e).Fills site e.span := by
    split
    · exact he.fills
    · exact fills_getD_retype? he
  unfold adaptLiterals
  split
  · exact ⟨hl.fills, hr.fills⟩
  · exact ⟨hadapt _ _ hl, hadapt _ _ hr⟩

lemma fills_binary {left right : Expr} (hl : left.Fills site l.span) (hr : right.Fills site r.span) :
    (Expr.binary op left right ty (l.span.cover r.span)).Fills site (l.span.cover r.span) := by
  have hspan := (hl.span_eq ▸ hl.liesIn.within).cover (hr.span_eq ▸ hr.liesIn.within)
  refine ⟨Expr.liesIn_of_parts hspan (List.forall_mem_cons.mpr ⟨?_, List.forall_mem_singleton.mpr ?_⟩) nofun, rfl⟩
  · exact hl.inside (Span.cover_contains_left ..)
  · exact hr.inside (Span.cover_contains_right ..)

lemma gives_coerce_of_fills (he : e.Fills site span) : Gives site (coerce e ty) (·.Fills site span) :=
  he.span_eq ▸ gives_coerce he.liesIn

lemma gives_binary (hl : l.LiesIn site) (hr : r.LiesIn site) :
    Gives site (binary l op r) (·.Fills site (l.span.cover r.span)) := by
  have hspan := hl.within.cover hr.within
  obtain ⟨hl', hr'⟩ : (adaptLiterals op l r).1.Fills site l.span ∧ (adaptLiterals op l r).2.Fills site r.span :=
    fills_adaptLiterals hl hr
  unfold binary
  refine .ite (fun _ => gives_poisoned hspan) fun _ => ?_
  cases op.isAssignment
  · simp only [Bool.false_eq_true, if_false]
    split
    · exact gives_reported hspan hspan
    refine .bind (gives_coerce_of_fills hl') fun left hleft =>
      .bind (gives_coerce_of_fills hr') fun right hright => ?_
    refine .bind (gives_foldBinary hspan) fun folded hfolded => .pure ?_
    cases folded with
    | none => exact fills_binary hleft hright
    | some e => exact hfolded e rfl
  · simp only [if_true]
    refine .bind (gives_assignable hl) fun _ _ => .ite (fun _ => gives_poisoned hspan) fun _ => ?_
    split
    · exact gives_reported hspan hspan
    refine .bind (.pure hl') fun left hleft => .bind (gives_coerce_of_fills hr') fun right hright => ?_
    refine .bind (P := fun folded => folded = none) (.pure rfl) fun folded hfolded => .pure ?_
    exact hfolded ▸ fills_binary hleft hright

lemma fills_foldUnary? (hspan : span.Within site.source) (he : e.Inside site span) :
    ((foldUnary? op e span).getD (.unary op e e.ty span)).Fills site span := by
  have hunary : (Expr.unary op e e.ty span).Fills site span :=
    ⟨Expr.liesIn_of_parts hspan (List.forall_mem_singleton.mpr he) nofun, rfl⟩
  unfold foldUnary?
  split
  · rename_i v s _
    cases Literal.unary? op s v with
    | none => exact hunary
    | some w => exact Expr.fills_literal hspan
  · exact hunary

lemma gives_unary (hspan : span.Within site.source) (he : e.Inside site span) :
    Gives site (unary op e span) (·.Fills site span) := by
  refine .ite (fun _ => gives_poisoned hspan) fun _ => .ite (fun _ => gives_reported hspan hspan) fun _ => ?_
  refine .ite (fun _ => .bind (gives_assignable he.liesIn) fun _ _ => ?_) fun _ =>
    .pure (fills_foldUnary? hspan he)
  exact .ite (fun _ => gives_poisoned hspan) fun _ => .pure (fills_foldUnary? hspan he)

lemma gives_step (hspan : span.Within site.source) (he : e.Inside site span) :
    Gives site (step op e span) (·.Fills site span) := by
  refine .ite (fun _ => gives_poisoned hspan) fun _ => .ite (fun _ => gives_reported hspan hspan) fun _ => ?_
  refine .bind (gives_assignable he.liesIn) fun _ _ => .ite (fun _ => gives_poisoned hspan) fun _ => .pure ?_
  exact ⟨Expr.liesIn_of_parts hspan (List.forall_mem_singleton.mpr he) nofun, rfl⟩

lemma fills_adaptBranches (ht : t.LiesIn site) (hf : f.LiesIn site) :
    (adaptBranches t f).1.Fills site t.span ∧ (adaptBranches t f).2.Fills site f.span := by
  unfold adaptBranches
  split
  · exact ⟨ht.fills, hf.fills⟩
  split
  · exact ⟨fills_of_retype? ht ‹_›, hf.fills⟩
  · exact ⟨ht.fills, fills_of_retype? hf ‹_›⟩
  · exact ⟨ht.fills, hf.fills⟩

/-- One of the branches may be all that is left, so the span can be smaller than that of the
whole. -/
lemma gives_conditional (hc : c.LiesIn site) (ht : t.Inside site (c.span.cover f.span)) (hf : f.LiesIn site) :
    Gives site (conditional c t f) (·.Inside site (c.span.cover f.span)) := by
  have hspan := hc.within.cover hf.within
  have hwhole {e : Expr} (he : e.Fills site (c.span.cover f.span)) := he.inside (Span.contains_self _)
  obtain ⟨ht', hf'⟩ := fills_adaptBranches ht.liesIn hf
  refine .bind (gives_coerce hc) fun c' hc' =>
    .ite (fun _ => .weaken (gives_poisoned hspan) fun _ => hwhole) fun _ => ?_
  dsimp only
  split
  · exact .weaken (gives_reported hspan hspan) fun _ => hwhole
  refine .bind (gives_coerce_of_fills ht') fun t' ht'' => .bind (gives_coerce_of_fills hf') fun f' hf'' => ?_
  have hleft := hc'.inside (Span.cover_contains_left c.span f.span)
  have hmiddle := ht''.inside ht.contains
  have hright := hf''.inside (Span.cover_contains_right c.span f.span)
  split
  · exact .pure hmiddle
  · exact .pure hright
  · refine .pure (hwhole ⟨Expr.liesIn_of_parts hspan ?_ (by simp), rfl⟩)
    exact List.forall_mem_cons.mpr ⟨hleft, List.forall_mem_cons.mpr
      ⟨hmiddle, List.forall_mem_singleton.mpr hright⟩⟩

/-! ### Access -/

lemma fills_variable {n : Nat} (hspan : span.Within site.source) (hn : site.Binds n) :
    (Expr.variable_ n ty span).Fills site span := by
  refine ⟨Expr.liesIn_iff.mpr ⟨⟨hspan, List.forall_mem_nil _, fun h => ?_⟩, List.forall_mem_nil _⟩, rfl⟩
  cases h
  exact hn

lemma gives_reference {n : Nat} (hspan : span.Within site.source) (hn : site.Binds n) :
    Gives site (reference n span) (·.Fills site span) := by
  refine .get_bind fun c _ => ?_
  dsimp only
  split
  · exact .pure (Expr.fills_literal hspan)
  · exact .pure (fills_variable hspan hn)

lemma fills_field {anonymous : Bool} (hspan : span.Within site.source) (he : e.Inside site span) :
    (Expr.field e i anonymous ty span).Fills site span :=
  ⟨Expr.liesIn_of_parts hspan (List.forall_mem_singleton.mpr he) nofun, rfl⟩

lemma gives_anonymousField {block : Nat} (hspan : span.Within site.source) (hblock : site.Binds block) :
    Gives site (anonymousField block i span) (·.Fills site span) :=
  .get_bind fun _ _ => .pure (fills_field hspan ((fills_variable hspan hblock).inside (Span.contains_self _)))

lemma gives_index {b i : Expr} (hspan : span.Within site.source) (hb : b.Inside site span)
    (hi : i.Inside site span) :
    Gives site (index b i span) (·.Fills site span) := by
  refine .ite (fun _ => gives_poisoned hspan) fun _ =>
    .ite (fun _ => gives_reported hi.liesIn.within hspan) fun _ => ?_
  split
  · exact gives_reported hb.liesIn.within hspan
  split
  · exact gives_reported hi.liesIn.within hspan
  · refine .pure ⟨Expr.liesIn_of_parts hspan ?_ (by simp), rfl⟩
    exact List.forall_mem_cons.mpr ⟨hb, List.forall_mem_singleton.mpr hi⟩

lemma gives_swizzle {mask : String} (he : e.LiesIn site) (hspan : span.Within site.source) :
    Gives site (swizzle e mask span) (·.Fills site (e.span.cover span)) := by
  have hcover := he.within.cover hspan
  refine .ite (fun _ => gives_reported hspan hcover) fun _ => ?_
  split
  · exact gives_reported hspan hcover
  split
  · refine .pure ⟨Expr.liesIn_of_parts hcover (List.forall_mem_singleton.mpr ?_) (by simp), rfl⟩
    exact he.fills.inside (Span.cover_contains_left ..)
  · exact gives_poisoned hcover

lemma gives_field {name : String} (he : e.LiesIn site) (hspan : span.Within site.source) :
    Gives site (field e name span) (·.Fills site (e.span.cover span)) := by
  have hcover := he.within.cover hspan
  refine .ite (fun _ => gives_poisoned hcover) fun _ => ?_
  split
  · split
    · exact .pure (fills_field hcover (he.fills.inside (Span.cover_contains_left ..)))
    · exact gives_reported hspan hcover
  · exact .ite (fun _ => gives_swizzle he hspan) fun _ => gives_reported hspan hcover

/-! ### Calls and constructors -/

/-- What is made of an expression inside a span with the expression's own span is inside the span,
too. -/
lemma Gives.inside {m : Check Expr} (h : Gives site m (·.Fills site e.span)) (he : e.Inside site span) :
    Gives site m (·.Inside site span) :=
  .weaken h fun _ h => h.inside he.contains

lemma gives_passArgument {out : Bool} (he : e.LiesIn site) :
    Gives site (passArgument e ty out) (·.Fills site e.span) := by
  refine .ite (fun _ => ?_) fun _ => gives_coerce he
  exact .bind (.reportIf he.within) fun _ _ => .bind (gives_assignable he) fun _ _ => .pure he.fills

lemma gives_noteCall {n : Nat} (hspan : span.Within site.source) : Gives site (noteCall n span) fun _ => True := by
  refine .modify fun c hc => ?_
  split
  · exact hc
  · exact ⟨hc.reports, List.forall_mem_cons.mpr ⟨hspan, hc.calls⟩, hc.types, hc.variables, hc.functions, hc.names⟩

lemma gives_call {name : String} {overloads : List Nat} (hspan : span.Within site.source)
    (hes : ∀ e ∈ es, e.Inside site span) :
    Gives site (call name overloads es span) (·.Fills site span) := by
  refine .ite (fun _ => gives_poisoned hspan) fun _ => .get_bind fun c _ => ?_
  split
  · exact gives_reported hspan hspan
  · exact gives_reported hspan hspan
  refine .bind (P := fun as => ∀ a ∈ as, a.Inside site span) (.mapM fun a ha => ?_) fun as has => ?_
  · have he := hes _ (List.of_mem_zip (List.of_mem_zip ha).1).1
    exact (gives_passArgument he.liesIn).inside he
  · exact .bind (gives_noteCall hspan) fun _ _ => .pure ⟨Expr.liesIn_of_parts hspan has (by simp), rfl⟩

lemma gives_castWhole (hspan : span.Within site.source) (he : e.Inside site span) :
    Gives site (castWhole e ty span) (·.Fills site span) :=
  .bind ((gives_cast he.liesIn).inside he) fun _ h => .pure (h.withSpan hspan)

lemma gives_castComponents {done : List Expr} {count : Nat} (hdone : ∀ e ∈ done, e.Inside site span)
    (hes : ∀ e ∈ es, e.Inside site span) :
    Gives site (castComponents ty done count es) fun r => ∀ x ∈ r, ∀ e ∈ x.1, e.Inside site span := by
  induction es generalizing done count with
  | nil => exact .pure (by rintro _ ⟨⟩; simpa using hdone)
  | cons e es ih =>
    obtain ⟨he, hes⟩ := List.forall_mem_cons.mp hes
    unfold castComponents
    refine .ite (fun _ => .bind (.report he.liesIn.within) fun _ _ => .pure nofun) fun _ => ?_
    split
    · exact .pure nofun
    · exact .bind ((gives_cast he.liesIn).inside he) fun e' he' => ih (List.forall_mem_cons.mpr ⟨he', hdone⟩) hes

lemma gives_compound (hspan : span.Within site.source) (hes : ∀ e ∈ es, e.Inside site span) :
    Gives site (compound ty es span) (·.Fills site span) := by
  refine .bind (gives_castComponents nofun hes) fun r hr => ?_
  split
  · exact gives_poisoned hspan
  · exact .ite (fun _ => .pure (fills_construct hspan (hr _ rfl))) fun _ => gives_reported hspan hspan

lemma gives_construct {target : Ty} {kind : ConstructorKind} (hspan : span.Within site.source)
    (he : e.Inside site span) :
    Gives site (do return Expr.construct kind [← cast e target] ty span) (·.Fills site span) :=
  .bind ((gives_cast he.liesIn).inside he) fun _ h =>
    .pure (fills_construct hspan (List.forall_mem_singleton.mpr h))

lemma gives_fromSingle? {m : Check Expr} (hspan : span.Within site.source) (he : e.Inside site span)
    (h : fromSingle? ty e span = some m) : Gives site m (·.Fills site span) := by
  unfold fromSingle? at h
  dsimp only at h
  split at h
  · obtain rfl := Option.some.inj h
    exact gives_construct hspan he
  split at h
  · split at h
    · obtain rfl := Option.some.inj h
      exact gives_castWhole hspan he
    · obtain rfl := Option.some.inj h
      split
      · exact gives_poisoned hspan
      · exact gives_construct hspan he
  split at h
  · obtain rfl := Option.some.inj h
    exact gives_castWhole hspan he
  · cases h

lemma gives_vectorOrMatrix (hspan : span.Within site.source) (hes : ∀ e ∈ es, e.Inside site span) :
    Gives site (vectorOrMatrix ty es span) (·.Fills site span) := by
  unfold vectorOrMatrix
  split
  · rename_i e
    cases h : fromSingle? ty e span with
    | none => exact gives_compound hspan hes
    | some m => exact gives_fromSingle? hspan (hes e List.mem_cons_self) h
  · exact gives_compound hspan hes

lemma gives_arrayOf {size : Option Nat} : Gives site (arrayOf ty size) fun _ => True := by
  refine .bind (.modify fun c hc => ⟨hc.reports, hc.calls, fun n ty' hty' =>
    ?_, hc.variables, hc.functions, hc.names⟩) fun _ _ =>
    .pure trivial
  dsimp only [TypeTable.addArray] at hty'
  split at hty'
  · exact hc.types n ty' hty'
  · obtain hty' | rfl := Arena.get?_of_push hty'
    · exact hc.types n ty' hty'
    · exact nofun

lemma gives_arrayConstructor {size : Option Nat} (hspan : span.Within site.source)
    (hes : ∀ e ∈ es, e.Inside site span) :
    Gives site (arrayConstructor ty size es span) (·.Fills site span) := by
  have hrest : Gives site (do
      let array ← arrayOf ty (some es.length)
      return Expr.construct .array (← es.mapM (coerce · ty)) array span) (·.Fills site span) := by
    refine .bind gives_arrayOf fun array _ => .bind (.mapM fun e he => ?_) fun es' hes' =>
      .pure (fills_construct hspan hes')
    exact (gives_coerce (hes e he).liesIn).inside (hes e he)
  unfold arrayConstructor
  cases size with
  | none => exact hrest
  | some n => exact .ite (fun _ => gives_reported hspan hspan) fun _ => hrest

lemma gives_structConstructor {fields : List (Field Ty)} (hspan : span.Within site.source)
    (hes : ∀ e ∈ es, e.Inside site span) :
    Gives site (structConstructor ty fields es span) (·.Fills site span) := by
  refine .ite (fun _ => gives_reported hspan hspan) fun _ => .bind (.mapM fun a ha => ?_) fun es' hes' =>
    .pure (fills_construct hspan hes')
  have he := hes _ (List.of_mem_zip ha).1
  exact (gives_coerce he.liesIn).inside he

lemma gives_scalarConstructor (hspan : span.Within site.source) (hes : ∀ e ∈ es, e.Inside site span) :
    Gives site (scalarConstructor ty es span) (·.Fills site span) := by
  unfold scalarConstructor
  split
  · exact .ite (fun _ => gives_castWhole hspan (hes _ List.mem_cons_self)) fun _ => gives_reported hspan hspan
  · exact gives_reported hspan hspan

lemma gives_constructor (hspan : span.Within site.source) (hes : ∀ e ∈ es, e.Inside site span) :
    Gives site (constructor ty es span) (·.Fills site span) := by
  refine .ite (fun _ => gives_poisoned hspan) fun _ => .ite (fun _ => gives_reported hspan hspan) fun _ => ?_
  split
  · exact gives_arrayConstructor hspan hes
  · exact gives_structConstructor hspan hes
  · exact gives_scalarConstructor hspan hes
  · exact gives_vectorOrMatrix hspan hes
  · exact gives_vectorOrMatrix hspan hes
  · exact gives_reported hspan hspan

end Check
end Shading
