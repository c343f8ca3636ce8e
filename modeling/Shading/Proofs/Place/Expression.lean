import Shading.Proofs.Place.Reading

/-! Expressions stand where they are read. -/
namespace Shading

variable {site : Site}

lemma Span.contains_cover {a b c : Span} (hb : a.contains b = true) (hc : a.contains c = true) :
    a.contains (b.cover c) = true :=
  contains_iff.mpr ⟨le_min (contains_iff.mp hb).1 (contains_iff.mp hc).1,
    max_le (contains_iff.mp hb).2 (contains_iff.mp hc).2⟩

namespace Expr

variable {e l r : Expr} {inner outer : Span}

lemma Inside.mono (h : e.Inside site inner) (houter : outer.contains inner = true) : e.Inside site outer :=
  ⟨h.liesIn, Span.contains_trans houter h.contains⟩

lemma Fills.inside_cover (h : e.Fills site (l.span.cover r.span)) (hl : l.Inside site outer)
    (hr : r.Inside site outer) :
    e.Inside site outer :=
  h.inside (Span.contains_cover hl.contains hr.contains)

end Expr

namespace Grammar

variable {α : Type} {s s0 t u : State} {env : Surroundings} {w : Word}

/-- The expression that is read stands between the states. -/
def ReadsInside (site : Site) (s : State) (m : Parse Expr) : Prop := Reads site s m fun e t =>
    e.Inside site (s.to t)

/-- Inner expressions stand where they are read. -/
class Inner.Places (inner : Inner) : Prop where
  whole : ∀ (site : Site) (s : State) (env : Surroundings), ReadsInside site s (inner.whole env)
  single : ∀ (site : Site) (s : State) (env : Surroundings), ReadsInside site s (inner.single env)

/-! ### Spans between states -/

namespace State

lemma to_congr (hfront : u.front = t.front) (hlast : u.lastEnd = t.lastEnd) : s.to u = s.to t := by
  unfold State.to State.passed
  rw [hfront, hlast]

lemma Takes.span_eq (h : s.Takes site w t) (hfresh : u.IsFresh) : (⟨w.span.start, u.lastEnd⟩ : Span) = s.to u := by
  unfold State.to
  rw [hfresh.passed, h.start]

lemma Takes.within_to (h : s.Takes site w t) (hreaches : t.Reaches u) (hu : u.Placed site) :
    (⟨w.span.start, u.lastEnd⟩ : Span).Within site.source :=
  ⟨h.within.ordered.trans (h.stop.le.trans hreaches.lastEnd), h.within.start, hu.valid⟩

lemma Sees.within_to (h : s.Sees t) (hw : w.span.Within site.source) (hspan : w.span = s.front.span)
    (hreaches : t.Reaches u)
    (hu : u.Placed site) : (⟨w.span.start, u.lastEnd⟩ : Span).Within site.source := by
  have hstop : w.span.stop = t.lastEnd := by rw [h.lastEnd, h.span, hspan]
  exact ⟨hw.ordered.trans (hstop.le.trans hreaches.lastEnd), hw.start, hu.valid⟩

lemma Takes.contains (h : s.Takes site w t) : (s.to t).contains w.span = true :=
  Span.contains_iff.mpr ⟨h.start.ge, h.stop.le.trans h.fresh.passed.ge⟩

end State

lemma reads_lift_expr {m : Check Expr} (h : Check.Gives site m (·.Inside site (s0.to s))) :
    Reads site s (lift m) fun e t => e.Inside site (s0.to t) :=
  .weaken (.lift h) fun _ _ _ _ ⟨he, hfront, hlast⟩ => State.to_congr hfront hlast ▸ he

lemma reads_lift {m : Check α} {Q : α → Prop} (h : Check.Gives site m Q) : Reads site s (lift m) fun a _ => Q a :=
  .weaken (.lift h) fun _ _ _ _ h => h.1

lemma ReadsInside.from (hs : s0.Reaches s) {m : Parse Expr} (h : ReadsInside site s m) :
    Reads site s m fun e t => e.Inside site (s0.to t) :=
  .weaken h fun _ _ _ _ he => he.mono hs.contains_left

/-! ### Types -/

section

variable {inner : Inner} [hinner : inner.Places] {fuel : Nat} {e : Expr}

lemma gives_arraySize (he : e.LiesIn site) : Check.Gives site (arraySize e) fun _ => True := by
  refine .ite (fun _ => .pure trivial) fun _ => ?_
  split
  · exact .ite (fun _ => .pure trivial) fun _ => .bind (.report he.within) fun _ _ => .pure trivial
  · exact .bind (.report he.within) fun _ _ => .pure trivial

variable {n : Nat}

lemma reads_suffixes {found : List (Option Nat × Span)} (hfound : ∀ x ∈ found, x.2.Within site.source) :
    Reads site s (suffixes inner env n found) fun r _ => ∀ x ∈ r, x.2.Within site.source := by
  induction n generalizing s found with
  | zero => exact reads_exhausted
  | succ n ih =>
    unfold suffixes
    refine .bind reads_accept? fun opening t _ _ hopening => ?_
    split
    · exact .pure hfound
    rename_i opening
    have htakes := hopening.1 opening rfl
    have hspan {u : State} {span : Span} (hu : u.Placed site) (htu : t.Reaches u)
      (h : span = ⟨opening.span.start, u.lastEnd⟩) :
        span.Within site.source := h ▸ htakes.within_to htu hu
    refine .bind reads_acceptMark fun closed t1 _ h1 _ => .ite (fun _ => ?_) fun _ => ?_
    · refine .bind reads_spanFrom fun span u hu h2 hs => ih (List.forall_mem_cons.mpr ⟨?_, hfound⟩)
      exact hspan hu (h1.trans h2) hs.1
    · refine .bind (hinner.whole site t1 env) fun e t2 _ h2 he => .bind reads_expect fun _ t3 _ h3 _ => ?_
      refine .bind (reads_lift (gives_arraySize he.liesIn)) fun size t4 _ h4 _ => ?_
      refine .bind reads_spanFrom fun span u hu h5 hs => ih (List.forall_mem_cons.mpr ⟨?_, hfound⟩)
      exact hspan hu ((((h1.trans h2).trans h3).trans h4).trans h5) hs.1

variable {span : Span}

lemma gives_wrap {ty : Ty} {found : List (Option Nat × Span)} (hspan : span.Within site.source)
    (hfound : ∀ x ∈ found, x.2.Within site.source) : Check.Gives site (wrap span ty found) fun _ => True := by
  induction found generalizing ty with
  | nil => exact .pure trivial
  | cons x found ih =>
    obtain ⟨hx, hfound⟩ := List.forall_mem_cons.mp hfound
    refine .ite (fun _ => .bind (.report hx) fun _ _ => .pure trivial) fun _ => .bind (.reportIf hx) fun _ _ => ?_
    exact .bind Check.gives_arrayOf fun _ _ => .bind (.reportIf (hspan.cover hx)) fun _ _ => ih hfound

lemma reads_arraySuffixes {ty : Ty} (hspan : span.Within site.source) :
    Reads site s (arraySuffixes inner fuel env ty span) fun _ _ => True :=
  .bind (reads_suffixes (List.forall_mem_nil _)) fun _ _ _ _ hfound => reads_lift (gives_wrap hspan hfound)

lemma reads_typeName : Reads site s (typeName inner fuel env) fun _ _ => True := by
  refine .bind reads_next fun w t _ _ htakes => .get_bind fun _ => ?_
  dsimp only
  split
  · exact reads_arraySuffixes htakes.1.within
  · exact reads_unexpected htakes.1.within

/-! ### Names -/

lemma reads_argumentsFrom {found : List Expr} (hs : s0.Reaches s) (hfound : ∀ e ∈ found, e.Inside site (s0.to s)) :
    Reads site s (argumentsFrom inner env n found) fun es t => (∀ e ∈ es, e.Inside site (s0.to t)) ∧
    t.IsFresh := by
  induction n generalizing s found with
  | zero => exact reads_exhausted
  | succ n ih =>
    refine .bind ((hinner.single site s env).from hs) fun e t _ h1 he => .bind reads_next fun w u _ h2 htakes => ?_
    have hall : ∀ x ∈ e :: found, x.Inside site (s0.to u) :=
      List.forall_mem_cons.mpr ⟨he.mono h2.contains_right, fun x hx =>
        (hfound x hx).mono (h1.trans h2).contains_right⟩
    refine .ite (fun _ => ih (hs.trans (h1.trans h2)) hall) fun _ =>
      .ite (fun _ => .pure ?_) fun _ => reads_unexpected htakes.1.within
    exact ⟨fun x hx => hall x (List.mem_reverse.mp hx), htakes.1.fresh⟩

lemma reads_arguments (hs : s0.Reaches s) :
    Reads site s (arguments inner fuel env) fun es t => (∀ e ∈ es, e.Inside site (s0.to t)) ∧ t.IsFresh := by
  refine .bind reads_acceptMark fun b t _ h1 hb => ?_
  split
  · exact .pure ⟨List.forall_mem_nil _, hb.1 ‹_›⟩
  · exact reads_argumentsFrom (hs.trans h1) (List.forall_mem_nil _)

/-- A constructor or a call: what is made of the arguments fills the span from the name to the
closing parenthesis. -/
lemma reads_applied (hw : s0.Takes site w t) (ht : t.Reaches s) {m : List Expr → Span → Check Expr}
    (hm : ∀ es span, span.Within site.source → (∀ e ∈ es, e.Inside site span) →
    Check.Gives site (m es span) (·.Fills site span)) :
    Reads site s (do
      let _ ← expectMark .lparen
      let es ← arguments inner fuel env
      lift (m es (← spanFrom w.span.start))) fun e u => e.Inside site (s0.to u) := by
  have h0 := hw.reaches.trans ht
  refine .bind reads_expect fun _ t1 _ h1 _ =>
    .bind (reads_arguments (h0.trans h1)) fun es t2 ht2 h2 ⟨hes, hfresh⟩ => ?_
  refine .bind reads_spanFrom fun span t3 ht3 h3 ⟨hspan, hsame⟩ => ?_
  subst hsame
  have hwithin := hw.within_to (((ht.trans h1).trans h2).trans h3) ht3
  rw [hw.span_eq hfresh] at hspan hwithin
  subst hspan
  exact reads_lift_expr (.weaken (hm es _ hwithin hes) fun _ he => he.inside (Span.contains_self _))

lemma reads_named (hw : s0.Takes site w s) : Reads site s (named inner fuel env w) fun e t =>
    e.Inside site (s0.to t) := by
  have hword : (s0.to s).contains w.span = true := hw.contains
  refine .get_bind fun hs => ?_
  have hbinds {n : Nat} (h : s.context.scopes.Refers n) : site.Binds n := ⟨_, _, hs.context.names, h⟩
  split
  · exact .bind (reads_arraySuffixes hw.within) fun ty t _ h _ => reads_applied hw h fun es span =>
      Check.gives_constructor
  · exact reads_applied hw (.refl s) fun es span => Check.gives_call
  · exact reads_lift_expr (.weaken (Check.gives_reference hw.within (hbinds ⟨_, .inl ‹_›⟩))
      fun _ he => he.inside hword)
  · exact reads_lift_expr (.weaken (Check.gives_anonymousField hw.within
      (hbinds ⟨_, .inr ⟨_, ‹_›⟩⟩)) fun _ he => he.inside hword)
  -- After an unknown name the arguments are read all the same.
  refine .bind (reads_lift (.report hw.within)) fun _ t1 _ h1 _ => .bind reads_acceptMark fun b t2 _ h2 _ => ?_
  split
  · refine .bind (reads_arguments (.refl t2)) fun _ t3 _ h3 h => ?_
    refine .bind reads_spanFrom fun span t4 ht4 h4 hspan => .pure ?_
    obtain ⟨rfl, rfl⟩ := hspan
    have hwithin := hw.within_to (((h1.trans h2).trans h3).trans h4) ht4
    rw [hw.span_eq h.2] at hwithin ⊢
    exact (Expr.fills_poison hwithin).inside (Span.contains_self _)
  · refine .pure ((Expr.fills_poison hw.within).inside (Span.contains_trans ?_ hword))
    exact (h1.trans h2).contains_right

/-! ### Operands -/

lemma gives_integerLiteral (hw : w.span.Within site.source) :
    Check.Gives site (integerLiteral w) (·.Fills site w.span) := by
  unfold integerLiteral
  split
  · refine .ite (fun _ => .bind (.report hw) fun _ _ => ?_) fun _ => .ite (fun _ => ?_) fun _ => ?_
    all_goals exact .pure (Expr.fills_literal hw)
  · exact .bind (.report hw) fun _ _ => .pure (Expr.fills_literal hw)

lemma gives_floatLiteral (hw : w.span.Within site.source) :
    Check.Gives site (floatLiteral w) (·.Fills site w.span) :=
  .ite (fun _ => .pure (Expr.fills_literal hw)) fun _ => .bind (.report hw) fun _ _ =>
    .pure (Expr.fills_literal hw)

lemma reads_primary : ReadsInside site s (primary inner fuel env) := by
  refine .bind reads_next fun w t _ _ ⟨hw, _⟩ => ?_
  have hliteral {e : Expr} (he : e.Fills site w.span) := he.inside hw.contains
  split
  · exact reads_lift_expr (.weaken (gives_integerLiteral hw.within) fun _ => hliteral)
  · exact reads_lift_expr (.weaken (gives_floatLiteral hw.within) fun _ => hliteral)
  · exact .pure (hliteral (Expr.fills_literal hw.within))
  · refine .bind (reads_nested hw.within fun env => hinner.whole site t env) fun e t1 _ h1 he => ?_
    refine .bind reads_expect fun _ t2 _ h2 hclosing => .bind reads_spanFrom fun span t3 ht3 h3 hspan => .pure ?_
    obtain ⟨rfl, rfl⟩ := hspan
    have hwithin := hw.within_to ((h1.trans h2).trans h3) ht3
    rw [hw.span_eq hclosing.fresh] at hwithin ⊢
    refine ((he.mono ?_).withSpan hwithin).inside (Span.contains_self _)
    exact Span.contains_trans hw.reaches.contains_left h2.contains_right
  · exact reads_named hw
  · exact reads_unexpected hw.within

/-- The span from an expression on to the last word that was passed goes around what has been read
since. -/
lemma within_from (he : e.Inside site (s0.to s)) (h : s.Reaches u) (hu : u.Placed site) (hfresh : u.IsFresh) :
    (⟨e.span.start, u.lastEnd⟩ : Span).Within site.source ∧ e.Inside site ⟨e.span.start, u.lastEnd⟩ ∧
      (s0.to u).contains ⟨e.span.start, u.lastEnd⟩ = true := by
  obtain ⟨hstart, hstop⟩ := Span.contains_iff.mp he.contains
  have hlast : e.span.stop ≤ u.lastEnd := hstop.trans (h.passed.trans hfresh.passed.le)
  refine ⟨⟨he.liesIn.within.ordered.trans hlast, he.liesIn.within.start, hu.valid⟩, ⟨he.liesIn, ?_⟩, ?_⟩
  · exact Span.contains_iff.mpr ⟨le_rfl, hlast⟩
  · exact Span.contains_iff.mpr ⟨hstart, hfresh.passed.ge⟩

lemma stop_le_start {a b : Expr} (ha : a.Inside site (s0.to s)) (h : s.Reaches t) (hb : b.Inside site (t.to u)) :
    a.span.stop ≤ b.span.start :=
  calc a.span.stop ≤ s.passed := (Span.contains_iff.mp ha.contains).2
    _ ≤ s.front.span.start := min_le_right ..
    _ ≤ t.front.span.start := h.front
    _ ≤ b.span.start := (Span.contains_iff.mp hb.contains).1

lemma gives_step_inside {op : Operator} {outer : Span} (he : e.Inside site outer) (hw : w.span.Within site.source)
    (hcontains : outer.contains w.span = true) :
    Check.Gives site (Check.step op e (e.span.cover w.span)) (·.Inside site outer) :=
  .weaken (Check.gives_step (he.liesIn.within.cover hw)
    (he.liesIn.fills.inside (Span.cover_contains_left ..))) fun _ h =>
    h.inside (Span.contains_cover he.contains hcontains)

lemma gives_field_inside {name : String} {outer : Span} (he : e.Inside site outer)
    (hspan : span.Within site.source)
    (hcontains : outer.contains span = true) : Check.Gives site (Check.field e name span) (·.Inside site outer) :=
  .weaken (Check.gives_field he.liesIn hspan) fun _ h => h.inside (Span.contains_cover he.contains hcontains)

/-- An element, whose index stands between the brackets, and what is made of it. -/
lemma reads_index {k : Expr → Parse Expr} {R : Expr → State → Prop} (he : e.Inside site (s0.to s))
    (ht : s.Reaches t)
    (hk : ∀ e' u, s.Reaches u → e'.Inside site (s0.to u) → Reads site u (k e') R) : Reads site t (do
      let i ← inner.whole env
      let _ ← expectMark .rbracket
      k (← lift (Check.index e i (← spanFrom e.span.start)))) R := by
  refine .bind (hinner.whole site t env) fun i t1 _ h1 hi => .bind reads_expect fun _ t2 ht2 h2 hclosed => ?_
  refine .bind reads_spanFrom fun span t3 _ _ hspan => ?_
  obtain ⟨rfl, rfl⟩ := hspan
  have hafter := ht.trans (h1.trans h2)
  obtain ⟨hwithin, hbase, houter⟩ := within_from he hafter ht2 hclosed.fresh
  have hindex : i.Inside site ⟨e.span.start, t3.lastEnd⟩ := by
    refine ⟨hi.liesIn, Span.contains_iff.mpr ⟨he.liesIn.within.ordered.trans (stop_le_start he ht hi), ?_⟩⟩
    exact (Span.contains_iff.mp (hi.mono h2.contains_right).contains).2.trans hclosed.fresh.passed.le
  refine .bind (reads_lift_expr (.weaken (Check.gives_index hwithin hbase hindex) fun _ h =>
    h.inside houter)) fun e' t4 _ h4 he' => ?_
  exact hk e' t4 (hafter.trans h4) he'

lemma reads_trailers (h0 : s0.Reaches s) (he : e.Inside site (s0.to s)) :
    Reads site s (trailers inner env n e) fun e t => e.Inside site (s0.to t) := by
  induction n generalizing s e with
  | zero => exact reads_exhausted
  | succ n ih =>
    refine .bind reads_peek fun w t _ h1 ⟨hw, hspan, _, hsees⟩ => ?_
    have hpass := reads_pass hw hspan hsees h1
    -- After each of them reading goes on with what has been made.
    have hnext (e' : Expr) (u : State) (hu : s.Reaches u) (he' : e'.Inside site (s0.to u)) := ih (h0.trans hu) he'
    have hstep {op : Operator} : Reads site t (do
        advance
        trailers inner env n (← lift (Check.step op e (e.span.cover w.span)))) fun e t =>
          e.Inside site (s0.to t) := by
      refine .bind hpass fun _ t2 _ _ htakes =>
        .bind (reads_lift_expr (gives_step_inside (he.mono htakes.reaches.contains_right) hw ?_))
        fun e' t3 _ h3 he' => hnext e' t3 (htakes.reaches.trans h3) he'
      exact Span.contains_trans h0.contains_left htakes.contains
    split
    · refine .bind hpass fun _ t2 _ _ htakes => .bind reads_accept? fun closing t3 _ h3 hclosing => ?_
      split
      · exact reads_unexpected (hclosing.1 _ rfl).within
      exact reads_index he (htakes.reaches.trans h3) hnext
    · refine .bind hpass fun _ t2 _ _ htakes => .bind reads_expect fun name t3 _ h3 hname => ?_
      have hafter := htakes.reaches.trans h3
      refine .bind (reads_lift_expr (gives_field_inside (he.mono hafter.contains_right) hname.within
        ?_)) fun e' t4 _ h4 he' =>
        hnext e' t4 (hafter.trans h4) he'
      exact Span.contains_trans (h0.trans htakes.reaches).contains_left hname.contains
    · exact hstep
    · exact hstep
    · exact .pure (he.mono h1.contains_right)

lemma reads_trailing : ReadsInside site s (trailing inner fuel env) :=
  .bind reads_primary fun _ _ _ h he => reads_trailers h he

lemma reads_leading {room : Nat} : ReadsInside site s (leading inner fuel env room) := by
  induction room generalizing s with
  | zero =>
    refine .bind reads_peek fun w t _ h1 ⟨hw, hspan, _, hsees⟩ => ?_
    split
    · exact reads_trailing.from h1
    · exact .bind (reads_pass hw hspan hsees h1) fun _ _ _ _ _ => reads_stop hw
  | succ room ih =>
    refine .bind reads_peek fun w t _ h1 ⟨hw, hspan, _, hsees⟩ => ?_
    split
    · exact reads_trailing.from h1
    refine .bind (reads_pass hw hspan hsees h1) fun _ t2 _ h2 htakes =>
      .bind (ih.from htakes.reaches) fun e t3 _ h3 he => ?_
    refine reads_lift_expr (.weaken (Check.gives_unary (hw.cover he.liesIn.within) ?_) fun _ h => h.inside ?_)
    · exact he.liesIn.fills.inside (Span.cover_contains_right ..)
    · exact Span.contains_cover (Span.contains_trans h3.contains_right htakes.contains) he.contains

/-! ### Operators between operands -/

lemma reads_binary {op : Operator} {l r : Expr} (hl : l.Inside site (s0.to s)) (hr : r.Inside site (s0.to s)) :
    Reads site s (lift (Check.binary l op r)) fun e t => e.Inside site (s0.to t) :=
  reads_lift_expr (.weaken (Check.gives_binary hl.liesIn hr.liesIn) fun _ he => he.inside_cover hl hr)

lemma reads_chain {operand : Parse Expr} {level : Precedence} {left : Expr}
    (hoperand : ∀ s, ReadsInside site s operand)
    (h0 : s0.Reaches s) (hleft : left.Inside site (s0.to s)) :
    Reads site s (chain operand level n left) fun e t => e.Inside site (s0.to t) := by
  induction n generalizing s left with
  | zero => exact reads_exhausted
  | succ n ih =>
    refine .bind reads_peek fun w t _ h1 ⟨hw, hspan, _, hsees⟩ => ?_
    split
    · exact .pure (hleft.mono h1.contains_right)
    refine .ite (fun _ => ?_) fun _ => .pure (hleft.mono h1.contains_right)
    refine .bind (reads_pass hw hspan hsees h1) fun _ t2 _ h2 htakes => ?_
    refine .bind ((hoperand t2).from (h0.trans htakes.reaches)) fun right t3 _ h3 hright => ?_
    refine .bind (reads_binary (hleft.mono (htakes.reaches.trans h3).contains_right) hright) fun e t4 _ h4 he => ?_
    exact ih (h0.trans ((htakes.reaches.trans h3).trans h4)) he

lemma reads_binaryLevels {levels : Nat} : ReadsInside site s (binaryLevels inner fuel env levels) := by
  induction levels generalizing s with
  | zero => exact reads_leading
  | succ levels ih => exact .bind ih fun _ _ _ h he => reads_chain (fun _ => ih) h he

lemma reads_conditional : ReadsInside site s (conditional inner fuel env) := by
  refine .bind reads_binaryLevels fun c t1 _ h1 hc => .bind reads_acceptMark fun b t2 _ h2 _ => ?_
  split
  · refine .bind (hinner.whole site t2 env) fun t t3 _ h3 ht => .bind reads_expect fun _ t4 _ h4 _ => ?_
    refine .bind (hinner.single site t4 env) fun f t5 _ h5 hf => ?_
    have hbranch : t.Inside site (c.span.cover f.span) := by
      have hbefore := hc.liesIn.within.ordered.trans (stop_le_start hc h2 ht)
      have hafter := (stop_le_start ht h4 hf).trans hf.liesIn.within.ordered
      exact ⟨ht.liesIn, Span.contains_iff.mpr ⟨(min_le_left ..).trans hbefore, hafter.trans (le_max_right ..)⟩⟩
    refine reads_lift_expr (.weaken (Check.gives_conditional hc.liesIn hbranch hf.liesIn)
      fun _ he => he.mono (Span.contains_cover ?_ ?_))
    · exact (hc.mono (((h2.trans h3).trans h4).trans h5).contains_right).contains
    · exact (hf.mono (((h1.trans h2).trans h3).trans h4).contains_left).contains
  · exact .pure (hc.mono h2.contains_right)

lemma reads_single : ReadsInside site s (single inner fuel env) := by
  refine .bind reads_conditional fun left t1 _ h1 hleft =>
    .bind reads_peek fun w t2 _ h2 ⟨hw, hspan, _, hsees⟩ => ?_
  split
  · exact .pure (hleft.mono h2.contains_right)
  refine .bind (reads_pass hw hspan hsees h2) fun _ t3 _ h3 htakes => ?_
  refine .bind ((hinner.single site t3 env).from (h1.trans htakes.reaches)) fun right t4 _ h4 hright => ?_
  exact reads_binary (hleft.mono (htakes.reaches.trans h4).contains_right) hright

lemma reads_sequence {left : Expr} (h0 : s0.Reaches s) (hleft : left.Inside site (s0.to s)) :
    Reads site s (sequence inner fuel env n left) fun e t => e.Inside site (s0.to t) := by
  induction n generalizing s left with
  | zero => exact reads_exhausted
  | succ n ih =>
    refine .bind reads_acceptMark fun b t1 _ h1 _ => ?_
    split
    · refine .bind (reads_single.from (h0.trans h1)) fun right t2 _ h2 hright => ?_
      refine .bind (reads_binary (hleft.mono (h1.trans h2).contains_right) hright) fun e t3 _ h3 he => ?_
      exact ih (h0.trans ((h1.trans h2).trans h3)) he
    · exact .pure (hleft.mono h1.contains_right)

end

instance places_expressions (n : Nat) : (expressions n).Places := by
  induction n with
  | zero => exact ⟨fun _ _ _ => reads_exhausted, fun _ _ _ => reads_exhausted⟩
  | succ n ih =>
    exact ⟨fun _ _ _ => .bind reads_single fun _ _ _ h he => reads_sequence h he, fun _ _ _ => reads_single⟩

end Grammar
end Shading
