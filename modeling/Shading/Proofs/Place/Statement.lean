import Shading.Proofs.Place.Expression

/-! Statements stand where they are read, one after the other. A statement that is not open is read
through its last word, and the next one starts after it; an open one has looked at the word after
it, and its span goes on to the end of that word. -/
namespace Shading

/-- What is known of the names stays known where scopes are entered and left and names are bound
that are no functions. -/
class Site.AllowsLocals (site : Site) : Prop where
  enter : ∀ {scopes functions}, site.holds scopes functions → site.holds scopes.enter functions
  leave : ∀ {scopes functions}, site.holds scopes functions → site.holds scopes.leave functions
  bind : ∀ {scopes scopes' functions name symbol}, (∀ numbers, symbol ≠ .functions numbers) →
    site.holds scopes functions →
    scopes.insert? name symbol = some scopes' → site.holds scopes' functions

variable {site : Site}

namespace Check

variable {name : String} {symbol : Symbol} {span outer : Span} {ty : Ty} {m : Modifiers}

lemma gives_enterScope [hsite : site.AllowsLocals] : Gives site enterScope fun _ => True :=
  .modify fun _ hc => ⟨hc.reports, hc.calls, hc.types, hc.variables, hc.functions, hsite.enter hc.names⟩

lemma gives_leaveScope [hsite : site.AllowsLocals] : Gives site leaveScope fun _ => True :=
  .modify fun _ hc => ⟨hc.reports, hc.calls, hc.types, hc.variables, hc.functions, hsite.leave hc.names⟩

lemma gives_addVariable {v : Variable} (hv : v.Within site.source) : Gives site (addVariable v) fun _ => True := by
  refine .get_bind fun c _ => .bind (.modify fun c hc => ?_) fun _ _ => .pure trivial
  refine ⟨hc.reports, hc.calls, hc.types, fun w hw => ?_, hc.functions, hc.names⟩
  obtain hw | rfl := Array.mem_push.mp hw
  · exact hc.variables w hw
  · exact hv

lemma gives_bindName [hsite : site.AllowsLocals] (hsymbol : ∀ numbers, symbol ≠ .functions numbers)
    (hspan : span.Within site.source) :
    Gives site (bindName name symbol span) fun _ => True := by
  intro c hc
  rw [bindName_eq]
  split
  · exact ⟨⟨hc.reports, hc.calls, hc.types, hc.variables, hc.functions, hsite.bind hsymbol hc.names ‹_›⟩, trivial⟩
  · exact ⟨(Gives.report hspan c hc).1, trivial⟩

lemma gives_checkInitializer {b : Bool} (hspan : span.Within site.source) :
    Gives site (checkInitializer m name span b) fun _ => True := by
  unfold checkInitializer
  split
  · exact .bind (.reportIf hspan) fun _ _ => .reportIf hspan
  · exact .reportIf hspan

lemma gives_constantValue {e : Option Expr} (he : ∀ i ∈ e, i.LiesIn site) :
    Gives site (constantValue m e) fun _ => True := by
  unfold constantValue
  split
  · refine .ite (fun _ => .get_bind fun _ _ => .bind (.reportIf (he _ rfl).within) fun _ _ =>
      .pure trivial) fun _ => .pure trivial
  · exact .pure trivial

lemma gives_declareVariable {e : Option Expr} {storage : Storage} [site.AllowsLocals] (hm : m.Within site.source)
    (hspan : span.Within site.source) (he : ∀ i ∈ e, i.Inside site outer) :
    Gives site (declareVariable m ty name span e storage) fun r => ∀ i ∈ r.2, i.Inside site outer := by
  have hcoerce : Gives site (e.mapM (coerce · ty)) fun e' => ∀ i ∈ e', i.Inside site outer := by
    cases e with
    | none => exact .pure (by simp)
    | some i =>
      refine .map (.weaken ((gives_coerce (he i rfl).liesIn).inside (he i rfl)) fun i' hi' => ?_)
      rintro _ ⟨⟩
      exact hi'
  refine .bind (.reportIf hspan) fun _ _ => .bind (.reportIf hspan) fun _ _ =>
    .bind (gives_checkInitializer hspan) fun _ _ => ?_
  refine .bind hcoerce fun e' he' => .bind (gives_constantValue fun i hi => (he' i hi).liesIn) fun constant _ => ?_
  exact .bind (gives_addVariable ⟨hspan, hm⟩) fun n _ =>
    .bind (gives_bindName (by simp) hspan) fun _ _ => .pure he'

end Check

/-! ### Statements in a row -/

namespace Stmt

variable {st : Stmt}

lemma liesIn_of_parts (hwithin : st.span.Within site.source) (hexprs : ∀ e ∈ st.exprs, e.Inside site st.span)
    (hparts : ∀ p ∈ st.parts, p.LiesIn site ∧ st.span.contains p.span = true) (hcases : st.cases = [])
    (hordered : ∀ body ∈ st.bodies, body.IsChain Before) : st.LiesIn site :=
  liesIn_iff.mpr ⟨⟨hwithin, fun p hp => (hparts p hp).2, hexprs, hcases ▸ List.forall_mem_nil _,
    hordered⟩, fun p hp => (hparts p hp).1⟩

lemma liesIn_simple (hwithin : st.span.Within site.source)
    (hexprs : ∀ e ∈ st.exprs, e.Inside site st.span) (hparts : st.parts = [])
    (hcases : st.cases = []) (hbodies : st.bodies = []) : st.LiesIn site :=
  liesIn_of_parts hwithin hexprs (hparts ▸ List.forall_mem_nil _) hcases (hbodies ▸ List.forall_mem_nil _)

end Stmt

namespace Grammar

variable {s s0 t u : State} {env : Surroundings} {st : Stmt} {found : List Stmt}

/-- How a statement stands to what comes after it. -/
structure StopsAt (st : Stmt) (t : State) : Prop where
  start : st.span.start ≤ t.front.span.start
  apart : st.isOpen = false → st.span.stop ≤ t.front.span.start
  open_ : st.isOpen = true → st.span.stop = t.front.span.stop

/-- How a statement stands between the states before and after it. -/
structure IsRead (site : Site) (s : State) (st : Stmt) (t : State) : Prop where
  liesIn : st.LiesIn site
  start : s.front.span.start ≤ st.span.start
  first : st.isExpr = false → st.span.start = s.front.span.start
  stop : st.span.stop = t.lastEnd
  fresh : st.isOpen = false → t.IsFresh
  open_ : st.isOpen = true → t.lastEnd = t.front.span.stop

lemma IsRead.stopsAt (h : IsRead site s st t) (hreaches : s.Reaches t) : StopsAt st t := by
  have hordered := (Stmt.liesIn_iff.mp h.liesIn).1.within.ordered
  refine ⟨?_, fun hopen => h.stop.le.trans (h.fresh hopen), fun hopen => h.stop.trans (h.open_ hopen)⟩
  cases hopen : st.isOpen with
  | false => exact hordered.trans (h.stop.le.trans (h.fresh hopen))
  | true =>
    have hexpr : st.isExpr = false := by
      cases st with
      | expr => cases hopen
      | _ => rfl
    exact (h.first hexpr).le.trans hreaches.front

lemma StopsAt.sees (h : StopsAt st s) (hsees : s.Sees t) : StopsAt st t := by
  obtain ⟨hstart, hapart, hopen⟩ := h
  rw [← hsees.span] at hstart hapart hopen
  exact ⟨hstart, hapart, hopen⟩

/-- What follows a statement comes after it, where the next word has been looked at. -/
lemma StopsAt.before {a b : Stmt} (ha : StopsAt a s) (hb : IsRead site s b t) (hs : s.Placed site)
    (hseen : s.lastEnd = s.front.span.stop)
    (hkind : b.isExpr = false → s.front.kind ≠ .endOfFile) (hreaches : s.Reaches t) : a.Before b := by
  have hordered := (Stmt.liesIn_iff.mp hb.liesIn).1.within.ordered
  refine ⟨ha.start.trans hb.start, ?_, fun hopen => (ha.apart hopen).trans hb.start, fun hopen hexpr => ?_⟩
  · cases hopen : a.isOpen with
    | false => exact (ha.apart hopen).trans (hb.start.trans hordered)
    | true =>
      rw [ha.open_ hopen, ← hseen, hb.stop]
      exact hreaches.lastEnd
  · have hword : s.front.span.start < s.front.span.stop := by
      have hline := hs.line
      cases hrest : s.rest with
      | nil =>
        rw [hrest] at hline
        exact absurd hline.2.2 (hkind hexpr)
      | cons w ws =>
        rw [hrest] at hline
        exact hline.2.1
    rw [hb.first hexpr, ha.open_ hopen]
    exact hword

/-- Statements that have been read one after the other, newest first. -/
structure Row (site : Site) (start : Nat) (found : List Stmt) (stop : Nat) : Prop where
  liesIn : ∀ x ∈ found, x.LiesIn site
  around : ∀ x ∈ found, start ≤ x.span.start ∧ x.span.stop ≤ stop
  ordered : found.IsChain fun b a => a.Before b

variable {start stop : Nat}

lemma row_nil : Row site start [] stop := ⟨List.forall_mem_nil _, List.forall_mem_nil _, .nil⟩

variable {stop' : Nat}

lemma Row.cons (h : Row site start found stop) (hst : st.LiesIn site) (hstart : start ≤ st.span.start)
    (hstop : st.span.stop ≤ stop') (hle : stop ≤ stop') (hbefore : ∀ a ∈ found.head?, a.Before st) :
    Row site start (st :: found) stop' := by
  refine ⟨List.forall_mem_cons.mpr ⟨hst, h.liesIn⟩, List.forall_mem_cons.mpr ⟨⟨hstart, hstop⟩, fun x hx => ?_⟩, ?_⟩
  · exact (h.around x hx).imp_right (·.trans hle)
  · exact List.isChain_cons.mpr ⟨hbefore, h.ordered⟩

lemma Row.block {braced : Bool} (h : Row site start found stop)
    (hspan : (⟨start, stop⟩ : Span).Within site.source) :
    (Stmt.block braced found.reverse ⟨start, stop⟩).LiesIn site := by
  refine Stmt.liesIn_of_parts hspan (List.forall_mem_nil _) (fun p hp => ?_) rfl (List.forall_mem_singleton.mpr ?_)
  · have hp := List.mem_reverse.mp hp
    exact ⟨h.liesIn p hp, Span.contains_iff.mpr (h.around p hp)⟩
  · exact List.isChain_reverse.mpr h.ordered

/-! ### Modifiers -/

variable {span : Span} {n : Nat}

section Modifiers

variable {w : Word} {key : String}

lemma gives_layoutNumber (hw : w.span.Within site.source) :
    Check.Gives site (layoutNumber key w) fun _ => True := by
  unfold layoutNumber
  split
  · refine .ite (fun _ => .bind (.reportIf hw) fun _ _ => .pure trivial) fun _ =>
      .bind (.report hw) fun _ _ => .pure trivial
  · exact .bind (.report hw) fun _ _ => .pure trivial

lemma reads_layoutValue? : Reads site s (layoutValue? key) fun _ _ => True := by
  refine .bind reads_acceptMark fun b t _ _ _ => .ite (fun _ => ?_) fun _ => .pure trivial
  exact .bind reads_expect fun w _ _ _ hw => .bind (reads_lift (gives_layoutNumber hw.within))
    fun _ _ _ _ _ => .pure trivial

variable {spec : LayoutSpec}

lemma gives_enterLayout {value : Option Nat} (hspan : span.Within site.source) :
    Check.Gives site (enterLayout spec key value span) fun _ => True := by
  unfold enterLayout
  split
  · exact .bind (.reportIf hspan) fun _ _ => .pure trivial
  split
  · exact .pure trivial
  · exact .bind (.report hspan) fun _ _ => .pure trivial
  · exact .bind (.report hspan) fun _ _ => .pure trivial

lemma reads_layoutKeys {seen : List (String × Span)} (hseen : ∀ x ∈ seen, x.2.Within site.source) :
    Reads site s (layoutKeys n spec seen) fun r _ => ∀ x ∈ r.2, x.2.Within site.source := by
  induction n generalizing s spec seen with
  | zero => exact reads_exhausted
  | succ n ih =>
    refine .bind reads_expect fun key _ _ _ hkey => .bind reads_layoutValue? fun _ _ _ _ _ => ?_
    refine .bind (reads_lift (.reportIf hkey.within)) fun _ _ _ _ _ =>
      .bind (reads_lift (gives_enterLayout hkey.within)) fun _ _ _ _ _ => ?_
    have hall : ∀ x ∈ (key.text, key.span) :: seen, x.2.Within site.source :=
      List.forall_mem_cons.mpr ⟨hkey.within, hseen⟩
    refine .bind reads_next fun w _ _ _ hw => .ite (fun _ => ih hall) fun _ =>
      .ite (fun _ => .pure hall) fun _ => ?_
    exact reads_unexpected hw.1.within

lemma gives_dropBoundKey {seen : List (String × Span)} {key : LayoutKey}
    (hseen : ∀ x ∈ seen, x.2.Within site.source) (hspan : span.Within site.source) :
    Check.Gives site (dropBoundKey seen span spec key) fun _ => True := by
  refine .ite (fun _ => .bind (.report ?_) fun _ _ => .pure trivial) fun _ => .pure trivial
  cases h : seen.lookup key.keyword with
  | none => exact hspan
  | some found =>
    obtain ⟨_, _, rfl, -⟩ := List.lookup_eq_some_iff.mp h
    exact hseen (key.keyword, found) (by simp)

lemma reads_layoutGroup {fuel : Nat} : Reads site s (layoutGroup fuel spec) fun _ _ => True := by
  refine .bind reads_expect fun _ _ _ _ _ => .bind (reads_layoutKeys (List.forall_mem_nil _))
    fun r _ _ _ hseen => ?_
  refine .ite (fun _ => .bind reads_lastEnd fun n t ht _ hn => ?_) fun _ => .pure trivial
  have hspan : (Span.point n).Within site.source := by
    rw [hn.1]
    exact ⟨le_rfl, ht.valid, ht.valid⟩
  exact reads_lift (.foldlM trivial fun _ _ _ _ => gives_dropBoundKey hseen hspan)

lemma reads_modifierWords {m : Modifiers} (hspan : (⟨start, stop⟩ : Span).Within site.source)
    (hs : start ≤ s.front.span.start) :
    Reads site s (modifierWords n m stop) fun r _ => (⟨start, r.2⟩ : Span).Within site.source := by
  induction n generalizing s m stop with
  | zero => exact reads_exhausted
  | succ n ih =>
    refine .bind reads_peek fun w t _ h1 ⟨hw, hfront, _, hsees⟩ => ?_
    have hstop : start ≤ w.span.stop := hs.trans (hfront ▸ hw.ordered)
    have hpass := reads_pass hw hfront hsees h1
    refine .ite (fun _ => .bind hpass fun _ t2 _ _ htakes => ?_) fun _ => ?_
    · refine .bind reads_layoutGroup fun _ t3 _ h3 _ => .bind reads_lastEnd fun k t4 ht4 h4 hk => ?_
      have hreaches := h3.trans h4
      rw [hk.1]
      refine ih ⟨hstop.trans (htakes.stop.le.trans hreaches.lastEnd), hspan.start, ht4.valid⟩ ?_
      exact hs.trans (htakes.reaches.trans hreaches).front
    split
    · refine .bind hpass fun _ t2 _ _ htakes => .bind (reads_lift (.reportIf hw)) fun _ t3 _ h3 _ => ?_
      exact ih ⟨hstop, hspan.start, hw.stop⟩ (hs.trans (htakes.reaches.trans h3).front)
    · exact .pure hspan

lemma reads_modifiers {fuel : Nat} : Reads site s (modifiers fuel) fun m _ => m.Within site.source := by
  refine .bind reads_peek fun w t _ h1 ⟨hw, hfront, _, hsees⟩ => ?_
  refine .bind (reads_modifierWords ⟨le_rfl, hw.start, hw.start⟩ ?_) fun r _ _ _ hr => .pure hr
  rw [hfront, hsees.span]

end Modifiers

/-! ### Simple statements -/

/-- Inner statements stand where they are read, and not at the end of the source. -/
class Parts.Places (parts : Parts) : Prop where
  expression : parts.expression.Places
  statement : ∀ {site : Site} [site.AllowsLocals] (s : State) (env : Surroundings),
    Reads site s (parts.statement env) fun st t =>
    IsRead site s st t ∧ (st.isExpr = false → s.front.kind ≠ .endOfFile)

attribute [instance] Parts.Places.expression

lemma Parts.Places.isRead {parts : Parts} [hparts : parts.Places] [site.AllowsLocals] (s : State)
    (env : Surroundings) :
    Reads site s (parts.statement env) (IsRead site s) :=
  .weaken (hparts.statement s env) fun _ _ _ _ h => h.1

variable {parts : Parts} [hparts : parts.Places] {w : Word}

lemma IsRead.congr (h : IsRead site s st t) (hfront : u.front = t.front)
    (hlast : u.lastEnd = t.lastEnd) : IsRead site s st u := by
  obtain ⟨hliesIn, hstart, hfirst, hstop, hfresh, hopen⟩ := h
  unfold State.IsFresh at hfresh
  rw [← hlast] at hstop hfresh hopen
  rw [← hfront] at hfresh hopen
  exact ⟨hliesIn, hstart, hfirst, hstop, hfresh, hopen⟩

lemma IsRead.sees (h : IsRead site t st u) (hsees : s.Sees t) : IsRead site s st u := by
  obtain ⟨hliesIn, hstart, hfirst, hstop, hfresh, hopen⟩ := h
  rw [hsees.span] at hstart hfirst
  exact ⟨hliesIn, hstart, hfirst, hstop, hfresh, hopen⟩

lemma isRead_of_fresh (hstart : st.span.start = s.front.span.start)
    (hstop : st.span.stop = t.lastEnd) (hfresh : t.IsFresh)
    (hopen : st.isOpen = false) (hst : st.LiesIn site) : IsRead site s st t :=
  ⟨hst, hstart.ge, fun _ => hstart, hstop, fun _ => hfresh, fun h => by rw [hopen] at h; cases h⟩

lemma isRead_simple (hw : s.Takes site w t) (htu : t.Reaches u) (hu : u.Placed site) (hfresh : u.IsFresh)
    (hspan : st.span = ⟨w.span.start, u.lastEnd⟩) (hexprs : ∀ e ∈ st.exprs, e.Inside site (s.to u))
    (hparts : st.parts = [])
    (hcases : st.cases = []) (hbodies : st.bodies = []) (hopen : st.isOpen = false) : IsRead site s st u := by
  have hto := hspan.trans (hw.span_eq hfresh)
  have hwithin : st.span.Within site.source := hspan ▸ hw.within_to htu hu
  refine isRead_of_fresh ?_ ?_ hfresh hopen (Stmt.liesIn_simple hwithin (hto ▸ hexprs) hparts hcases hbodies)
  · rw [hspan, hw.start]
  · rw [hspan]

lemma reads_expressionStatement : Reads site s (expressionStatement parts env) fun st t =>
    IsRead site s st t ∧ st.isExpr = true := by
  refine .bind (hparts.expression.whole site s env) fun e t _ h1 he =>
    .bind reads_expect fun _ t2 ht2 h2 hclosed => ?_
  refine .bind reads_spanFrom fun span t3 _ _ hspan => .pure ?_
  obtain ⟨rfl, rfl⟩ := hspan
  obtain ⟨hwithin, hinside, -⟩ := within_from he h2 ht2 hclosed.fresh
  have hst : (Stmt.expr e ⟨e.span.start, t3.lastEnd⟩).LiesIn site :=
    Stmt.liesIn_simple hwithin (List.forall_mem_singleton.mpr hinside) rfl rfl rfl
  exact ⟨⟨hst, (Span.contains_iff.mp he.contains).1, nofun, rfl, fun _ => hclosed.fresh, nofun⟩, rfl⟩

lemma reads_initializer {b : Bool} : Reads site s
    (if b then some <$> parts.expression.single env else pure none) fun e t =>
    ∀ i ∈ e, i.Inside site (s.to t) := by
  exact .ite (fun _ => .some (hparts.expression.single site s env)) fun _ => .pure (by simp)

/-- The span of a declarator: from its name to the end of the value, or of the word after it if
there is none. -/
lemma within_declarator {e : Option Expr} (hw : s.Takes site w t) (ht : t.Reaches u) {v : State}
    (hu : u.Reaches v) (hv : v.Placed site)
    (he : ∀ i ∈ e, i.Inside site (u.to v)) :
    let span : Span := ⟨w.span.start, (e.map (·.span.stop)).getD v.lastEnd⟩
    span.Within site.source ∧ span.stop ≤ v.lastEnd ∧ ∀ i ∈ e, i.Inside site span := by
  cases e with
  | none => exact ⟨hw.within_to (ht.trans hu) hv, le_rfl, by simp⟩
  | some i =>
    have hi := he i rfl
    obtain ⟨hstart, hstop⟩ := Span.contains_iff.mp hi.contains
    have hname : w.span.start ≤ i.span.start := hw.start.le.trans ((hw.reaches.trans ht).front.trans hstart)
    refine ⟨⟨hname.trans hi.liesIn.within.ordered, hw.within.start, hi.liesIn.within.stop⟩,
      hstop.trans (min_le_left ..), ?_⟩
    rintro _ ⟨⟩
    exact ⟨hi.liesIn, Span.contains_iff.mpr ⟨hname, le_rfl⟩⟩

lemma reads_localDeclarators [site.AllowsLocals] {m : Modifiers} {base : Ty} (hm : m.Within site.source)
    (hs : start ≤ s.front.span.start) (hrow : Row site start found s.lastEnd)
    (hnewest : ∀ a ∈ found.head?, a.isOpen = false ∧ a.span.stop ≤ s.front.span.start) :
    Reads site s (localDeclarators parts env m base n found) fun r t => ∃ found, r = found.reverse ∧
    Row site start found t.lastEnd := by
  induction n generalizing s found with
  | zero => exact reads_exhausted
  | succ n ih =>
    refine .bind reads_expect fun name t1 _ h1 hname =>
      .bind (reads_arraySuffixes hname.within) fun ty t2 _ h2 _ => ?_
    refine .bind reads_acceptMark fun b t3 _ h3 _ => .ite_bind reads_initializer fun e t4 ht4 h4 he => ?_
    refine .bind reads_lastEnd fun k t5 _ _ hk => ?_
    obtain ⟨rfl, rfl⟩ := hk
    obtain ⟨hspan, hstop, hinside⟩ := within_declarator hname (h2.trans h3) h4 ht4 he
    refine .bind (reads_lift (Check.gives_declareVariable hm hname.within hinside)) fun r t6 _ h6 hr => ?_
    refine .bind reads_acceptMark fun comma t7 ht7 h7 hcomma => ?_
    have hafter : s.Reaches t7 := h1.trans (h2.trans (h3.trans (h4.trans (h6.trans h7))))
    have hlast : (e.map (·.span.stop)).getD t5.lastEnd ≤ t7.lastEnd := hstop.trans (h6.trans h7).lastEnd
    have hst : (Stmt.declare r.1 r.2 ⟨name.span.start, (e.map (·.span.stop)).getD t5.lastEnd⟩).LiesIn site :=
      Stmt.liesIn_simple hspan (fun i hi => hr i (Option.mem_toList.mp hi)) rfl rfl rfl
    have hrow' := hrow.cons hst (hs.trans hname.start.ge) hlast hafter.lastEnd fun a ha => by
      obtain ⟨hopen, hbefore⟩ := hnewest a ha
      have hordered := (Stmt.liesIn_iff.mp (hrow.liesIn a (List.mem_of_mem_head? ha))).1.within.ordered
      have hstart := hbefore.trans hname.start.ge
      exact ⟨hordered.trans hstart, hstart.trans hspan.ordered, fun _ => hstart, fun h =>
        by rw [hopen] at h; cases h⟩
    refine .ite (fun hmore => ih (hs.trans hafter.front) hrow' ?_) fun _ => .pure ⟨_, rfl, hrow'⟩
    rintro _ ⟨⟩
    exact ⟨rfl, hlast.trans (hcomma.1 hmore)⟩

lemma reads_localDeclaration [site.AllowsLocals] : Reads site s (localDeclaration parts env) (IsRead site s) := by
  refine .bind reads_peek fun w t1 _ h1 ⟨hw, hfront, _, hsees⟩ => ?_
  refine .bind reads_modifiers fun m t2 _ h2 hm => ?_
  refine .bind (reads_lift (.reportIf hm)) fun _ t3 _ h3 _ => .bind reads_typeName fun base t4 _ h4 _ => ?_
  have hstart : w.span.start = s.front.span.start := by rw [hfront]
  have hbefore : s.Reaches t4 := h1.trans (h2.trans (h3.trans h4))
  refine .bind (reads_localDeclarators hm (hstart.le.trans hbefore.front) row_nil (by simp))
    fun r t5 _ h5 ⟨found, hr, hrow⟩ => ?_
  refine .bind reads_expect fun _ t6 ht6 h6 hclosed => .bind reads_spanFrom fun span t7 _ _ hspan => ?_
  obtain ⟨rfl, rfl⟩ := hspan
  subst hr
  have hwithin := hsees.within_to hw hfront (h2.trans (h3.trans (h4.trans (h5.trans h6)))) ht6
  have hrow : Row site w.span.start found t7.lastEnd :=
    ⟨hrow.liesIn, fun x hx => (hrow.around x hx).imp_right (·.trans h6.lastEnd), hrow.ordered⟩
  split
  · rename_i number initializer old hfound
    have hmem : Stmt.declare number initializer old ∈ found :=
      List.mem_reverse.mp (hfound ▸ List.mem_singleton_self _)
    refine .pure (isRead_of_fresh hstart rfl hclosed.fresh rfl
      (Stmt.liesIn_simple hwithin (fun i hi => ?_) rfl rfl rfl))
    exact ((Stmt.liesIn_iff.mp (hrow.liesIn _ hmem)).1.exprs i hi).mono
      (Span.contains_iff.mpr (hrow.around _ hmem))
  · exact .pure (isRead_of_fresh hstart rfl hclosed.fresh rfl (hrow.block hwithin))

/-! ### Blocks -/

lemma Row.mono {start' : Nat} (h : Row site start found stop) (hstart : start' ≤ start) (hstop : stop ≤ stop') :
    Row site start' found stop' :=
  ⟨h.liesIn, fun x hx => (h.around x hx).imp hstart.trans (·.trans hstop), h.ordered⟩

lemma Row.read (hrow : Row site start found s.lastEnd) (hnewest : ∀ a ∈ found.head?, StopsAt a s)
    (hs : s.Placed site) (hseen : s.lastEnd = s.front.span.stop)
    (hkind : st.isExpr = false → s.front.kind ≠ .endOfFile)
    (hstart : start ≤ s.front.span.start) (hst : IsRead site s st t) (hreaches : s.Reaches t) :
    Row site start (st :: found) t.lastEnd :=
  hrow.cons hst.liesIn (hstart.trans hst.start) hst.stop.le hreaches.lastEnd fun a ha =>
    (hnewest a ha).before hst hs hseen hkind hreaches

lemma reads_blockStatements [site.AllowsLocals] (hs : start ≤ s.front.span.start)
    (hrow : Row site start found s.lastEnd) (hnewest : ∀ a ∈ found.head?, StopsAt a s) :
    Reads site s (blockStatements parts env n found) fun r t =>
    (∃ found, r = found.reverse ∧ Row site start found t.lastEnd) ∧ t.IsFresh := by
  induction n generalizing s found with
  | zero => exact reads_exhausted
  | succ n ih =>
    refine .bind reads_peek fun w t ht h1 hpost => ?_
    obtain ⟨hw, hfront, _, hsees⟩ := hpost
    have hrow := hrow.mono le_rfl h1.lastEnd
    split
    · refine .bind (reads_pass hw hfront hsees h1) fun _ u _ h2 htakes => .pure ⟨⟨found, rfl, ?_⟩, htakes.fresh⟩
      exact hrow.mono le_rfl h2.lastEnd
    · exact reads_unexpected hw
    · have hs := hs.trans h1.front
      refine .bind (hparts.statement t env) fun st u _ h2 hst => ?_
      refine ih (hs.trans h2.front) ?_ ?_
      · exact hrow.read (fun a ha => (hnewest a ha).sees hsees) ht hsees.lastEnd hst.2 hs hst.1 h2
      · rintro _ ⟨⟩
        exact hst.1.stopsAt h2

lemma reads_blockBody [site.AllowsLocals] (hw : s0.Takes site w t) (ht : t.Reaches s) :
    Reads site s (blockBody parts env w) (IsRead site s0) := by
  have hstart : w.span.start ≤ s.front.span.start := hw.start.le.trans (hw.reaches.trans ht).front
  refine .bind (reads_nested hw.within fun env => reads_blockStatements hstart row_nil nofun)
    fun r t1 _ h1 hr => ?_
  obtain ⟨⟨found, rfl, hrow⟩, hfresh⟩ := hr
  refine .bind reads_spanFrom fun span t2 ht2 _ hspan => .pure ?_
  obtain ⟨rfl, rfl⟩ := hspan
  exact isRead_of_fresh hw.start rfl hfresh rfl (hrow.block (hw.within_to (ht.trans h1) ht2))

lemma reads_lift_isRead {α : Type} {m : Check α} {Q : α → Prop} (hst : IsRead site s0 st s)
    (hm : Check.Gives site m Q) :
    Reads site s (lift m) fun _ t => IsRead site s0 st t :=
  .weaken (.lift hm) fun _ _ _ _ h => hst.congr h.2.1 h.2.2

lemma reads_blockStatement [site.AllowsLocals] : Reads site s (blockStatement parts env) (IsRead site s) := by
  refine .bind reads_next fun w t1 _ _ ⟨hw, _⟩ => ?_
  refine .bind (reads_lift Check.gives_enterScope) fun _ t2 _ h2 _ => ?_
  refine .bind (reads_blockBody hw h2) fun st t3 _ h3 hst => ?_
  exact .bind (reads_lift_isRead hst Check.gives_leaveScope) fun _ _ _ _ hst => .pure hst

/-! ### Branches and loops -/

/-- A statement that ends with another one, from its first word on. It is open if the other one
is. -/
lemma isRead_compound {last : Stmt} (hw : s.Takes site w t) (htu : t.Reaches u)
    (hlast : IsRead site s0 last u) (hu : u.Placed site)
    (hspan : st.span = ⟨w.span.start, u.lastEnd⟩) (hopen : st.isOpen = last.isOpen)
    (hst : st.span.Within site.source → st.LiesIn site) : IsRead site s st u := by
  have hwithin : st.span.Within site.source := hspan ▸ hw.within_to htu hu
  have hstart : st.span.start = s.front.span.start := by rw [hspan, hw.start]
  refine ⟨hst hwithin, hstart.ge, fun _ => hstart,
    by rw [hspan], fun h => hlast.fresh (hopen ▸ h), fun h => hlast.open_ (hopen ▸ h)⟩

lemma reads_condition : Reads site s (condition parts env) fun e t => e.Inside site (s.to t) := by
  refine .bind reads_expect fun _ t1 _ h1 _ => .bind (hparts.expression.whole site t1 env) fun e t2 _ h2 he => ?_
  refine .bind reads_expect fun _ t3 _ h3 _ => reads_lift_expr ((Check.gives_coerce he.liesIn).inside ?_)
  exact he.mono (Span.contains_trans h1.contains_left h3.contains_right)

variable {e : Expr}

/-- What is read between two states stands in a span from the first word of the one to the last word
that the other has seen. -/
lemma inside_span (hw : s.Takes site w t) (he : e.Inside site (t.to u)) {v : State} (hu : u.Reaches v) :
    e.Inside site ⟨w.span.start, v.lastEnd⟩ := by
  obtain ⟨hstart, hstop⟩ := Span.contains_iff.mp he.contains
  refine ⟨he.liesIn, Span.contains_iff.mpr ⟨hw.start.le.trans (hw.reaches.front.trans hstart), ?_⟩⟩
  exact hstop.trans ((min_le_left ..).trans hu.lastEnd)

lemma contains_span (hw : s.Takes site w t) (ht : t.Reaches s0) (hst : IsRead site s0 st u)
    {v : State} (hu : u.Reaches v) :
    (⟨w.span.start, v.lastEnd⟩ : Span).contains st.span = true :=
  Span.contains_iff.mpr ⟨hw.start.le.trans ((hw.reaches.trans ht).front.trans hst.start),
    hst.stop.le.trans hu.lastEnd⟩

lemma reads_ifStatement [site.AllowsLocals] : Reads site s (ifStatement parts env) (IsRead site s) := by
  refine .bind reads_next fun w t1 _ _ ⟨hw, _⟩ => ?_
  refine .bind reads_condition fun c t2 _ h2 hc => ?_
  refine .bind (hparts.isRead t2 env) fun a t3 _ h3 ha => .bind reads_accept? fun found t4 ht4 h4 hfound => ?_
  have helse : Reads site t4 (if found.isSome then some <$> parts.statement env else pure none) fun f t =>
      (∀ x ∈ f, IsRead site t4 x t) ∧ (f = none → t.lastEnd = t.front.span.stop) := by
    refine .ite (fun _ => .map (.weaken (hparts.isRead t4 env) fun x t _ _ hx =>
      ⟨by simpa using hx, by simp⟩)) fun hnone => .pure ⟨by simp, fun _ => ?_⟩
    exact (hfound.2 (by simpa using hnone)).lastEnd
  refine .ite_bind helse fun f t5 ht5 h5 ⟨hf, hnone⟩ => ?_
  refine .bind reads_spanFrom fun span t6 _ _ hspan => .pure ?_
  obtain ⟨rfl, rfl⟩ := hspan
  have hafter := h2.trans (h3.trans (h4.trans h5))
  have hparts : ∀ p ∈ a :: f.toList, p.LiesIn site ∧
    (⟨w.span.start, t6.lastEnd⟩ : Span).contains p.span = true := by
    refine List.forall_mem_cons.mpr ⟨⟨ha.liesIn, contains_span hw h2 ha (h4.trans h5)⟩, fun x hx => ?_⟩
    have hx := hf x (Option.mem_toList.mp hx)
    exact ⟨hx.liesIn, contains_span hw (h2.trans (h3.trans h4)) hx (.refl t6)⟩
  have hst (hwithin : (⟨w.span.start, t6.lastEnd⟩ : Span).Within site.source) :
      (Stmt.if_ c a f ⟨w.span.start, t6.lastEnd⟩).LiesIn site :=
    Stmt.liesIn_of_parts hwithin (List.forall_mem_singleton.mpr
      (inside_span hw hc (h3.trans (h4.trans h5)))) hparts rfl
      (List.forall_mem_nil _)
  cases f with
  | none =>
    have hstart : w.span.start = s.front.span.start := hw.start
    exact ⟨hst (hw.within_to hafter ht5), hstart.ge, fun _ =>
      hstart, rfl, by simp [Stmt.isOpen], fun _ => hnone rfl⟩
  | some x => exact isRead_compound hw hafter (hf x rfl) ht5 rfl rfl hst

lemma liesIn_loop {kind : LoopKind} {init : Option Stmt} {c step : Option Expr} {body : Stmt}
    (hinit : ∀ x ∈ init, x.LiesIn site ∧ span.contains x.span = true) (hc : ∀ e ∈ c, e.Inside site span)
    (hstep : ∀ e ∈ step, e.Inside site span) (hbody : body.LiesIn site)
    (hcontains : span.contains body.span = true)
    (hspan : span.Within site.source) : (Stmt.loop kind init c step body span).LiesIn site := by
  refine Stmt.liesIn_of_parts hspan (fun e he => ?_) (fun p hp => ?_) rfl (List.forall_mem_nil _)
  · obtain he | he := List.mem_append.mp he
    · exact hc e (Option.mem_toList.mp he)
    · exact hstep e (Option.mem_toList.mp he)
  · obtain hp | hp := List.mem_append.mp hp
    · exact hinit p (Option.mem_toList.mp hp)
    · rw [List.mem_singleton.mp hp]
      exact ⟨hbody, hcontains⟩

lemma reads_whileStatement [site.AllowsLocals] : Reads site s (whileStatement parts env) (IsRead site s) := by
  refine .bind reads_next fun w t1 _ _ ⟨hw, _⟩ => ?_
  refine .bind reads_condition fun c t2 _ h2 hc => ?_
  refine .bind (hparts.isRead t2 _) fun body t3 ht3 h3 hbody =>
    .bind reads_spanFrom fun span t4 _ _ hspan => .pure ?_
  obtain ⟨rfl, rfl⟩ := hspan
  refine isRead_compound hw (h2.trans h3) hbody ht3 rfl rfl (liesIn_loop (by simp) ?_ (by simp) hbody.liesIn ?_)
  · rintro _ ⟨⟩
    exact inside_span hw hc h3
  · exact contains_span hw h2 hbody (.refl t4)

lemma reads_doStatement [site.AllowsLocals] : Reads site s (doStatement parts env) (IsRead site s) := by
  refine .bind reads_next fun w t1 _ _ ⟨hw, _⟩ => ?_
  refine .bind (hparts.isRead t1 _) fun body t2 _ h2 hbody => ?_
  refine .bind reads_expect fun _ t3 _ h3 _ => .bind reads_condition fun c t4 _ h4 hc =>
    .bind reads_expect fun _ t5 ht5 h5 hclosed => ?_
  refine .bind reads_spanFrom fun span t6 _ _ hspan => .pure ?_
  obtain ⟨rfl, rfl⟩ := hspan
  have hafter := h2.trans (h3.trans (h4.trans h5))
  refine isRead_of_fresh hw.start rfl hclosed.fresh rfl
    (liesIn_loop (by simp) ?_ (by simp) hbody.liesIn ?_ (hw.within_to hafter ht5))
  · rintro _ ⟨⟩
    exact inside_span hw (hc.mono (h2.trans h3).contains_left) h5
  · exact contains_span hw (.refl t1) hbody (h3.trans (h4.trans h5))

lemma reads_forInit [site.AllowsLocals] : Reads site s (forInit parts env) fun i t =>
    ∀ x ∈ i, IsRead site s x t := by
  refine .bind reads_peek fun w t1 _ h1 ⟨hw, hfront, _, hsees⟩ => ?_
  have hsome {m : Parse Stmt} (hm : Reads site t1 m (IsRead site t1)) :
    Reads site t1 (some <$> m) fun i t => ∀ x ∈ i, IsRead site s x t :=
    .some (.weaken hm fun _ _ _ _ hx => hx.sees hsees)
  refine .ite (fun _ => .bind (reads_pass hw hfront hsees h1) fun _ _ _ _ _ => .pure (by simp))
    fun _ => .get_bind fun _ => ?_
  exact .ite (fun _ => hsome reads_localDeclaration) fun _ =>
    hsome (.weaken reads_expressionStatement fun _ _ _ _ h => h.1)

lemma reads_forCondition : Reads site s (forCondition parts env) fun c t => ∀ e ∈ c, e.Inside site (s.to t) := by
  refine .bind reads_looksAt fun b t1 _ h1 _ => .ite (fun _ => .pure (by simp)) fun _ => ?_
  refine .bind ((hparts.expression.whole site t1 env).from h1) fun e t2 _ h2 he => ?_
  exact .some (reads_lift_expr ((Check.gives_coerce he.liesIn).inside he))

lemma reads_forStatement [site.AllowsLocals] : Reads site s (forStatement parts env) (IsRead site s) := by
  refine .bind reads_next fun w t1 _ _ ⟨hw, _⟩ => ?_
  refine .bind reads_expect fun _ t2 _ h2 _ => ?_
  refine .bind (reads_lift Check.gives_enterScope) fun _ t3 _ h3 _ =>
    .bind reads_forInit fun init t4 _ h4 hinit => ?_
  refine .bind reads_forCondition fun c t5 _ h5 hc => .bind reads_expect fun _ t6 _ h6 _ =>
    .bind reads_looksAt fun b t7 _ h7 _ => ?_
  have hstep : Reads site t7 (if b = true then pure none else some <$> parts.expression.whole env)
    fun e t => ∀ i ∈ e, i.Inside site (t7.to t) :=
    .ite (fun _ => .pure (by simp)) fun _ => .some (hparts.expression.whole site t7 env)
  refine .ite_bind hstep fun step t8 _ h8 hstep => .bind reads_expect fun _ t9 _ h9 _ => ?_
  refine .bind (hparts.isRead t9 _) fun body t10 _ h10 hbody => ?_
  refine .bind (reads_lift_isRead hbody Check.gives_leaveScope) fun _ t11 ht11 h11 hbody => ?_
  refine .bind reads_spanFrom fun span t12 _ _ hspan => .pure ?_
  obtain ⟨rfl, rfl⟩ := hspan
  have hinner := h2.trans h3
  have hend := h9.trans (h10.trans h11)
  have hrest := h6.trans (h7.trans (h8.trans hend))
  have hafter := hinner.trans (h4.trans (h5.trans hrest))
  refine isRead_compound hw hafter hbody ht11 rfl rfl
    (liesIn_loop (fun x hx => ?_) (fun e he => ?_) (fun e he => ?_) hbody.liesIn ?_)
  · exact ⟨(hinit x hx).liesIn, contains_span hw hinner (hinit x hx) (h5.trans hrest)⟩
  · exact inside_span hw ((hc e he).mono (hinner.trans h4).contains_left) hrest
  · exact inside_span hw ((hstep e he).mono (hinner.trans (h4.trans (h5.trans (h6.trans h7)))).contains_left) hend
  · exact contains_span hw (hinner.trans (h4.trans (h5.trans (h6.trans (h7.trans (h8.trans h9))))))
      hbody (.refl t12)

/-! ### Switches -/

/-- A label with the statements after it, which are newest first. -/
structure CaseRow (site : Site) (start : Nat) (case : SwitchCase Stmt) (stop : Nat) : Prop where
  within : case.span.Within site.source
  around : start ≤ case.span.start ∧ case.span.stop ≤ stop
  body : Row site case.span.start case.body case.span.stop

/-- The labels so far, newest first; the last statement has just ended. -/
structure CasesRow (site : Site) (start : Nat) (cases : Cases) (s : State) : Prop where
  found : ∀ case ∈ cases.found, CaseRow site start case s.lastEnd
  newest : ∀ case ∈ cases.found.head?, ∀ a ∈ case.body.head?, StopsAt a s

variable {cases : Cases} {start : Nat} {selector : Option Ty}

lemma CaseRow.mono {case : SwitchCase Stmt} (h : CaseRow site start case stop) (hle : stop ≤ stop') :
    CaseRow site start case stop' :=
  ⟨h.within, h.around.imp_right (·.trans hle), h.body⟩

lemma CasesRow.mono (h : CasesRow site start cases s) (hsees : s.Sees t) (hst : s.Reaches t) :
    CasesRow site start cases t :=
  ⟨fun c hc => (h.found c hc).mono hst.lastEnd, fun c hc a ha => (h.newest c hc a ha).sees hsees⟩

lemma CasesRow.add {value : Option Int} (h : ∀ case ∈ cases.found, CaseRow site start case s.lastEnd)
    (hspan : span.Within site.source) (hstart : start ≤ span.start) (hstop : span.stop ≤ s.lastEnd) :
    CasesRow site start (cases.add ⟨value, [], span⟩) s := by
  refine ⟨List.forall_mem_cons.mpr ⟨⟨hspan, ⟨hstart, hstop⟩, row_nil⟩, h⟩, ?_⟩
  rintro _ ⟨⟩
  exact nofun

lemma CasesRow.push (h : CasesRow site start cases s) (hs : s.Placed site) (hseen : s.lastEnd = s.front.span.stop)
    (hkind : st.isExpr = false → s.front.kind ≠ .endOfFile) (hstart : start ≤ s.front.span.start)
    (hst : IsRead site s st t)
    (hreaches : s.Reaches t) : CasesRow site start (cases.push st) t := by
  obtain ⟨hfound, hnewest⟩ := h
  have hwithin := (Stmt.liesIn_iff.mp hst.liesIn).1.within
  unfold Cases.push
  split
  · rename_i hnone
    exact ⟨fun c hc => (hfound c hc).mono hreaches.lastEnd, by rw [hnone]; exact nofun⟩
  rename_i case more hsome
  rw [hsome] at hfound hnewest
  obtain ⟨⟨hspan, haround, hbody⟩, hmore⟩ := List.forall_mem_cons.mp hfound
  refine ⟨List.forall_mem_cons.mpr ⟨⟨hspan.cover hwithin, ⟨?_, ?_⟩, ?_⟩, fun c hc =>
    (hmore c hc).mono hreaches.lastEnd⟩, ?_⟩
  · exact le_min haround.1 (hstart.trans hst.start)
  · exact max_le (haround.2.trans hreaches.lastEnd) hst.stop.le
  · refine (hbody.mono (min_le_left ..) (le_max_left ..)).cons hst.liesIn (min_le_right ..)
      (le_max_right ..) le_rfl fun a ha => ?_
    exact (hnewest case rfl a ha).before hst hs hseen hkind hreaches
  · rintro _ ⟨⟩ _ ⟨⟩
    exact hst.stopsAt hreaches

lemma gives_caseValue (he : e.LiesIn site) : Check.Gives site (caseValue selector e) (·.Fills site e.span) := by
  unfold caseValue
  split
  · exact Check.gives_coerce he
  · exact .pure he.fills

lemma gives_addCaseValue {values : List Int} (he : e.LiesIn site) :
    Check.Gives site (addCaseValue values e) fun _ => True := by
  unfold addCaseValue
  split <;> exact .bind (.reportIf he.within) fun _ _ => .pure trivial

lemma reads_addLabel {value : Option Int} (hw : s0.Takes site w t) (ht : t.Reaches s)
    (hstart : start ≤ s0.front.span.start)
    (hfound : ∀ case ∈ cases.found, CaseRow site start case s0.lastEnd) :
    Reads site s (do return cases.add ⟨value, [], ← spanFrom w.span.start⟩) fun c t =>
    CasesRow site start c t := by
  refine .bind reads_spanFrom fun span u hu h hspan => .pure ?_
  obtain ⟨rfl, rfl⟩ := hspan
  have hreaches := hw.reaches.trans ht
  exact .add (fun c hc => (hfound c hc).mono hreaches.lastEnd) (hw.within_to ht hu)
    (hstart.trans hw.start.ge) le_rfl

lemma reads_caseLabel (hw : s0.Takes site w s) (hstart : start ≤ s0.front.span.start)
    (hfound : ∀ case ∈ cases.found, CaseRow site start case s0.lastEnd) :
    Reads site s (caseLabel parts env selector cases w) fun c t => CasesRow site start c t := by
  refine .bind (hparts.expression.whole site s env) fun e t1 _ h1 he => ?_
  refine .bind (reads_lift (gives_caseValue he.liesIn)) fun e' t2 _ h2 he' =>
    .bind reads_expect fun _ t3 _ h3 _ => ?_
  refine .bind (reads_lift (gives_addCaseValue he'.liesIn)) fun values t4 _ h4 _ => ?_
  have hfound : ∀ case ∈ { cases with values }.found, CaseRow site start case s0.lastEnd := hfound
  exact reads_addLabel hw (h1.trans (h2.trans (h3.trans h4))) hstart hfound

lemma reads_defaultLabel (hw : s0.Takes site w s) (hstart : start ≤ s0.front.span.start)
    (hfound : ∀ case ∈ cases.found, CaseRow site start case s0.lastEnd) :
    Reads site s (defaultLabel cases w) fun c t => CasesRow site start c t := by
  refine .bind reads_expect fun _ t1 _ h1 _ => .bind (reads_lift (.reportIf hw.within)) fun _ t2 _ h2 _ => ?_
  have hfound : ∀ case ∈ { cases with hasDefault := true }.found, CaseRow site start case s0.lastEnd := hfound
  exact reads_addLabel hw (h1.trans h2) hstart hfound

lemma reads_switchCases [site.AllowsLocals] (hs : start ≤ s.front.span.start)
    (hrow : CasesRow site start cases s) :
    Reads site s (switchCases parts env selector n cases) fun r t =>
      (∃ cases : Cases, r = cases.toList ∧ ∀ case ∈ cases.found, CaseRow site start case t.lastEnd)
      ∧ t.IsFresh := by
  induction n generalizing s cases with
  | zero => exact reads_exhausted
  | succ n ih =>
    refine .bind reads_peek fun w t ht h1 hpost => ?_
    obtain ⟨hw, hfront, _, hsees⟩ := hpost
    have hpass := reads_pass hw hfront hsees h1
    have hrow' := hrow.mono hsees h1
    split
    · refine .bind hpass fun _ u _ h2 htakes => .pure ⟨⟨cases, rfl, fun c hc => ?_⟩, htakes.fresh⟩
      exact (hrow'.found c hc).mono h2.lastEnd
    · refine .bind hpass fun _ u _ _ htakes => .bind (reads_caseLabel htakes hs hrow.found) fun c v _ h3 hc => ?_
      exact ih (hs.trans (htakes.reaches.trans h3).front) hc
    · refine .bind hpass fun _ u _ _ htakes =>
        .bind (reads_defaultLabel htakes hs hrow.found) fun c v _ h3 hc => ?_
      exact ih (hs.trans (htakes.reaches.trans h3).front) hc
    · refine .ite (fun _ => .bind hpass fun _ _ _ _ _ => reads_unexpected hw) fun _ => ?_
      refine .bind (hparts.statement t env) fun st u _ h2 hst => ?_
      refine ih (hs.trans (h1.trans h2).front) ?_
      exact hrow'.push ht hsees.lastEnd hst.2 (hs.trans h1.front) hst.1 h2

lemma liesIn_switch (hspan : (⟨start, stop⟩ : Span).Within site.source) (he : e.Inside site ⟨start, stop⟩)
    (hcases : ∀ case ∈ cases.found, CaseRow site start case stop) :
    (Stmt.switch e cases.toList ⟨start, stop⟩).LiesIn site := by
  have hlabel : ∀ c ∈ cases.toList, ∃ case ∈ cases.found, { case with body := case.body.reverse } = c := fun c hc =>
    List.mem_map.mp (List.mem_reverse.mp hc)
  have hbody {case : SwitchCase Stmt} (hcase : case ∈ cases.found) : ∀ x ∈ case.body.reverse,
    x.LiesIn site ∧ case.span.contains x.span = true := by
    intro x hx
    have hrow := (hcases case hcase).body
    have hx := List.mem_reverse.mp hx
    exact ⟨hrow.liesIn x hx, Span.contains_iff.mpr (hrow.around x hx)⟩
  refine Stmt.liesIn_iff.mpr ⟨⟨hspan, fun p hp => ?_, List.forall_mem_singleton.mpr he, fun c hc =>
    ?_, fun body hbody => ?_⟩, fun p hp => ?_⟩
  · obtain ⟨c, hc, hp⟩ := List.mem_flatMap.mp hp
    obtain ⟨case, hcase, rfl⟩ := hlabel c hc
    exact Span.contains_trans (Span.contains_iff.mpr (hcases case hcase).around) (hbody hcase p hp).2
  · obtain ⟨case, hcase, rfl⟩ := hlabel c hc
    have hrow := hcases case hcase
    exact ⟨hrow.within, Span.contains_iff.mpr hrow.around, fun x hx => (hbody hcase x hx).2⟩
  · obtain ⟨c, hc, rfl⟩ := List.mem_map.mp hbody
    obtain ⟨case, hcase, rfl⟩ := hlabel c hc
    exact List.isChain_reverse.mpr (hcases case hcase).body.ordered
  · obtain ⟨c, hc, hp⟩ := List.mem_flatMap.mp hp
    obtain ⟨case, hcase, rfl⟩ := hlabel c hc
    exact (hbody hcase p hp).1

lemma reads_switchStatement [site.AllowsLocals] : Reads site s (switchStatement parts env) (IsRead site s) := by
  refine .bind reads_next fun w t1 _ _ ⟨hw, _⟩ => ?_
  refine .bind reads_expect fun _ t2 _ h2 _ => ?_
  refine .bind (hparts.expression.whole site t2 env) fun e t3 _ h3 he => .bind reads_expect fun _ t4 _ h4 _ => ?_
  refine .bind (reads_lift (.reportIf he.liesIn.within)) fun _ t5 _ h5 _ =>
    .bind reads_expect fun opening t6 _ h6 hopening => ?_
  have hbefore := h2.trans (h3.trans (h4.trans (h5.trans h6)))
  have hstart : w.span.start ≤ t6.front.span.start := hw.start.le.trans (hw.reaches.trans hbefore).front
  refine .bind (reads_nested hopening.within (Q := fun r t => (∃ cases : Cases, r = cases.toList ∧
    ∀ case ∈ cases.found, CaseRow site w.span.start case t.lastEnd) ∧ t.IsFresh) fun env => ?_)
      fun r t7 ht7 h7 hr => ?_
  · refine .bind (reads_lift Check.gives_enterScope) fun _ u _ hu _ => ?_
    refine .bind (reads_switchCases (hstart.trans hu.front) ⟨by simp, by simp⟩) fun r v _ _ hr => ?_
    refine .bind (.lift Check.gives_leaveScope) fun _ v' _ hv' ⟨_, hfront, hlast⟩ => ?_
    refine .pure ?_
    unfold State.IsFresh
    rw [hfront, hlast]
    exact hr
  obtain ⟨⟨cases, rfl, hcases⟩, hfresh⟩ := hr
  refine .bind reads_spanFrom fun span t8 _ _ hspan => .pure ?_
  obtain ⟨rfl, rfl⟩ := hspan
  refine isRead_of_fresh hw.start rfl hfresh rfl (liesIn_switch (hw.within_to (hbefore.trans h7) ht7) ?_ hcases)
  exact inside_span hw (he.mono h2.contains_left) (h4.trans (h5.trans (h6.trans h7)))

/-! ### Jumps -/

lemma gives_returnedValue {returns : Option Ty} (he : e.LiesIn site) :
    Check.Gives site (returnedValue returns e) (·.Fills site e.span) := by
  unfold returnedValue
  split
  · exact .ite (fun _ => .bind (.report he.within) fun _ _ => .pure he.fills) fun _ => Check.gives_coerce he
  · exact .pure he.fills

lemma gives_noReturnedValue {returns : Option Ty} (hspan : span.Within site.source) :
    Check.Gives site (noReturnedValue returns span) fun _ => True := by
  unfold noReturnedValue
  split
  · exact .reportIf hspan
  · exact .pure trivial

lemma reads_returned (hw : w.span.Within site.source) :
    Reads site s (returned parts env w) fun e t => ∀ i ∈ e, i.Inside site (s.to t) := by
  refine .bind reads_looksAt fun b t1 _ h1 _ => .ite (fun _ => ?_) fun _ => ?_
  · exact .bind (reads_lift (gives_noReturnedValue hw)) fun _ _ _ _ _ => .pure (by simp)
  refine .bind ((hparts.expression.whole site t1 env).from h1) fun e t2 _ h2 he => ?_
  exact .some (reads_lift_expr ((gives_returnedValue he.liesIn).inside he))

lemma reads_returnStatement : Reads site s (returnStatement parts env) (IsRead site s) := by
  refine .bind reads_next fun w t1 _ _ ⟨hw, _⟩ => ?_
  refine .bind (reads_returned hw.within) fun e t2 _ h2 he => ?_
  refine .bind reads_expect fun _ t3 ht3 h3 hclosed => .bind reads_spanFrom fun span t4 _ _ hspan => .pure ?_
  obtain ⟨rfl, rfl⟩ := hspan
  refine isRead_simple hw (h2.trans h3) ht3 hclosed.fresh rfl (fun i hi => ?_) rfl rfl rfl rfl
  exact (he i (Option.mem_toList.mp hi)).mono (Span.contains_trans hw.reaches.contains_left h3.contains_right)

lemma reads_jumpEnd {make : Span → Stmt} (ht : t.Reaches s)
    (hmake : ∀ {span u}, span = ⟨w.span.start, u.lastEnd⟩ → t.Reaches u → u.Placed site →
    u.IsFresh → IsRead site s0 (make span) u) :
    Reads site s (jumpEnd w make) (IsRead site s0) := by
  refine .bind reads_expect fun _ t1 ht1 h1 hclosed => .bind reads_spanFrom fun span t2 _ _ hspan => .pure ?_
  obtain ⟨hspan, rfl⟩ := hspan
  exact hmake hspan (ht.trans h1) ht1 hclosed.fresh

lemma reads_breakStatement : Reads site s (breakStatement env) (IsRead site s) := by
  refine .bind reads_next fun w t1 _ _ ⟨hw, _⟩ => ?_
  refine .bind (reads_lift (.reportIf hw.within)) fun _ t2 _ h2 _ => ?_
  exact reads_jumpEnd h2 fun hspan hreaches hu hfresh =>
    isRead_simple hw hreaches hu hfresh hspan (List.forall_mem_nil _) rfl rfl rfl rfl

lemma reads_continueStatement : Reads site s (continueStatement env) (IsRead site s) := by
  refine .bind reads_next fun w t1 _ _ ⟨hw, _⟩ => ?_
  refine .bind (reads_lift (.reportIf hw.within)) fun _ t2 _ h2 _ => ?_
  exact reads_jumpEnd h2 fun hspan hreaches hu hfresh =>
    isRead_simple hw hreaches hu hfresh hspan (List.forall_mem_nil _) rfl rfl rfl rfl

lemma reads_discardStatement : Reads site s discardStatement (IsRead site s) := by
  refine .bind reads_next fun w t1 _ _ ⟨hw, _⟩ => ?_
  refine .get_bind fun _ => .bind (reads_lift (.reportIf hw.within)) fun _ t2 _ h2 _ => ?_
  exact reads_jumpEnd h2 fun hspan hreaches hu hfresh =>
    isRead_simple hw hreaches hu hfresh hspan (List.forall_mem_nil _) rfl rfl rfl rfl

lemma reads_statementWith [site.AllowsLocals] : Reads site s (statementWith parts env) fun st t =>
    IsRead site s st t ∧ (st.isExpr = false → s.front.kind ≠ .endOfFile) := by
  refine .bind reads_peek fun w t ht h1 ⟨hw, hfront, hkind, hsees⟩ => ?_
  have hfrom {m : Parse Stmt} (hm : Reads site t m fun st u => IsRead site t st u ∧
    (st.isExpr = false → w.kind ≠ .endOfFile)) :
      Reads site t m fun st u => IsRead site s st u ∧ (st.isExpr = false → s.front.kind ≠ .endOfFile) :=
    .weaken hm fun _ _ _ _ ⟨hread, hword⟩ => ⟨hread.sees hsees, hkind ▸ hword⟩
  have hword {m : Parse Stmt} (hend : w.kind ≠ .endOfFile) (hm : Reads site t m (IsRead site t)) :=
    hfrom (.weaken hm fun _ _ _ _ h => ⟨h, fun _ => hend⟩)
  split <;> rename_i heq
  · exact hword (by simp [heq]) reads_blockStatement
  · refine .bind (reads_pass hw hfront hsees h1) fun _ u hu _ htakes =>
      .pure ⟨?_, fun _ => by rw [← hkind, heq]; simp⟩
    have hspan : (Stmt.empty w.span).span = ⟨w.span.start, u.lastEnd⟩ := by rw [← htakes.stop, Stmt.span]
    exact isRead_simple htakes (.refl u) hu htakes.fresh hspan (List.forall_mem_nil _) rfl rfl rfl rfl
  · exact hword (by simp [heq]) reads_ifStatement
  · exact hword (by simp [heq]) reads_forStatement
  · exact hword (by simp [heq]) reads_whileStatement
  · exact hword (by simp [heq]) reads_doStatement
  · exact hword (by simp [heq]) reads_switchStatement
  · exact hword (by simp [heq]) reads_returnStatement
  · exact hword (by simp [heq]) reads_breakStatement
  · exact hword (by simp [heq]) reads_continueStatement
  · exact hword (by simp [heq]) reads_discardStatement
  · refine .get_bind fun _ => .ite (fun hstarts => hword (fun hend => ?_) reads_localDeclaration) fun _ => ?_
    · rw [startsDeclaration, hend] at hstarts
      cases hstarts
    · exact hfrom (.weaken reads_expressionStatement fun st _ _ _ h =>
        ⟨h.1, fun hexpr => absurd hexpr (by simp [h.2])⟩)

instance places_statements {expression : Inner} [expression.Places] {fuel n : Nat} :
    (Parts.mk expression (statements expression fuel n) fuel).Places := by
  induction n with
  | zero => exact ⟨inferInstance, fun _ _ => reads_exhausted⟩
  | succ n ih => exact ⟨inferInstance, fun _ _ => reads_statementWith⟩

end Grammar
end Shading
