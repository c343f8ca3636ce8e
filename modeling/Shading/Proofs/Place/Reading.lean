import Shading.Grammar.Statement
import Shading.Proofs.Grammar.Journal
import Shading.Proofs.Place.Check

/-! How reading goes through a source. The words stand one after the other, and the end of the last
word that was looked at never goes back. What is read between two states therefore stands between
the first word of the one and the first word of the other, and before the last word that was looked
at. -/
namespace Shading

variable {site : Site}

/-! ### Statements and declarations -/

namespace Stmt

/-- The labels of a switch. -/
def cases : Stmt → List (SwitchCase Stmt)
  | .switch _ cases _ => cases
  | _ => []

/-- The lists of statements in which one follows the other. -/
def bodies : Stmt → List (List Stmt)
  | .block _ body _ => [body]
  | .switch _ cases _ => cases.map (·.body)
  | _ => []

/-- Whether an `else` after the statement would belong to it: it ends with an `if` that has none. -/
def isOpen : Stmt → Bool
  | .if_ _ _ none _ => true
  | .if_ _ _ (some f) _ => f.isOpen
  | .loop .doWhile .. => false
  | .loop _ _ _ _ body _ => body.isOpen
  | _ => false

/-- A statement that computes an expression. Its span starts where that of the expression starts,
which may be after its first word. -/
def isExpr : Stmt → Bool
  | .expr .. => true
  | _ => false

/-- One statement comes before the other. An `if` to which an `else` could belong goes on to the end
of the word after it. -/
structure Before (a b : Stmt) : Prop where
  start : a.span.start ≤ b.span.start
  stop : a.span.stop ≤ b.span.stop
  apart : a.isOpen = false → a.span.stop ≤ b.span.start
  overlap : a.isOpen = true → b.isExpr = false → b.span.start < a.span.stop

/-- The span of the statement is a part of the source that goes around everything in it, and its
statements stand in order. -/
structure Stands (site : Site) (s : Stmt) : Prop where
  within : s.span.Within site.source
  around : ∀ p ∈ s.parts, s.span.contains p.span = true
  exprs : ∀ e ∈ s.exprs, e.Inside site s.span
  cases : ∀ c ∈ s.cases, c.span.Within site.source ∧ s.span.contains c.span = true ∧
    ∀ x ∈ c.body, c.span.contains x.span = true
  ordered : ∀ body ∈ s.bodies, body.IsChain Before

def LiesIn (site : Site) (s : Stmt) : Prop := ∀ x ∈ s.nodes, x.Stands site

lemma liesIn_iff {s : Stmt} : s.LiesIn site ↔ s.Stands site ∧ ∀ p ∈ s.parts, p.LiesIn site :=
  forall_nodes

lemma LiesIn.ofSource {s : Stmt} (h : s.LiesIn site) : s.LiesIn (.ofSource site.source) := by
  intro x hx
  obtain ⟨hwithin, haround, hexprs, hcases, hordered⟩ := h x hx
  exact ⟨hwithin, haround, fun e he => (hexprs e he).ofSource, hcases, hordered⟩

end Stmt

def Element.LiesIn (site : Site) : Element → Prop
  | .struct _ span | .block _ span | .prototype _ span => span.Within site.source
  | .global _ e span => span.Within site.source ∧ ∀ i ∈ e, i.Inside site span
  | .definition _ _ body span => span.Within site.source ∧ body.LiesIn site ∧ span.contains body.span = true

lemma Element.LiesIn.ofSource {e : Element} (h : e.LiesIn site) : e.LiesIn (.ofSource site.source) := by
  cases e with
  | struct | block | prototype => exact h
  | global n i span => exact ⟨h.1, fun i hi => (h.2 i hi).ofSource⟩
  | definition f ps body span => exact ⟨h.1, h.2.1.ofSource, h.2.2⟩

/-! ### Words -/

/-- The word and the reports that come with it stand in the source. -/
structure Word.Within (source : String) (w : Word) : Prop where
  span : w.span.Within source
  notes : ∀ r ∈ w.notes, r.span.Within source

/-- The words stand one after the other; only the last one, the end of the source, is empty. -/
def Word.Line (source : String) : Word → List Word → Prop
  | w, [] => w.Within source ∧ w.span.stop = w.span.start ∧ w.kind = .endOfFile
  | w, v :: rest => w.Within source ∧ w.span.start < w.span.stop ∧ w.span.stop ≤ v.span.start ∧ v.Line source rest

lemma Word.Line.within {source : String} {w : Word} {rest : List Word} (h : w.Line source rest) :
    w.Within source := by
  cases rest <;> exact h.1

lemma Word.Line.silent {source : String} {w : Word} {rest : List Word} (h : w.Line source rest) :
    Word.Line source { w with notes := [] } rest := by
  cases rest <;> exact ⟨⟨h.1.span, List.forall_mem_nil _⟩, h.2⟩

namespace Grammar

structure State.Placed (site : Site) (s : State) : Prop where
  context : s.context.Placed site
  line : s.front.Line site.source s.rest
  valid : (⟨s.lastEnd⟩ : String.Pos.Raw).IsValid site.source
  lastEnd : s.lastEnd ≤ s.front.span.stop
  follows : site.follows s.elements

/-- One state comes before another. -/
structure State.Reaches (s t : State) : Prop where
  front : s.front.span.start ≤ t.front.span.start
  lastEnd : s.lastEnd ≤ t.lastEnd

/-- The end of what has been passed. -/
def State.passed (s : State) : Nat := min s.lastEnd s.front.span.start

/-- The part of the source that is read between two states. -/
def State.to (s t : State) : Span := ⟨s.front.span.start, t.passed⟩

/-- No word has been looked at that is still to come. -/
def State.IsFresh (s : State) : Prop := s.lastEnd ≤ s.front.span.start

namespace State

variable {s t u : State}

lemma Reaches.refl (s : State) : s.Reaches s := ⟨le_rfl, le_rfl⟩

lemma Reaches.trans (h : s.Reaches t) (k : t.Reaches u) : s.Reaches u :=
    ⟨h.front.trans k.front, h.lastEnd.trans k.lastEnd⟩

lemma Reaches.passed (h : s.Reaches t) : s.passed ≤ t.passed := min_le_min h.lastEnd h.front

lemma Reaches.contains_left (h : s.Reaches t) : (s.to u).contains (t.to u) = true :=
    Span.contains_iff.mpr ⟨h.front, le_rfl⟩

lemma Reaches.contains_right (h : t.Reaches u) : (s.to u).contains (s.to t) = true :=
    Span.contains_iff.mpr ⟨le_rfl, h.passed⟩

lemma IsFresh.passed (h : s.IsFresh) : s.passed = s.lastEnd := min_eq_left h

end State

/-! ### Steps -/

variable {α β : Type} {m : Parse α} {f : α → Parse β} {s : State} {P Q : α → State → Prop} {R : β → State → Prop}

/-- From a state in place a state further on is reached, with a result as stated; and where reading
stops, things are in place. -/
def Reads (site : Site) (s : State) (m : Parse α) (Q : α → State → Prop) : Prop :=
  s.Placed site → (after m s).Placed site ∧ ∀ a t, m s = .ok a t → s.Reaches t ∧ Q a t

namespace Reads

lemma pure {a : α} (h : Q a s) : Reads site s (pure a) Q := by
  refine fun hs => ⟨hs, ?_⟩
  rintro _ _ ⟨⟩
  exact ⟨.refl s, h⟩

lemma weaken (hm : Reads site s m P) (h : ∀ a t, t.Placed site → s.Reaches t → P a t → Q a t) :
    Reads site s m Q := by
  refine fun hs => ⟨(hm hs).1, fun a t hrun => ?_⟩
  obtain ⟨ht, hread⟩ := hm hs
  obtain ⟨hreaches, ha⟩ := hread a t hrun
  exact ⟨hreaches, h a t (after_ok hrun ▸ ht) hreaches ha⟩

lemma bind (hm : Reads site s m P) (hf : ∀ a t, t.Placed site → s.Reaches t → P a t → Reads site t (f a) R) :
    Reads site s (m >>= f) R := by
  intro hs
  obtain ⟨ht, hread⟩ := hm hs
  rw [KeepsJournal.after_bind, KeepsJournal.bind_eq]
  cases hrun : m s with
  | ok a t =>
    rw [after_ok hrun] at ht
    obtain ⟨hreaches, ha⟩ := hread a t hrun
    obtain ⟨hu, hrest⟩ := hf a t ht hreaches ha ht
    exact ⟨hu, fun b u hrun => (hrest b u hrun).imp_left hreaches.trans⟩
  | error e t =>
    rw [after_error hrun] at ht
    exact ⟨ht, nofun⟩

lemma map {g : α → β} (hm : Reads site s m fun a t => R (g a) t) : Reads site s (g <$> m) R :=
  bind (f := fun a => Pure.pure (g a)) hm fun _ _ _ _ h => pure h

lemma some (hm : Reads site s m Q) : Reads site s (some <$> m) fun o t => ∀ a ∈ o, Q a t :=
  .map (.weaken hm fun _ _ _ _ ha => by rintro _ ⟨⟩; exact ha)

lemma get_bind {f : State → Parse β} (h : s.Placed site → Reads site s (f s) R) :
    Reads site s (get >>= f) R := fun hs => h hs hs

lemma ite {p : Prop} [Decidable p] {n : Parse α} (hm : p → Reads site s m Q) (hn : ¬ p → Reads site s n Q) :
    Reads site s (if p then m else n) Q := by
  split
  · exact hm ‹_›
  · exact hn ‹_›

lemma ite_bind {p : Prop} [Decidable p] {n : Parse α} (h : Reads site s (if p then m else n) P)
    (hf : ∀ a t, t.Placed site → s.Reaches t → P a t → Reads site t (f a) R) :
    Reads site s (if p then m >>= f else n >>= f) R := by
  split at h
  · rw [if_pos ‹_›]
    exact bind h hf
  · rw [if_neg ‹_›]
    exact bind h hf

lemma lift {m : Check α} {Q : α → Prop} (hm : Check.Gives site m Q) :
    Reads site s (lift m) fun a t => Q a ∧ t.front = s.front ∧ t.lastEnd = s.lastEnd := by
  intro hs
  obtain ⟨hc, ha⟩ := hm s.context hs.context
  refine ⟨⟨hc, hs.line, hs.valid, hs.lastEnd, hs.follows⟩, ?_⟩
  rintro _ _ ⟨⟩
  exact ⟨⟨le_rfl, le_rfl⟩, ha, rfl, rfl⟩

end Reads

/-- The first word has been looked at. -/
structure State.Sees (s t : State) : Prop where
  span : t.front.span = s.front.span
  kind : t.front.kind = s.front.kind
  lastEnd : t.lastEnd = t.front.span.stop

/-- The word was the first one and has been passed. -/
structure State.Takes (site : Site) (s : State) (w : Word) (t : State) : Prop where
  reaches : s.Reaches t
  within : w.span.Within site.source
  start : w.span.start = s.front.span.start
  stop : w.span.stop = t.lastEnd
  fresh : t.IsFresh

lemma placed_notes {c : Context} {notes : List Report} (hc : c.Placed site)
    (hnotes : ∀ r ∈ notes, r.span.Within site.source) :
    Context.Placed site { c with journal := notes.foldl (fun j r => .problemFound r :: j) c.journal } := by
  induction notes generalizing c with
  | nil => exact hc
  | cons n notes ih =>
    obtain ⟨hn, hnotes⟩ := List.forall_mem_cons.mp hnotes
    exact ih (c := { c with journal := .problemFound n :: c.journal })
      (Check.Gives.report (p := n.problem) hn c hc).1 hnotes

lemma reads_peek : Reads site s peek fun w t => w.span.Within site.source ∧ w.span = s.front.span ∧
    w.kind = s.front.kind ∧ s.Sees t := by
  intro hs
  have hword := hs.line.within
  refine ⟨⟨placed_notes hs.context hword.notes, hs.line.silent, hword.span.stop, le_rfl, hs.follows⟩, ?_⟩
  rintro _ _ ⟨⟩
  exact ⟨⟨le_rfl, hs.lastEnd⟩, hword.span, rfl, rfl, rfl, rfl, rfl⟩

lemma reads_advance (h : s.lastEnd = s.front.span.stop) : Reads site s advance fun _ t =>
    t.lastEnd = s.lastEnd ∧ t.IsFresh := by
  intro hs
  have hline := hs.line
  unfold after advance
  cases hrest : s.rest with
  | nil =>
    rw [hrest] at hline
    refine ⟨hs, ?_⟩
    rintro _ _ ⟨⟩
    exact ⟨.refl s, rfl, (h.trans hline.2.1).le⟩
  | cons w ws =>
    rw [hrest] at hline
    obtain ⟨hword, -, hnext, hline⟩ := hline
    have hstop := hline.within.span.ordered
    refine ⟨⟨hs.context, hline, hs.valid, by dsimp only; omega, hs.follows⟩, ?_⟩
    rintro _ _ ⟨⟩
    exact ⟨⟨hword.span.ordered.trans hnext, le_rfl⟩, rfl, h.le.trans hnext⟩

lemma reads_pass {w : Word} {t : State} (hw : w.span.Within site.source)
    (hspan : w.span = s.front.span) (hsees : s.Sees t)
    (hreaches : s.Reaches t) : Reads site t advance fun _ u => s.Takes site w u := by
  refine .weaken (reads_advance hsees.lastEnd) fun _ u _ h hu => ⟨hreaches.trans h, hw, by rw [hspan], ?_, hu.2⟩
  rw [hu.1, hsees.lastEnd, hsees.span, hspan]

lemma reads_next : Reads site s next fun w t => s.Takes site w t ∧ w.kind = s.front.kind :=
  .bind reads_peek fun _ _ _ h ⟨hw, hspan, hkind, hsees⟩ =>
    .bind (reads_pass hw hspan hsees h) fun _ _ _ _ htakes => .pure ⟨htakes, hkind⟩

lemma reads_looksAt {kind : TokenKind} : Reads site s (looksAt kind) fun _ t => s.Sees t :=
  .bind reads_peek fun _ _ _ _ h => .pure h.2.2.2

lemma reads_accept? {kind : TokenKind} : Reads site s (accept? kind) fun r t =>
    (∀ w ∈ r, s.Takes site w t) ∧ (r = none → s.Sees t) := by
  refine .bind reads_peek fun w t _ h ⟨hw, hspan, _, hsees⟩ => .ite (fun _ => ?_) fun _ =>
    .pure ⟨nofun, fun _ => hsees⟩
  refine .bind (reads_pass hw hspan hsees h) fun _ u _ _ htakes => .pure ⟨?_, nofun⟩
  rintro _ ⟨⟩
  exact htakes

/-- Whether the word is passed or stays, what has been passed does not lie beyond it. -/
lemma reads_acceptMark {p : Punctuator} : Reads site s (acceptMark p) fun b t =>
    (b = true → t.IsFresh) ∧ (b = false → s.Sees t) := by
  refine .bind reads_accept? fun r t _ _ ⟨hsome, hnone⟩ => .pure ?_
  cases r with
  | none => exact ⟨nofun, fun _ => hnone rfl⟩
  | some w => exact ⟨fun _ => (hsome w rfl).fresh, nofun⟩

lemma reads_stop {problem : Problem} {span : Span} (h : span.Within site.source) :
    Reads site s (stop problem span : Parse α) Q := by
  intro hs
  exact ⟨⟨(Check.Gives.report h s.context hs.context).1, hs.line, hs.valid, hs.lastEnd, hs.follows⟩, nofun⟩

lemma reads_unexpected {w : Word} {expected : Expectation} (h : w.span.Within site.source) :
    Reads site s (unexpected w expected : Parse α) Q :=
  reads_stop h

lemma reads_expect {kind : TokenKind} {expected : Expectation} :
    Reads site s (expect kind expected) fun w t => s.Takes site w t :=
  .bind reads_next fun _ _ _ _ h => .ite (fun _ => .pure h.1) fun _ => reads_unexpected h.1.within

lemma reads_exhausted : Reads site s (exhausted : Parse α) Q := .bind reads_peek fun _ _ _ _ h =>
    reads_unexpected h.1

lemma reads_lastEnd : Reads site s lastEnd fun n t => n = t.lastEnd ∧ t = s := by
  refine fun hs => ⟨hs, ?_⟩
  rintro _ _ ⟨⟩
  exact ⟨.refl s, rfl, rfl⟩

lemma reads_spanFrom {start : Nat} : Reads site s (spanFrom start) fun span t =>
    span = ⟨start, t.lastEnd⟩ ∧ t = s := by
  refine .bind reads_lastEnd fun n t _ _ h => .pure ?_
  rw [h.1]
  exact ⟨rfl, h.2⟩

lemma reads_nested {env : Surroundings} {opening : Word} {inside : Surroundings → Parse α}
    (h : opening.span.Within site.source)
    (hinside : ∀ env, Reads site s (inside env) Q) : Reads site s (nested env opening inside) Q := by
  unfold nested
  split
  · exact reads_stop h
  · exact hinside _

end Grammar
end Shading
