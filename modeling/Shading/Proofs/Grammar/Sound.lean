import Shading.Proofs.Check.Ensures
import Shading.Proofs.Grammar.StatementJournal

/-! What holds while a source is read and nothing is wrong with it, and the logic of reading steps.
As in checking, what a step ensures is said of runs that end without a problem; a run that stops has
reported one. -/
namespace Shading

/-- Every expression of the statement is regular. -/
def Stmt.Regular (o : Context) (s : Stmt) : Prop := ∀ x ∈ s.nodes, ∀ e ∈ x.exprs, e.Regular o

def Element.Regular (o : Context) : Element → Prop
  | .struct ty _ => ty.Known o ∧ ty.isStruct = true
  | .global _ e _ => ∀ i ∈ e, i.Regular o
  | .definition _ _ body _ => body.Regular o
  | .block .. | .prototype .. => True

variable {v : View} {d : Declared} {ret : Ty}

def Stmt.Good (v : View) (d : Declared) (ret : Ty) (s : Stmt) : Prop := s.WellTyped d ret ∧
    (v.isFull → s.Regular v.final)

def Element.Good (v : View) (d : Declared) (e : Element) : Prop := e.WellTyped d ∧ (v.isFull → e.Regular v.final)

namespace Stmt

lemma Good.grow {d' : Declared} {s : Stmt} (h : s.Good v d ret) (hd : d.Grows d') :
    s.Good v d' ret := ⟨h.1.grow hd, h.2⟩

lemma regular_iff {o : Context} {s : Stmt} : s.Regular o ↔ (∀ e ∈ s.exprs, e.Regular o) ∧
    ∀ p ∈ s.parts, p.Regular o :=
  forall_nodes

lemma good_iff {s : Stmt} :
    s.Good v d ret ↔ s.Typed d ret ∧ (∀ e ∈ s.exprs, e.Good v d) ∧ ∀ p ∈ s.parts, p.Good v d ret := by
  unfold Good
  rw [wellTyped_iff, regular_iff]
  constructor
  · rintro ⟨⟨htyped, hexprs, hparts⟩, hregular⟩
    exact ⟨htyped, fun e he => ⟨hexprs e he, fun hv => (hregular hv).1 e he⟩, fun p hp =>
      ⟨hparts p hp, fun hv => (hregular hv).2 p hp⟩⟩
  · rintro ⟨htyped, hexprs, hparts⟩
    exact ⟨⟨htyped, fun e he => (hexprs e he).1, fun p hp => (hparts p hp).1⟩,
      fun hv => ⟨fun e he => (hexprs e he).2 hv, fun p hp => (hparts p hp).2 hv⟩⟩

end Stmt

/-- An identifier has a spelling. -/
def Word.Sound (w : Word) : Prop := w.kind = .identifier → w.text.toList ≠ []

namespace Grammar

namespace State

/-- The functions that have been given a body, newest first. -/
def definitions (s : State) : List Nat := s.elements.filterMap Element.defined?

/-- What the numbers in expressions stand for. -/
def declared (s : State) : Declared := s.context.declared

structure Sound (s : State) : Prop where
  context : s.context.Sound
  words : ∀ w ∈ s.front :: s.rest, w.Sound
  elements : ∀ e ∈ s.elements, e.WellTyped s.declared
  definitions : s.definitions.Nodup
  defined : ∀ n ∈ s.definitions, s.declared.IsDefined n

/-- What happens from one state of reading to a later one: a function is given a body once, and by
the time its declaration has been read the body is among the definitions. -/
structure Leads (s t : State) : Prop where
  grows : s.declared.Grows t.declared
  definitions : s.definitions ⊆ t.definitions
  fresh : ∀ n ∈ t.definitions, n ∈ s.definitions ∨ ¬ s.declared.IsDefined n
  finished : ∀ {n}, t.declared.IsDefined n → s.declared.IsDefined n ∨ n ∈ t.definitions

instance : Preorder State where
  le := Leads
  le_refl s := ⟨.refl s.declared, List.Subset.refl _, fun _ hn => .inl hn, fun hn => .inl hn⟩
  le_trans s t u h k := by
    refine ⟨h.grows.trans k.grows, List.Subset.trans h.definitions k.definitions, fun n hn => ?_, fun {n} hn => ?_⟩
    · obtain hn | hn := k.fresh n hn
      · exact h.fresh n hn
      · exact .inr fun hs => hn (h.grows.isDefined hs)
    · obtain hn | hn := k.finished hn
      · exact (h.finished hn).imp_right fun hn => k.definitions hn
      · exact .inr hn

lemma le_of_declared {s t : State} (hd : s.declared ≤ t.declared)
    (helements : t.elements = s.elements) : s ≤ t := by
  have hdefinitions : t.definitions = s.definitions := by unfold definitions; rw [helements]
  refine ⟨hd.toGrows, ?_, ?_, fun hn => .inl (hd.defined hn)⟩
  · rw [hdefinitions]
    exact List.Subset.refl _
  · rw [hdefinitions]
    exact fun n hn => .inl hn

lemma Sound.withContext {s : State} {c : Context} (h : s.Sound) (hc : c.Sound) (hd : s.declared.Grows c.declared) :
    ({ s with context := c } : State).Sound :=
  ⟨hc, h.words, fun e he => (h.elements e he).grow hd, h.definitions, fun n hn => hd.isDefined (h.defined n hn)⟩

/-- The state is sound, and regular if it is followed in full: the words to come are names, unless a
report on them is still to be made or another one has been made. -/
structure Good (v : View) (s : State) : Prop extends s.Sound where
  regular : v.isFull → v.final.Regular s.context
  regularElements : v.isFull → ∀ e ∈ s.elements, e.Regular v.final
  names : v.isFull → s.context.journal.Clean → ∀ w ∈ s.front :: s.rest, w.kind = .identifier →
    w.notes = [] → IsName w.text

lemma Sound.good {s : State} (h : s.Sound) : s.Good .ofTypes := ⟨h, False.elim, False.elim, False.elim⟩

lemma Good.withContext {s : State} {c : Context} (h : s.Good v) (hc : c.Sound) (hd : s.declared.Grows c.declared)
    (hregular : v.isFull → v.final.Regular c) (hjournal : s.context.journal <:+ c.journal) :
    ({ s with context := c } : State).Good v :=
  ⟨h.toSound.withContext hc hd, hregular, h.regularElements, fun hv hclean =>
    h.names hv (hclean.of_suffix hjournal)⟩

end State

variable {α β : Type} {s : State} {m : Parse α}

/-- From a good state, if the step goes on and nothing is reported: the state stays good and the
result is as stated. The context that is reached comes before the final one. -/
def Ensures (v : View) (s : State) (m : Parse α) (Q : α → Declared → Prop) : Prop :=
  ∀ a t, m s = .ok a t → t.context.journal.Clean → (v.isFull → t.context.Precedes v.final) → s.Good v →
    t.Good v ∧ s ≤ t ∧ Q a t.declared

/-- What a step comes to from a good state that does not look for problems. -/
def Passes (v : View) (s : State) (m : Parse α) (Q : α → Declared → Prop) : Prop :=
  ∀ a t, m s = .ok a t → s.Good v → t.Good v ∧ s ≤ t ∧ Q a t.declared

variable {expected : Expectation}

namespace Passes

variable {Q : α → Declared → Prop} {R : β → Declared → Prop} {f : α → Parse β}

lemma ensures (h : Passes v s m Q) : Ensures v s m Q := fun a t hrun _ _ hs => h a t hrun hs

lemma pure {a : α} (h : Q a s.declared) : Passes v s (pure a) Q := by
  rintro _ _ ⟨⟩ hs
  exact ⟨hs, le_rfl, h⟩

lemma bind (hm : Passes v s m Q) (hf : ∀ a t, s ≤ t → t.Good v → Q a t.declared →
    Passes v t (f a) R) : Passes v s (m >>= f) R := by
  intro b u hrun hs
  rw [KeepsJournal.bind_eq] at hrun
  cases hm' : m s with
  | ok a t =>
    rw [hm'] at hrun
    obtain ⟨hsound, hle, hq⟩ := hm a t hm' hs
    obtain ⟨hsound', hle', hr⟩ := hf a t hle hsound hq b u hrun hsound
    exact ⟨hsound', hle.trans hle', hr⟩
  | error e t =>
    rw [hm'] at hrun
    cases hrun

lemma of_words {t : State} {a : α} (hrun : m s = .ok a t) (hvariables : t.context.variables = s.context.variables)
    (hdeclared : t.declared = s.declared) (hscopes : t.context.scopes = s.context.scopes)
    (helements : t.elements = s.elements)
    (hwords : s.Sound → ∀ w ∈ t.front :: t.rest, w.Sound)
    (hnames : s.Good v → v.isFull → t.context.journal.Clean →
    ∀ w ∈ t.front :: t.rest, w.kind = .identifier → w.notes = [] → IsName w.text)
    (hq : s.Sound → Q a t.declared) : Passes v s m Q := by
  intro a' t' hrun' hs
  rw [hrun] at hrun'
  obtain ⟨rfl, rfl⟩ : a = a' ∧ t = t' := by cases hrun'; exact ⟨rfl, rfl⟩
  have hfunctions : t.context.functions = s.context.functions := congrArg Declared.functions hdeclared
  have hcontext : t.context.declared = s.context.declared := hdeclared
  have hle : s ≤ t := State.le_of_declared (hdeclared ▸ le_rfl) helements
  have hsound : t.context.Sound := by
    refine ⟨?_, ?_, ?_, ?_⟩
    · rw [hvariables]
      exact hs.context.variable_
    · rw [hfunctions]
      exact hs.context.base
    · rw [hfunctions]
      exact hs.context.items
    · rw [hscopes, hcontext]
      exact hs.context.scopes
  refine ⟨⟨⟨hsound, hwords hs.toSound, ?_, ?_, ?_⟩, fun hv => ?_, ?_, hnames hs⟩, hle, hq hs.toSound⟩
  · rw [helements, hdeclared]
    exact hs.elements
  · unfold State.definitions
    rw [helements]
    exact hs.definitions
  · unfold State.definitions
    rw [helements, hdeclared]
    exact hs.defined
  · obtain ⟨hvariable, hfunction, hbindings⟩ := hs.regular hv
    exact ⟨hvariables ▸ hvariable, hfunctions ▸ hfunction, hscopes ▸ hbindings⟩
  · rw [helements]
    exact hs.regularElements

lemma not_clean_foldl {notes : List Report} {j : Journal} (h : notes ≠ []) :
    ¬ Journal.Clean (notes.foldl (fun j r => .problemFound r :: j) j) := by
  induction notes generalizing j with
  | nil => exact absurd rfl h
  | cons r notes ih =>
    intro hclean
    have hsuffix : Event.problemFound r :: j <:+
      (r :: notes).foldl (fun j r => .problemFound r :: j) j := KeepsJournal.suffix_foldl notes _
    have hfirst := hclean.of_suffix hsuffix
    simp [Journal.Clean, Journal.hasProblems, Event.report?] at hfirst

lemma peek : Passes v s peek fun w _ => w.Sound := by
  refine of_words rfl rfl rfl rfl rfl (fun hs => ?_) (fun hs hv hclean => ?_) fun hs =>
    hs.words _ List.mem_cons_self
  · exact List.forall_mem_cons.mpr ⟨(List.forall_mem_cons.mp hs.words).1, (List.forall_mem_cons.mp hs.words).2⟩
  · -- A word with reports on it is no name for sure, but then the journal is not clean any more.
    have hnotes : s.front.notes = [] := by_contra fun h => not_clean_foldl h hclean
    have hwords := hs.names hv (hclean.of_suffix (KeepsJournal.suffix_foldl _ _))
    obtain ⟨hfront, hrest⟩ := List.forall_mem_cons.mp hwords
    exact List.forall_mem_cons.mpr ⟨fun hkind _ => hfront hkind hnotes, hrest⟩

lemma advance : Passes v s advance fun _ _ => True := by
  unfold Grammar.advance
  cases hrest : s.rest with
  | nil =>
    exact of_words (by rw [hrest]) rfl rfl rfl rfl (fun hs => hs.words) (fun hs => hs.names) fun _ => trivial
  | cons w ws =>
    refine of_words (t := { s with front := w, rest := ws }) (by rw [hrest]) rfl rfl rfl rfl (fun hs x hx => ?_)
      (fun hs hv hclean x hx => ?_) fun _ => trivial
    · exact hs.words x (.tail _ (hrest ▸ hx))
    · exact hs.names hv hclean x (.tail _ (hrest ▸ hx))

lemma lastEnd : Passes v s lastEnd fun _ _ => True :=
  of_words rfl rfl rfl rfl rfl (fun hs => hs.words) (fun hs => hs.names) fun _ => trivial

lemma next : Passes v s next fun w _ => w.Sound := bind peek fun _ _ _ _ hw => bind advance fun _ _ _ _ _ => pure hw

variable {kind : TokenKind}

lemma accept? : Passes v s (accept? kind) fun r _ => ∀ w ∈ r, w.Sound ∧ w.kind = kind := by
  refine bind peek fun w t _ _ hw => ?_
  split
  · exact bind advance fun _ _ _ _ _ => pure (by simpa using ⟨hw, ‹_›⟩)
  · exact pure (by simp)

lemma weaken {P : α → Declared → Prop} (h : Passes v s m P) (hpq : ∀ a d, P a d → Q a d) : Passes v s m Q := by
  intro a t hrun hs
  obtain ⟨hsound, hle, hp⟩ := h a t hrun hs
  exact ⟨hsound, hle, hpq _ _ hp⟩

lemma looksAt : Passes v s (looksAt kind) fun _ _ => True := bind peek fun _ _ _ _ _ => pure trivial

lemma acceptMark {p : Punctuator} : Passes v s (acceptMark p) fun _ _ => True :=
    bind accept? fun _ _ _ _ _ => pure trivial

lemma stop {problem : Problem} {span : Span} : Passes v s (stop problem span) Q := by
  rintro _ _ ⟨⟩

lemma unexpected {w : Word} : Passes v s (unexpected w expected) Q := stop

lemma expect : Passes v s (expect kind expected) fun w _ => w.Sound ∧ w.kind = kind := by
  refine bind next fun w _ _ _ hw => ?_
  split
  · exact pure ⟨hw, ‹_›⟩
  · exact unexpected

lemma expectMark {p : Punctuator} : Passes v s (expectMark p) fun _ _ => True := weaken expect fun _ _ _ => trivial

lemma expectIdentifier : Passes v s expectIdentifier fun w _ => w.text.toList ≠ [] :=
    weaken expect fun _ _ h => h.1 h.2

lemma exhausted : Passes v s exhausted Q := bind peek fun _ _ _ _ _ => unexpected

lemma spanFrom {start : Nat} : Passes v s (spanFrom start) fun _ _ => True :=
    bind lastEnd fun _ _ _ _ _ => pure trivial

end Passes

namespace Ensures

variable {P Q : α → Declared → Prop} {R : β → Declared → Prop} {f : α → Parse β}

lemma weaken (h : Ensures v s m P) (hpq : ∀ a d, s.declared.Grows d → P a d → Q a d) : Ensures v s m Q := by
  intro a t hrun hclean hfinal hs
  obtain ⟨hgood, hle, hp⟩ := h a t hrun hclean hfinal hs
  exact ⟨hgood, hle, hpq _ _ hle.grows hp⟩

lemma pure {a : α} (h : Q a s.declared) : Ensures v s (pure a) Q := by
  rintro _ _ ⟨⟩ _ _ hs
  exact ⟨hs, le_rfl, h⟩

lemma bind (hm : Ensures v s m Q) (hf : ∀ a t, s ≤ t → t.Good v → Q a t.declared → Ensures v t (f a) R)
    [hk : ∀ a, KeepsJournal (f a)] :
    Ensures v s (m >>= f) R := by
  intro b u hrun hclean hfinal hs
  rw [KeepsJournal.bind_eq] at hrun
  cases hm' : m s with
  | ok a t =>
    rw [hm'] at hrun
    have hprecedes : t.context.Precedes u.context := after_ok hrun ▸ (hk a).precedes t
    obtain ⟨hgood, hle, hq⟩ := hm a t hm' (hclean.of_suffix hprecedes.journal)
      (fun hv => hprecedes.trans (hfinal hv)) hs
    obtain ⟨hgood', hle', hr⟩ := hf a t hle hgood hq b u hrun hclean hfinal hgood
    exact ⟨hgood', hle.trans hle', hr⟩
  | error e t =>
    rw [hm'] at hrun
    cases hrun

lemma bind_of (hk : ∀ a, KeepsJournal (f a)) (hm : Ensures v s m Q)
    (hf : ∀ a t, s ≤ t → t.Good v → Q a t.declared → Ensures v t (f a) R) :
    Ensures v s (m >>= f) R :=
  bind hm hf

lemma map {g : α → β} (hm : Ensures v s m fun a d => R (g a) d) : Ensures v s (g <$> m) R :=
  bind (f := fun a => Pure.pure (g a)) hm fun _ _ _ _ h => pure h

lemma get_bind {f : State → Parse β} (h : s.Good v → Ensures v s (f s) R) : Ensures v s (get >>= f) R :=
  fun b u hrun hclean hfinal hs => h hs b u hrun hclean hfinal hs

lemma ite {p : Prop} [Decidable p] {n : Parse α} (hm : p → Ensures v s m Q) (hn : ¬ p → Ensures v s n Q) :
    Ensures v s (if p then m else n) Q := by
  split
  · exact hm ‹_›
  · exact hn ‹_›

lemma ite_bind {p : Prop} [Decidable p] {n : Parse α} (h : Ensures v s (if p then m else n) Q)
    (hf : ∀ a t, s ≤ t → t.Good v → Q a t.declared → Ensures v t (f a) R)
    [hk : ∀ a, KeepsJournal (f a)] :
    Ensures v s (if p then m >>= f else n >>= f) R := by
  have hbind := bind h hf
  split at hbind
  · rwa [if_pos ‹_›]
  · rwa [if_neg ‹_›]

instance (m : Check α) [hm : Check.KeepsJournal m] : Check.KeepsJournal (monadLift m : Check α) := hm

lemma lift {m : Check α} [hk : Check.KeepsJournal m] (h : Check.Ensures v s.context m Q) :
    Ensures v s (lift m) Q := by
  rintro _ _ ⟨⟩ hclean hfinal hs
  obtain ⟨hc, hd, hq⟩ := h hclean hfinal ⟨hs.context, hs.regular⟩
  exact ⟨hs.withContext hc.toSound hd.toGrows hc.regular (hk.precedes s.context).journal,
    State.le_of_declared hd rfl, hq⟩

lemma report {p : Problem} {span : Span} {Q : Unit → Declared → Prop} :
    Ensures v s (Grammar.lift (Check.report p span)) Q := by
  rintro _ _ ⟨⟩ hclean
  exact absurd hclean Check.not_clean_report

lemma reportIf {b : Bool} {p : Problem} {span : Span} [Check.KeepsJournal (Check.reportIf b p span)] :
    Ensures v s (Grammar.lift (Check.reportIf b p span)) fun _ _ => b = false :=
  .lift .reportIf

lemma stop {problem : Problem} {span : Span} : Ensures v s (stop problem span) Q := Passes.stop.ensures

lemma unexpected {w : Word} : Ensures v s (unexpected w expected) Q := stop

lemma exhausted : Ensures v s exhausted Q := Passes.exhausted.ensures

lemma acceptMark {p : Punctuator} : Ensures v s (acceptMark p) fun _ _ => True := Passes.acceptMark.ensures

lemma after (hm : Passes v s m Q) (hf : ∀ a t, s ≤ t → t.Good v → Q a t.declared →
    Ensures v t (f a) R) : Ensures v s (m >>= f) R := by
  intro b u hrun hclean hfinal hs
  rw [KeepsJournal.bind_eq] at hrun
  cases hm' : m s with
  | ok a t =>
    rw [hm'] at hrun
    obtain ⟨hgood, hle, hq⟩ := hm a t hm' hs
    obtain ⟨hgood', hle', hr⟩ := hf a t hle hgood hq b u hrun hclean hfinal hgood
    exact ⟨hgood', hle.trans hle', hr⟩
  | error e t =>
    rw [hm'] at hrun
    cases hrun

lemma nested {env : Surroundings} {opening : Word} {inside : Surroundings → Parse α}
    (h : ∀ room, Ensures v s (inside { env with room }) Q) : Ensures v s (nested env opening inside) Q := by
  unfold Grammar.nested
  split
  · exact stop
  · exact h _

/-! ### Names -/

/-- A word that has been looked at has been reported on, so that an identifier is a name. -/
lemma peek : Ensures v s peek fun w _ => w.kind = .identifier → v.Names w.text := by
  intro w t hrun hclean hfinal hs
  obtain ⟨ht, hle, -⟩ := Passes.peek w t hrun hs
  cases hrun
  exact ⟨ht, hle, fun hkind hv _ => ht.names hv hclean { s.front with notes := [] } List.mem_cons_self hkind rfl⟩

lemma accept? {kind : TokenKind} : Ensures v s (accept? kind) fun r _ => kind = .identifier →
    ∀ w ∈ r, v.Names w.text := by
  refine bind peek fun w t _ _ hw => ite (fun hkind => after .advance fun _ _ _ _ _ => pure ?_) fun _ => pure nofun
  rintro rfl _ ⟨⟩
  exact hw hkind

lemma expectIdentifier : Ensures v s expectIdentifier fun w _ => v.Names w.text := by
  refine bind (Q := fun w _ => w.kind = .identifier → v.Names w.text)
    (bind peek fun w t _ _ hw => after .advance fun _ _ _ _ _ => pure hw) fun w t _ _ hw => ?_
  exact ite (fun hkind => pure (hw hkind)) fun _ => unexpected

end Ensures
end Grammar
end Shading
