import Shading.Proofs.Check.Regular

/-! The logic of checking steps. What a step ensures is said of runs that end without a problem;
such a run has met none on its way, so each part of it starts in a good context and can rely on what
the parts before it have ensured. -/
namespace Shading

/-- How reading is followed: as to types only, or in full, with a view to the context at the end. -/
structure View where
  isFull : Prop
  final : Context

/-- Only types are followed. -/
def View.ofTypes : View := ⟨False, .initial .base {}⟩

variable {v : View} {d : Declared}

def View.Names (v : View) (text : String) : Prop := v.isFull → v.final.Names text

def Ty.Good (v : View) (ty : Ty) : Prop := ty.isProper = true ∧ (v.isFull → ty.Known v.final)

def Expr.Good (v : View) (d : Declared) (e : Expr) : Prop := e.WellTyped d ∧ (v.isFull → e.Regular v.final)

def Symbol.Good (v : View) (d : Declared) (s : Symbol) : Prop := s.Sound d ∧ (v.isFull → s.Regular v.final)

lemma Expr.Good.grow {d' : Declared} {e : Expr} (h : e.Good v d) (hd : d.Grows d') : e.Good v d' :=
    ⟨h.1.grow hd, h.2⟩

lemma Expr.Good.mono {d' : Declared} {e : Expr} (h : e.Good v d) (hd : d ≤ d') : e.Good v d' := h.grow hd.toGrows

lemma Expr.WellTyped.good {e : Expr} (h : e.WellTyped d) : e.Good .ofTypes d := ⟨h, False.elim⟩

lemma Ty.good_of_isProper {ty : Ty} (h : ty.isProper = true) : ty.Good .ofTypes := ⟨h, False.elim⟩

structure Context.Good (v : View) (c : Context) : Prop extends c.Sound where
  regular : v.isFull → v.final.Regular c

namespace Check

variable {α β : Type} {c : Context} {m : Check α}

/-- From a good context, if nothing is reported and the context that is reached comes before the
final one: the context stays good, numbers keep their meaning, and the result is as stated. -/
def Ensures (v : View) (c : Context) (m : Check α) (Q : α → Declared → Prop) : Prop :=
  (m c).2.journal.Clean → (v.isFull → (m c).2.Precedes v.final) → c.Good v →
    (m c).2.Good v ∧ c.declared ≤ (m c).2.declared ∧ Q (m c).1 (m c).2.declared

namespace Ensures

variable {P Q : α → Declared → Prop} {R : β → Declared → Prop} {f : α → Check β}

lemma weaken (h : Ensures v c m P) (hpq : ∀ a d, c.declared ≤ d → P a d → Q a d) : Ensures v c m Q := by
  intro hclean hfinal hc
  obtain ⟨hgood, hd, hp⟩ := h hclean hfinal hc
  exact ⟨hgood, hd, hpq _ _ hd hp⟩

lemma pure {a : α} (h : Q a c.declared) : Ensures v c (pure a) Q := fun _ _ hc => ⟨hc, le_rfl, h⟩

lemma bind (hm : Ensures v c m Q)
    (hf : ∀ a c', c.declared ≤ c'.declared → c'.Good v → Q a c'.declared → Ensures v c' (f a) R)
    [hk : ∀ a, KeepsJournal (f a)] : Ensures v c (m >>= f) R := by
  intro hclean hfinal hc
  have hprecedes : (m c).2.Precedes ((m >>= f) c).2 := (hk (m c).1).precedes (m c).2
  obtain ⟨hgood, hd, hq⟩ := hm (hclean.of_suffix hprecedes.journal) (fun hv => hprecedes.trans (hfinal hv)) hc
  obtain ⟨hgood', hd', hr⟩ := hf (m c).1 (m c).2 hd hgood hq hclean hfinal hgood
  exact ⟨hgood', hd.trans hd', hr⟩

lemma bind_of (hk : ∀ a, KeepsJournal (f a)) (hm : Ensures v c m Q)
    (hf : ∀ a c', c.declared ≤ c'.declared → c'.Good v → Q a c'.declared → Ensures v c' (f a) R) :
    Ensures v c (m >>= f) R :=
  bind hm hf

lemma map {g : α → β} (hm : Ensures v c m fun a d => R (g a) d) : Ensures v c (g <$> m) R := hm

lemma get_bind {f : Context → Check β} (h : c.Good v → Ensures v c (f c) R) : Ensures v c (get >>= f) R :=
  fun hclean hfinal hc => h hc hclean hfinal hc

lemma modify {f : Context → Context} {Q : Unit → Declared → Prop} (hgood : c.Good v → (f c).Good v)
    (hd : c.declared ≤ (f c).declared) (hq : Q () (f c).declared) : Ensures v c (modify f) Q :=
  fun _ _ hc => ⟨hgood hc, hd, hq⟩

lemma ite {p : Prop} [Decidable p] {n : Check α} (hm : p → Ensures v c m Q) (hn : ¬ p → Ensures v c n Q) :
    Ensures v c (if p then m else n) Q := by
  split
  · exact hm ‹_›
  · exact hn ‹_›

lemma report {p : Problem} {span : Span} {Q : Unit → Declared → Prop} : Ensures v c (report p span) Q :=
  fun hclean => (not_clean_report hclean).elim

lemma report_bind {p : Problem} {span : Span} {f : Unit → Check β} [∀ a, KeepsJournal (f a)] :
    Ensures v c (Check.report p span >>= f) R :=
  bind (Q := fun _ _ => False) report fun _ _ _ _ h => h.elim

lemma reportIf {b : Bool} {p : Problem} {span : Span} : Ensures v c (reportIf b p span) fun _ _ => b = false := by
  unfold Check.reportIf
  refine ite (fun _ => report) fun h => ?_
  exact pure (by simpa using h)

/-- Elements are handled one after the other, each in the context that the ones before it have
left. -/
lemma mapM {P : α → β → Declared → Prop} {f : α → Check β} [∀ a, KeepsJournal (f a)] {as : List α}
    (hmono : ∀ {a b d d'}, d ≤ d' → P a b d → P a b d')
    (h : ∀ a ∈ as, ∀ c', c.declared ≤ c'.declared → Ensures v c' (f a) (P a)) :
    Ensures v c (as.mapM f) fun bs d => List.Forall₂ (P · · d) as bs := by
  induction as generalizing c with
  | nil =>
    rw [List.mapM_nil]
    exact pure .nil
  | cons a as ih =>
    rw [List.mapM_cons]
    refine bind (h a List.mem_cons_self c le_rfl) fun b c1 hd1 _ hb => ?_
    refine bind (ih fun a' ha' c' hd => h a' (List.mem_cons_of_mem _ ha') c' (hd1.trans hd))
      fun bs c2 hd2 _ hbs => ?_
    exact pure (.cons (hmono hd2 hb) hbs)

lemma forM {f : α → Check PUnit} [∀ a, KeepsJournal (f a)] {as : List α}
    (h : ∀ a ∈ as, ∀ c', c.declared ≤ c'.declared → Ensures v c' (f a) fun _ _ => True) :
    Ensures v c (as.forM f) fun _ _ => True := by
  induction as generalizing c with
  | nil => exact pure trivial
  | cons a as ih =>
    refine bind (h a List.mem_cons_self c le_rfl) fun _ c1 hd1 _ _ => ?_
    exact ih fun a' ha' c' hd => h a' (List.mem_cons_of_mem _ ha') c' (hd1.trans hd)

lemma note {e : Event} : Ensures v c (note e) fun _ _ => True := by
  refine modify (fun h => ⟨⟨h.variable_, h.base, h.items, h.scopes⟩, fun hv => ?_⟩) le_rfl trivial
  exact ⟨(h.regular hv).variable_, (h.regular hv).function, (h.regular hv).scopes⟩

end Ensures
end Check
end Shading
