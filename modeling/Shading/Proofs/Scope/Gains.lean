import Shading.Proofs.Grammar.StatementJournal

/-! What declarations add to the scopes. A step that goes on is followed with the states that it
reaches; the steps that leave names, functions and declarations alone follow from their
instances. -/
namespace Shading

namespace Scopes

variable {s t u : Scopes} {name : String} {symbol : Symbol} {bs cs : Bindings}

lemma inner_bind (h : s.inner = []) : (s.bind name symbol).inner = [] := by rw [bind, h]

lemma lookup_bind (h : s.inner = []) (other : String) :
    (s.bind name symbol).global.lookup other = if other = name then some symbol else s.global.lookup other := by
  rw [bind, h, List.lookup_cons]
  by_cases hother : other = name
  · simp [hother]
  · rw [if_neg hother, beq_false_of_ne hother]

/-- New names stand for something else than functions, and nothing else has changed. -/
structure Gains (s : Scopes) (bs : Bindings) (t : Scopes) : Prop where
  inner : t.inner = []
  old : ∀ name symbol, s.global.lookup name = some symbol → t.global.lookup name = some symbol
  new : ∀ b ∈ bs, t.global.lookup b.1 = some b.2
  only : ∀ name symbol, t.global.lookup name = some symbol → s.global.lookup name = some symbol ∨
    (name, symbol) ∈ bs

lemma Gains.refl (h : s.inner = []) : s.Gains [] s := ⟨h, fun _ _ h => h, List.forall_mem_nil _, fun _ _ => .inl⟩

lemma Gains.trans (h : s.Gains bs t) (k : t.Gains cs u) : s.Gains (bs ++ cs) u := by
  refine ⟨k.inner, fun name symbol hs => k.old _ _ (h.old _ _ hs),
    List.forall_mem_append.mpr ⟨fun b hb => k.old _ _ (h.new b hb), k.new⟩,
    fun name symbol hu => ?_⟩
  obtain ht | hc := k.only _ _ hu
  · exact (h.only _ _ ht).imp_right (List.mem_append_left _)
  · exact .inr (List.mem_append_right _ hc)

lemma gains_of_insert? (hinner : s.inner = []) (hsymbol : ∀ ns, symbol ≠ .functions ns)
    (h : s.insert? name symbol = some t) :
    s.Gains [(name, symbol)] t := by
  have hcurrent : s.current = s.global := by rw [current, hinner, List.headD_nil]
  unfold insert? at h
  split at h
  · exact absurd rfl (hsymbol _)
  · cases h
  · exact absurd rfl (hsymbol _)
  · rename_i hnone _
    cases h
    rw [hcurrent] at hnone
    refine ⟨inner_bind hinner, fun other found hfound =>
      ?_, List.forall_mem_singleton.mpr ?_, fun other found hfound => ?_⟩
    · rw [lookup_bind hinner, if_neg, hfound]
      rintro rfl
      cases hnone.symm.trans hfound
    · rw [lookup_bind hinner, if_pos rfl]
    · rw [lookup_bind hinner] at hfound
      split at hfound
      · obtain rfl := Option.some.inj hfound
        subst other
        exact .inr (List.mem_singleton_self _)
      · exact .inl hfound

end Scopes

namespace Grammar

variable {α β : Type} {m : Parse α} {f : α → Parse β} {s t u : State} {P Q : α → State → Prop}
    {R : β → State → Prop} {bs cs : Bindings}

/-- Between the states nothing but the tables of types and variables and the journal has grown. -/
structure State.Rests (s t : State) : Prop extends s.Stays t where
  precedes : s.context.Precedes t.context

lemma State.Rests.refl (s : State) : s.Rests s := ⟨.refl s, .refl _⟩

lemma State.Rests.trans (h : s.Rests t) (k : t.Rests u) : s.Rests u :=
    ⟨h.toStays.trans k.toStays, h.precedes.trans k.precedes⟩

/-- Names have been bound, and nothing has been added to the functions and the declarations of the
program. -/
structure State.Enters (s : State) (bs : Bindings) (t : State) : Prop where
  elements : t.elements = s.elements
  functions : t.context.functions = s.context.functions
  precedes : s.context.Precedes t.context
  gains : t.context.journal.Clean → s.context.scopes.inner = [] → s.context.scopes.Gains bs t.context.scopes

lemma State.Enters.trans (h : s.Enters bs t) (k : t.Enters cs u) : s.Enters (bs ++ cs) u := by
  refine ⟨k.elements.trans h.elements, k.functions.trans h.functions, h.precedes.trans k.precedes,
    fun hclean hinner => ?_⟩
  have hgains := h.gains (hclean.of_suffix k.precedes.journal) hinner
  exact hgains.trans (k.gains hclean hgains.inner)

lemma State.Rests.enters (h : s.Rests t) : s.Enters [] t :=
  ⟨h.elements, h.functions, h.precedes, fun _ hinner => by rw [h.scopes]; exact .refl hinner⟩

lemma State.Enters.rest (h : s.Enters bs t) (k : t.Rests u) : s.Enters bs u :=
    List.append_nil bs ▸ h.trans k.enters

/-- What holds of the result of a step that goes on, and of the state that it reaches. -/
def Steps (s : State) (m : Parse α) (Q : α → State → Prop) : Prop := ∀ a t, m s = .ok a t → Q a t

namespace Steps

lemma pure {a : α} (h : Q a s) : Steps s (pure a) Q := by
  rintro _ _ ⟨⟩
  exact h

lemma weaken (hm : Steps s m P) (h : ∀ a t, P a t → Q a t) : Steps s m Q := fun a t hrun => h a t (hm a t hrun)

lemma bind (hm : Steps s m P) (hf : ∀ a t, P a t → Steps t (f a) R) : Steps s (m >>= f) R := by
  intro b u h
  obtain ⟨a, t, hrun, h⟩ := ok_bind h
  exact hf a t (hm a t hrun) b u h

lemma precede [hm : KeepsJournal m] (h : Steps s m Q) : Steps s m fun a t =>
    s.context.Precedes t.context ∧ Q a t :=
  fun a t hrun => ⟨after_ok hrun ▸ hm.precedes s, h a t hrun⟩

lemma rest [hm : Still m] : Steps s m fun _ t => s.Rests t :=
  fun _ _ hrun => ⟨hm.stays hrun, after_ok hrun ▸ hm.precedes s⟩

lemma still [Still m] (hf : ∀ a t, s.Rests t → Steps t (f a) R) : Steps s (m >>= f) R := bind rest hf

/-- Both branches of a choice leave names, functions and declarations alone and go on with the same
steps. -/
lemma ite_still {p : Prop} [Decidable p] {n : Parse α} [Still m] [Still n]
    (hf : ∀ a t, s.Rests t → Steps t (f a) R) :
    Steps s (if p then m >>= f else n >>= f) R := by
  split
  · exact still hf
  · exact still hf

lemma lift {m : Check α} (h : Q (m s.context).1 { s with context := (m s.context).2 }) : Steps s (lift m) Q := by
  rintro _ _ ⟨⟩
  exact h

lemma lift_bind {m : Check α} {f : α → Check β} (hm : Steps s (Grammar.lift m) P)
    (hf : ∀ a t, P a t → Steps t (Grammar.lift (f a)) R) : Steps s (Grammar.lift (m >>= f)) R :=
  bind hm hf

lemma lift_still {m : Check α} {f : α → Check β} [Check.Still m]
    (hf : ∀ a t, s.Rests t → Steps t (Grammar.lift (f a)) R) :
    Steps s (Grammar.lift (m >>= f)) R :=
  lift_bind rest hf

end Steps

variable {name : String} {symbol : Symbol} {span : Span} {mods : Modifiers} {ty : Ty}

lemma enters_bindName (hsymbol : ∀ ns, symbol ≠ .functions ns) :
    Steps s (lift (Check.bindName name symbol span)) fun _ t => s.Enters [(name, symbol)] t := by
  refine .weaken (.precede (.lift (Q := fun _ t => t = _) rfl)) fun _ t ⟨hprecedes, ht⟩ => ?_
  rw [Check.bindName_eq] at ht
  split at ht
  · subst ht
    exact ⟨rfl, rfl, hprecedes, fun _ hinner => Scopes.gains_of_insert? hinner hsymbol ‹_›⟩
  · subst ht
    exact ⟨rfl, rfl, hprecedes, fun hclean => absurd hclean Check.not_clean_report⟩

lemma enters_addVariable {v : Variable} :
    Steps s (lift (Check.addVariable v)) fun n t => s.Rests t ∧ t.context.variables[n]? = some v :=
  fun n t h => ⟨Steps.rest n t h, by cases h; exact Array.getElem?_push_size⟩

lemma enters_declareVariable {e : Option Expr} {storage : Storage} :
    Steps s (lift (Check.declareVariable mods ty name span e storage)) fun r t =>
      s.Enters [(name, .variable_ r.1)] t ∧ ∃ v, t.context.variables[r.1]? = some v ∧ v.name = name := by
  refine .lift_still fun _ t1 h1 => .lift_still fun _ t2 h2 => .lift_still fun _ t3 h3 =>
    .lift_still fun e' t4 h4 => ?_
  refine .lift_still fun _ t5 h5 => .lift_bind enters_addVariable fun n t6 ⟨h6, hv⟩ => ?_
  refine .lift_bind (enters_bindName nofun) fun _ t7 h7 => .pure ⟨?_, _, h7.precedes.variable_ hv, rfl⟩
  exact (h1.trans (h2.trans (h3.trans (h4.trans (h5.trans h6))))).enters.trans h7

end Grammar
end Shading
