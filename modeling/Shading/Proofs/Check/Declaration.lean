import Shading.Proofs.Check.Conversion

/-! Declarations keep the context sound: what they enter has proper types, and what they bind
exists. -/
namespace Shading

namespace Arena

variable {α : Type}

lemma eq_or_get?_of_push {a : Arena α} {x y : α} {i : Nat} (h : (a.push x).get? i = some y) :
    a.get? i = some y ∨ x = y := by
  unfold get? push at *
  dsimp only at h
  split at h
  · exact .inl (by rw [if_pos ‹_›]; exact h)
  · rw [Array.getElem?_push] at h
    split at h
    · exact .inr (Option.some.inj h)
    · exact .inl (by rw [if_neg ‹_›]; exact h)

lemma get?_modify (a : Arena α) (n : Nat) (f : α → α) (hn : a.isBase n = false) (i : Nat) :
    (a.modify n f).get? i = if i = n then (a.get? i).map f else a.get? i := by
  have hn : ¬ n < a.base.size := by simpa [isBase] using hn
  simp only [modify, if_neg hn, get?]
  by_cases hi : i < a.base.size
  · have hne : i ≠ n := by omega
    simp [hi, hne]
  · by_cases heq : i = n
    · subst heq
      simp [hi, Array.getElem?_modify]
    · have hne : n - a.base.size ≠ i - a.base.size := by omega
      simp [hi, heq, hne, Array.getElem?_modify]

end Arena

variable {name : String} {symbol : Symbol}

namespace Context.Sound

variable {c : Context}

lemma extend {c' : Context} (h : c.Sound) (hd : c.declared.Grows c'.declared)
    (hvariables : ∀ {n : Nat} {v}, c'.variables[n]? = some v → c.variables[n]? = some v ∨ v.Sound)
    (hbase : c'.functions.base = c.functions.base)
    (hitems : ∀ f ∈ c'.functions.items, f.intrinsic = none ∧ f.Sound)
    (hscopes : c'.scopes = c.scopes) : c'.Sound := by
  refine ⟨fun hv => (hvariables hv).elim h.variable_ id, hbase.trans h.base, hitems, ?_⟩
  rw [hscopes]
  exact fun scope hscope b hb => (h.scopes scope hscope b hb).grow hd

lemma withScopes {scopes : Scopes} (h : c.Sound)
    (hscopes : ∀ scope ∈ scopes.global :: scopes.inner, ∀ binding ∈ scope, binding.2.Sound c.declared) :
    ({ c with scopes } : Context).Sound :=
  ⟨h.variable_, h.base, h.items, hscopes⟩

lemma current (h : c.Sound) (hs : c.scopes.current.lookup name = some symbol) :
    symbol.Sound c.declared := by
  refine h.scopes c.scopes.current ?_ _ (Scopes.lookup hs)
  unfold Scopes.current
  cases c.scopes.inner <;> simp

lemma bind (h : c.Sound) (hs : symbol.Sound c.declared) :
    ({ c with scopes := c.scopes.bind name symbol } : Context).Sound := by
  refine h.withScopes fun scope hscope b hb => ?_
  obtain rfl | ⟨old, hold, hb⟩ := Scopes.mem_bind hb hscope
  · exact hs
  · exact h.scopes old hold b hb

lemma joined (h : c.Sound) (name : String) : (Symbol.functions (c.scopes.joined name)).Sound c.declared := by
  unfold Scopes.joined
  split
  · rename_i numbers hlookup
    split at hlookup
    · exact h.builtin (Scopes.lookup hlookup)
    · cases hlookup
  · simp [Symbol.Sound]

/-- Binding a name that is free, or adding to an overload set, keeps all names meaningful. -/
lemma insert? (h : c.Sound) {scopes : Scopes} (hs : symbol.Sound c.declared)
    (hinsert : c.scopes.insert? name symbol = some scopes) : ({ c with scopes } : Context).Sound := by
  have happend {old new : List Nat} (hold : (Symbol.functions old).Sound c.declared)
      (hnew : (Symbol.functions new).Sound c.declared) : (Symbol.functions (old ++ new)).Sound c.declared := by
    intro n hn
    exact (List.mem_append.mp hn).elim (hold n) (hnew n)
  unfold Scopes.insert? at hinsert
  split at hinsert
  · rename_i hcurrent
    obtain rfl := Option.some.inj hinsert
    exact h.bind (happend (h.current hcurrent) hs)
  · cases hinsert
  · obtain rfl := Option.some.inj hinsert
    exact h.bind (happend (h.joined name) hs)
  · obtain rfl := Option.some.inj hinsert
    exact h.bind hs

end Context.Sound

namespace Check

variable {o : View} {c : Context}

lemma addVariable_ensures {v : Variable} (hv : v.Sound) (hregular : o.isFull → v.Regular o.final) :
    Ensures o c (addVariable v) fun n d => d.variables[n]? = some v ∧
    (o.isFull → o.final.variables[n]? = some v) := by
  have hgrows : c.declared ≤ Context.declared { c with «variables» := c.variables.push v } := by
    refine ⟨⟨fun {n u} hu => ?_, (Declared.Grows.refl c.declared).function, fun h => h⟩, fun h => h⟩
    have hlt := (Array.getElem?_eq_some_iff.mp hu).1
    change (c.variables.push v)[n]? = some u
    rw [Array.getElem?_push, if_neg (by change n < c.variables.size at hlt; omega)]
    exact hu
  intro _ hfinal h
  have hnew {n : Nat} {u : Variable} (hu : (c.variables.push v)[n]? = some u) :
    c.variables[n]? = some u ∨ v = u := by
    rw [Array.getElem?_push] at hu
    split at hu
    · exact .inr (Option.some.inj hu)
    · exact .inl hu
  refine ⟨⟨h.extend hgrows.toGrows (fun {n u} hu => ?_) rfl h.items rfl, fun hfull => ?_⟩, hgrows,
    Array.getElem?_push_size, fun hfull => (hfinal hfull).variable_ Array.getElem?_push_size⟩
  · exact (hnew hu).imp_right fun heq : v = u => heq ▸ hv
  refine ⟨fun {n u} hu => ?_, (h.regular hfull).function, (h.regular hfull).scopes⟩
  obtain hu | rfl := hnew hu
  · exact (h.regular hfull).variable_ hu
  · exact hregular hfull

lemma enterScope_ensures : Ensures o c enterScope fun _ _ => True := by
  refine .modify (fun h => ⟨h.withScopes fun scope hscope b hb => ?_, fun hv => ?_⟩) le_rfl trivial
  · exact h.scopes scope (Scopes.mem_enter hb hscope) b hb
  · exact ⟨(h.regular hv).variable_, (h.regular hv).function,
      fun scope hscope b hb => (h.regular hv).scopes scope (Scopes.mem_enter hb hscope) b hb⟩

lemma leaveScope_ensures : Ensures o c leaveScope fun _ _ => True := by
  refine .modify (fun h => ⟨h.withScopes fun scope hscope =>
    h.scopes scope (Scopes.mem_leave hscope), fun hv => ?_⟩) le_rfl trivial
  exact ⟨(h.regular hv).variable_, (h.regular hv).function, fun scope hscope =>
    (h.regular hv).scopes scope (Scopes.mem_leave hscope)⟩

lemma tryBind_ensures (hs : symbol.Good o c.declared) :
    Ensures o c (tryBind name symbol) fun _ _ => True := by
  refine .get_bind fun _ => ?_
  split
  · rename_i scopes hinsert
    refine .bind (Q := fun _ _ => True) (.modify (fun h => ?_) le_rfl trivial) fun _ _ _ _ _ => .pure trivial
    exact ⟨h.insert? hs.1 hinsert, fun hv => (h.regular hv).insert? (hs.2 hv) hinsert⟩
  · exact .pure trivial

variable {span : Span}

lemma bindName_ensures (hs : symbol.Good o c.declared) :
    Ensures o c (bindName name symbol span) fun free _ => free = true := by
  refine .bind (tryBind_ensures hs) fun free c1 _ _ _ => ?_
  exact .bind .reportIf fun _ _ _ _ hfree => .pure (by simpa using hfree)

variable {m : Modifiers}

lemma constantValue_ensures {e : Option Expr} {ty : Ty}
    (he : ∀ i ∈ e, i.Good o c.declared ∧ i.ty = ty) :
    Ensures o c (constantValue m e) fun r _ =>
      ∀ l ∈ r, (∃ s, ty = .scalar s ∧ l.isOf s.kind = true) ∧ (o.isFull → l.Regular ty) := by
  unfold constantValue
  split
  · rename_i i
    obtain ⟨hgood, rfl⟩ := he i rfl
    refine .ite (fun _ => ?_) fun _ => .pure (by simp)
    refine .get_bind fun _ => .bind .reportIf fun _ _ _ _ _ => .pure fun l hl => ?_
    refine ⟨hgood.1.literal? hl, fun hv => ?_⟩
    have hregular := hgood.2 hv
    cases i <;> cases hl
    exact hregular
  · exact .pure (by simp)

lemma checkInitializer_ensures {b : Bool} :
    Ensures o c (checkInitializer m name span b) fun _ _ => True := by
  unfold checkInitializer
  split
  · exact .bind .reportIf fun _ _ _ _ _ => .weaken .reportIf fun _ _ _ _ => trivial
  · exact .weaken .reportIf fun _ _ _ _ => trivial

lemma coerceInitializer_ensures {e : Option Expr} {ty : Ty} (hty : ty.isProper = true)
    (he : ∀ i ∈ e, i.Good o c.declared) :
    Ensures o c (e.mapM (coerce · ty)) fun r d => ∀ i ∈ r, i.Good o d ∧ i.ty = ty := by
  cases e with
  | none => exact .pure (by simp)
  | some i =>
    refine .map (.weaken (coerce_ensures (he i rfl) hty) fun i' d _ hi' => ?_)
    rintro _ ⟨⟩
    exact hi'

lemma good_variable {d : Declared} {n : Nat} {v : Variable}
    (hn : d.variables[n]? = some v ∧ (o.isFull → o.final.variables[n]? = some v))
    (hname : o.Names v.name) : (Symbol.variable_ n).Good o d := by
  refine ⟨⟨v, hn.1⟩, fun hv u hu => ?_⟩
  rw [hn.2 hv] at hu
  exact Option.some.inj hu ▸ hname hv

lemma declareVariable_ensures {ty : Ty} {e : Option Expr} {storage : Storage}
    (hty : ty.Good o) (hname : o.Names name) (he : ∀ i ∈ e, i.Good o c.declared) :
    Ensures o c (declareVariable m ty name span e storage) fun r d =>
      ∃ v, d.variables[r.1]? = some v ∧ ∀ i ∈ r.2, i.Good o d ∧ i.ty = v.ty := by
  unfold declareVariable
  refine .bind .reportIf fun _ c1 hd1 _ _ => .bind .reportIf fun _ c2 hd2 _ _ => ?_
  refine .bind checkInitializer_ensures fun _ c3 hd3 _ _ => ?_
  have hd := (hd1.trans hd2).trans hd3
  refine .bind (coerceInitializer_ensures hty.1 fun i hi => (he i hi).mono hd) fun e' c4 hd4 _ he' => ?_
  refine .bind (constantValue_ensures he') fun constant c5 hd5 _ hconstant => ?_
  refine .bind (addVariable_ensures ⟨hty.1, fun l hl => (hconstant l hl).1⟩
    fun hv => ⟨hty.2 hv, fun _ => hname hv, fun l hl => (hconstant l hl).2 hv⟩) fun n c6 hd6 _ hn => ?_
  refine .bind (bindName_ensures (good_variable hn hname)) fun _ c7 hd7 _ _ =>
    .pure ⟨_, hd7.variable_ hn.1, fun i hi => ?_⟩
  exact ⟨(he' i hi).1.mono ((hd5.trans hd6).trans hd7), (he' i hi).2⟩

/-- A function of the program, as a declaration with these types leaves it. -/
def Declares (d : Declared) (n : Nat) (returns : Ty) (parameters : List Ty) : Prop :=
  ∃ f, d.functions.get? n = some f ∧ f.intrinsic = none ∧ d.functions.isBase n = false ∧ f.returns = returns ∧
    f.parameterTypes = parameters

variable {n : Nat} {returns : Ty}

lemma Declares.grow {d d' : Declared} {parameters : List Ty} (h : Declares d n returns parameters)
    (hd : d.Grows d') (hbase : d'.functions.base = d.functions.base) : Declares d' n returns parameters := by
  obtain ⟨f, hf, hintrinsic, hn, hreturns, hparameters⟩ := h
  obtain ⟨b, hb, -⟩ := hd.function hf
  refine ⟨_, hb, hintrinsic, ?_, hreturns, hparameters⟩
  rw [Arena.isBase, hbase]
  exact hn

variable {ps : List Parameter}

lemma redeclare_ensures {f : Function}
    (hf : c.functions.get? n = some f) (htypes : f.parameterTypes = ps.map (·.ty)) :
    Ensures o c (redeclare n returns name span ps) fun r d => ∃ k, r = some k ∧
    Declares d k returns (ps.map (·.ty)) := by
  refine .get_bind fun hc => ?_
  rw [Context.functionAt, hf, Option.getD_some]
  refine .ite (fun _ => .report_bind) fun hbase => .ite (fun _ => .report_bind) fun hreturns => ?_
  have hbase : c.functions.isBase n = false := by simpa using hbase
  have hintrinsic : f.intrinsic = none := by
    have hlt : ¬ n < c.functions.base.size := by simpa [Arena.isBase] using hbase
    rw [Arena.get?, if_neg hlt] at hf
    exact (hc.items f (Array.mem_of_getElem? hf)).1
  have hdeclares : Declares c.declared n returns (ps.map (·.ty)) :=
    ⟨f, hf, hintrinsic, hbase, by simpa using hreturns, htypes⟩
  refine .bind .reportIf fun _ c1 hd1 hc1 _ => .pure ⟨n, rfl, ?_⟩
  exact hdeclares.grow hd1.toGrows (hc1.base.trans hc.base.symm)

lemma sameSignature?_eq_some (hc : c.Sound)
    (h : sameSignature? c name ps = some n) :
    ∃ f, c.functions.get? n = some f ∧ f.parameterTypes = ps.map (·.ty) := by
  unfold sameSignature? at h
  split at h
  · rename_i overloads hfind
    obtain ⟨f, hf⟩ := hc.find? hfind n (List.mem_of_find?_eq_some h)
    have htypes := List.find?_some h
    rw [Context.functionAt, show c.functions.get? n = some f from hf] at htypes
    exact ⟨f, hf, by simpa using htypes⟩
  · cases h

lemma declareFunction_ensures
    (hreturns : returns.Good o) (hname : o.Names name) (hps : ∀ p ∈ ps, p.ty.Good o) :
    Ensures o c (declareFunction m returns name span ps) fun r d =>
      ∃ k, r = some k ∧ Declares d k returns (ps.map (·.ty)) := by
  refine .get_bind fun hc => ?_
  split
  · rename_i n hsame
    obtain ⟨f, hf, htypes⟩ := sameSignature?_eq_some hc.toSound hsame
    exact redeclare_ensures hf htypes
  · dsimp only
    let f : Function :=
      { name, returns, parameters := ps, modifiers := m, span, defined := false, ordinal := c.functions.items.size }
    have htypes : ∀ ty ∈ f.parameterTypes, ty.Good o := by simpa [f, Function.parameterTypes] using hps
    have hsound : f.Sound := ⟨fun ty hty => .inl (htypes ty hty).1, .inl hreturns.1,
      by simp [f], fun _ => ⟨hreturns.1, fun ty hty => (htypes ty hty).1⟩⟩
    have hgrows : c.declared ≤ Context.declared { c with functions := c.functions.push f } := by
      refine ⟨⟨fun h => h, fun {_ g} h => ⟨g.defined, Arena.get?_push _ _ h, fun hb => hb⟩, fun h =>
        h⟩, fun {n} hn => ?_⟩
      obtain ⟨g, hg, hdefined⟩ := hn
      obtain hg | rfl := Arena.eq_or_get?_of_push hg
      · exact ⟨g, hg, hdefined⟩
      · cases hdefined
    have hnew : Declares (Context.declared { c with functions := c.functions.push f })
      c.functions.next returns (ps.map (·.ty)) :=
      ⟨f, Arena.get?_push_next _ _, rfl, decide_eq_false (Nat.not_lt.mpr (Nat.le_add_right _ _)), rfl, rfl⟩
    refine .bind (Q := fun _ d => Declares d c.functions.next returns (ps.map (·.ty)))
      (.modify (fun h => ⟨h.extend hgrows.toGrows .inl rfl ?_ rfl, fun hv => ?_⟩) hgrows hnew)
        fun _ c1 hd1 hc1 hdeclares => ?_
    · intro g hg
      obtain hg | rfl := Array.mem_push.mp hg
      · exact h.items g hg
      · exact ⟨rfl, hsound⟩
    · refine ⟨(h.regular hv).variable_, fun {n g} hg => ?_, (h.regular hv).scopes⟩
      change (c.functions.items.push f)[n]? = some g at hg
      rw [Array.getElem?_push] at hg
      split at hg
      · exact Option.some.inj hg ▸ ⟨hname hv, hreturns.2 hv, fun ty hty => (htypes ty hty).2 hv⟩
      · exact (h.regular hv).function hg
    refine .bind (bindName_ensures ?_) fun free c2 hd2 hc2 hfree => ?_
    · obtain ⟨g, hg, -⟩ := hdeclares
      exact ⟨by simpa [Symbol.Sound] using ⟨g, hg⟩, fun _ => trivial⟩
    · rw [hfree, if_pos rfl]
      refine .bind .note fun _ c3 hd3 hc3 _ => .pure ⟨_, rfl, ?_⟩
      exact hdeclares.grow (hd2.trans hd3).toGrows (hc3.base.trans hc1.base.symm)

/-- The context after the body of a function has been seen. -/
def defining (c : Context) (n : Nat) : Context :=
  { c with functions := c.functions.modify n fun f => { f with defined := true } }

lemma markDefined_eq {f : Function} (hf : c.functions.get? n = some f)
    (hclean : (markDefined n name span c).2.journal.Clean) :
    f.defined = false ∧ markDefined n name span c = (false, defining c n) := by
  have hrun : markDefined n name span c = if f.defined = true then (true,
    (report (.duplicateDefinition name) span c).2)
      else (false, defining c n) := by
    change (if (c.functionAt n).defined = true then _ else _ : Check Bool) c = _
    rw [Context.functionAt, hf, Option.getD_some]
    split <;> rfl
  rw [hrun] at hclean ⊢
  split at hclean
  · exact (not_clean_report hclean).elim
  · rename_i hdefined
    exact ⟨by simpa using hdefined, by rw [if_neg hdefined]⟩

section Defining

variable {n : Nat} (hbase : c.functions.isBase n = false)
include hbase

lemma get?_defining (i : Nat) : (defining c n).functions.get? i =
    if i = n then (c.functions.get? i).map fun f => { f with defined := true } else c.functions.get? i :=
  Arena.get?_modify c.functions n _ hbase i

omit hbase in
lemma base_defining : (defining c n).functions.base = c.functions.base := by
  unfold defining Arena.modify
  dsimp only
  split <;> rfl

lemma grows_defining : c.declared.Grows (defining c n).declared := by
  refine ⟨fun h => h, fun {i g} hg => ?_, fun {i} h => ?_⟩
  · change c.functions.get? i = some g at hg
    change ∃ b, (defining c n).functions.get? i = _ ∧ _
    rw [get?_defining hbase i, hg]
    split
    · exact ⟨true, rfl, fun _ => rfl⟩
    · exact ⟨g.defined, rfl, fun hb => hb⟩
  · refine h.imp_left fun h => ?_
    unfold Arena.isBase at h ⊢
    rw [base_defining]
    exact h

lemma isDefined_defining {i : Nat} (hi : (defining c n).declared.IsDefined i) :
    c.declared.IsDefined i ∨ i = n := by
  obtain ⟨g, hg, hdefined⟩ := hi
  change (defining c n).functions.get? i = some g at hg
  rw [get?_defining hbase i] at hg
  split at hg
  · exact .inr ‹_›
  · exact .inl ⟨g, hg, hdefined⟩

lemma sound_defining (hc : c.Sound) : (defining c n).Sound := by
  refine hc.extend (grows_defining hbase) .inl (base_defining) (fun g hg => ?_) rfl
  have hlt : ¬ n < c.functions.base.size := by simpa [Arena.isBase] using hbase
  simp only [defining, Arena.modify, if_neg hlt] at hg
  obtain ⟨i, hi⟩ := Array.mem_iff_getElem?.mp hg
  rw [Array.getElem?_modify] at hi
  split at hi
  · obtain ⟨g', hg', rfl⟩ := Option.map_eq_some_iff.mp hi
    obtain ⟨hnone, hsound⟩ := hc.items g' (Array.mem_of_getElem? hg')
    exact ⟨hnone, hsound.parameters, hsound.returns, hsound.intrinsic, hsound.declared⟩
  · exact hc.items g (Array.mem_of_getElem? hi)

omit hbase in
lemma regular_defining {o : Context} (hc : o.Regular c) : o.Regular (defining c n) := by
  refine ⟨hc.variable_, fun {i f} hf => ?_, hc.scopes⟩
  dsimp only [defining, Arena.modify] at hf
  split at hf
  · exact hc.function hf
  · rw [Array.getElem?_modify] at hf
    split at hf
    · obtain ⟨g, hg, rfl⟩ := Option.map_eq_some_iff.mp hf
      obtain ⟨hname, hreturns, hparameters⟩ := hc.function hg
      exact ⟨hname, hreturns, hparameters⟩
    · exact hc.function hf

end Defining

lemma checkUnsized_ensures {buffer : Bool} {fields : List (Field Ty)} :
    Ensures o c (checkUnsized buffer fields) fun _ _ => True := by
  induction fields generalizing c with
  | nil => exact .pure trivial
  | cons f fs ih =>
    unfold checkUnsized
    exact .get_bind fun _ => .bind .reportIf fun _ _ _ _ _ => ih

end Check
end Shading
