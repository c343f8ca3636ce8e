import Mathlib
import Shading.Proofs.Check.Journal
import Shading.Proofs.Typing.Judgement

/-! What holds of a context in which nothing has been reported, and a way to say what a checking
step makes of such a context. Numbers keep their meaning from step to step, so whatever has been
established about an expression stays true. -/
namespace Shading

structure Variable.Sound (v : Variable) : Prop where
  proper : v.ty.isProper = true
  constant : ∀ l ∈ v.constant, ∃ s, v.ty = .scalar s ∧ l.isOf s.kind = true

/-- Only the functions of the language have generic types, and these return one only if they take
one. -/
structure Function.Sound (f : Function) : Prop where
  parameters : ∀ ty ∈ f.parameterTypes, ty.isProper = true ∨ ty.isGeneric = true
  returns : f.returns.isProper = true ∨ f.returns.isGeneric = true ∧ f.parameterTypes.any Ty.isGeneric = true
  intrinsic : f.intrinsic.isSome = true → f.parameterTypes ≠ []
  declared : f.intrinsic = none → f.returns.isProper = true ∧ ∀ ty ∈ f.parameterTypes, ty.isProper = true

lemma Intrinsic.sound_of_mem_signatures {f : Function} (h : f ∈ Intrinsic.signatures) : f.Sound := by
  have hparameters : ∀ f ∈ signatures, ∀ ty ∈ f.parameterTypes, ty.isProper = true ∨
    ty.isGeneric = true := by decide
  have hreturns : ∀ f ∈ signatures, f.returns.isProper = true ∨
      f.returns.isGeneric = true ∧ f.parameterTypes.any Ty.isGeneric = true := by decide
  have hintrinsic : ∀ f ∈ signatures, f.intrinsic.isSome = true ∧ f.parameterTypes ≠ [] := by decide
  refine ⟨hparameters f h, hreturns f h, fun _ => (hintrinsic f h).2, fun hnone => ?_⟩
  have := (hintrinsic f h).1
  simp [hnone] at this

variable {d : Declared}

namespace Declared

/-- Numbers keep their meaning; only the body of a function may have been seen in between. -/
structure Grows (d e : Declared) : Prop where
  variable_ : ∀ {n : Nat} {v}, d.variables[n]? = some v → e.variables[n]? = some v
  function : ∀ {n f}, d.functions.get? n = some f →
    ∃ b, e.functions.get? n = some { f with defined := b } ∧ (f.defined = true → b = true)
  callable : ∀ {n}, d.callable n → e.callable n

lemma Grows.refl (d : Declared) : d.Grows d :=
  ⟨fun h => h, fun {_ f} h => ⟨f.defined, h, fun hb => hb⟩, fun h => h⟩

lemma Grows.trans {e g : Declared} (h : d.Grows e) (k : e.Grows g) : d.Grows g := by
  refine ⟨fun hv => k.variable_ (h.variable_ hv), fun hf => ?_, fun hn => k.callable (h.callable hn)⟩
  obtain ⟨b, hb, hdefined⟩ := h.function hf
  obtain ⟨b', hb', hdefined'⟩ := k.function hb
  exact ⟨b', hb', fun hd => hdefined' (hdefined hd)⟩

/-- The body of the function has been seen. -/
def IsDefined (d : Declared) (n : Nat) : Prop := ∃ f, d.functions.get? n = some f ∧ f.defined = true

lemma Grows.isDefined {e : Declared} {n : Nat} (h : d.Grows e) (hn : d.IsDefined n) : e.IsDefined n := by
  obtain ⟨f, hf, hdefined⟩ := hn
  obtain ⟨b, hb, hb'⟩ := h.function hf
  exact ⟨_, hb, hb' hdefined⟩

/-- Nothing has changed its meaning, and no body has been seen in between. -/
structure Follows (d e : Declared) : Prop extends Grows d e where
  defined : ∀ {n}, e.IsDefined n → d.IsDefined n

instance : Preorder Declared where
  le := Follows
  le_refl d := ⟨.refl d, fun h => h⟩
  le_trans _ _ _ h k := ⟨h.toGrows.trans k.toGrows, fun hn => h.defined (k.defined hn)⟩

end Declared

variable {d' : Declared}

lemma Expr.Typed.grow {e : Expr} (h : e.Typed d) (hd : d.Grows d') : e.Typed d' := by
  cases e with
  | variable_ n ty span =>
    obtain ⟨v, hv, hty⟩ := h
    exact ⟨v, hd.variable_ hv, hty⟩
  | call f as ty span =>
    obtain ⟨hcallable, g, hg, htakes⟩ := h
    obtain ⟨b, hb, -⟩ := hd.function hg
    exact ⟨hd.callable hcallable, _, hb, htakes⟩
  | _ => exact h

lemma Expr.WellTyped.grow {e : Expr} (h : e.WellTyped d) (hd : d.Grows d') : e.WellTyped d' :=
  fun x hx => ⟨(h x hx).1, (h x hx).2.grow hd⟩

lemma Expr.WellTyped.mono {e : Expr} (h : e.WellTyped d) (hd : d ≤ d') : e.WellTyped d' := h.grow hd.toGrows

lemma Stmt.Typed.grow {returns : Ty} {s : Stmt} (h : s.Typed d returns) (hd : d.Grows d') :
    s.Typed d' returns := by
  cases s with
  | declare n e span =>
    obtain ⟨v, hv, hty⟩ := h
    exact ⟨v, hd.variable_ hv, hty⟩
  | _ => exact h

lemma Stmt.WellTyped.grow {returns : Ty} {s : Stmt} (h : s.WellTyped d returns) (hd : d.Grows d') :
    s.WellTyped d' returns :=
  fun x hx => ⟨(h x hx).1.grow hd, fun e he => ((h x hx).2 e he).grow hd⟩

lemma Element.WellTyped.grow {e : Element} (h : e.WellTyped d) (hd : d.Grows d') : e.WellTyped d' := by
  cases e with
  | struct ty span => exact h
  | block n span =>
    obtain ⟨v, hv⟩ := h
    exact ⟨v, hd.variable_ hv⟩
  | global n e span =>
    obtain ⟨v, hv, he⟩ := h
    exact ⟨v, hd.variable_ hv, fun i hi => (he i hi).imp_left (·.grow hd)⟩
  | prototype f span =>
    obtain ⟨g, hg⟩ := h
    obtain ⟨b, hb, -⟩ := hd.function hg
    exact ⟨_, hb⟩
  | definition f ps body span =>
    obtain ⟨g, hg, hintrinsic, hps, hbody, hend⟩ := h
    obtain ⟨b, hb, -⟩ := hd.function hg
    refine ⟨_, hb, hintrinsic, hps.imp fun n ty hn => ?_, hbody.grow hd, hend⟩
    obtain ⟨v, hv, hty⟩ := hn
    exact ⟨v, hd.variable_ hv, hty⟩

/-- What a name stands for exists. -/
def Symbol.Sound (d : Declared) : Symbol → Prop
  | .type ty => ty.isProper = true
  | .variable_ n => ∃ v, d.variables[n]? = some v
  | .functions numbers => ∀ n ∈ numbers, ∃ f, d.functions.get? n = some f
  | .field block i => ∃ v fields, d.variables[block]? = some v ∧ v.ty.fields? = some fields ∧ i < fields.length

variable {symbol : Symbol}

lemma Symbol.Sound.grow (h : symbol.Sound d) (hd : d.Grows d') : symbol.Sound d' := by
  cases symbol with
  | type ty => exact h
  | variable_ n =>
    obtain ⟨v, hv⟩ := h
    exact ⟨v, hd.variable_ hv⟩
  | functions numbers =>
    intro n hn
    obtain ⟨f, hf⟩ := h n hn
    obtain ⟨b, hb, -⟩ := hd.function hf
    exact ⟨_, hb⟩
  | field block i =>
    obtain ⟨v, fields, hv, hfields, hi⟩ := h
    exact ⟨v, fields, hd.variable_ hv, hfields, hi⟩

namespace Scopes

variable {scopes : Scopes} {scope : Bindings} {name : String}

lemma lookup {scope : Bindings} (h : scope.lookup name = some symbol) :
    (name, symbol) ∈ scope := by
  induction scope with
  | nil => cases h
  | cons b scope ih =>
    obtain ⟨k, s⟩ := b
    rw [List.lookup_cons] at h
    split at h
    · rename_i heq
      obtain rfl := Option.some.inj h
      rw [eq_of_beq heq]
      exact List.mem_cons_self
    · exact List.mem_cons_of_mem _ (ih h)

/-- What a name is found to stand for is bound in one of the scopes, or part of the language. -/
lemma mem_of_find? (h : scopes.find? name = some symbol) :
    (∃ scope ∈ scopes.global :: scopes.inner, (name, symbol) ∈ scope) ∨ (name, symbol) ∈ Bindings.builtin := by
  unfold find? at h
  split at h
  · rename_i found hinner
    obtain rfl := Option.some.inj h
    obtain ⟨scope, hscope, hlookup⟩ := List.exists_of_findSome?_eq_some hinner
    exact .inl ⟨scope, List.mem_cons_of_mem _ hscope, lookup hlookup⟩
  · rw [Option.or_eq_some_iff] at h
    obtain hglobal | ⟨-, hbuiltin⟩ := h
    · exact .inl ⟨_, List.mem_cons_self, lookup hglobal⟩
    · exact .inr (lookup hbuiltin)

variable {b : String × Symbol} (hb : b ∈ scope)
include hb

lemma mem_bind (hscope : scope ∈ (scopes.bind name symbol).global :: (scopes.bind name symbol).inner) :
    b = (name, symbol) ∨ ∃ old ∈ scopes.global :: scopes.inner, b ∈ old := by
  unfold bind at hscope
  cases hinner : scopes.inner with
  | nil =>
    simp only [hinner, List.mem_cons, List.not_mem_nil, or_false] at hscope
    subst hscope
    exact (List.mem_cons.mp hb).imp_right fun hb => ⟨_, List.mem_cons_self, hb⟩
  | cons first rest =>
    simp only [hinner, List.mem_cons] at hscope
    obtain rfl | rfl | hscope := hscope
    · exact .inr ⟨_, List.mem_cons_self, hb⟩
    · exact (List.mem_cons.mp hb).imp_right fun hb => ⟨first, .tail _ List.mem_cons_self, hb⟩
    · exact .inr ⟨scope, .tail _ (.tail _ hscope), hb⟩

lemma mem_enter (hscope : scope ∈ scopes.enter.global :: scopes.enter.inner) :
    scope ∈ scopes.global :: scopes.inner := by
  simp only [enter, List.mem_cons] at hscope
  obtain rfl | rfl | hscope := hscope
  · exact List.mem_cons_self
  · cases hb
  · exact List.mem_cons_of_mem _ hscope

omit hb in
lemma mem_leave (hscope : scope ∈ scopes.leave.global :: scopes.leave.inner) :
    scope ∈ scopes.global :: scopes.inner :=
  (List.mem_cons.mp hscope).elim (fun h => h ▸ List.mem_cons_self) fun h =>
    List.mem_cons_of_mem _ (List.mem_of_mem_tail h)

end Scopes

structure Context.Sound (c : Context) : Prop where
  variable_ : ∀ {n : Nat} {v}, c.variables[n]? = some v → v.Sound
  base : c.functions.base = Intrinsic.signatures.toArray
  items : ∀ f ∈ c.functions.items, f.intrinsic = none ∧ f.Sound
  scopes : ∀ scope ∈ c.scopes.global :: c.scopes.inner, ∀ binding ∈ scope, binding.2.Sound c.declared

namespace Context.Sound

variable {c : Context}

lemma function (h : c.Sound) {n : Nat} {f : Function} (hf : c.functions.get? n = some f) : f.Sound := by
  unfold Arena.get? at hf
  split at hf
  · rw [h.base] at hf
    exact Intrinsic.sound_of_mem_signatures (by simpa using List.mem_of_getElem? (by simpa using hf))
  · exact (h.items f (Array.mem_of_getElem? hf)).2

variable {name : String}

lemma builtin (h : c.Sound) (hs : (name, symbol) ∈ Bindings.builtin) :
    symbol.Sound c.declared := by
  simp only [Bindings.builtin, List.mem_append, List.mem_flatMap, List.mem_map, Prod.mk.injEq] at hs
  obtain ⟨ty, hty, _, -, -, rfl⟩ | ⟨_, -, rfl, rfl⟩ := hs
  · have hproper : ∀ ty ∈ Ty.nameable, ty.isProper = true := by decide
    exact hproper ty hty
  · intro n hn
    simp only [Bindings.overloads, List.mem_filterMap, Option.ite_none_right_eq_some, Option.some.injEq] at hn
    obtain ⟨⟨f, i⟩, hf, -, rfl⟩ := hn
    have hget := List.mem_zipIdx_iff_getElem?.mp hf
    refine ⟨f, ?_⟩
    have hlt : i < c.functions.base.size := by
      rw [h.base, List.size_toArray]
      exact (List.getElem?_eq_some_iff.mp hget).1
    change c.functions.get? i = some f
    rw [Arena.get?, if_pos hlt, h.base]
    simpa using hget

lemma find? (h : c.Sound) (hs : c.scopes.find? name = some symbol) :
    symbol.Sound c.declared := by
  obtain ⟨scope, hscope, hmem⟩ | hbuiltin := Scopes.mem_of_find? hs
  · exact h.scopes scope hscope _ hmem
  · exact h.builtin hbuiltin

lemma type? (h : c.Sound) {ty : Ty} (hty : c.scopes.type? name = some ty) : ty.isProper = true := by
  unfold Scopes.type? at hty
  split at hty
  · rename_i found hfound
    obtain rfl := Option.some.inj hty
    exact h.find? hfound
  · cases hty

end Context.Sound
end Shading
