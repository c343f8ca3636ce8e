import Shading.Proofs.Check.Call
import Shading.Proofs.Typing.Coherence

/-! Which overload a call means. The cost of an overload is the least over the ways to bind its
generic types; a call means an overload of the least cost, unless there are two that take different
types. The order of the overloads makes no difference to this, and the arguments convert to the
types of the parameters. -/
namespace Shading

namespace Overload

variable {c : Context} {f : Function} {a : Expr} {es : List Expr} {types types' : List Ty} {n cost cost' : Nat}

/-! ### Costs -/

/-- The arguments go to parameters of these types at this cost. -/
inductive Passes : List Expr → List Ty → Nat → Prop
  | nil : Passes [] [] 0
  | cons {a : Expr} {es : List Expr} {ty : Ty} {types : List Ty} {n cost : Nat} (h : argumentCost? a ty = some n)
      (hs : Passes es types cost) : Passes (a :: es) (ty :: types) (n + cost)

/-- The arguments go to the parameters of the function at this cost, after its generic types have
been bound to these types. -/
def Reaches (f : Function) (es : List Expr) (types : List Ty) (cost : Nat) : Prop :=
  (∃ choice, f.parameterTypes.mapM (bindGeneric choice) = some types) ∧ Passes es types cost

/-- The cost of an overload is the least over the ways to bind its generic types. -/
def Costs (f : Function) (es : List Expr) (cost : Nat) : Prop := IsLeast {n | ∃ types, Reaches f es types n} cost

/-- No overload of the list costs less than this one, whose parameters have these types for the
call. -/
structure IsMinimal (c : Context) (overloads : List Nat) (es : List Expr) (number : Nat)
    (types : List Ty) (cost : Nat) : Prop where
  mem : number ∈ overloads
  reaches : Reaches (c.functionAt number) es types cost
  costs : Costs (c.functionAt number) es cost
  least : ∀ other ∈ overloads, ∀ n, Costs (c.functionAt other) es n → cost ≤ n

lemma passes_iff : Passes es types cost ↔ types.length = es.length ∧ totalCost? es types = some cost := by
  induction es generalizing types cost with
  | nil =>
    constructor
    · rintro ⟨⟩
      exact ⟨rfl, rfl⟩
    · rintro ⟨hlength, hcost⟩
      obtain rfl := List.eq_nil_of_length_eq_zero hlength
      obtain rfl := Option.some.inj hcost
      exact .nil
  | cons a es ih =>
    cases types with
    | nil =>
      constructor
      · rintro ⟨⟩
      · rintro ⟨hlength, -⟩
        cases hlength
    | cons ty types =>
      simp only [totalCost?, List.length_cons, Nat.add_right_cancel_iff, Option.bind_eq_bind,
        Option.bind_eq_some_iff,
        Option.pure_def, Option.some.injEq]
      constructor
      · rintro (_ | ⟨h, hs⟩)
        obtain ⟨hlength, hrest⟩ := ih.mp hs
        exact ⟨hlength, _, h, _, hrest, rfl⟩
      · rintro ⟨hlength, n, h, m, hrest, rfl⟩
        exact .cons h (ih.mpr ⟨hlength, hrest⟩)

lemma Passes.argumentCost? {i : Nat} {ty : Ty} (h : Passes es types cost) (ha : es[i]? = some a)
    (hty : types[i]? = some ty) :
    ∃ n, argumentCost? a ty = some n := by
  induction h generalizing i with
  | nil => cases ha
  | cons h _ ih =>
    cases i with
    | zero =>
      cases ha
      cases hty
      exact ⟨_, h⟩
    | succ i => exact ih ha hty

lemma sameShape_of_argumentCost? {ty : Ty} (ha : a.isPoisoned = false) (hty : ty.isConcrete = true)
    (h : argumentCost? a ty = some n) : Ty.SameShape a.ty ty := by
  have hpoison : a.ty.isPoison = false := (Bool.or_eq_false_iff.mp ha).2
  obtain hcost | ⟨-, hretype⟩ := Option.or_eq_some_iff.mp h
  · have hconverts : a.ty.converts ty = true := by simp [Ty.converts, hcost]
    obtain heq | ⟨-, -, -, -, -, hshape⟩ := Ty.converts_cases hpoison hty hconverts
    · rw [heq]
      exact ⟨rfl, rfl, rfl, rfl, rfl⟩
    · exact hshape
  · obtain ⟨e, he, -⟩ := Option.map_eq_some_iff.mp hretype
    unfold Expr.retype? at he
    split at he
    · exact ⟨rfl, rfl, rfl, rfl, rfl⟩
    · cases he

/-- At most one of the types that a generic type stands for takes an argument. -/
lemma bindGeneric_unique {ty bound bound' : Ty} {i j : Nat} (ha : a.isPoisoned = false)
    (hi : bindGeneric i ty = some bound)
    (hj : bindGeneric j ty = some bound') (h : argumentCost? a bound = some cost)
    (h' : argumentCost? a bound' = some cost') :
    bound = bound' := by
  cases ty with
  | generic s =>
    have hchoices {ty : Ty} {i : Nat} (hi : bindGeneric i (.generic s) = some ty) :
        ty.scalar? = some s ∧ ty.isConcrete = true := by
      have hall : ∀ t ∈ Ty.choices s, t.scalar? = some s ∧ t.isConcrete = true := by
        simp [Ty.choices, Dim.all, Ty.scalar?, Ty.isConcrete, Ty.isPoison, Ty.isGeneric]
      exact hall ty (List.mem_of_getElem? hi)
    obtain ⟨hscalar, hconcrete⟩ := hchoices hi
    obtain ⟨hscalar', hconcrete'⟩ := hchoices hj
    obtain ⟨hs, -, -, hrows, hcolumns⟩ := sameShape_of_argumentCost? ha hconcrete h
    obtain ⟨hs', -, -, hrows', hcolumns'⟩ := sameShape_of_argumentCost? ha hconcrete' h'
    exact Ty.eq_of_dimensions hscalar hscalar' (hs.symm.trans hs') (hrows.symm.trans hrows')
      (hcolumns.symm.trans hcolumns')
  | _ => exact Option.some.inj (hi.symm.trans hj)

lemma passes_unique {parameters : List Ty} {i j : Nat} (hes : ∀ a ∈ es, a.isPoisoned = false)
    (hi : parameters.mapM (bindGeneric i) = some types) (hj : parameters.mapM (bindGeneric j) = some types')
    (h : Passes es types cost) (h' : Passes es types' cost') : types = types' ∧ cost = cost' := by
  induction parameters generalizing es types types' cost cost' with
  | nil =>
    rw [List.mapM_nil] at hi hj
    obtain rfl := Option.some.inj hi
    obtain rfl := Option.some.inj hj
    cases h
    cases h'
    exact ⟨rfl, rfl⟩
  | cons ty parameters ih =>
    rw [List.mapM_cons] at hi hj
    obtain ⟨bound, hbound, hi⟩ := Option.bind_eq_some_iff.mp hi
    obtain ⟨rest, hrest, hi⟩ := Option.bind_eq_some_iff.mp hi
    obtain rfl := Option.some.inj hi
    obtain ⟨bound', hbound', hj⟩ := Option.bind_eq_some_iff.mp hj
    obtain ⟨rest', hrest', hj⟩ := Option.bind_eq_some_iff.mp hj
    obtain rfl := Option.some.inj hj
    cases h with
    | cons ha hs =>
      cases h' with
      | cons ha' hs' =>
        rw [List.forall_mem_cons] at hes
        obtain rfl := bindGeneric_unique hes.1 hbound hbound' ha ha'
        obtain ⟨rfl, rfl⟩ := ih hes.2 hrest hrest' hs hs'
        obtain rfl := Option.some.inj (ha.symm.trans ha')
        exact ⟨rfl, rfl⟩

/-- There is at most one way to bind the generic types of a function for arguments without
poison. -/
lemma reaches_unique (hes : ∀ a ∈ es, a.isPoisoned = false) (h : Reaches f es types cost)
    (h' : Reaches f es types' cost') :
    types = types' ∧ cost = cost' := by
  obtain ⟨⟨i, hi⟩, h⟩ := h
  obtain ⟨⟨j, hj⟩, h'⟩ := h'
  exact passes_unique hes hi hj h h'

lemma Reaches.costs (hes : ∀ a ∈ es, a.isPoisoned = false) (h : Reaches f es types cost) : Costs f es cost := by
  refine ⟨⟨types, h⟩, ?_⟩
  rintro n ⟨types', h'⟩
  exact Nat.le_of_eq (reaches_unique hes h h').2

end Overload

/-! ### The ways to call a function -/

namespace Candidate

open Overload (Reaches IsMinimal)

variable {c : Context} {f : Function} {es : List Expr} {types : List Ty} {n cost : Nat}
    {k : Candidate} {ks : List Candidate}

lemma foldl_better_le (k : Candidate) (ks : List Candidate) : ∀ j ∈ k :: ks,
    (ks.foldl better k).cost ≤ j.cost := by
  have hbetter (a b : Candidate) : (better a b).cost ≤ a.cost ∧ (better a b).cost ≤ b.cost := by
    unfold better
    split <;> omega
  induction ks generalizing k with
  | nil => simp
  | cons i ks ih =>
    rw [List.foldl_cons]
    obtain ⟨hfirst, hrest⟩ := List.forall_mem_cons.mp (ih (better k i))
    obtain ⟨hk, hi⟩ := hbetter k i
    exact List.forall_mem_cons.mpr ⟨hfirst.trans hk, List.forall_mem_cons.mpr ⟨hfirst.trans hi, hrest⟩⟩

lemma foldl_better_eq (h : (ks.foldl better k).cost = k.cost) : ks.foldl better k = k := by
  induction ks generalizing k with
  | nil => rfl
  | cons i ks ih =>
    rw [List.foldl_cons] at h ⊢
    have hle := foldl_better_le (better k i) ks _ List.mem_cons_self
    have hbetter : better k i = k := by
      unfold better at *
      split
      · rw [if_pos ‹_›] at h hle
        omega
      · rfl
    rw [hbetter] at h ⊢
    exact ih h

lemma cost_le_of_cheapest? (h : cheapest? ks = some k) : ∀ j ∈ ks, k.cost ≤ j.cost := by
  cases ks with
  | nil => cases h
  | cons i ks =>
    obtain rfl := Option.some.inj h
    exact foldl_better_le i ks

lemma bound?_iff {i : Nat} {parameters : List Ty} : bound? n parameters es i = some k ↔
    parameters.mapM (Overload.bindGeneric i) = some k.parameters ∧
    Overload.totalCost? es k.parameters = some k.cost ∧
      k.function = n ∧ k.binding = some i := by
  obtain ⟨function, cost, types, binding⟩ := k
  simp only [bound?, Option.bind_eq_bind, Option.bind_eq_some_iff, Option.pure_def, Option.some.injEq, mk.injEq]
  grind

lemma reaches_of_of? (h : of? n f es = some k) : k.function = n ∧ Reaches f es k.parameters k.cost := by
  obtain ⟨hn, hlength, -⟩ := of?_eq_some h
  refine ⟨hn, ?_⟩
  unfold of? at h
  dsimp only at h
  rw [if_neg (not_not.mpr hlength)] at h
  split at h
  · obtain ⟨i, -, hi⟩ := List.mem_filterMap.mp (mem_of_cheapest? h)
    obtain ⟨htypes, hcost, -⟩ := bound?_iff.mp hi
    exact ⟨⟨i, htypes⟩, Overload.passes_iff.mpr ⟨(Overload.mapM_eq_some htypes).1.trans hlength, hcost⟩⟩
  · rename_i hgeneric
    rw [Bool.not_eq_true] at hgeneric
    obtain ⟨cost, hcost, rfl⟩ := Option.map_eq_some_iff.mp h
    exact ⟨⟨0, Overload.mapM_of_not_isGeneric hgeneric⟩, Overload.passes_iff.mpr ⟨hlength, hcost⟩⟩

lemma exists_of? (h : Reaches f es types cost) : ∃ k, of? n f es = some k := by
  obtain ⟨⟨i, htypes⟩, hpasses⟩ := h
  obtain ⟨hlength, hcost⟩ := Overload.passes_iff.mp hpasses
  obtain ⟨hcount, hlt, -⟩ := Overload.mapM_eq_some htypes
  unfold of?
  dsimp only
  rw [if_neg (not_not.mpr (hcount.symm.trans hlength))]
  cases hgeneric : f.parameterTypes.any Ty.isGeneric with
  | true =>
    have hbound : bound? n f.parameterTypes es i = some ⟨n, cost, types, some i⟩ :=
      bound?_iff.mpr ⟨htypes, hcost, rfl, rfl⟩
    have hmem : ⟨n, cost, types, some i⟩ ∈ (List.range 4).filterMap (bound? n f.parameterTypes es) :=
      List.mem_filterMap.mpr ⟨i, List.mem_range.mpr (hlt hgeneric), hbound⟩
    rw [if_pos rfl]
    cases hks : (List.range 4).filterMap (bound? n f.parameterTypes es) with
    | nil =>
      rw [hks] at hmem
      cases hmem
    | cons j ks => exact ⟨_, rfl⟩
  | false =>
    rw [Overload.mapM_of_not_isGeneric hgeneric] at htypes
    obtain rfl := Option.some.inj htypes
    rw [if_neg Bool.false_ne_true, hcost]
    exact ⟨_, rfl⟩

end Candidate

/-! ### What a call means -/

/-- The search ends with the flag set if a candidate ties with the best one: a tie before the best
one has been found is forgotten, and one after it is seen. -/
lemma Search.ambiguous_foldl {ks : List Candidate} {s : Search} {k : Candidate} (hs : s.best = some k) :
    (ks.foldl step s).ambiguous = true ↔
      s.ambiguous = true ∧ (ks.foldl Candidate.better k).cost = k.cost ∨
        ∃ j ∈ ks, j.cost = (ks.foldl Candidate.better k).cost ∧
          j.parameters ≠ (ks.foldl Candidate.better k).parameters := by
  induction ks generalizing s k with
  | nil => simp
  | cons c ks ih =>
    rw [List.foldl_cons, List.foldl_cons, ih (best_step hs c), List.exists_mem_cons_iff]
    have hle := Candidate.foldl_better_le (k.better c) ks _ List.mem_cons_self
    have hsame := @Candidate.foldl_better_eq (k.better c) ks
    by_cases hlt : c.cost < k.cost
    · have hbetter : k.better c = c := if_pos hlt
      have hreset : (s.step c).ambiguous = false := by simp [step, hs, hlt]
      rw [hbetter] at hle hsame ⊢
      rw [hreset]
      generalize ks.foldl Candidate.better c = best at hle hsame ⊢
      constructor
      · rintro (⟨⟨⟩, -⟩ | h)
        exact .inr (.inr h)
      · rintro (⟨-, h⟩ | ⟨hc, hne⟩ | h)
        · omega
        · exact absurd (congrArg Candidate.parameters (hsame hc.symm)).symm hne
        · exact .inr h
    · have hbetter : k.better c = k := if_neg hlt
      have hflag : (s.step c).ambiguous = true ↔
          s.ambiguous = true ∨ c.cost = k.cost ∧ k.parameters ≠ c.parameters := by simp [step, hs, hlt]
      rw [hbetter] at hle hsame ⊢
      rw [hflag]
      generalize ks.foldl Candidate.better k = best at hle hsame ⊢
      constructor
      · rintro (⟨hbefore | ⟨hc, hne⟩, h⟩ | h)
        · exact .inl ⟨hbefore, h⟩
        · exact .inr (.inl ⟨hc.trans h.symm, fun heq => hne (by rw [heq, hsame h])⟩)
        · exact .inr (.inr h)
      · rintro (⟨hbefore, h⟩ | ⟨hc, hne⟩ | h)
        · exact .inl ⟨.inl hbefore, h⟩
        · have h : best.cost = k.cost := by omega
          exact .inl ⟨.inr ⟨hc.trans h, fun heq => hne (by rw [← heq, hsame h])⟩, h⟩
        · exact .inr h

namespace Resolution

variable {ks : List Candidate} {k : Candidate}

/-- The search finds the first of the cheapest candidates, and whether another of its cost takes
other types. -/
lemma of_eq (ks : List Candidate) : of ks = match Candidate.cheapest? ks with
    | none => .none_
    | some best =>
      if ks.any fun c => c.cost == best.cost && c.parameters != best.parameters then .ambiguous
      else .chosen best := by
  unfold of
  dsimp only
  rw [Search.best_foldl]
  cases ks with
  | nil => rfl
  | cons k ks =>
    have hflag := @Search.ambiguous_foldl ks (Search.step {} k) k rfl
    have hsame := @Candidate.foldl_better_eq k ks
    simp only [Candidate.cheapest?, List.foldl_cons]
    congr 1
    rw [hflag, eq_iff_iff]
    simp only [List.any_eq_true, Bool.and_eq_true, beq_iff_eq, bne_iff_ne, List.mem_cons]
    grind [Search.step]

lemma of_eq_none_iff : of ks = .none_ ↔ ks = [] := by
  cases ks with
  | nil => exact ⟨fun _ => rfl, fun _ => rfl⟩
  | cons k ks =>
    simp only [of_eq, Candidate.cheapest?, reduceCtorEq, iff_false]
    split <;> nofun

/-- Two candidates of the least cost that take different types. -/
def IsTie (ks : List Candidate) (j k : Candidate) : Prop :=
  j ∈ ks ∧ k ∈ ks ∧ j.cost = k.cost ∧ (∀ i ∈ ks, k.cost ≤ i.cost) ∧ j.parameters ≠ k.parameters

lemma of_eq_ambiguous_iff : of ks = .ambiguous ↔ ∃ j k, IsTie ks j k := by
  rw [of_eq]
  cases hbest : Candidate.cheapest? ks with
  | none =>
    have hnil : ks = [] := by
      cases ks with
      | nil => rfl
      | cons k ks => cases hbest
    subst hnil
    simp [IsTie]
  | some best =>
    have hmem := Candidate.mem_of_cheapest? hbest
    have hle := Candidate.cost_le_of_cheapest? hbest
    dsimp only
    split
    · rename_i hany
      simp only [List.any_eq_true, Bool.and_eq_true, beq_iff_eq, bne_iff_ne] at hany
      obtain ⟨j, hj, hcost, hne⟩ := hany
      exact ⟨fun _ => ⟨j, best, hj, hmem, hcost, hle, hne⟩, fun _ => rfl⟩
    · rename_i hany
      simp only [List.any_eq_true, Bool.and_eq_true, beq_iff_eq, bne_iff_ne, not_exists, not_and, not_not] at hany
      refine ⟨nofun, ?_⟩
      rintro ⟨j, k, hj, hk, hcost, hleast, hne⟩
      have hkbest : k.cost = best.cost := Nat.le_antisymm (hleast best hmem) (hle k hk)
      exact absurd ((hany j hj (hcost.trans hkbest)).trans (hany k hk hkbest).symm) hne

lemma IsTie.perm {ks' : List Candidate} {j : Candidate} (h : IsTie ks j k) (hperm : ks.Perm ks') :
    IsTie ks' j k := by
  obtain ⟨hj, hk, hcost, hleast, hne⟩ := h
  exact ⟨hperm.mem_iff.mp hj, hperm.mem_iff.mp hk, hcost, fun i hi => hleast i (hperm.mem_iff.mpr hi), hne⟩

lemma of_eq_chosen (h : of ks = .chosen k) : k ∈ ks ∧ ∀ i ∈ ks, k.cost ≤ i.cost := by
  rw [of_eq] at h
  split at h
  · cases h
  · split at h
    · cases h
    · obtain rfl := Resolution.chosen.inj h
      exact ⟨Candidate.mem_of_cheapest? ‹_›, Candidate.cost_le_of_cheapest? ‹_›⟩

/-- The order of the candidates does not matter to whether a call is refused, nor to the types of
the parameters otherwise. -/
lemma of_perm {ks' : List Candidate} (hperm : ks.Perm ks') :
    (of ks = .none_ ↔ of ks' = .none_) ∧ (of ks = .ambiguous ↔ of ks' = .ambiguous) ∧
      ∀ k, of ks = .chosen k → ∃ k', of ks' = .chosen k' ∧ k'.parameters = k.parameters := by
  have hnone : of ks = .none_ ↔ of ks' = .none_ := by
    rw [of_eq_none_iff, of_eq_none_iff]
    exact ⟨fun h => (h ▸ hperm).nil_eq.symm, fun h => (h ▸ hperm).eq_nil⟩
  have hambiguous : of ks = .ambiguous ↔ of ks' = .ambiguous := by
    rw [of_eq_ambiguous_iff, of_eq_ambiguous_iff]
    constructor
    · rintro ⟨j, k, h⟩
      exact ⟨j, k, h.perm hperm⟩
    · rintro ⟨j, k, h⟩
      exact ⟨j, k, h.perm hperm.symm⟩
  refine ⟨hnone, hambiguous, fun k hk => ?_⟩
  cases hk' : of ks' with
  | none_ => cases hk.symm.trans (hnone.mpr hk')
  | ambiguous => cases hk.symm.trans (hambiguous.mpr hk')
  | chosen k' =>
    obtain ⟨hmem, hleast⟩ := of_eq_chosen hk
    obtain ⟨hmem', hleast'⟩ := of_eq_chosen hk'
    refine ⟨k', rfl, ?_⟩
    by_contra hne
    have hcost : k'.cost = k.cost :=
      Nat.le_antisymm (hleast' k (hperm.mem_iff.mp hmem)) (hleast k' (hperm.mem_iff.mpr hmem'))
    have htie : of ks = .ambiguous := of_eq_ambiguous_iff.mpr
      ⟨k', k, hperm.mem_iff.mpr hmem', hmem, hcost, hleast, hne⟩
    cases hk.symm.trans htie

end Resolution

namespace Check

open Overload (Reaches Costs IsMinimal)

variable {c : Context} {overloads : List Nat} {es : List Expr} {types : List Ty} {n cost : Nat} {k : Candidate}

lemma reaches_of_mem_candidates (h : k ∈ candidates c overloads es) :
    k.function ∈ overloads ∧ Reaches (c.functionAt k.function) es k.parameters k.cost := by
  obtain ⟨n, hn, hk⟩ := List.mem_filterMap.mp h
  obtain ⟨rfl, hreaches⟩ := Candidate.reaches_of_of? hk
  exact ⟨hn, hreaches⟩

lemma exists_mem_candidates (hes : ∀ a ∈ es, a.isPoisoned = false) (hn : n ∈ overloads)
    (h : Reaches (c.functionAt n) es types cost) :
    ∃ k ∈ candidates c overloads es, k.function = n ∧ k.parameters = types ∧ k.cost = cost := by
  obtain ⟨k, hk⟩ := Candidate.exists_of? (n := n) h
  obtain ⟨hfunction, hreaches⟩ := Candidate.reaches_of_of? hk
  exact ⟨k, List.mem_filterMap.mpr ⟨n, hn, hk⟩, hfunction, Overload.reaches_unique hes hreaches h⟩

lemma isMinimal_iff (hes : ∀ a ∈ es, a.isPoisoned = false) : IsMinimal c overloads es n types cost ↔
    ∃ k ∈ candidates c overloads es, k.function = n ∧ k.parameters = types ∧ k.cost = cost ∧
      ∀ i ∈ candidates c overloads es, k.cost ≤ i.cost := by
  constructor
  · intro h
    obtain ⟨k, hk, hfunction, htypes, hcost⟩ := exists_mem_candidates hes h.mem h.reaches
    refine ⟨k, hk, hfunction, htypes, hcost, fun i hi => ?_⟩
    obtain ⟨hmem, hreaches⟩ := reaches_of_mem_candidates hi
    rw [hcost]
    exact h.least _ hmem _ (hreaches.costs hes)
  · rintro ⟨k, hk, rfl, rfl, rfl, hleast⟩
    obtain ⟨hmem, hreaches⟩ := reaches_of_mem_candidates hk
    refine ⟨hmem, hreaches, hreaches.costs hes, fun other hother m hcosts => ?_⟩
    obtain ⟨types, hother'⟩ := hcosts.1
    obtain ⟨i, hi, -, -, rfl⟩ := exists_mem_candidates hes hother hother'
    exact hleast i hi

lemma candidates_eq_nil_iff (hes : ∀ a ∈ es, a.isPoisoned = false) :
    candidates c overloads es = [] ↔ ∀ n ∈ overloads, ∀ cost, ¬ Costs (c.functionAt n) es cost := by
  rw [List.eq_nil_iff_forall_not_mem]
  constructor
  · intro h n hn cost hcosts
    obtain ⟨types, hreaches⟩ := hcosts.1
    obtain ⟨k, hk, -⟩ := exists_mem_candidates hes hn hreaches
    exact h k hk
  · intro h k hk
    obtain ⟨hmem, hreaches⟩ := reaches_of_mem_candidates hk
    exact h _ hmem _ (hreaches.costs hes)

lemma exists_isTie_iff (hes : ∀ a ∈ es, a.isPoisoned = false) :
    (∃ j k, Resolution.IsTie (candidates c overloads es) j k) ↔
    ∃ n n' types types' cost, IsMinimal c overloads es n types cost ∧
    IsMinimal c overloads es n' types' cost ∧ types ≠ types' := by
  constructor
  · rintro ⟨j, k, hj, hk, hcost, hleast, hne⟩
    refine ⟨j.function, k.function, j.parameters, k.parameters, k.cost, (isMinimal_iff hes).mpr ?_,
      (isMinimal_iff hes).mpr ?_, hne⟩
    · exact ⟨j, hj, rfl, rfl, hcost, fun i hi => hcost ▸ hleast i hi⟩
    · exact ⟨k, hk, rfl, rfl, rfl, hleast⟩
  · rintro ⟨n, n', types, types', cost, h, h', hne⟩
    obtain ⟨j, hj, -, rfl, rfl, -⟩ := (isMinimal_iff hes).mp h
    obtain ⟨k, hk, -, rfl, hcost, hleast⟩ := (isMinimal_iff hes).mp h'
    exact ⟨j, k, hj, hk, hcost.symm, hleast, hne⟩

/-- An argument is passed to a parameter that is only read without a mismatch. -/
lemma passArgument_neverRefuses {a : Expr} {ty : Ty} (h : Overload.argumentCost? a ty = some n) :
    NeverRefuses (passArgument a ty false) := by
  refine coerce_neverRefuses ?_
  obtain hcost | ⟨-, hretype⟩ := Option.or_eq_some_iff.mp h
  · exact .inl (Option.isSome_iff_exists.mpr ⟨n, hcost⟩)
  · obtain ⟨e, he, -⟩ := Option.map_eq_some_iff.mp hretype
    exact .inr (Option.isSome_iff_exists.mpr ⟨e, he⟩)

/-- A call in a context, with the context after it. -/
def outcome (c : Context) (name : String) (overloads : List Nat) (es : List Expr) (span : Span) : Expr × Context :=
  call name overloads es span c

/-- A call that is refused with one report. -/
def refused (c : Context) (p : Problem) (span : Span) : Expr × Context :=
  (poisoned span, { c with journal := .problemFound ⟨p, span⟩ :: c.journal })

/-- A call of the function that a candidate names, with the arguments passed to parameters of its
types. -/
def accepted (c : Context) (k : Candidate) (es : List Expr) (span : Span) : Expr × Context :=
  (do
    let passed ← passArguments (c.functionAt k.function) k.parameters es
    noteCall k.function span
    return .call k.function passed (returnType (c.functionAt k.function) k.binding) span : Check Expr) c

/-- What becomes of a call. -/
def answer (c : Context) (name : String) (es : List Expr) (span : Span) : Resolution → Expr × Context
  | .none_ => refused c (.noOverload name (es.map Expr.ty)) span
  | .ambiguous => refused c (.ambiguousCall name (es.map Expr.ty)) span
  | .chosen k => accepted c k es span

variable {name : String} {span : Span}

lemma outcome_eq (hes : ∀ a ∈ es, a.isPoisoned = false) :
    outcome c name overloads es span = answer c name es span (.of (candidates c overloads es)) := by
  have hpoison : es.any Expr.isPoisoned = false := by
    rw [List.any_eq_false]
    exact fun e he => by simp [hes e he]
  have hget {α : Type} (f : Context → Check α) : (get >>= f) c = f c c := rfl
  unfold outcome call
  rw [hpoison, if_neg Bool.false_ne_true, hget]
  cases Resolution.of (candidates c overloads es) <;> rfl

lemma accepted_ne_refused {p : Problem} : accepted c k es span ≠ refused c p span := by
  intro h
  cases congrArg Prod.fst h

lemma answer_eq_refused_iff {p : Problem} {r : Resolution} : answer c name es span r = refused c p span ↔
    (r = .none_ ∧ p = .noOverload name (es.map Expr.ty)) ∨
    (r = .ambiguous ∧ p = .ambiguousCall name (es.map Expr.ty)) := by
  cases r with
  | chosen k => simp [answer, accepted_ne_refused]
  | _ => simp [answer, refused, eq_comm]

/-- Overload resolution is minimal and independent of the order of declarations. A call is refused
for want of an overload if none has a cost, and as ambiguous if two overloads of the least cost take
different types; otherwise it means an overload of the least cost, whose parameters take the
arguments without a mismatch unless they are written back. Another order of the overloads refuses
the same calls, and gives the parameters the same types otherwise. -/
theorem call_resolution (c : Context) (name : String) (overloads : List Nat) (es : List Expr) (span : Span)
    (hes : ∀ a ∈ es, a.isPoisoned = false) :
    (outcome c name overloads es span = refused c (.noOverload name (es.map Expr.ty)) span ↔
      ∀ n ∈ overloads, ∀ cost, ¬ Costs (c.functionAt n) es cost) ∧
    (outcome c name overloads es span = refused c (.ambiguousCall name (es.map Expr.ty)) span ↔
      ∃ n n' types types' cost, IsMinimal c overloads es n types cost ∧
      IsMinimal c overloads es n' types' cost ∧ types ≠ types') ∧
    ((∀ p, outcome c name overloads es span ≠ refused c p span) →
      ∃ k : Candidate, outcome c name overloads es span = accepted c k es span ∧
        IsMinimal c overloads es k.function k.parameters k.cost ∧
        (∀ (i : Nat) a ty p, es[i]? = some a → k.parameters[i]? = some ty →
        (c.functionAt k.function).parameters[i]? = some p →
          p.isOut = false → (passArgument a ty p.isOut).NeverRefuses) ∧
        ∀ permuted, overloads.Perm permuted →
          ∃ k' : Candidate, outcome c name permuted es span = accepted c k' es span ∧
          k'.parameters = k.parameters) ∧
    ∀ permuted, overloads.Perm permuted → ∀ p,
      (outcome c name overloads es span = refused c p span ↔
      outcome c name permuted es span = refused c p span) := by
  have hcandidates {permuted : List Nat} (h : overloads.Perm permuted) :
    (candidates c overloads es).Perm (candidates c permuted es) :=
    h.filterMap _
  have hperm {permuted : List Nat} (h : overloads.Perm permuted) := Resolution.of_perm (hcandidates h)
  simp only [outcome_eq hes, answer_eq_refused_iff]
  refine ⟨?_, ?_, fun hchosen => ?_, fun permuted h p => ?_⟩
  · simp [Resolution.of_eq_none_iff, candidates_eq_nil_iff hes]
  · simp [Resolution.of_eq_ambiguous_iff, exists_isTie_iff hes]
  · cases hk : Resolution.of (candidates c overloads es) with
    | none_ =>
      rw [hk] at hchosen
      exact absurd rfl (hchosen _)
    | ambiguous =>
      rw [hk] at hchosen
      exact absurd rfl (hchosen _)
    | chosen k =>
      obtain ⟨hmem, hleast⟩ := Resolution.of_eq_chosen hk
      have hminimal : IsMinimal c overloads es k.function k.parameters k.cost :=
        (isMinimal_iff hes).mpr ⟨k, hmem, rfl, rfl, rfl, hleast⟩
      refine ⟨k, rfl, hminimal, fun i a ty p ha hty _ hout => ?_, fun permuted h => ?_⟩
      · obtain ⟨n, hn⟩ := hminimal.reaches.2.argumentCost? ha hty
        rw [hout]
        exact passArgument_neverRefuses hn
      · obtain ⟨k', hk', htypes⟩ := (hperm h).2.2 k hk
        exact ⟨k', by rw [hk']; rfl, htypes⟩
  · rw [(hperm h).1, (hperm h).2.1]

/-- Two integers from a variable. -/
def sampleArgument : Expr := .variable_ 0 (.vector .int .two) (.point 0)

/-- The absolute value of a vector of integers: of the three functions that the language provides,
the same is meant in any order. -/
theorem call_resolution_abs :
    (∀ a ∈ [sampleArgument], a.isPoisoned = false) ∧
      ∃ k : Candidate, outcome (.initial .fragment {}) "abs" [0, 2, 4] [sampleArgument] (.point 0) =
          accepted (.initial .fragment {}) k [sampleArgument] (.point 0) ∧
        IsMinimal (.initial .fragment {}) [0, 2, 4] [sampleArgument] k.function k.parameters k.cost ∧
        ∃ k' : Candidate, outcome (.initial .fragment {}) "abs" [4, 2, 0] [sampleArgument] (.point 0) =
          accepted (.initial .fragment {}) k' [sampleArgument] (.point 0) ∧ k'.parameters = k.parameters := by
  have hes : ∀ a ∈ [sampleArgument], a.isPoisoned = false := by decide
  have hcalls : (outcome (.initial .fragment {}) "abs" [0, 2, 4] [sampleArgument]
    (.point 0)).1.isPoison = false := by decide
  obtain ⟨-, -, hchosen, -⟩ := call_resolution (.initial .fragment {}) "abs" [0, 2, 4]
    [sampleArgument] (.point 0) hes
  obtain ⟨k, haccepted, hminimal, -, hpermuted⟩ := hchosen fun p h =>
    by simp [h, refused, poisoned, Expr.isPoison] at hcalls
  exact ⟨hes, k, haccepted, hminimal, hpermuted [4, 2, 0] (by decide)⟩

end Check
end Shading
