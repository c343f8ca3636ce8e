import Shading.Proofs.Spirv.Relayout

/-! Assignments to swizzles. A chain of swizzles over a vector in memory chooses some of its
components, and none of them twice. A store replaces these and keeps the others, and what is read
back is what has been stored. -/
namespace Shading

lemma Ty.rows_of_vector? {component ty : Ty} {n : Nat} (hcomponent : component.isScalar = true)
    (h : vector? component n = some ty) :
    ty.rows = n := by
  unfold vector? at h
  split at h
  · cases h
    cases component <;> simp_all [isScalar, rows]
  · split at h
    · rename_i d hd
      cases h
      unfold Dim.ofNat? at hd
      split at hd <;> cases hd <;> rfl
    · cases h

namespace Expr

/-- A chain of swizzles over an expression. The mask tells for each component which one of the
expression it is. -/
inductive Swizzles (base : Expr) : List (Fin 4) → Expr → Prop
  | one (mask : List (Fin 4)) (ty : Ty) (span : Span) : Swizzles base mask (.swizzle base mask ty span)
  | more {inner : List (Fin 4)} {e : Expr} (h : Swizzles base inner e) (mask : List (Fin 4)) (ty : Ty)
    (span : Span) :
    Swizzles base (mask.map fun c => inner.getD c.val 0) (.swizzle e mask ty span)

end Expr

namespace Spirv

/-! ### Components -/

/-- The components of the mask are those of `vs`, in this order, and the others are as before. -/
structure Replaces (mask : List (Fin 4)) (old vs new : List Value) : Prop where
  length : new.length = old.length
  chosen : ∀ {k : Nat} {c : Fin 4}, mask[k]? = some c → new[c.val]? = vs[k]?
  others : ∀ {i : Nat}, (∀ c ∈ mask, c.val ≠ i) → new[i]? = old[i]?

/-- A vector of some components; one alone is a scalar. -/
def Value.ofParts : List Value → Value
  | [v] => v
  | vs => .composite vs

variable {mask : List (Fin 4)} {old vs new : List Value}

lemma Value.ofParts_of_length (h : vs.length ≠ 1) : ofParts vs = .composite vs := by
  obtain _ | ⟨v, _ | ⟨w, vs⟩⟩ := vs
  · rfl
  · contradiction
  · rfl

lemma replaces_set {c : Fin 4} {v : Value} (hc : c.val < old.length) :
    Replaces [c] old [v] (old.set c.val v) where
  length := List.length_set
  chosen {k c'} hk := by
    cases k with
    | zero =>
      obtain rfl : c = c' := by simpa using hk
      simp [hc]
    | succ k => simp at hk
  others hi := by simp [List.getElem?_set_ne (hi c (by simp))]

lemma exists_mapM {α β : Type} (g : α → Option β) (xs : List α) (h : ∀ x ∈ xs, (g x).isSome = true) :
    ∃ ys, xs.mapM g = some ys ∧ ys.length = xs.length ∧ ∀ i : Nat, ys[i]? = xs[i]?.bind g := by
  induction xs with
  | nil => exact ⟨[], rfl, rfl, fun _ => rfl⟩
  | cons x xs ih =>
    rw [List.forall_mem_cons] at h
    obtain ⟨y, hy⟩ := Option.isSome_iff_exists.mp h.1
    obtain ⟨ys, hmap, hlength, hys⟩ := ih h.2
    refine ⟨y :: ys, by simp [hy, hmap], by simp [hlength], fun i => ?_⟩
    cases i <;> simp [hy, hys]

/-- Where a shuffle takes a component from. -/
def source (mask : List (Fin 4)) (rows i : Nat) : Nat := match mask.findIdx? (·.val == i) with
  | some k => rows + k
  | none => i

/-- A shuffle takes each component from the old vector or, behind it, from the new one. -/
lemma replaces_shuffle (hnodup : mask.Nodup) (hvs : vs.length = mask.length)
    (hmask : ∀ c ∈ mask, c.val < old.length) :
    ∃ new, (Build.replacement old.length mask).mapM ((old ++ vs)[·]?) = some new ∧ Replaces mask old vs new := by
  have hchosen {k : Nat} {c : Fin 4} (hk : mask[k]? = some c) :
    source mask old.length c.val = old.length + k := by
    obtain ⟨hlt, rfl⟩ := List.getElem?_eq_some_iff.mp hk
    have hfound : mask.findIdx? (·.val == mask[k].val) = some k := by
      refine List.findIdx?_eq_some_iff_getElem.mpr ⟨hlt, by simp, fun j hj => ?_⟩
      have hne : mask[j] ≠ mask[k] := fun heq => Nat.ne_of_lt hj (hnodup.getElem_inj_iff.mp heq)
      simpa [Fin.val_inj] using hne
    simp only [source, hfound]
  have hother {i : Nat} (hi : ∀ c ∈ mask, c.val ≠ i) : source mask old.length i = i := by
    have hnone : mask.findIdx? (·.val == i) = none := List.findIdx?_eq_none_iff.mpr (by simpa using hi)
    simp only [source, hnone]
  have hcases (i : Nat) : (∃ (k : Nat) (c : Fin 4), mask[k]? = some c ∧ c.val = i) ∨ ∀ c ∈ mask, c.val ≠ i := by
    by_cases h : ∃ c ∈ mask, c.val = i
    · obtain ⟨c, hc, hi⟩ := h
      obtain ⟨k, hk⟩ := List.mem_iff_getElem?.mp hc
      exact .inl ⟨k, c, hk, hi⟩
    · exact .inr fun c hc hi => h ⟨c, hc, hi⟩
  obtain ⟨new, hnew, hlength, hget⟩ := exists_mapM (fun i => (old ++ vs)[i]?)
    ((List.range old.length).map (source mask old.length)) fun j hj => by
    obtain ⟨i, hi, rfl⟩ := List.mem_map.mp hj
    obtain ⟨k, c, hk, rfl⟩ | hnot := hcases i
    · simp [hchosen hk, hvs, (List.getElem?_eq_some_iff.mp hk).1]
    · simp [hother hnot, Nat.lt_add_right _ (List.mem_range.mp hi)]
  refine ⟨new, hnew, by simpa using hlength, fun {k c} hk => ?_, fun {i} hi => ?_⟩
  · simp [hget, hmask c (List.mem_of_getElem? hk), hchosen hk, List.getElem?_append_right]
  · by_cases hlt : i < old.length
    · simp [hget, hlt, hother hi, List.getElem?_append_left]
    · simp [hget, hlt]

lemma Replaces.mapM (h : Replaces mask old vs new) (hvs : vs.length = mask.length)
    (hmask : ∀ c ∈ mask, c.val < old.length) (ws : List Value) :
    (mask.map fun c => c.val).mapM ((new ++ ws)[·]?) = some vs := by
  refine mapM_of_forall₂ (List.forall₂_iff_get.mpr ⟨by simp [hvs], fun k hk hk' => ?_⟩)
  have hk : k < mask.length := by simpa using hk
  have hlt : mask[k].val < new.length := h.length ▸ hmask _ (List.getElem_mem hk)
  simp [List.getElem?_append_left hlt, h.chosen (List.getElem?_eq_getElem hk)]

/-! ### Reading and writing -/

namespace Machine

variable {M M' W : Machine} {f b b' : Builder} {a : Access} {p v : Value}

/-- Where an access leads to: the values of its indices lengthen the path of its base. -/
def Locates (M : Machine) (f b : Builder) (a : Access) (p : Value) : Prop :=
  ∃ base path is, M.Has f b a.base (.pointer base path) ∧
    List.Forall₂ (fun x i => ∃ v, M.Has f b x v ∧ v.index? = some i) a.indices is ∧ p = .pointer base (path ++ is)

lemma Locates.mono (h : M.Locates f b a p) (hkept : ∀ {x v}, M.Has f b x v → M'.Has f b' x v) :
    M'.Locates f b' a p := by
  obtain ⟨base, path, is, hbase, his, rfl⟩ := h
  exact ⟨base, path, is, hkept hbase, his.imp fun _ _ ⟨v, hv, hi⟩ => ⟨v, hkept hv, hi⟩, rfl⟩

lemma read_congr (h : M'.variables = M.variables) : M'.read p = M.read p := by
  cases p <;> simp [read, h]

lemma write_congr (hwrite : M.write v p = some W) (h : M'.variables = M.variables) :
    M'.write v p = some { M' with «variables» := W.variables } := by
  cases p with
  | pointer base path =>
    simp only [write, Option.bind_eq_some_iff, Option.map_eq_some_iff] at hwrite
    obtain ⟨whole, hwhole, whole', hset, rfl⟩ := hwrite
    simp [write, h, hwhole, hset]
  | _ => cases hwrite

lemma exists_write {old : Value} (h : M.read p = some old) (v : Value) : ∃ W, M.write v p = some W := by
  cases p with
  | pointer base path =>
    obtain ⟨whole, hwhole, hget⟩ := Option.bind_eq_some_iff.mp h
    obtain ⟨whole', hset⟩ : ∃ whole', Value.set? v whole path = some whole' := Value.isSome_set? hget
    exact ⟨_, by rw [write, hwhole, Option.bind_some, hset, Option.map_some]⟩
  | _ => cases h

end Machine

namespace Build

open Builder (Straight Typed)

variable {M M' W : Machine} {f b b' : Builder} {s : Setting} {a : Access} {p v : Value} {x : Nat}

lemma Runs.recovers {m : Build Nat} (h : Runs f m s b M' (Recovers f M' v)) (hsame : M'.variables = M.variables) :
    Runs f m s b M' (Recovers f M v) := .weaken h fun _ _ _ h => ⟨h.1, h.2.trans hsame⟩

lemma runs_pointer (hp : M.Locates f b a p) : Runs f (pointer a) s b M (Recovers f M p) := by
  obtain ⟨base, path, is, hbase, his, rfl⟩ := hp
  unfold pointer
  have (type : Nat) (operands : List Operand) : IsStraight (compute .accessChain type operands) := .compute rfl
  split
  · rename_i hempty
    rw [List.isEmpty_iff.mp hempty] at his
    cases his
    rw [List.append_nil]
    exact .pure ⟨hbase, rfl⟩
  · refine .bind (runs_typeIn a.ty) ?_
    rintro M - ⟨-, rfl⟩
    refine .bind (.quiet (pointerType _ a.storage)) ?_
    rintro M - rfl
    have hindices := mapM_of_forall₂ (g := fun x => (M.values x).bind Value.index?)
      (his.imp fun _ _ ⟨v, hv, hi⟩ => by rw [hv.1]; exact hi)
    have hids : Operand.ids (a.base :: a.indices) = .id a.base :: Operand.ids a.indices := rfl
    refine runs_compute ?_
    simp [Machine.eval?, hids, hbase.1, hindices]

lemma runs_load (hp : M.Locates f b a p) (hread : M.read p = some v) (hfits : v.Fits a.ty) :
    Runs f (load a) s b M (Recovers f M v) := by
  have (type : Nat) (operands : List Operand) : IsStraight (compute .load type operands) := .compute rfl
  refine .bind (runs_pointer hp) ?_
  rintro M1 - ⟨hpointer, hsame1⟩
  refine .bind (runs_typeIn a.ty) ?_
  rintro _ hkept ⟨-, rfl⟩
  refine .bind (runs_compute (v := v) ?_) ?_
  · simp [Machine.eval?, (hkept hpointer).1, Machine.read_congr hsame1, hread]
  rintro M2 - ⟨hid, hsame2⟩
  refine .bind (.quiet (relax _ a.ty)) ?_
  rintro _ hkept rfl
  exact .recovers (relays a.ty _ _ _ _ _ _ (hkept hid) hfits) (hsame2.trans hsame1)

lemma runs_write {pointer : Nat} (hpointer : M.Has f b pointer p) (hx : M.Has f b x v)
    (hwrite : M.write v p = some W) :
    Runs f (emit .store (Operand.ids [pointer, x])) s b M fun _ _ M' => M' = W := by
  intro hb hf
  have hvalues := Machine.values_write hwrite
  have htyped : Typed (emit .store (Operand.ids [pointer, x]) s b).2 :=
    hb.typed.of_structs (.of_eq rfl rfl rfl (Nat.le_refl _)) rfl
  refine ⟨W, ⟨⟨[{ op := .store, operands := Operand.ids [pointer, x] }], rfl, ?_⟩, ⟨htyped, ?_⟩,
    fun h => ⟨by rw [hvalues]; exact h.1, h.2⟩⟩, rfl⟩
  · simp [Machine.run, Machine.exec, Operand.ids, hpointer.1, hx.1, hwrite]
  · exact hb.knows.of_eq (hf.keeps.tabled htyped.tabled) fun x _ => by rw [hvalues]

lemma runs_store (hp : M.Locates f b a p) (hx : M.Has f b x v) (hfits : v.Fits a.ty)
    (hwrite : M.write v p = some W) :
    Runs f (store a x) s b M fun _ _ M' => M'.variables = W.variables := by
  refine .bind (relays a.ty _ _ _ _ _ _ hx hfits) ?_
  rintro M1 hkept1 ⟨hx1, hsame1⟩
  refine .bind (runs_pointer (hp.mono hkept1)) ?_
  rintro M2 hkept2 ⟨hp2, hsame2⟩
  refine .weaken (runs_write hp2 (hkept2 hx1) (Machine.write_congr hwrite (hsame2.trans hsame1))) ?_
  rintro _ _ _ rfl
  rfl

lemma isVector_typeOf {ty : Ty} (hty : (ty.isVector || ty.isMatrix) = true) (hb : b.Tabled)
    (hf : Builder.Keeps (typeOf ty s b).2 f) :
    f.isVector (typeOf ty s b).1 = ty.isVector := by
  have hmakes : Makes (typeOf ty) s b fun x b' => ∃ t, b'.templates[x]? = some t ∧
    b'.isVector x = ty.isVector := by
    cases ty with
    | vector t n =>
      exact .bind (.of_outside (scalarType t) hb) fun _ _ h1 _ =>
        .weaken (makes_global h1.tabled nofun rfl) fun _ _ _ h => ⟨_, h, by rw [Builder.isVector, h]; rfl⟩
    | matrix t c r =>
      exact .bind (.of_outside (vectorType t r) hb) fun _ _ h1 _ =>
        .weaken (makes_global h1.tabled nofun rfl) fun _ _ _ h => ⟨_, h, by rw [Builder.isVector, h]; rfl⟩
    | _ => cases hty
  obtain ⟨t, ht, hop⟩ := hmakes.2
  rw [← hop, Builder.isVector, Builder.isVector, hf.templates hmakes.1.tabled ht, ht]

lemma runs_result {op : Op} {ty : Ty} {operands : List Operand} (hop : Instruction.isPlain { op } = true)
    (hv : ∀ type x, ((ty.isVector || ty.isMatrix) = true → f.isVector type = ty.isVector) →
      M.eval? f.isVector { op, type := some type, result := some x, operands } = some v) :
    Runs f (result op ty operands) s b M (Recovers f M v) := by
  let i (type x : Nat) : Instruction := { op, type, result := x, operands }
  have (type : Nat) : IsStraight (do let id ← fresh; relax id ty; push (i type id); return id) :=
    ⟨fun s b => .code (IsStraight.straight (m := relax b.next ty) s { b with next := b.next + 1 }) rfl hop⟩
  change Runs f (typeIn none ty >>= fun type =>
    do let id ← fresh; relax id ty; push (i type id); return id) s b M _
  refine .intro fun hb hf => .bind (runs_typeIn ty) ?_
  rintro _ - ⟨-, rfl⟩
  have hlater := (((this (typeOf ty s b).1).straight s (typeOf ty s b).2).trans hf).keeps
  exact runs_define (g := fun x => relax x ty) (i := i _) (fun _ => rfl)
    (hv _ _ fun hty => isVector_typeOf hty hb.typed.tabled hlater)

/-- The vector with the components of the mask replaced. -/
def merge (ty : Ty) (mask : List (Fin 4)) (old value : Nat) : Build Nat :=
  match mask with
  | [c] => result .compositeInsert ty (Operand.ids [value, old] ++ [.number (.ofNat c.val)])
  | mask =>
    result .vectorShuffle ty (Operand.ids [old, value] ++
      Operand.numbers ((replacement ty.rows mask).map UInt32.ofNat))

instance (ty : Ty) (mask : List (Fin 4)) (old value : Nat) : IsStraight (merge ty mask old value) := by
  unfold merge
  split <;> exact .result rfl

lemma storeTarget_components (mask : List (Fin 4)) :
    storeTarget (.components a mask) x = (do let old ← load a; let new ← merge a.ty mask old x; store a new) := by
  obtain _ | ⟨c, _ | ⟨d, mask⟩⟩ := mask <;> rfl

variable {mask : List (Fin 4)} {old vs new : List Value} {ty : Ty} {value : Nat}

lemma lt_of_mem_replacement (hnodup : mask.Nodup) : ∀ i ∈ replacement ty.rows mask, i < 2 ^ 32 := by
  have hrows : ty.rows ≤ 4 := by
    cases ty with
    | vector _ n | matrix _ _ n => cases n <;> simp [Ty.rows, Dim.toNat]
    | _ => simp [Ty.rows]
  have hlength : mask.length ≤ 4 := by simpa using hnodup.length_le_card
  intro i hi
  obtain ⟨j, hj, rfl⟩ := List.mem_map.mp hi
  rw [List.mem_range] at hj
  split
  · rename_i k hk
    obtain ⟨hk, -⟩ := List.findIdx?_eq_some_iff_getElem.mp hk
    omega
  · omega

lemma eval?_shuffle {V : Nat → Bool} {u w t y : Nat} {us ws picked : List Value} {chosen : List Nat}
    (hu : M.values u = some (.composite us))
    (hw : M.values w = some (.composite ws)) (hchosen : ∀ i ∈ chosen, i < 2 ^ 32)
    (hpicked : chosen.mapM ((us ++ ws)[·]?) = some picked) :
    M.eval? V
      { op := .vectorShuffle, type := some t, result := some y,
        operands := Operand.ids [u, w] ++ Operand.numbers (chosen.map UInt32.ofNat) } =
      some (.composite picked) := by
  simp [Machine.eval?, Operand.ids, hu, hw, Value.parts?, mapM_number? hchosen, hpicked]

lemma runs_merge (hold : old.length = ty.rows) (hmask : ∀ c ∈ mask, c.val < ty.rows)
    (hnodup : mask.Nodup) (hvs : vs.length = mask.length)
    (hx : M.Has f b x (.composite old)) (hvalue : M.Has f b value (.ofParts vs)) :
    Runs f (merge ty mask x value) s b M fun y b' M' =>
      ∃ new, Replaces mask old vs new ∧ Recovers f M (.composite new) y b' M' := by
  rw [← hold] at hmask
  unfold merge
  split
  · rename_i c
    obtain ⟨v, rfl⟩ := List.length_eq_one_iff.mp hvs
    have hc := hmask c (by simp)
    refine .weaken (runs_result (v := .composite (old.set c.val v)) rfl fun type y _ => ?_)
      fun _ _ _ h => ⟨_, replaces_set hc, h⟩
    have hword : (UInt32.ofNat c.val).toNat = c.val := UInt32.toNat_ofNat_of_lt (c.isLt.trans (by decide))
    simp [Machine.eval?, Operand.ids, Operand.number?, hx.1, hvalue.1, Value.ofParts, Value.set?,
      hc, -UInt32.toNat_ofNat', hword]
  · rename_i hmany
    obtain ⟨new, hnew, hreplaces⟩ := replaces_shuffle hnodup hvs hmask
    refine .weaken (runs_result (v := .composite new) rfl fun type y _ => ?_) fun _ _ _ h => ⟨_, hreplaces, h⟩
    rw [Value.ofParts_of_length fun h => ?_] at hvalue
    · rw [hold] at hnew
      exact eval?_shuffle hx.1 hvalue.1 (lt_of_mem_replacement hnodup) hnew
    · obtain ⟨c, rfl⟩ := List.length_eq_one_iff.mp (hvs.symm.trans h)
      exact hmany c rfl

lemma fits_of_isVector (hty : ty.isVector = true) (v : Value) : v.Fits ty := by
  cases ty <;> simp_all [Value.Fits, Ty.isVector]

lemma runs_storeTarget (hty : a.ty.isVector = true) (hp : M.Locates f b a p)
    (hread : M.read p = some (.composite old))
    (hold : old.length = a.ty.rows) (hmask : ∀ c ∈ mask, c.val < a.ty.rows) (hnodup : mask.Nodup)
    (hvs : vs.length = mask.length)
    (hx : M.Has f b x (.ofParts vs)) : Runs f (storeTarget (.components a mask) x) s b M fun _ _ M' =>
      ∃ new W, Replaces mask old vs new ∧ M.write (.composite new) p = some W ∧ M'.variables = W.variables := by
  rw [storeTarget_components]
  refine .bind (runs_load hp hread (fits_of_isVector hty _)) ?_
  rintro M1 hkept1 ⟨hload, hsame1⟩
  refine .bind (runs_merge hold hmask hnodup hvs hload (hkept1 hx)) ?_
  rintro M2 hkept2 ⟨new, hnew, hy, hsame2⟩
  obtain ⟨W, hW⟩ := Machine.exists_write hread (.composite new)
  refine .weaken (runs_store ((hp.mono hkept1).mono hkept2) hy (fits_of_isVector hty _)
    (Machine.write_congr hW (hsame2.trans hsame1))) ?_
  exact fun _ _ _ hvariables => ⟨new, W, hnew, hW, hvariables⟩

lemma runs_swizzle (hnew : Replaces mask old vs new) (hvs : vs.length = mask.length)
    (hmask : ∀ c ∈ mask, c.val < old.length)
    (hx : M.Has f b x (.composite new)) : Runs f (swizzle x mask ty) s b M (Recovers f M (.ofParts vs)) := by
  unfold swizzle
  split
  · rename_i c
    obtain ⟨v, rfl⟩ := List.length_eq_one_iff.mp hvs
    refine .bind (runs_typeIn ty) ?_
    rintro _ hkept ⟨-, rfl⟩
    have hc := hnew.chosen (k := 0) (c := c) rfl
    exact runs_extractAs v (hkept hx) (by simpa [Value.get?] using hc) (by simp; omega)
  · rename_i hmany
    refine runs_result rfl fun type y _ => ?_
    rw [Value.ofParts_of_length fun h => ?_]
    · have heval := eval?_shuffle (V := f.isVector) (t := type) (y := y) hx.1 hx.1 (by simp; omega)
        (hnew.mapM hvs hmask new)
      rwa [List.map_map] at heval
    · obtain ⟨c, rfl⟩ := List.length_eq_one_iff.mp (hvs.symm.trans h)
      exact hmany c rfl

lemma runs_loadTarget (hty : a.ty.isVector = true) (hp : M.Locates f b a p)
    (hread : M.read p = some (.composite new))
    (hnew : Replaces mask old vs new) (hvs : vs.length = mask.length) (hmask : ∀ c ∈ mask, c.val < old.length) :
    Runs f (loadTarget (.components a mask) ty) s b M (Recovers f M (.ofParts vs)) := by
  refine .bind (runs_load hp hread (fits_of_isVector hty _)) ?_
  rintro M1 - ⟨hload, hsame⟩
  exact .recovers (runs_swizzle hnew hvs hmask hload) hsame

/-! ### Chains -/

end Build
end Spirv

namespace Expr

open Spirv

lemma length_eraseDups_le : (cs : List (Fin 4)) → cs.eraseDups.length ≤ cs.length
  | [] => by simp
  | c :: cs => by
    rw [List.eraseDups_cons, List.length_cons, List.length_cons]
    exact Nat.succ_le_succ ((length_eraseDups_le _).trans (List.length_filter_le ..))
termination_by cs => cs.length
decreasing_by exact Nat.lt_succ_of_le (List.length_filter_le ..)

lemma nodup_of_length_eraseDups {cs : List (Fin 4)} (h : cs.eraseDups.length = cs.length) : cs.Nodup := by
  induction cs with
  | nil => exact List.nodup_nil
  | cons c cs ih =>
    rw [List.eraseDups_cons, List.length_cons, List.length_cons, Nat.succ.injEq] at h
    have hfilter := List.length_filter_eq_length_iff.mp
      (Nat.le_antisymm (List.length_filter_le ..) (h ▸ length_eraseDups_le _))
    rw [List.filter_eq_self.mpr hfilter] at h
    exact List.nodup_cons.mpr ⟨fun hmem => by simpa using hfilter c hmem, ih h⟩

variable {base e : Expr} {mask : List (Fin 4)} {d : Declared} {declared : Nat → Option Variable}

lemma swizzle_components {cs : List (Fin 4)} {ty : Ty} {span : Span} (htyped : (swizzle e cs ty span).WellTyped d)
    (hassign : (swizzle e cs ty span).obstacle? declared = none) :
    cs.Nodup ∧ (∀ c ∈ cs, c.val < e.ty.rows) ∧ ty.rows = cs.length ∧ e.WellTyped d ∧
    e.obstacle? declared = none := by
  obtain ⟨-, ⟨hshape, -, -, hrows, hty⟩, hparts⟩ := wellTyped_iff.mp htyped
  unfold obstacle? at hassign
  split at hassign
  · refine ⟨nodup_of_length_eraseDups ‹_›, hrows, ?_, hparts e (by simp [parts]), hassign⟩
    exact Ty.rows_of_vector?
      (by obtain h | h := hshape <;> cases hbase : e.ty <;> simp_all [Ty.isScalar, Ty.isVector, Ty.component]) hty
  · cases hassign

lemma Swizzles.components (he : Swizzles base mask e) (htyped : e.WellTyped d)
    (hassign : e.obstacle? declared = none) :
    mask.Nodup ∧ (∀ c ∈ mask, c.val < base.ty.rows) ∧ e.ty.rows = mask.length ∧ base.WellTyped d := by
  induction he with
  | one mask ty span =>
    obtain ⟨hnodup, hrows, hlength, hbase, -⟩ := swizzle_components htyped hassign
    exact ⟨hnodup, hrows, hlength, hbase⟩
  | @more inner e h mask ty span ih =>
    obtain ⟨hnodup, hrows, hlength, hinner, hassign⟩ := swizzle_components htyped hassign
    obtain ⟨hnodup', hrows', hlength', hbase⟩ := ih hinner hassign
    rw [hlength'] at hrows
    have hget {c : Fin 4} (hc : c ∈ mask) : inner.getD c.val 0 = inner.get ⟨c.val, hrows c hc⟩ := by
      simp [hrows c hc]
    refine ⟨hnodup.map_on fun c hc c' hc' heq => ?_, fun c hc =>
      ?_, by rw [List.length_map]; exact hlength, hbase⟩
    · rw [hget hc, hget hc'] at heq
      exact Fin.val_inj.mp (by simpa using hnodup'.injective_get heq)
    · obtain ⟨c', hc', rfl⟩ := List.mem_map.mp hc
      rw [hget hc']
      exact hrows' _ (List.get_mem ..)

variable {s : Setting} {b b' : Builder} {a : Access}

lemma target?_swizzle (e : Expr) (cs : List (Fin 4)) (ty : Ty) (span : Span) :
    Build.target? (.swizzle e cs ty span) s b =
    ((Build.target? e s b).1.map (Target.select cs), (Build.target? e s b).2) := by
  rw [Build.target?]
  rfl

lemma Swizzles.target? (he : Swizzles base mask e) (hbase : Build.target? base s b = (some (.memory a), b')) :
    Build.target? e s b = (some (.components a mask), b') := by
  induction he with
  | one mask ty span => rw [target?_swizzle, hbase]; rfl
  | more h mask ty span ih => rw [target?_swizzle, ih]; rfl

lemma step_eq {m : Build (Option Access)} {k : Build Nat} {ty : Ty} : (do match ← m with
    | some a => return some (.memory (a.step (← k) ty))
    | none => return none : Build (Option Target)) s b = (match (m s b).1 with
      | some a => do return some (.memory (a.step (← k) ty))
      | none => return none : Build (Option Target)) s (m s b).2 := rfl

lemma ty_of_step {m : Build (Option Access)} {k : Build Nat} {ty : Ty} (h : (do match ← m with
    | some a => return some (.memory (a.step (← k) ty))
    | none => return none : Build (Option Target)) s b = (some (.memory a), b')) : a.ty = ty := by
  rw [step_eq] at h
  cases hm : (m s b).1 <;> rw [hm] at h <;> cases h
  rfl

lemma ty_of_target? (hbase : Build.target? base s b = (some (.memory a), b'))
    (htyped : base.WellTyped s.program.declared) :
    a.ty = base.ty := by
  unfold Build.target? at hbase
  cases base with
  | variable_ n ty span =>
    obtain ⟨-, ⟨v, hv, rfl⟩, -⟩ := wellTyped_iff.mp htyped
    have hvariable : (s.program.variableAt n).ty = v.ty := by simp_all [Program.variableAt, Program.declared]
    change (some (Target.memory (Build.variableAccess n v.ty s b).1), _) = _ at hbase
    cases hbase
    rw [Build.Composed.variableAccess_eq]
    cases b.places[n]? with
    | some place => exact hvariable
    | none => rfl
  | swizzle e cs ty span =>
    obtain ⟨t, -, ht⟩ := Option.map_eq_some_iff.mp (congrArg Prod.fst hbase)
    cases t <;> cases ht
  | field e i at' ty span => exact ty_of_step hbase
  | index e i ty span => exact ty_of_step hbase
  | _ => cases hbase

end Expr

namespace Spirv.Build

open Builder (Straight Typed)

variable {base e : Expr} {mask : List (Fin 4)} {s : Setting} {b b' : Builder} {a : Access}

/-- An assignment to a chain of swizzles over a vector in memory, followed by reading the same
components: the code of the first writes a vector that has the assigned components at those of the
mask and the old ones elsewhere, the code of the second yields what was assigned. -/
theorem swizzle_store (he : base.Swizzles mask e) (htyped : e.WellTyped s.program.declared)
    (hassign : e.obstacle? (s.program.variables[·]?) = none) (hvector : base.ty.isVector = true)
    (hbase : target? base s b = (some (.memory a), b')) :
    target? e s b = (some (.components a mask), b') ∧
    ∀ {c d f : Builder} {M : Machine} {x y : Nat} {p : Value} {old vs : List Value},
      storeTarget (.components a mask) x s c = ((), d) → loadTarget (.components a mask) e.ty s d = (y, f) →
      c.Typed → M.Knows f → M.Locates f c a p → M.read p = some (.composite old) → old.length = base.ty.rows →
      M.Has f c x (.ofParts vs) → vs.length = e.ty.rows →
      ∃ new W is M1 js M2, Replaces mask old vs new ∧ M.write (.composite new) p = some W ∧
        d.body.code = is.reverse ++ c.body.code ∧ M.run f.isVector is = some M1 ∧ M1.variables = W.variables ∧
        f.body.code = js.reverse ++ d.body.code ∧ M1.run f.isVector js = some M2 ∧
        M2.values y = some (.ofParts vs) ∧ M2.variables = W.variables := by
  obtain ⟨hnodup, hmask, hrows, hbaseTyped⟩ := he.components htyped hassign
  have hty := Expr.ty_of_target? hbase hbaseTyped
  refine ⟨he.target? hbase, fun {c d f M x y p old vs} hstore hload hc hM hp hread hold hx hvs => ?_⟩
  obtain rfl : (storeTarget (.components a mask) x s c).2 = d := congrArg Prod.snd hstore
  obtain ⟨rfl, rfl⟩ := Prod.ext_iff.mp hload
  rw [← hty] at hvector hmask hold
  rw [hrows] at hvs
  obtain ⟨M1, hM1, new, W, hnew, hW, hvariables⟩ :=
    runs_storeTarget hvector hp hread hold hmask hnodup hvs hx ⟨hc, hM⟩ (IsStraight.straight s _)
  have hread1 : M1.read p = some (.composite new) := (Machine.read_congr hvariables).trans (Machine.read_write hW)
  obtain ⟨M2, hM2, hloaded, hsame⟩ := runs_loadTarget hvector (hp.mono hM1.has) hread1 hnew hvs
    (hold ▸ hmask) hM1.ready (.refl _)
  obtain ⟨is, hcode, hrun⟩ := hM1.runs
  obtain ⟨js, hcode', hrun'⟩ := hM2.runs
  exact ⟨new, W, is, M1, js, M2, hnew, hW, hcode, hrun, hvariables, hcode', hrun', hloaded.1,
    hsame.trans hvariables⟩

/-- Of a vector of four components the last two are replaced, in the other order. -/
theorem swizzle_store_twice :
    let base : Expr := .variable_ 0 (.vector .float .four) (.point 0)
    let e : Expr := .swizzle (.swizzle base [3, 2, 1] (.vector .float .three) (.point 0)) [0, 1]
      (.vector .float .two) (.point 0)
    let s : Setting := ⟨⟨.fragment, {}, default,
      #[⟨"v", .vector .float .four, {}, .local_, .point 0, none⟩], default, {}, []⟩, .v10⟩
    let b : Builder := { next := 3, places := Std.TreeMap.insert {} 0 ⟨1, .function, none⟩ }
    let t : Target := .components { base := 1, storage := .function, ty := .vector .float .four } [3, 2]
    let number (n : Nat) : Value := .scalar (.word n)
    let M : Machine := ⟨fun x => if x = 1 then some (.pointer 1 []) else if x = 2 then some
      (.composite [number 7, number 8]) else none,
      fun _ => some (.composite [number 1, number 2, number 3, number 4])⟩
    base.Swizzles [3, 2] e ∧ e.WellTyped s.program.declared ∧
      e.obstacle? (s.program.variables[·]?) = none ∧ target? e s b = (some t, b) ∧
    ∃ d y f new W is M1, storeTarget t 2 s b = ((), d) ∧ loadTarget t e.ty s d = (y, f) ∧
      new[0]? = some (number 1) ∧ new[2]? = some (number 8) ∧ new[3]? = some (number 7) ∧
        M.write (.composite new) (.pointer 1 []) = some W ∧
      d.body.code = is.reverse ++ b.body.code ∧ M.run f.isVector is = some M1 ∧ M1.variables = W.variables := by
  intro base e s b t number M
  have he : base.Swizzles [3, 2] e := .more (.one [3, 2, 1] _ _) [0, 1] _ _
  have htyped : e.WellTyped s.program.declared := by
    intro x hx
    obtain rfl | rfl | rfl : x = e ∨ x = .swizzle base [3, 2, 1] (.vector .float .three)
      (.point 0) ∨ x = base := by
      simpa [e, base, Expr.nodes] using hx
    · exact ⟨rfl, .inr rfl, by decide, by decide, by decide, rfl⟩
    · exact ⟨rfl, .inr rfl, by decide, by decide, by decide, rfl⟩
    · exact ⟨rfl, _, rfl, rfl⟩
  have hbase : target? base s b = (some (.memory
    { base := 1, storage := .function, ty := .vector .float .four }), b) := by
    rw [target?]
    rfl
  have hb : b.Typed := Builder.typed_start.of_structs (.of_eq rfl rfl rfl (by decide)) rfl
  have hassign : e.obstacle? (s.program.variables[·]?) = none := by decide +kernel
  obtain ⟨htarget, hstore⟩ := swizzle_store he htyped hassign rfl hbase
  have hrun {α : Type} (m : Build α) (b : Builder) : ∃ y d, m s b = (y, d) := ⟨_, _, rfl⟩
  obtain ⟨⟨⟩, d, hd⟩ := hrun (storeTarget t 2) b
  obtain ⟨y, f, hf⟩ := hrun (loadTarget t e.ty) d
  have hall : f.templates.toList.all (fun p => p.2.op != .constantComposite) = true := by
    have hall : (loadTarget t e.ty s (storeTarget t 2 s b).2).2.templates.toList.all
      (fun p => p.2.op != .constantComposite) = true := by
      decide +kernel
    simpa only [hd, hf] using hall
  have hvalue : M.Has f b 2 (.ofParts [number 7, number 8]) := ⟨rfl, .inl (by decide)⟩
  have hp : M.Locates f b { base := 1, storage := .function, ty := .vector .float .four } (.pointer 1 []) :=
    ⟨1, [], [], ⟨rfl, .inl (by decide)⟩, .nil, rfl⟩
  obtain ⟨new, W, is, M1, -, -, hnew, hW, hcode, hrun, hvariables, -⟩ := @hstore b d f M 2 y (.pointer 1 [])
    [number 1, number 2, number 3, number 4] [number 7, number 8] hd hf hb
    (Machine.knows_of_all [] (by simpa using hall) fun _ h => absurd h List.not_mem_nil) hp rfl rfl hvalue rfl
  refine ⟨he, htyped, hassign, htarget, d, y, f, new, W, is, M1, hd, hf, ?_, ?_, ?_, hW, hcode, hrun, hvariables⟩
  · exact hnew.others (by decide)
  · exact hnew.chosen (k := 1) rfl
  · exact hnew.chosen (k := 0) rfl

end Spirv.Build
end Shading
