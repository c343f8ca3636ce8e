import Shading.Proofs.Spirv.Machine
import Shading.Proofs.Spirv.Order
import Shading.Proofs.Spirv.StructTypes

/-! What the instructions of a straight step do. A step is followed on the machine while the module
grows: constants and vectors are those of a later state `f`, which has all that is asked for on the
way. -/
namespace Shading.Spirv

open Builder (Tabled Keeps Straight Typed IsComposite)

namespace Builder

/-- An id that no instruction after `b` defines in a function, up to `f`. -/
def Lasting (f b : Builder) (x : Nat) : Prop := x < b.next ∨ f.IsGlobal x

/-- A type of vectors. -/
def isVector (b : Builder) (x : Nat) : Bool := b.templates[x]?.any fun t => t.op matches .typeVector

variable {f b b' : Builder} {x : Nat}

lemma IsComposite.isVector (h : b.IsComposite x) : b.isVector x = false := by
  obtain ⟨t, ht, hop⟩ := h
  unfold Builder.isVector
  rw [ht]
  cases hop' : t.op <;> simp_all

lemma IsGlobal.of_straight (h : f.IsGlobal x) (hf : Straight b f) : b.IsGlobal x ∨ b.next ≤ x := by
  obtain ⟨g, _, _, hadds, -⟩ := hf.added
  rw [IsGlobal, hadds.globals, results_append, List.mem_append] at h
  exact h.symm.imp_right fun hnew => (hadds.fresh.range x (by simp [hnew])).1

end Builder

namespace Machine

/-- Constant composites have the values of their constituents, which are constants too. -/
structure Knows (M : Machine) (f : Builder) : Prop where
  constituents : ∀ {x y : Nat} {t : Template}, f.templates[x]? = some t → y ∈ t.constituents → f.IsGlobal y
  values : ∀ {x : Nat} {t : Template}, f.templates[x]? = some t → t.op = .constantComposite →
    ∃ vs, M.values x = some (.composite vs) ∧ t.constituents.map M.values = vs.map some

/-- The id has the value and keeps it. -/
def Has (M : Machine) (f b : Builder) (x : Nat) (v : Value) : Prop := M.values x = some v ∧ f.Lasting b x

variable {M M' : Machine} {f b : Builder} {x : Nat} {v : Value}

lemma Knows.of_eq (h : M.Knows f) (hf : f.Tabled)
    (heq : ∀ x, f.IsGlobal x → M'.values x = M.values x) : M'.Knows f where
  constituents := h.constituents
  values {x t} ht hop := by
    obtain ⟨vs, hx, hvs⟩ := h.values ht hop
    obtain ⟨hresult, hmem⟩ := hf.written ht
    refine ⟨vs, by rw [heq x (mem_results.mpr ⟨_, hmem, if_neg hresult⟩), hx], ?_⟩
    rw [← hvs]
    exact List.map_congr_left fun y hy => heq y (h.constituents ht hy)

lemma Knows.constituent (h : M.Knows f) (b : Builder) {t : Template} {i y : Nat} (ht : f.templates[x]? = some t)
    (hy : t.constituents[i]? = some y) : ∃ vs w, M.values x = some (.composite vs) ∧
    vs[i]? = some w ∧ M.Has f b y w := by
  have hop : t.op = .constantComposite := by
    by_contra hop
    simp [Template.constituents, hop] at hy
  obtain ⟨vs, hvs, hmap⟩ := h.values ht hop
  have hvalue : (vs[i]?).map some = some (M.values y) := by simpa [hy] using (congrArg (·[i]?) hmap).symm
  obtain ⟨w, hw, hwy⟩ := Option.map_eq_some_iff.mp hvalue
  exact ⟨vs, w, hvs, hw, hwy.symm, .inr (h.constituents ht (List.mem_of_getElem? hy))⟩

lemma knows_of_all (known : List (Nat × Template))
    (h : f.templates.toList.all (fun p => p.2.op != .constantComposite || known.contains p) = true)
    (hknown : ∀ p ∈ known, (∀ y ∈ p.2.constituents, f.IsGlobal y) ∧
      ∃ vs, M.values p.1 = some (.composite vs) ∧ p.2.constituents.map M.values = vs.map some) : M.Knows f := by
  have hop {x : Nat} {t : Template} (ht : f.templates[x]? = some t) : t.op ≠ .constantComposite ∨
    (x, t) ∈ known := by
    simpa using List.all_eq_true.mp h (x, t) (Std.TreeMap.mem_toList_iff_getElem?_eq_some.mpr ht)
  refine ⟨fun {x y t} ht hy => ?_, fun ht h => (hknown _ ((hop ht).resolve_left (not_not.mpr h))).2⟩
  obtain h | h := hop ht
  · simp [Template.constituents, h] at hy
  · exact (hknown _ h).1 y hy

end Machine

@[simp] lemma mapM_id? (xs : List Nat) : (Operand.ids xs).mapM Operand.id? = some xs := by
  induction xs with
  | nil => rfl
  | cons x xs ih => simp_all [Operand.ids, Operand.id?]

lemma mapM_number? {is : List Nat} (h : ∀ i ∈ is, i < 2 ^ 32) :
    (Operand.numbers (is.map UInt32.ofNat)).mapM Operand.number? = some is := by
  induction is with
  | nil => rfl
  | cons i is ih =>
    rw [List.forall_mem_cons] at h
    simp_all [Operand.numbers, Operand.number?]

lemma mapM_of_forall₂ {α β : Type} {g : α → Option β} {xs : List α} {vs : List β}
    (h : List.Forall₂ (g · = some ·) xs vs) :
    xs.mapM g = some vs := by
  induction h with
  | nil => rfl
  | cons hx _ ih => simp [hx, ih]

namespace Build

variable {α β : Type} {f b b' b'' : Builder} {s : Setting} {M M' M'' : Machine}

/-- The tables are in order, and the machine knows the constants. -/
structure Ready (f b : Builder) (M : Machine) : Prop where
  typed : b.Typed
  knows : M.Knows f

/-- The machine runs what the open block has after a step and did not have before it. -/
structure Reaches (f b : Builder) (M : Machine) (b' : Builder) (M' : Machine) : Prop where
  runs : ∃ is, b'.body.code = is.reverse ++ b.body.code ∧ M.run f.isVector is = some M'
  ready : Ready f b' M'
  has : ∀ {x v}, M.Has f b x v → M'.Has f b' x v

lemma Reaches.trans (h : Reaches f b M b' M') (h' : Reaches f b' M' b'' M'') : Reaches f b M b'' M'' := by
  obtain ⟨is, hcode, hrun⟩ := h.runs
  obtain ⟨js, hcode', hrun'⟩ := h'.runs
  refine ⟨⟨is ++ js, by simp [hcode, hcode'], ?_⟩, h'.ready, fun hx => h'.has (h.has hx)⟩
  rw [Machine.run_append, hrun]
  exact hrun'

/-- Running what a step writes leads to a machine with a property. -/
def Runs (f : Builder) (m : Build α) (s : Setting) (b : Builder) (M : Machine)
    (Q : α → Builder → Machine → Prop) : Prop :=
  Ready f b M → Straight (m s b).2 f → ∃ M', Reaches f b M (m s b).2 M' ∧ Q (m s b).1 (m s b).2 M'

namespace Runs

variable {m : Build α} {g : α → Build β} {P : α → Builder → Machine → Prop} {Q : β → Builder → Machine → Prop}

lemma intro (h : Ready f b M → Straight (m s b).2 f → Runs f m s b M P) : Runs f m s b M P :=
    fun hb hf => h hb hf hb hf

lemma weaken (hrun : Runs f m s b M P) {R : α → Builder → Machine → Prop}
    (h : ∀ a b' M', P a b' M' → R a b' M') : Runs f m s b M R :=
  fun hb hf => (hrun hb hf).imp fun _ hM' => hM'.imp_right (h _ _ _)

lemma congr {n : Build α} (h : m s b = n s b) (hrun : Runs f n s b M P) : Runs f m s b M P := by
  rw [Runs, h]
  exact hrun

lemma of_makes [hm : IsStraight m] {R : α → Builder → Prop}
    (h : b.Typed → Makes m s b fun a b' => b'.Typed ∧ R a b') :
    Runs f m s b M fun a b' M' => R a b' ∧ M' = M := by
  intro hb hf
  have hmakes := h hb.typed
  refine ⟨M, ⟨⟨[], by simp [hmakes.1.body], rfl⟩, ⟨hmakes.2.1, hb.knows⟩, fun hx => ⟨hx.1, ?_⟩⟩, hmakes.2.2, rfl⟩
  exact hx.2.imp_left fun hlt => Nat.lt_of_lt_of_le hlt (hm.straight s b).next

lemma quiet (m : Build α) [Composed Quiet Span.Anywhere m] : Runs f m s b M fun _ _ M' => M' = M :=
  .weaken (.of_makes (R := fun _ _ => True) fun hb => .weaken (makes_quiet m hb) fun _ _ _ h =>
    ⟨h, trivial⟩) fun _ _ _ h => h.2

lemma pure {a : α} (h : P a b M) : Runs f (pure a) s b M P :=
  fun hb _ => ⟨M, ⟨⟨[], rfl, rfl⟩, hb, id⟩, h⟩

lemma bind [hg : ∀ a, IsStraight (g a)] (hrun : Runs f m s b M P)
    (h : ∀ M', (∀ {x v}, M.Has f b x v → M'.Has f (m s b).2 x v) → P (m s b).1 (m s b).2 M' →
      Runs f (g (m s b).1) s (m s b).2 M' Q) : Runs f (m >>= g) s b M Q := by
  intro hb hf
  obtain ⟨M', hM', hP⟩ := hrun hb (((hg (m s b).1).straight s (m s b).2).trans hf)
  obtain ⟨M'', hM'', hQ⟩ := h M' hM'.has hP hM'.ready hf
  exact ⟨M'', hM'.trans hM'', hQ⟩

end Runs

lemma runs_define {g : Nat → Build Unit} [∀ x, Composed Quiet Span.Anywhere (g x)]
    {i : Nat → Instruction} {v : Value}
    (hi : ∀ x, (i x).result = some x) (hv : M.eval? f.isVector (i b.next) = some v) :
    Runs f (do let id ← fresh; g id; push (i id); return id) s b M fun x b' M' => M'.Has f b' x v ∧
    M'.variables = M.variables := by
  intro hb hf
  have hfresh : Typed { b with next := b.next + 1 } :=
    hb.typed.of_structs (.of_eq rfl rfl rfl (Nat.le_succ _)) rfl
  have hsaid := makes_quiet (s := s) (g b.next) hfresh
  have hstraight := IsStraight.straight (m := g b.next) s { b with next := b.next + 1 }
  have htyped : (((do let id ← fresh; g id; push (i id); return id : Build Nat)) s b).2.Typed :=
    hsaid.2.of_structs (.of_eq rfl rfl rfl (Nat.le_refl _)) rfl
  have hne {x : Nat} (hx : f.Lasting b x) : x ≠ b.next := by
    rintro rfl
    obtain hlt | hglobal := hx
    · exact Nat.lt_irrefl _ hlt
    have hsaid : (g b.next s { b with next := b.next + 1 }).2.IsGlobal b.next :=
      (hglobal.of_straight hf).resolve_right (Nat.not_le.mpr hstraight.next)
    obtain hold | hlt := hsaid.of_straight hstraight
    · exact Nat.lt_irrefl _ (hb.typed.tabled.range _ hold)
    · exact Nat.lt_irrefl _ hlt
  have hkept {x : Nat} (hx : f.Lasting b x) : (M.define b.next v).values x = M.values x :=
    Machine.define_of_ne v (hne hx)
  refine ⟨M.define b.next v, ⟨⟨[i b.next], ?_, by simp [Machine.run, Machine.exec, hi, hv]⟩,
    ⟨htyped, ?_⟩, fun hx => ⟨?_, ?_⟩⟩, ?_, rfl⟩
  · exact congrArg (i b.next :: ·.code) hsaid.1.body
  · exact hb.knows.of_eq (hf.keeps.tabled htyped.tabled) fun x hx => hkept (.inr hx)
  · exact (hkept hx.2).trans hx.1
  · exact hx.2.imp_left fun hlt => Nat.lt_trans hlt hstraight.next
  · exact ⟨M.define_self b.next v, .inl hstraight.next⟩

variable {op : Op} {operands : List Operand} {v : Value}

lemma runs_compute {type : Nat} (hv : M.eval? f.isVector
    { op, type := some type, result := some b.next, operands } = some v) :
    Runs f (compute op type operands) s b M fun x b' M' => M'.Has f b' x v ∧ M'.variables = M.variables :=
  runs_define (g := fun _ => pure ()) (i := fun x =>
    { op, type := some type, result := some x, operands }) (fun _ => rfl) hv

lemma get?_descend (hM : M.Knows f) (hb : Tabled b) (hf : Keeps b f) {value : Nat}
    {indices : List Nat} {v part : Value}
    (hvalue : M.Has f b value v) (hpart : v.get? indices = some part) :
    (descend b.templates value indices).2 ⊆ indices ∧
      ∃ w, M.Has f b (descend b.templates value indices).1 w ∧
      w.get? (descend b.templates value indices).2 = some part := by
  fun_induction descend b.templates value indices generalizing v with
  | case1 value => exact ⟨List.Subset.refl _, v, hvalue, hpart⟩
  | case2 value i rest y hy ih =>
    obtain ⟨t, ht, hconstituent⟩ := Option.bind_eq_some_iff.mp hy
    obtain ⟨vs, w, hvs, hw, hhas⟩ := hM.constituent b (hf.templates hb ht) hconstituent
    obtain rfl : v = .composite vs := Option.some.inj (hvalue.1.symm.trans hvs)
    exact (ih hhas (by simpa [Value.get?, hw] using hpart)).imp_left (List.subset_cons_of_subset _)
  | case3 value i rest hnone => exact ⟨List.Subset.refl _, v, hvalue, hpart⟩

lemma runs_extractAs {type value : Nat} {indices : List Nat} {v : Value} (part : Value)
    (hvalue : M.Has f b value v)
    (hpart : v.get? indices = some part) (hindices : ∀ i ∈ indices, i < 2 ^ 32) :
    Runs f (extractAs type value indices) s b M fun x b' M' => M'.Has f b' x part ∧
    M'.variables = M.variables := by
  refine .intro fun hb hf => ?_
  have hkeeps := (IsStraight.straight (m := extractAs type value indices) s b).keeps.trans hf.keeps
  obtain ⟨hrest, w, hw, hget⟩ := get?_descend hb.knows hb.typed.tabled hkeeps hvalue hpart
  have hextract : extractAs type value indices s b = _ := extractAs_eq
  generalize descend b.templates value indices = found at hrest hw hget hextract
  obtain ⟨whole, _ | ⟨i, rest⟩⟩ := found
  · cases hget
    exact .congr hextract (.pure ⟨hw, rfl⟩)
  · refine .congr hextract (runs_compute ?_)
    simp only [Machine.eval?, hw.1, mapM_number? fun i hi => hindices i (hrest hi)]
    exact hget

/-- The unit matrix, as a constant. -/
def unitMatrix : Build Nat := do
  let float ← scalarType .float
  let one ← global { op := .constant, type := float, operands := [.number 0x3f800000] }
  let nought ← global { op := .constant, type := float, operands := [.number 0] }
  let vector ← vectorType .float .two
  let first ← global { op := .constantComposite, type := vector, operands := Operand.ids [one, nought] }
  let second ← global { op := .constantComposite, type := vector, operands := Operand.ids [nought, one] }
  let matrix ← matrixType .float .two .two
  global { op := .constantComposite, type := matrix, operands := Operand.ids [first, second] }

instance : Composed Quiet Span.Anywhere unitMatrix := by
  have hconstant (type : Nat) (operands : List Operand) :
      Composed Quiet Span.Anywhere (global { op := .constant, type, operands }) := .global rfl
  have hcomposite (type : Nat) (operands : List Operand) :
      Composed Quiet Span.Anywhere (global { op := .constantComposite, type, operands }) := .global rfl
  unfold unitMatrix
  infer_instance

lemma typed_unitMatrix (s : Setting) : (unitMatrix s {}).2.Typed := (makes_quiet unitMatrix Builder.typed_start).2

/-- The columns of the unit matrix and the matrix. -/
def unitParts : List (Nat × Template) :=
  [(5, { op := .constantComposite, type := some 4, operands := Operand.ids [2, 3] }),
    (6, { op := .constantComposite, type := some 4, operands := Operand.ids [3, 2] }),
    (8, { op := .constantComposite, type := some 7, operands := Operand.ids [5, 6] })]

/-- The values of the unit matrix and its parts. -/
def unitValue? (x : Nat) : Option Value :=
  let one : Value := .scalar (.word 0x3f800000)
  let nought : Value := .scalar (.word 0)
  match x with
  | 2 => some one
  | 3 => some nought
  | 5 => some (.composite [one, nought])
  | 6 => some (.composite [nought, one])
  | 8 => some (.composite [.composite [one, nought], .composite [nought, one]])
  | _ => none

lemma knows_unitMatrix (hM : ∀ x ∈ [2, 3, 5, 6, 8], M.values x = unitValue? x)
    (hall : f.templates.toList.all (fun p => p.2.op != .constantComposite || unitParts.contains p) = true)
    (hglobals : ∀ x ∈ [2, 3, 5, 6], x ∈ results f.globals) : M.Knows f := by
  have hconstituents : ∀ p ∈ unitParts, ∀ y ∈ p.2.constituents, y ∈ [2, 3, 5, 6] := by decide
  have hvalues : ∀ p ∈ unitParts, ∃ vs, M.values p.1 = some (.composite vs) ∧
      p.2.constituents.map M.values = vs.map some := by
    simp only [List.forall_mem_cons, unitValue?] at hM
    simp [unitParts, Template.constituents, Operand.ids, Operand.id?, hM]
  exact Machine.knows_of_all unitParts hall fun p hp =>
    ⟨fun y hy => hglobals y (hconstituents p hp y hy), hvalues p hp⟩

end Build
end Shading.Spirv
