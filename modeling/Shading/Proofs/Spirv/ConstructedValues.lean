import Shading.Proofs.Spirv.SwizzleStore

/-! The values that constructors make, on the machine: constant or not, they have the scalars of the
arguments at their places. -/
namespace Shading.Spirv

variable {ty : Ty} {vs : List Value} {v : Value}

/-- Scalar constants have the values that their words stand for. -/
def Machine.KnowsNumbers (M : Machine) (f b : Builder) : Prop := ∀ (x : Nat) (t : Template) (w : UInt32),
  f.templates[x]? = some t → t.op = .constant → t.operands = [.number w] → M.Has f b x (.scalar (.word w.toBitVec))

lemma Machine.KnowsNumbers.mono {f b b' : Builder} {M M' : Machine} (hM : M.KnowsNumbers f b)
    (hkept : ∀ {x v}, M.Has f b x v → M'.Has f b' x v) : M'.KnowsNumbers f b' :=
    fun x t w ht hop hw => hkept (hM x t w ht hop hw)

namespace Build

open Builder (Straight Typed)

variable {f b : Builder} {s : Setting} {M : Machine} {x : Nat}

lemma runs_extract {indices : List Nat} {part : Value} (hx : M.Has f b x v) (hpart : v.get? indices = some part)
    (hindices : ∀ i ∈ indices, i < 2 ^ 32) : Runs f (extract ty x indices) s b M fun y b' M' =>
    M'.Has f b' y part := by
  refine .bind (runs_typeIn ty) ?_
  rintro _ hkept ⟨-, rfl⟩
  exact .weaken (runs_extractAs part (hkept hx) hpart hindices) fun _ _ _ h => h.1

lemma runs_global {t : Template} (ht : t.belongs .globals = true) (hshared : t.sharing = .shared) :
    Runs f (global t) s b M fun x _ M' => f.templates[x]? = some t ∧ f.IsGlobal x ∧ M' = M := by
  intro hb hf
  have := Composed.global (P := Span.Anywhere) ht
  have hresult : t.sharing ≠ .noResult := by simp [hshared]
  obtain ⟨M', hreaches, rfl⟩ := Runs.quiet (global t) hb hf
  have htabled := hreaches.ready.typed.tabled
  have htemplate := hf.keeps.templates htabled (global_template hb.typed.tabled hresult)
  obtain ⟨-, hmem⟩ := (hf.keeps.tabled htabled).written htemplate
  exact ⟨_, hreaches, htemplate, mem_results.mpr ⟨_, hmem, if_neg hresult⟩, rfl⟩

lemma number_eq (hty : ty.isMatrix = true) (n : Nat) :
    Value.number ty n = .scalar (.word (literalWord (.int n) (ty.component.scalar?.map (·.kind))).toBitVec) := by
  cases ty with
  | matrix t c r => cases t <;> rfl
  | _ => cases hty

lemma runs_number {n : Nat} (hM : M.KnowsNumbers f b) (hty : ty.isMatrix = true) :
    Runs f (constant (.int n) ty.component) s b M fun x b' M' => M'.Has f b' x (.number ty n) := by
  have (type : Nat) : IsStraight (global
      { op := .constant, type,
        operands := [.number (literalWord (.int n) (ty.component.scalar?.map (·.kind)))] }) :=
    .global nofun rfl
  refine .bind (runs_typeIn _) ?_
  rintro _ hkept ⟨-, rfl⟩
  intro hb hf
  obtain ⟨M', hreaches, htemplate, -, rfl⟩ := runs_global rfl rfl hb hf
  rw [number_eq hty]
  exact ⟨_, hreaches, hreaches.has (hkept (hM _ _ _ htemplate rfl rfl))⟩

lemma runs_constantComposite {parts : List Nat} (hparts : List.Forall₂ (M.Has f b) parts vs) :
    Runs f (constantComposite ty parts) s b M fun x b' M' => M'.Has f b' x (.composite vs) := by
  have (type : Nat) : IsStraight
    (global { op := .constantComposite, type, operands := Operand.ids parts }) := .global nofun rfl
  have hparts := List.forall₂_map_left_iff.mpr
    (List.forall₂_map_right_iff (f := some).mpr (hparts.imp fun _ _ h => h.1))
  refine .bind (runs_typeIn ty) ?_
  rintro M - ⟨-, rfl⟩
  refine .intro fun hb hf => .weaken (runs_global rfl rfl) ?_
  rintro x b' _ ⟨htemplate, hglobal, rfl⟩
  obtain ⟨ws, hws, hvalues⟩ := hb.knows.values htemplate rfl
  have hconstituents : Template.constituents
    { op := .constantComposite, type := (typeOf ty s b).1, operands := Operand.ids parts } = parts := by
    simp [Template.constituents, Operand.ids, List.filterMap_map, Function.comp_def, Operand.id?]
  rw [List.forall₂_eq_eq_eq] at hparts
  rw [hconstituents, hparts] at hvalues
  obtain rfl := List.map_injective_iff.mpr (Option.some_injective _) hvalues
  exact ⟨hws, .inr hglobal⟩

lemma runs_compositeConstruct {parts : List Nat} (hty : (ty.isVector || ty.isMatrix) = true)
    (hparts : List.Forall₂ (M.Has f b) parts vs) :
    Runs f (apply .compositeConstruct ty parts) s b M fun x b' M' =>
    M'.Has f b' x (.composite (if ty.isVector then Value.flat vs else vs)) := by
  refine .weaken (runs_result rfl fun type y hvector => ?_) fun _ _ _ h => h.1
  simp [Machine.eval?, mapM_of_forall₂ (hparts.imp fun _ _ h => h.1), hvector hty]

lemma runs_composite {parts : List Nat} (hty : (ty.isVector || ty.isMatrix) = true)
    (hparts : List.Forall₂ (M.Has f b) parts vs)
    (hvs : ty.isVector = true → ∀ u ∈ vs, u.IsScalar) :
    Runs f (composite ty parts) s b M fun x b' M' => M'.Has f b' x (.composite vs) := by
  refine .congr (n := if !parts.isEmpty && parts.all
    (fun id => b.templates[id]?.any Template.isConstant) then constantComposite ty parts
    else apply .compositeConstruct ty parts) rfl ?_
  split
  · exact runs_constantComposite hparts
  · have hflat : (if ty.isVector then Value.flat vs else vs) = vs := by
      split
      · exact Value.flat_of_scalars (hvs ‹_›)
      · rfl
    exact hflat ▸ runs_compositeConstruct hty hparts

lemma runs_convert_self {t : Scalar} (hx : M.Has f b x v) :
    Runs f (convert x (.scalar t) (.scalar t)) s b M fun y b' M' => M'.Has f b' y v := by
  refine .intro fun hb _ => ?_
  have hsame : (sameType (.scalar t) (.scalar t) s b).1 = true := (makes_sameType_scalar t hb.typed.tabled).2
  have hconvert : convert x (.scalar t) (.scalar t) s b =
    (typeOf (.scalar t) >>= fun _ => typeOf (.scalar t) >>= fun _ => pure x) s b := by
    change ite ((sameType (.scalar t) (.scalar t) s b).1 = true) (pure x)
      (convertFlat x (.scalar t) (.scalar t)) s _ = _
    rw [if_pos hsame]
    rfl
  refine .congr hconvert (.bind (runs_typeIn _) ?_)
  rintro _ hkept1 ⟨-, rfl⟩
  refine .bind (runs_typeIn _) ?_
  rintro _ hkept2 ⟨-, rfl⟩
  exact .pure (hkept2 (hkept1 hx))

/-- What is written for a module with the constants of `f` is run. -/
def onMachine (f : Builder) : Logic where
  Side := Machine
  Has b M x v := M.Has f b x v
  Follows m s b M Q := M.KnowsNumbers f b → Runs f m s b M Q
  ofPure h _ := .pure h
  ofBind hm hg hM := .bind (hm hM) fun M' hkept ha => hg _ _ M' hkept ha (hM.mono hkept)
  ofEq h hm hM := .congr h (hm hM)
  ofConstant hty hM := runs_number hM hty
  ofConvert hx _ := runs_convert_self hx
  ofExtract hx hpart hindices _ := runs_extract hx hpart hindices
  ofComposite hty _ hparts hvs _ := runs_composite hty hparts hvs
  ofConstruct {_ _ _ s _ _} hty hparts _ _ := by
    have hruns := runs_compositeConstruct (s := s) (Bool.or_eq_true_iff.mpr (.inl hty)) hparts
    rwa [if_pos hty] at hruns

/-- A constructor other than a conversion makes the same value of the same arguments whether they
are constants or not: at each column and row there is the scalar that the kind of the constructor
takes. -/
theorem construct_entries {kind : ConstructorKind} {types : List Ty}
    (hkind : kind ∈ [.compound, .splat, .diagonal, .resize]) (htakes : kind.Takes types ty)
    (hvs : List.Forall₂ Value.HasShape types vs) :
    ∃ v : Value, v.HasShape ty ∧ (∀ c < ty.columns, ∀ r < ty.rows, v.cell? ty c r = kind.cell? ty vs c r) ∧
      ∀ {f b : Builder} {s : Setting} {M : Machine} {arguments : List (Nat × Ty)} {x : Nat},
      construct kind arguments ty s b = (x, f) →
        arguments.map (·.2) = types → b.Typed → M.Knows f → M.KnowsNumbers f b →
        List.Forall₂ (M.Has f b) (arguments.map (·.1)) vs →
        ∃ is M', f.body.code = is.reverse ++ b.body.code ∧ M.run f.isVector is = some M' ∧
        M'.values x = some v := by
  obtain ⟨hty, w, hw⟩ := exists_builds hkind htakes hvs
  refine ⟨.ofEntries ty w, Value.hasShape_ofEntries hty hw.scalars, fun c hc r hr => ?_, ?_⟩
  · rw [Value.cell?_ofEntries hty hc hr, hw.entries c hc r hr]
  · intro f b s M arguments x hconstruct htypes hb hM hnumbers hvalues
    have hruns := hw.follows (L := onMachine f) (s := s) htypes hvalues hnumbers ⟨hb, hM⟩
    rw [hconstruct] at hruns
    obtain ⟨M', ⟨⟨is, hcode, hrun⟩, -, -⟩, hx⟩ := hruns (.refl _)
    exact ⟨is, M', hcode, hrun, hx.1⟩

/-- The columns of the unit matrix make it again, as constants and as values that are not known. -/
theorem construct_entries_columns :
    let ty : Ty := .matrix .float .two .two
    let known : List (Nat × Ty) := [(5, .vector .float .two), (6, .vector .float .two)]
    let unknown : List (Nat × Ty) := [(9, .vector .float .two), (10, .vector .float .two)]
    let s : Setting := ⟨⟨.fragment, {}, default, #[], default, {}, []⟩, .v10⟩
    let b : Builder := { (unitMatrix s {}).2 with next := 11 }
    let M : Machine := ⟨fun x => unitValue? (if 8 < x then x - 4 else x), fun _ => none⟩
    (construct .compound known ty s b).1 = 8 ∧ (construct .compound unknown ty s b).1 = 17 ∧
    ConstructorKind.compound.Takes (known.map (·.2)) ty ∧
    ∃ v : Value, v.cell? ty 1 0 = some (.scalar (.word 0)) ∧ v.cell? ty 1 1 = some (.scalar (.word 0x3f800000)) ∧
      ∀ arguments ∈ [known, unknown], ∃ x f is M', construct .compound arguments ty s b = (x, f) ∧
        f.body.code = is.reverse ∧ M.run f.isVector is = some M' ∧ M'.values x = some v := by
  intro ty known unknown s b M
  let numbers : List (Nat × Template) := [(2,
    { op := .constant, type := some 1, operands := [.number 0x3f800000] }),
    (3, { op := .constant, type := some 1, operands := [.number 0] })]
  let vs : List Value := [.composite [.scalar (.word 0x3f800000), .scalar (.word 0)],
    .composite [.scalar (.word 0), .scalar (.word 0x3f800000)]]
  have htakes : ConstructorKind.compound.Takes (known.map (·.2)) ty :=
    ⟨.inr rfl, by simp [known, ty, Ty.isVector, Ty.component], rfl⟩
  have hvs : List.Forall₂ Value.HasShape (known.map (·.2)) vs := by
    simp [known, vs, Value.HasShape, Value.IsVector, Value.IsScalar, Dim.toNat]
  have hb : b.Typed := (typed_unitMatrix s).of_structs (.of_eq rfl rfl rfl (by decide +kernel)) rfl
  have hall : ∀ arguments ∈ [known, unknown],
      (construct .compound arguments ty s b).2.templates.toList.all
        (fun p => p.2.op != .constantComposite || unitParts.contains p) = true ∧
      (construct .compound arguments ty s b).2.templates.toList.all
        (fun p => p.2.op != .constant || numbers.contains p) = true ∧
      ∀ x ∈ [2, 3, 5, 6], x ∈ results (construct .compound arguments ty s b).2.globals := by decide +kernel
  obtain ⟨v, -, hentries, hruns⟩ := construct_entries (by simp) htakes hvs
  refine ⟨by decide +kernel, by decide +kernel, htakes, v, hentries 1 (by decide) 0 (by decide),
    hentries 1 (by decide) 1 (by decide), fun arguments harguments => ?_⟩
  obtain ⟨hparts, hconstants, hglobals⟩ := hall arguments harguments
  rcases hf : construct .compound arguments ty s b with ⟨x, f⟩
  rw [hf] at hparts hconstants hglobals
  have hnumbers : M.KnowsNumbers f b := by
    intro x t w ht hop hw
    have hmem : (x, t) ∈ numbers := by
      simpa [hop] using List.all_eq_true.mp hconstants (x, t) (Std.TreeMap.mem_toList_iff_getElem?_eq_some.mpr ht)
    simp only [numbers, List.mem_cons, List.not_mem_nil, or_false, Prod.mk.injEq] at hmem
    obtain ⟨rfl, rfl⟩ | ⟨rfl, rfl⟩ := hmem <;> cases hw <;> exact ⟨rfl, .inl (by decide)⟩
  have hvalues : arguments.map (·.2) = known.map (·.2) ∧ List.Forall₂ (M.Has f b) (arguments.map (·.1)) vs := by
    simp only [List.mem_cons, List.not_mem_nil, or_false] at harguments
    obtain rfl | rfl := harguments <;>
      exact ⟨rfl, .cons ⟨rfl, .inl (by decide)⟩ (.cons ⟨rfl, .inl (by decide)⟩ .nil)⟩
  have hknows : M.Knows f := knows_unitMatrix (by simp [M]) hparts hglobals
  obtain ⟨is, M', hcode, hrun, hx⟩ := hruns hf hvalues.1 hb hknows hnumbers hvalues.2
  exact ⟨x, f, is, M', rfl, hcode.trans (List.append_nil _), hrun, hx⟩

end Build
end Shading.Spirv
