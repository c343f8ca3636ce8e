import Shading.Proofs.Spirv.Runs

/-! Values that change their layout. A struct or an array is taken apart and put together again
where its two types differ; what comes out is the value that went in. -/
namespace Shading.Spirv

namespace Builder

/-- An instruction that has been written gives the id the type. -/
def Types (b : Builder) (x type : Nat) : Prop := ∃ i ∈ b.text ++ b.globals, i.result = some x ∧ i.type = some type

lemma Types.mono {b b' : Builder} {x type : Nat} (h : b.Types x type) (hb : Straight b b') : b'.Types x type := by
  obtain ⟨i, hi, htype⟩ := h
  obtain ⟨g, l, c, hadds, -⟩ := hb.added
  have hheader : b'.body.header = b.body.header := congrArg (·.outer.header) hb.frame
  have hfunctions : b'.functions = b.functions := congrArg (·.outer.functions) hb.frame
  refine ⟨i, ?_, htype⟩
  rw [text, hadds.code, hadds.locals, hheader, hfunctions, hadds.globals]
  simp only [text, List.mem_append] at hi ⊢
  tauto

/-- Indices lead from a constant to one of its parts, through the constituents that are known. -/
inductive Leads (b : Builder) : Nat → List Nat → Nat → Prop
  | nil (c : Nat) : Leads b c [] c
  | cons {c y z i : Nat} {is : List Nat} {t : Template} (ht : b.templates[c]? = some t)
      (hy : t.constituents[i]? = some y) (h : Leads b y is z) : Leads b c (i :: is) z

lemma Leads.descend {b : Builder} {c y : Nat} {is : List Nat} (h : b.Leads c is y) :
    Build.descend b.templates c is = (y, []) := by
  induction h with
  | nil c => rfl
  | cons ht hy _ ih => simpa [Build.descend, ht, hy] using ih

/-- The part has the value that is found in the constant by the same indices. -/
lemma Leads.get? {b f : Builder} {M : Machine} {c y : Nat} {is : List Nat} (h : b.Leads c is y) (hM : M.Knows f)
    (hb : b.Tabled) (hf : Keeps b f) : ((M.values c).bind fun v => v.get? is) = M.values y := by
  induction h with
  | nil c => cases M.values c <;> rfl
  | cons ht hy _ ih =>
    obtain ⟨vs, w, hvs, hw, hhas⟩ := hM.constituent b (hf.templates hb ht) hy
    rw [hhas.1] at ih
    rw [hvs, ← ih]
    simp [Value.get?, hw]

end Builder

mutual
/-- The value has the members that a struct or an array of the type has. They are numbered by
words. -/
def Value.Fits : Ty → Value → Prop
  | .array e (some n), v => ∃ vs, v = .composite vs ∧ vs.length = n ∧ n ≤ 2 ^ 32 ∧ ∀ u ∈ vs, Value.Fits e u
  | .struct _ _ fs _, v => ∃ vs, v = .composite vs ∧ vs.length ≤ 2 ^ 32 ∧ Value.FitAll fs vs
  | _, _ => True
def Value.FitAll : List (Field Ty) → List Value → Prop
  | [], vs => vs = []
  | ⟨_, ty, _, _⟩ :: fs, vs => ∃ u us, vs = u :: us ∧ Value.Fits ty u ∧ Value.FitAll fs us
end

lemma Value.fitAll_iff {fs : List (Field Ty)} {vs : List Value} : FitAll fs vs ↔
    List.Forall₂ (fun f v => Fits f.ty v) fs vs := by
  induction fs generalizing vs with
  | nil => simp [FitAll]
  | cons f fs ih => cases vs <;> simp [FitAll, ih]

namespace Build

open Builder (Keeps Straight Typed)

variable {source dest : Option MemoryLayout} {f b : Builder} {s : Setting} {M : Machine} {value : Nat}

/-! ### Types without layout -/

/-- Asking again gives the same id. -/
def Repeats (m : Build Nat) : Prop := ∀ s b b', Keeps (m s b).2 b' → (m s b').1 = (m s b).1

lemma repeats_global {t : Template} (ht : t.sharing = .shared) : Repeats (global t) := by
  intro s b b' hkeeps
  have hfound := hkeeps.ids (global_ids (s := s) (b := b) ht)
  rw [global, once_eq .globals t s b', hfound]
  rfl

lemma Repeats.bind {m : Build Nat} [hm : IsStraight m] {t : Nat → Template} (h : Repeats m)
    (ht : ∀ x, (t x).sharing = .shared)
    [hg : ∀ x, IsStraight (global (t x))] : Repeats (m >>= fun x => global (t x)) := by
  intro s b b' hkeeps
  have hlater : Keeps (m s b).2 b' := ((hg _).straight s (m s b).2).keeps.trans hkeeps
  change (global (t (m s b').1) s (m s b').2).1 = _
  rw [h s b b' hlater]
  exact repeats_global (ht _) s (m s b).2 (m s b').2 (hkeeps.trans (hm.straight s b').keeps)

lemma repeats_scalarType (t : Scalar) : Repeats (scalarType t) := by
  unfold scalarType
  cases t.kind <;> exact repeats_global rfl

lemma repeats_vectorType (t : Scalar) (n : Dim) : Repeats (vectorType t n) :=
  have (x : Nat) : IsStraight (global { op := .typeVector, operands := [.id x, .number (.ofNat n.toNat)] }) :=
    .global nofun rfl
  (repeats_scalarType t).bind fun _ => rfl

lemma repeats_matrixType (t : Scalar) (c r : Dim) : Repeats (matrixType t c r) :=
  have (x : Nat) : IsStraight (global { op := .typeMatrix, operands := [.id x, .number (.ofNat c.toNat)] }) :=
    .global nofun rfl
  (repeats_vectorType t r).bind fun _ => rfl

lemma typeIn_again {source dest : Option MemoryLayout} {ty : Ty} (hty : ty.isStruct = false)
    (harray : ty.isArray = false) :
    (typeIn dest ty s (typeIn source ty s b).2).1 = (typeIn source ty s b).1 := by
  cases ty with
  | void => exact repeats_global rfl s b _ (.refl _)
  | scalar t => exact repeats_scalarType t s b _ (.refl _)
  | vector t n => exact repeats_vectorType t n s b _ (.refl _)
  | matrix t c r => exact repeats_matrixType t c r s b _ (.refl _)
  | array | struct => contradiction
  | generic | poison | invalid => rfl

/-! ### Values -/

/-- A part of a value, with the layout changed. -/
def relayoutPart (source dest : Option MemoryLayout) (value : Nat) (p : Ty × Nat) : Build Nat := do
  let type ← typeIn source p.1
  let part ← extractAs type value [p.2]
  relayout source dest part p.1

instance (value : Nat) (p : Ty × Nat) : Composed Plain Span.Anywhere (relayoutPart source dest value p) := by
  unfold relayoutPart
  infer_instance

/-- A value put together from parts with another layout. -/
def rebuild (source dest : Option MemoryLayout) (value : Nat) (ty : Ty) (ps : List (Ty × Nat)) : Build Nat := do
  let sourceId ← typeIn source ty
  let destId ← typeIn dest ty
  if sourceId = destId then return value
  let parts ← ps.mapM (relayoutPart source dest value)
  compute .compositeConstruct destId (Operand.ids parts)

lemma relayout_struct (n : Nat) (name : String) (fields : List (Field Ty)) (block : Bool) :
    relayout source dest value (.struct n name fields block) =
      rebuild source dest value (.struct n name fields block) (fields.map (·.ty)).zipIdx := by
  have hfields (i : Nat) : relayoutFields source dest value i fields =
      ((fields.map (·.ty)).zipIdx i).mapM (relayoutPart source dest value) := by
    induction fields generalizing i with
    | nil => rfl
    | cons f fields ih => simp [relayoutFields, relayoutPart, ih]
  rw [relayout, hfields]
  rfl

lemma relayout_array (e : Ty) (n : Nat) : relayout source dest value (.array e (some n)) =
    rebuild source dest value (.array e (some n)) ((List.range n).map (e, ·)) := by
  rw [rebuild, List.mapM_map, relayout]
  rfl

instance (type : Nat) (operands : List Operand) :
    IsStraight (compute .compositeConstruct type operands) := .compute rfl

lemma runs_typeIn {layout : Option MemoryLayout} (ty : Ty) : Runs f (typeIn layout ty) s b M fun x b' M' =>
    ((ty.isStruct || ty.isArray) = true → b'.IsComposite x) ∧ M' = M :=
  .of_makes fun hb => makes_typeIn ty hb

/-- The id has the value, and variables are as they were. -/
def Recovers (f : Builder) (M : Machine) (v : Value) (x : Nat) (b : Builder) (M' : Machine) : Prop :=
  M'.Has f b x v ∧ M'.variables = M.variables

/-- Changing the layout of values of the type keeps them. -/
def Relays (source dest : Option MemoryLayout) (ty : Ty) : Prop :=
  ∀ (f b : Builder) (s : Setting) (M : Machine) (value : Nat) (v : Value), M.Has f b value v → v.Fits ty →
    Runs f (relayout source dest value ty) s b M (Recovers f M v)

variable {ps : List (Ty × Nat)} {vs us : List Value}

lemma runs_relayoutParts (hvalue : M.Has f b value (.composite vs))
    (hps : List.Forall₂ (fun p u => Relays source dest p.1 ∧ p.2 < 2 ^ 32 ∧ vs[p.2]? = some u ∧
    u.Fits p.1) ps us) :
    Runs f (ps.mapM (relayoutPart source dest value)) s b M fun xs b' M' =>
      List.Forall₂ (M'.Has f b') xs us ∧ M'.variables = M.variables := by
  induction hps generalizing b M with
  | nil => exact .pure ⟨.nil, rfl⟩
  | @cons p u ps us hp _ ih =>
    obtain ⟨hp, hindex, hpart, hfits⟩ := hp
    have hrun : Runs f (relayoutPart source dest value p) s b M (Recovers f M u) := by
      refine .bind (runs_typeIn p.1) ?_
      rintro _ hkept ⟨-, rfl⟩
      refine .bind (runs_extractAs u (hkept hvalue) (by simp [Value.get?, hpart]) (by simpa using hindex)) ?_
      rintro M' - ⟨hx, hsame⟩
      exact .weaken (hp _ _ _ _ _ _ hx hfits) fun x b' M'' h => ⟨h.1, h.2.trans hsame⟩
    rw [List.mapM_cons]
    refine .bind hrun fun M1 hkept1 hpost => ?_
    obtain ⟨hx, hsame1⟩ := hpost
    refine .bind (ih (hkept1 hvalue)) ?_
    rintro M2 hkept2 ⟨hxs, hsame2⟩
    exact .pure ⟨.cons (hkept2 hx) hxs, hsame2.trans hsame1⟩

lemma runs_rebuild {ty : Ty} (hty : (ty.isStruct || ty.isArray) = true) (hvalue : M.Has f b value (.composite vs))
    (hps : List.Forall₂ (fun p u => Relays source dest p.1 ∧ p.2 < 2 ^ 32 ∧ vs[p.2]? = some u ∧
    u.Fits p.1) ps vs) :
    Runs f (rebuild source dest value ty ps) s b M (Recovers f M (.composite vs)) := by
  refine .bind (runs_typeIn ty) ?_
  rintro _ hkept1 ⟨-, rfl⟩
  refine .bind (runs_typeIn ty) ?_
  rintro _ hkept2 ⟨hcomposite, rfl⟩
  have hvalue2 := hkept2 (hkept1 hvalue)
  split
  · exact .pure ⟨hvalue2, rfl⟩
  refine .intro fun hb hf => .bind (runs_relayoutParts hvalue2 hps) ?_
  rintro M' - ⟨hxs, hsame⟩
  generalize (ps.mapM (relayoutPart source dest value) s _).1 = xs at hxs ⊢
  refine .weaken (runs_compute (v := .composite vs) ?_) fun x b' M'' h => ⟨h.1, h.2.trans hsame⟩
  -- what is put together is no vector, so its parts stay apart
  have hvector := ((hcomposite hty).mono hb.typed.tabled ((IsStraight.straight s _).trans hf).keeps).isVector
  simp [Machine.eval?, mapM_of_forall₂ (hxs.imp fun _ _ h => h.1), hvector]

lemma relays_whole (ty : Ty) (h : ∀ value, relayout source dest value ty = do
    let sourceId ← typeIn source ty
    let destId ← typeIn dest ty
    if sourceId != destId then report (.typeNotCopied ty)
    return value) : Relays source dest ty := by
  intro f b s M value v hvalue _
  rw [h]
  refine .bind (runs_typeIn ty) ?_
  rintro _ hkept1 ⟨-, rfl⟩
  refine .bind (runs_typeIn ty) ?_
  rintro _ hkept2 ⟨-, rfl⟩
  have hvalue2 := hkept2 (hkept1 hvalue)
  dsimp only
  split
  · refine .bind (.quiet (report _)) ?_
    rintro _ hkept3 rfl
    exact .pure ⟨hkept3 hvalue2, rfl⟩
  · exact .pure ⟨hvalue2, rfl⟩

mutual
lemma relays : (ty : Ty) → Relays source dest ty
  | .struct n name fields block => by
    rintro f b s M value v hvalue ⟨vs, rfl, hcount, hfits⟩
    rw [Value.fitAll_iff] at hfits
    rw [relayout_struct]
    refine runs_rebuild rfl hvalue (List.forall₂_iff_get.mpr ⟨by simp [hfits.length_eq], fun i hi hi' => ?_⟩)
    simp only [List.length_zipIdx, List.length_map] at hi
    simp only [List.get_eq_getElem, List.getElem_zipIdx, List.getElem_map, Nat.zero_add]
    exact ⟨relays_fields fields _ (List.getElem_mem hi), by omega, by simp, hfits.get hi hi'⟩
  | .array e (some n) => by
    rintro f b s M value v hvalue ⟨vs, rfl, rfl, hcount, hfits⟩
    rw [relayout_array]
    refine runs_rebuild rfl hvalue (List.forall₂_iff_get.mpr ⟨by simp, fun i hi hi' => ?_⟩)
    simp only [List.get_eq_getElem, List.getElem_map, List.getElem_range]
    exact ⟨relays e, by omega, by simp, hfits _ (List.getElem_mem hi')⟩
  | .array _ none | .void | .scalar _ | .vector .. | .matrix .. | .generic _ | .poison | .invalid =>
    relays_whole _ fun _ => rfl
lemma relays_fields : (fields : List (Field Ty)) → ∀ f ∈ fields, Relays source dest f.ty
  | [], _, h => by cases h
  | ⟨_, ty, _, _⟩ :: fields, f, h => by
    obtain rfl | h := List.mem_cons.mp h
    · exact relays ty
    · exact relays_fields fields f h
end

lemma types_compute {op : Op} {type : Nat} {operands : List Operand} :
    (compute op type operands s b).2.Types (compute op type operands s b).1 type :=
  ⟨_, List.mem_append_left _ List.mem_cons_self, rfl, rfl⟩

lemma types_rebuild {ty : Ty} (h : b.Types value (typeIn source ty s b).1) :
    (rebuild source dest value ty ps s b).2.Types (rebuild source dest value ty ps s b).1
    (typeIn dest ty s (typeIn source ty s b).2).1 := by
  have hb := h.mono ((IsStraight.straight s b).trans
    (IsStraight.straight (m := typeIn dest ty) s (typeIn source ty s b).2))
  let body (sourceId destId : Nat) : Build Nat := if sourceId = destId then return value else do
    let parts ← ps.mapM (relayoutPart source dest value)
    compute .compositeConstruct destId (Operand.ids parts)
  change ((body _ _) s _).2.Types ((body _ _) s _).1 _
  dsimp only [body]
  split
  · rename_i heq
    rwa [heq] at hb
  · exact types_compute (s := s)

/-- A value of the type without a layout or with one becomes a value of the type with another. -/
lemma types_relayout {ty : Ty} (hty : ty.containsUnsized = false) (h : b.Types value (typeIn source ty s b).1) :
    (relayout source dest value ty s b).2.Types (relayout source dest value ty s b).1
    (typeIn dest ty s (typeIn source ty s b).2).1 := by
  have hwhole (hstruct : ty.isStruct = false) (harray : ty.isArray = false)
    (hvalue : (relayout source dest value ty s b).1 = value) :
      (relayout source dest value ty s b).2.Types (relayout source dest value ty s b).1
        (typeIn dest ty s (typeIn source ty s b).2).1 := by
    rw [typeIn_again hstruct harray, hvalue]
    exact h.mono (IsStraight.straight s b)
  match ty with
  | .struct .. => rw [relayout_struct]; exact types_rebuild h
  | .array _ (some _) => rw [relayout_array]; exact types_rebuild h
  | .array _ none => cases hty
  | .generic _ | .poison | .invalid => exact hwhole rfl rfl rfl
  | .void | .scalar _ | .vector .. | .matrix .. =>
    have hanswer (p : Bool) (problem : Problem) (b : Builder) :
        ((if p then report problem >>= fun _ => pure value else pure value : Build Nat) s b).1 =
          value := by cases p <;> rfl
    exact hwhole rfl rfl (hanswer ..)

/-- Changing the layout of a value keeps it: running what has been written gives the id of the
answer the value, changes no variable, and the answer has the type that was asked for. What is taken
out of a constant, at any depth, is the constituent that is there, and what is taken out of any
other value is the part that is there. -/
theorem relayout_value {ty : Ty} {v : Value} {x : Nat} (hrelayout : relayout source dest value ty s b = (x, f))
    (hty : ty.containsUnsized = false) (hb : b.Typed) (hM : M.Knows f) (hvalue : M.Has f b value v)
    (hfits : v.Fits ty)
    (htype : b.Types value (typeIn source ty s b).1) :
    (∃ is M', f.body.code = is.reverse ++ b.body.code ∧ M.run f.isVector is = some M' ∧ M'.values x = some v ∧
      M'.variables = M.variables) ∧
    f.Types x (typeIn dest ty s (typeIn source ty s b).2).1 ∧
    (∀ {type c y : Nat} {indices : List Nat}, b.Leads c indices y → (∀ i ∈ indices, i < 2 ^ 32) →
      extractAs type c indices s b = (y, b) ∧
      M.eval? f.isVector
        { op := .compositeExtract, type := some type,
          operands := .id c :: Operand.numbers (indices.map UInt32.ofNat) } =
          M.values y) ∧
    ∀ {type c y : Nat} {indices : List Nat} {g : Builder} {w part : Value},
      extractAs type c indices s b = (y, g) →
      M.Knows g → M.Has g b c w → w.get? indices = some part → (∀ i ∈ indices, i < 2 ^ 32) →
      ∃ is M', g.body.code = is.reverse ++ b.body.code ∧ M.run g.isVector is = some M' ∧
        M'.values y = some part := by
  obtain rfl : (relayout source dest value ty s b).1 = x := congrArg Prod.fst hrelayout
  obtain rfl : (relayout source dest value ty s b).2 = f := congrArg Prod.snd hrelayout
  obtain ⟨M', ⟨⟨is, hcode, hrun⟩, -, -⟩, hx, hsame⟩ := relays ty _ b s M value v hvalue hfits ⟨hb, hM⟩ (.refl _)
  refine ⟨⟨is, M', hcode, hrun, hx.1, hsame⟩, types_relayout hty htype, fun h hindices => ⟨?_, ?_⟩, ?_⟩
  · rw [extractAs_eq, h.descend]
    rfl
  · have hkeeps : Keeps b _ := (IsStraight.straight (m := relayout source dest value ty) s b).keeps
    simp only [Machine.eval?, mapM_number? hindices]
    exact h.get? hM hb.tabled hkeeps
  · intro type c y indices g w part hextract hM hc hpart hindices
    have hruns := @runs_extractAs _ _ s M type c indices w part hc hpart hindices ⟨hb, hM⟩
    rw [hextract] at hruns
    obtain ⟨M', ⟨⟨is, hcode, hrun⟩, -, -⟩, hy, -⟩ := hruns (.refl _)
    exact ⟨is, M', hcode, hrun, hy.1⟩

/-- A struct with an array goes into a uniform block: both are taken apart, and the value is put
together again under another id. The last entry of a constant matrix is taken out of it by two
indices. -/
theorem relayout_value_struct :
    let ty : Ty := .struct 0 "S" [⟨"a", .scalar .float, {}, .point 0⟩,
      ⟨"b", .array (.scalar .float) (some 2), {}, .point 0⟩] false
    let s : Setting := ⟨⟨.fragment, {}, default, #[], default, {}, []⟩, .v10⟩
    let b0 : Builder := (unitMatrix s {}).2
    let b : Builder := (compute .load (typeIn none ty s b0).1 [.id 0] s (typeIn none ty s b0).2).2
    let v : Value := .composite [.scalar (.word 1), .composite [.scalar (.word 2), .scalar (.word 3)]]
    let M : Machine := ⟨fun x => if x = 13 then some v else unitValue? x, fun _ => none⟩
    ∃ f, relayout none (some .std140) 13 ty s b = (21, f) ∧ ty.containsUnsized = false ∧ b.Typed ∧
      M.Knows f ∧ M.Has f b 13 v ∧
      v.Fits ty ∧ b.Types 13 (typeIn none ty s b).1 ∧
      (∃ is M', f.body.code = is.reverse ++ b.body.code ∧ M.run f.isVector is = some M' ∧ M'.values 21 = some v) ∧
      b.Leads 8 [1, 1] 2 ∧ extractAs 1 8 [1, 1] s b = (2, b) ∧
      M.eval? f.isVector { op := .compositeExtract, type := some 1, operands := [.id 8, .number 1, .number 1] } =
        M.values 2 := by
  intro ty s b0 b v M
  have hload {b : Builder} {type : Nat} (hb : b.Typed) : (compute .load type [.id 0] s b).2.Typed :=
    hb.of_structs (.of_eq rfl rfl rfl (Nat.le_succ _)) rfl
  have hb : b.Typed := hload (makes_typeIn ty (typed_unitMatrix s)).2.1
  have hfits : v.Fits ty := by simp [v, ty, Value.Fits, Value.FitAll]
  have hanswer : (relayout none (some .std140) 13 ty s b).1 = 21 := by decide +kernel
  have hall : (relayout none (some .std140) 13 ty s b).2.templates.toList.all
      (fun p => p.2.op != .constantComposite || unitParts.contains p) = true := by decide +kernel
  have hglobals : ∀ x ∈ [2, 3, 5, 6], x ∈ results
    (relayout none (some .std140) 13 ty s b).2.globals := by decide +kernel
  rcases hf : relayout none (some .std140) 13 ty s b with ⟨x, f⟩
  rw [hf] at hanswer hall hglobals
  obtain rfl : x = 21 := hanswer
  have hM : M.Knows f := knows_unitMatrix (by simp [M]) hall hglobals
  have hvalue : M.Has f b 13 v := ⟨rfl, .inl (by decide +kernel)⟩
  have htype : b.Types 13 (typeIn none ty s b).1 := by
    have hid : (compute .load (typeIn none ty s b0).1 [.id 0] s (typeIn none ty s b0).2).1 =
      13 := by decide +kernel
    have hagain : (typeIn none ty s b).1 = (typeIn none ty s b0).1 := by decide +kernel
    obtain ⟨i, hi, hresult, htype⟩ := @types_compute (typeIn none ty s b0).2 s .load
      (typeIn none ty s b0).1 [.id 0]
    exact ⟨i, hi, hresult.trans (congrArg some hid), htype.trans (congrArg some hagain.symm)⟩
  have hleads : b.Leads 8 [1, 1] 2 := by
    have hmatrix : b.templates[8]? =
      some { op := .constantComposite, type := some 7, operands := Operand.ids [5, 6] } := by decide +kernel
    have hcolumn : b.templates[6]? =
      some { op := .constantComposite, type := some 4, operands := Operand.ids [3, 2] } := by decide +kernel
    exact .cons hmatrix rfl (.cons hcolumn rfl (.nil 2))
  obtain ⟨⟨is, M', hcode, hrun, hx, -⟩, -, hextract, -⟩ := relayout_value hf rfl hb hM hvalue hfits htype
  obtain ⟨hpart, heval⟩ := @hextract 1 _ _ _ hleads (by decide)
  exact ⟨f, rfl, rfl, hb, hM, hvalue, hfits, htype, ⟨is, M', hcode, hrun, hx⟩, hleads, hpart, heval⟩

end Build
end Shading.Spirv
