import Shading.Proofs.Grammar.Statement

/-! Declarations at the global level keep what has been read sound. The body of a function is in the
program as soon as its declaration has been read, and no function has two. -/
namespace Shading.Grammar

set_option synthInstance.maxSize 4000

variable {v : View} {s : State}

lemma addElement_ensures {e : Element} (he : e.Good v s.declared) (hdefined : e.defined? = none) :
    Ensures v s (addElement e) fun _ _ => True := by
  rintro _ _ ⟨⟩ _ _ hs
  have hdefinitions : State.definitions { s with elements := e :: s.elements } = s.definitions :=
    List.filterMap_cons_none hdefined
  refine ⟨⟨⟨hs.context, hs.words, List.forall_mem_cons.mpr ⟨he.1, hs.elements⟩, ?_, ?_⟩, hs.regular,
    fun hv => List.forall_mem_cons.mpr ⟨he.2 hv, hs.regularElements hv⟩, hs.names⟩,
      ⟨.refl _, ?_, ?_, .inl⟩, trivial⟩
  · rw [hdefinitions]
    exact hs.definitions
  · rw [hdefinitions]
    exact hs.defined
  · rw [hdefinitions]
    exact List.Subset.refl _
  · rw [hdefinitions]
    exact fun n hn => .inl hn

variable {fs : List (Field Ty)}

/-- The name, the type and the layout of a field. -/
def AreFields (v : View) (fields : List (Field Ty)) : Prop := ∀ f ∈ fields, f.ty.isProper = true ∧
  (v.isFull → v.final.Names f.name ∧ f.ty.Known v.final ∧ f.modifiers.layout.FitsWords)

lemma declareStruct_ensures {c : Context} {name : String} {block : Bool} (hname : v.Names name)
    (hfs : AreFields v fs) :
    Check.Ensures v c (Check.declareStruct name fs block) fun ty _ => ty.Good v ∧
    ty.fields? = some fs ∧ ty.isStruct = true := by
  intro _ hfinal h
  refine ⟨⟨⟨h.variable_, h.base, h.items, h.scopes⟩, fun hv => ?_⟩, le_rfl,
    ⟨?_, fun hv => ⟨?_, hname hv, ?_⟩⟩, rfl, rfl⟩
  · exact ⟨(h.regular hv).variable_, (h.regular hv).function, (h.regular hv).scopes⟩
  · exact Ty.areProper_iff.mpr fun f hf => (hfs f hf).1
  · exact (hfinal hv).types (Arena.get?_push_next c.types _)
  · exact Ty.areKnown_iff.mpr fun f hf => (hfs f hf).2 hv

variable {n start : Nat} {name opening : Word} {ps : List NamedParameter} {returns : Ty}

section

variable {parts : Parts} [hparts : parts.Sound] {owner : String} {m : Modifiers} {base : Ty}

lemma fieldDeclarators_ensures {found : List (Field Ty)}
    (hm : m.layout.FitsWords) (hbase : base.Good v) (hfound : AreFields v found) :
    Ensures v s (fieldDeclarators parts owner m base n found) fun fs _ => AreFields v fs := by
  induction n generalizing s found with
  | zero => exact .exhausted
  | succ n ih =>
    unfold fieldDeclarators
    refine .bind .expectIdentifier fun name _ _ _ hname =>
      .bind (arraySuffixes_ensures hbase) fun ty _ _ _ hty => ?_
    refine .bind .reportIf fun _ _ _ _ _ => .bind .reportIf fun _ _ _ _ _ => ?_
    refine .after .acceptMark fun _ _ _ _ _ => .ite (fun _ => ih ?_) fun _ => .pure ?_
    all_goals exact List.forall_mem_cons.mpr ⟨⟨hty.1, fun h => ⟨hname h, hty.2 h, hm⟩⟩, hfound⟩

lemma fieldDeclarations_ensures {found : List (Field Ty)}
    (hfound : AreFields v found) : Ensures v s (fieldDeclarations parts owner n found) fun fs _ =>
    AreFields v fs := by
  induction n generalizing s found with
  | zero => exact .exhausted
  | succ n ih =>
    unfold fieldDeclarations
    refine .after .acceptMark fun _ _ _ _ _ =>
      .ite (fun _ => .pure fun f hf => hfound f (List.mem_reverse.mp hf)) fun _ => ?_
    refine .bind modifiers_ensures fun m _ _ _ hm => .bind typeName_ensures fun base _ _ _ hbase => ?_
    refine .bind (fieldDeclarators_ensures hm hbase hfound) fun found _ _ _ hfound =>
      .after .expectMark fun _ _ _ _ _ => ?_
    exact ih hfound

lemma fields_ensures {buffer : Bool} :
    Ensures v s (fields parts owner buffer) fun fs _ => AreFields v fs :=
  .bind (fieldDeclarations_ensures (List.forall_mem_nil _)) fun _ _ _ _ hfs =>
    .bind (.lift Check.checkUnsized_ensures) fun _ _ _ _ _ => .pure hfs

lemma globalDeclarators_ensures (hbase : base.Good v) (hname : v.Names name.text) :
    Ensures v s (globalDeclarators parts start m base n name) fun _ _ => True := by
  induction n generalizing s name with
  | zero => exact .exhausted
  | succ n ih =>
    unfold globalDeclarators
    refine .bind (arraySuffixes_ensures hbase) fun ty _ _ _ hty => .after .acceptMark fun b t1 _ _ _ => ?_
    refine .ite_bind (option_ensures (Inner.Sound.ensures_single v t1 {})) fun e t2 _ _ he => ?_
    refine .bind (.lift (Check.declareVariable_ensures hty hname he)) fun r t3 _ _ hr => ?_
    refine .after .spanFrom fun span t4 hle4 _ _ => ?_
    obtain ⟨x, hx, he⟩ := hr
    refine .bind (addElement_ensures ⟨Element.WellTyped.grow
      ⟨x, hx, fun i hi => (he i hi).imp_left And.left⟩ hle4.grows,
      fun h i hi => (he i hi).1.2 h⟩ rfl) fun _ _ _ _ _ => ?_
    exact .after .acceptMark fun _ _ _ _ _ =>
      .ite (fun _ => .bind .expectIdentifier fun _ _ _ _ hname => ih hname) fun _ => .pure trivial

lemma globalVariables_ensures (hbase : base.Good v) (hname : v.Names name.text) :
    Ensures v s (globalVariables parts start m base name) fun _ _ => True :=
  .bind .reportIf fun _ _ _ _ _ => .bind (globalDeclarators_ensures hbase hname) fun _ _ _ _ _ =>
    .after .expectMark fun _ _ _ _ _ => .pure trivial

lemma structDeclaration_ensures :
    Ensures v s (structDeclaration parts start m) fun _ _ => True := by
  refine .after .expect fun _ _ _ _ _ => .bind_of (fun _ => ?_) .expectIdentifier
    fun name _ _ _ hname => .after .expectMark fun _ _ _ _ _ => ?_
  · repeat' first | infer_instance | refine @KeepsJournal.bind _ _ _ _ inferInstance fun _ => ?_
  refine .bind_of (fun fs => inferInstance) fields_ensures fun fs _ _ _ hfs => .bind .reportIf fun _ _ _ _ _ => ?_
  refine .bind (.lift (declareStruct_ensures hname hfs)) fun ty _ _ _ ⟨hty, _, hstruct⟩ =>
    .bind .reportIf fun _ _ _ _ _ => ?_
  refine .bind (.lift (Check.bindName_ensures hty)) fun _ _ _ _ _ => .after .spanFrom fun span _ _ _ _ => ?_
  refine .bind (addElement_ensures ⟨hty.1, fun h => ⟨hty.2 h, hstruct⟩⟩ rfl) fun _ _ _ _ _ =>
    .after .looksAt fun _ _ _ _ _ => .ite (fun _ => ?_) fun _ => ?_
  · exact .bind .expectIdentifier fun _ _ _ _ hname => globalVariables_ensures hty hname
  · exact .bind .reportIf fun _ _ _ _ _ => .after .expectMark fun _ _ _ _ _ => .pure trivial

variable {c : Context}

lemma bindFields_ensures {block : Nat} {x : Variable}
    (hx : c.declared.variables[block]? = some x) (hfs : x.ty.fields? = some fs) :
    Check.Ensures v c (bindFields block fs) fun _ _ => True := by
  refine .forM fun a ha c' hd => .bind (Check.bindName_ensures ?_) fun _ _ _ _ _ => .pure trivial
  obtain ⟨f, i⟩ := a
  have hi := (List.getElem?_eq_some_iff.mp (List.mem_zipIdx_iff_getElem?.mp ha)).1
  exact ⟨⟨x, fs, hd.variable_ hx, hfs, hi⟩, fun _ => trivial⟩

lemma declareBlock_ensures {ty : Ty} {named : Option (Word × Ty)} (hty : ty.Good v) (hfs : ty.fields? = some fs)
    (hnamed : ∀ w ∈ named, v.Names w.1.text ∧ w.2.Good v) :
    Check.Ensures v c (declareBlock m name ty fs named) fun n d => ∃ x, d.variables[n]? = some x := by
  cases named with
  | some w =>
    obtain ⟨hname, hty⟩ := hnamed w rfl
    refine .bind (Check.addVariable_ensures ⟨hty.1, by simp⟩ fun h =>
      ⟨hty.2 h, fun _ => hname h, nofun⟩) fun n _ _ _ hn => ?_
    exact .bind (Check.bindName_ensures (Check.good_variable hn hname)) fun _ _ hd _ _ =>
      .pure ⟨_, hd.variable_ hn.1⟩
  | none =>
    refine .bind (Check.addVariable_ensures ⟨hty.1, by simp⟩ fun h =>
      ⟨hty.2 h, fun h => absurd rfl h, nofun⟩) fun n _ _ _ hn => ?_
    exact .bind (bindFields_ensures hn.1 hfs) fun _ _ hd _ _ => .pure ⟨_, hd.variable_ hn.1⟩

lemma blockInstance?_ensures {ty : Ty} (hty : ty.Good v) :
    Ensures v s (blockInstance? parts ty) fun r _ => ∀ w ∈ r, v.Names w.1.text ∧ w.2.Good v := by
  refine .after .looksAt fun _ _ _ _ _ => .ite (fun _ => ?_) fun _ => .pure fun _ h =>
    absurd h (Option.not_mem_none _)
  refine .bind .expectIdentifier fun w _ _ _ hname =>
    .bind (arraySuffixes_ensures hty) fun ty _ _ _ hty => .pure ?_
  rintro _ ⟨⟩
  exact ⟨hname, hty⟩

lemma interfaceBlock_ensures (hname : v.Names name.text) :
    Ensures v s (interfaceBlock parts start m name) fun _ _ => True := by
  refine .bind .reportIf fun _ _ _ _ _ => .after .expectMark fun _ _ _ _ _ =>
    .bind fields_ensures fun fs _ _ _ hfs => ?_
  refine .bind .reportIf fun _ _ _ _ _ => .bind (.lift (declareStruct_ensures hname hfs))
    fun ty _ _ _ ⟨hty, hfields, _⟩ => ?_
  refine .bind (blockInstance?_ensures hty) fun named _ _ _ hnamed => .after .expectMark fun _ _ _ _ _ => ?_
  refine .bind (.lift (declareBlock_ensures hty hfields hnamed)) fun n _ _ _ hn => ?_
  exact .after .spanFrom fun _ _ hle _ _ => addElement_ensures
    ⟨Element.WellTyped.grow hn hle.grows, fun _ => trivial⟩ rfl

/-! ### Functions -/

/-- The type and the name of a parameter. -/
structure NamedParameter.Good (v : View) (p : NamedParameter) : Prop where
  ty : p.parameter.ty.Good v
  name : ∀ name ∈ p.name, v.Names name

lemma parameterType_ensures {name : Option Word} (hbase : base.Good v) :
    Ensures v s (parameterType parts base name) fun ty _ => ty.Good v := by
  cases name with
  | some w => exact arraySuffixes_ensures hbase
  | none => exact .pure hbase

lemma checkParameter_ensures {ty : Ty} {span : Span} :
    Check.Ensures v c (checkParameter ty m span) fun _ _ => True :=
  .bind .reportIf fun _ _ _ _ _ => .bind .reportIf fun _ _ _ _ _ => .get_bind fun _ =>
    .weaken .reportIf fun _ _ _ _ => trivial

lemma parameter?_ensures {first : Bool} :
    Ensures v s (parameter? parts first) fun r _ => ∀ p ∈ r, p.Good v := by
  refine .after .peek fun _ _ _ _ _ => .bind modifiers_ensures fun m _ _ _ _ =>
    .bind typeName_ensures fun base _ _ _ hbase => ?_
  refine .bind .accept? fun name _ _ _ hname =>
    .bind (parameterType_ensures hbase) fun ty _ _ _ hty => .after .spanFrom fun span _ _ _ _ => ?_
  refine .ite_bind (Q := fun _ _ => True) (.ite (fun _ => .acceptMark) fun _ => .pure trivial)
    fun lone _ _ _ _ => ?_
  refine .ite (fun _ => .pure fun _ h => absurd h (Option.not_mem_none _)) fun _ =>
    .bind .reportIf fun _ _ _ _ _ => ?_
  refine .bind (.lift checkParameter_ensures) fun _ _ _ _ _ => .pure ?_
  rintro _ ⟨⟩
  refine ⟨hty, fun text htext => ?_⟩
  obtain ⟨w, hw, rfl⟩ := Option.map_eq_some_iff.mp htext
  exact hname rfl w hw

lemma parametersFrom_ensures {found : List NamedParameter} (hfound : ∀ p ∈ found, p.Good v) :
    Ensures v s (parametersFrom parts n found) fun ps _ => ∀ p ∈ ps, p.Good v := by
  induction n generalizing s found with
  | zero => exact .exhausted
  | succ n ih =>
    unfold parametersFrom
    refine .bind_of (fun p => by cases p <;> infer_instance) parameter?_ensures fun p _ _ _ hp => ?_
    cases p with
    | none => exact .pure (by simp)
    | some p =>
      have hmore : ∀ q ∈ p :: found, q.Good v := List.forall_mem_cons.mpr ⟨hp p rfl, hfound⟩
      refine .after .next fun w _ _ _ _ => .ite (fun _ => ih hmore) fun _ =>
        .ite (fun _ => .pure fun q hq => ?_) fun _ => .unexpected
      exact hmore q (List.mem_reverse.mp hq)

lemma parameters_ensures : Ensures v s (parameters parts) fun ps _ => ∀ p ∈ ps, p.Good v :=
  .after .acceptMark fun _ _ _ _ _ => .ite (fun _ => .pure (by simp)) fun _ => parametersFrom_ensures (by simp)

lemma declareParameter_ensures {p : NamedParameter} (hp : p.Good v) :
    Check.Ensures v c (declareParameter p) fun n d => ∃ x, d.variables[n]? = some x ∧ x.ty = p.parameter.ty := by
  have hname : p.name.getD "" ≠ "" → v.Names (p.name.getD "") := by
    intro h
    cases hpn : p.name with
    | none => simp [hpn] at h
    | some name => exact hp.name name hpn
  refine .bind_of (fun _ => by split <;> infer_instance) (Check.addVariable_ensures ⟨hp.ty.1, by simp⟩
    fun h => ⟨hp.ty.2 h, fun hne => hname hne h, nofun⟩) fun n _ _ _ hn => ?_
  split
  · rename_i name hpn
    have hgood := Check.good_variable hn (by simpa [hpn] using hp.name name hpn)
    exact .bind (Check.bindName_ensures hgood) fun _ _ hd _ _ => .pure ⟨_, hd.variable_ hn.1, rfl⟩
  · exact .pure ⟨_, hn.1, rfl⟩

/-- The variables of parameters have the types that callers see. -/
def Binds (d : Declared) (numbers : List Nat) (ps : List NamedParameter) : Prop :=
  List.Forall₂ (fun n ty => ∃ v, d.variables[n]? = some v ∧ v.ty = ty) numbers (ps.map (·.parameter.ty))

lemma Binds.grow {d d' : Declared} {numbers : List Nat} (h : Binds d numbers ps) (hd : d.Grows d') :
    Binds d' numbers ps := by
  refine h.imp fun n ty hn => ?_
  obtain ⟨v, hv, hty⟩ := hn
  exact ⟨v, hd.variable_ hv, hty⟩

lemma functionScope_ensures (hreturns : returns.isProper = true) (hps : ∀ p ∈ ps, p.Good v) :
    Ensures v s (functionScope parts (some returns) ps opening) fun r d => Binds d r.1 ps ∧
    r.2.Good v d returns := by
  have hnumbers {c : Context} : Check.Ensures v c (ps.mapM declareParameter) fun numbers d =>
    Binds d numbers ps := by
    refine .weaken (.mapM (P := fun p n d => ∃ v, d.variables[n]? = some v ∧ v.ty = p.parameter.ty)
      ?_ ?_) fun numbers d _ h => ?_
    · rintro p n d d' hd ⟨v, hv, hty⟩
      exact ⟨v, hd.variable_ hv, hty⟩
    · exact fun p hp c' _ => declareParameter_ensures (hps p hp)
    · exact List.forall₂_map_right_iff.mpr h.flip
  refine .bind (.lift Check.enterScope_ensures) fun _ _ _ _ _ => ?_
  refine .bind (.lift hnumbers) fun numbers t1 _ _ hnumbers =>
    .bind (blockBody_ensures rfl hreturns) fun body t2 hle2 _ hbody => ?_
  refine .bind (.lift Check.leaveScope_ensures) fun _ t3 hle3 _ _ => .pure ⟨?_, hbody.grow hle3.grows⟩
  exact hnumbers.grow (hle2.trans hle3).grows

end

/-- The state in which the body of a function is read: the function counts as defined, but its
definition is not there yet. -/
def State.defining (s : State) (n : Nat) : State := { s with context := Check.defining s.context n }

lemma State.Good.define {t : State} {e : Element} (hs : s.Good v) (hbase : s.context.functions.isBase n = false)
    (hnew : ¬ s.declared.IsDefined n) (hdefining : (s.defining n).declared.IsDefined n) (ht : t.Good v)
    (hle : s.defining n ≤ t) (he : e.Good v t.declared) (hn : e.defined? = some n) :
    State.Good v { t with elements := e :: t.elements } ∧ s ≤ { t with elements := e :: t.elements } := by
  have hdefinitions : State.definitions { t with elements := e :: t.elements } = n :: t.definitions :=
    List.filterMap_cons_some hn
  have hgrows : s.declared.Grows (s.defining n).declared := Check.grows_defining hbase
  have hfresh : n ∉ t.definitions := by
    intro hmem
    obtain hmem | hnot := hle.fresh n hmem
    · exact hnew (hs.defined n hmem)
    · exact hnot hdefining
  refine ⟨⟨⟨ht.context, ht.words, List.forall_mem_cons.mpr ⟨he.1, ht.elements⟩, ?_, ?_⟩, ht.regular,
    fun hv => List.forall_mem_cons.mpr ⟨he.2 hv, ht.regularElements hv⟩, ht.names⟩,
      hgrows.trans hle.grows, ?_, ?_, fun hi => ?_⟩
  · rw [hdefinitions]
    exact List.nodup_cons.mpr ⟨hfresh, ht.definitions⟩
  · rw [hdefinitions]
    exact List.forall_mem_cons.mpr ⟨hle.grows.isDefined hdefining, ht.defined⟩
  · rw [hdefinitions]
    exact fun i hi => List.mem_cons_of_mem _ (hle.definitions hi)
  · rw [hdefinitions]
    refine List.forall_mem_cons.mpr ⟨.inr hnew, fun i hi =>
      (hle.fresh i hi).imp_right fun hnot hi => hnot (hgrows.isDefined hi)⟩
  · rw [hdefinitions, List.mem_cons]
    obtain hi | hi := hle.finished hi
    · exact (Check.isDefined_defining hbase hi).imp_right .inl
    · exact .inr (.inr hi)

section

variable {parts : Parts} [hparts : parts.Sound]

/-- The definition that is read while the function already counts as defined. -/
lemma definition_ensures
    (hn : Check.Declares s.declared n returns (ps.map (·.parameter.ty))) (hreturns : returns.isProper = true)
    (hps : ∀ p ∈ ps, p.Good v) :
    Ensures v (s.defining n) (definition parts start n returns name ps opening) fun e d =>
    e.Good v d ∧ e.defined? = some n := by
  refine .bind (functionScope_ensures hreturns hps) fun r t1 hle1 _ hr =>
    .bind .reportIf fun _ t2 hle2 _ hexits => ?_
  refine .after .spanFrom fun span t3 hle3 _ _ => .pure ⟨⟨?_, hr.2.2⟩, rfl⟩
  obtain ⟨f, hf, hintrinsic, hbase, rfl, htypes⟩ := hn
  obtain ⟨b, hb, -⟩ := ((Check.grows_defining hbase).trans (hle1.trans (hle2.trans hle3)).grows).function hf
  have hgrows := (hle2.trans hle3).grows
  refine ⟨_, hb, hintrinsic, ?_, hr.2.1.grow hgrows, ?_⟩
  · have hbinds := hr.1.grow hgrows
    rw [Binds, ← htypes] at hbinds
    exact hbinds
  · cases hvoid : f.returns.isVoid with
    | true => exact .inl rfl
    | false => exact .inr (by simpa [hvoid] using hexits)

lemma functionBody_ensures
    (hn : Check.Declares s.declared n returns (ps.map (·.parameter.ty))) (hreturns : returns.isProper = true)
    (hps : ∀ p ∈ ps, p.Good v) :
    Ensures v s (functionBody parts start (some n) returns name ps opening) fun _ _ => True := by
  intro _ t hrun hclean hfinal hs
  have hread : Ensures v (s.defining n) (definition parts start n returns name ps opening) _ :=
    definition_ensures hn hreturns hps
  obtain ⟨f, hf, -, hbase, -, -⟩ := hn
  change (definition parts start n returns name ps opening >>= fun e =>
      if !(Check.markDefined n name.text name.span s.context).1 then addElement e else pure ())
    { s with context := (Check.markDefined n name.text name.span s.context).2 } = _ at hrun
  obtain ⟨hnew, hmark⟩ := Check.markDefined_eq hf (hclean.of_suffix (KeepsJournal.ok hrun))
  rw [hmark, KeepsJournal.bind_eq] at hrun
  have hdefining : (s.defining n).declared.IsDefined n := by
    refine ⟨{ f with defined := true }, ?_, rfl⟩
    change (Check.defining s.context n).functions.get? n = _
    rw [Check.get?_defining hbase, if_pos rfl, show s.context.functions.get? n = some f from hf]
    rfl
  have hundefined : ¬ s.declared.IsDefined n := by
    rintro ⟨g, hg, hdefined⟩
    rw [hf] at hg
    cases hg
    simp [hnew] at hdefined
  cases hm : definition parts start n returns name ps opening (s.defining n) with
  | error e u =>
    rw [State.defining] at hm
    rw [hm] at hrun
    cases hrun
  | ok e u =>
    rw [show ({ s with context := (false, Check.defining s.context n).2 } : State) =
      s.defining n from rfl, hm] at hrun
    change addElement e u = _ at hrun
    cases hrun
    have hgood : (s.defining n).Good v := hs.withContext (Check.sound_defining hbase hs.context)
      (Check.grows_defining hbase)
      (fun hv => Check.regular_defining (hs.regular hv)) List.suffix_rfl
    obtain ⟨hu, hle, he, hdefined⟩ := hread e u hm hclean hfinal hgood
    obtain ⟨hgood', hle'⟩ := hs.define hbase hundefined hdefining hu hle he hdefined
    exact ⟨hgood', hle', trivial⟩

lemma keepsJournal_end (ps : List NamedParameter) (number : Option Nat) (w : Word) :
    KeepsJournal (match w.kind with
    | .mark .semicolon => match number with
      | some n => addElement (.prototype n ⟨start, w.span.stop⟩)
      | none => pure ()
    | .mark .lbrace => functionBody parts start number returns name ps w
    | _ => unexpected w (.eitherMark .lbrace .semicolon)) := by
  repeat' first | infer_instance | split

lemma functionDeclaration_ensures {m : Modifiers} (hreturns : returns.Good v) (hname : v.Names name.text) :
    Ensures v s (functionDeclaration parts start m returns name) fun _ _ => True := by
  have hend := @keepsJournal_end
  unfold functionDeclaration
  dsimp only
  refine .after .expectMark fun _ _ _ _ _ => .bind parameters_ensures fun ps _ _ _ hps =>
    .bind .reportIf fun _ _ _ _ _ => ?_
  refine .get_bind fun _ => .bind .reportIf fun _ _ _ _ _ => ?_
  have hps' : ∀ p ∈ ps.map (·.parameter), p.ty.Good v := by simpa using fun p hp => (hps p hp).ty
  refine .bind (.lift (Check.declareFunction_ensures hreturns hname hps')) fun number t1 _ ht1 hn => ?_
  refine .after .next fun w t2 hle2 ht2 _ => ?_
  obtain ⟨n, rfl, hn⟩ := hn
  rw [List.map_map] at hn
  split
  · obtain ⟨g, hg, -⟩ := hn
    exact addElement_ensures ⟨Element.WellTyped.grow ⟨g, hg⟩ hle2.grows, fun _ => trivial⟩ rfl
  · exact functionBody_ensures (hn.grow hle2.grows (ht2.context.base.trans ht1.context.base.symm)) hreturns.1 hps
  · exact .unexpected

lemma globalDeclaration_ensures : Ensures v s (globalDeclaration parts) fun _ _ => True := by
  refine .after .peek fun _ _ _ _ _ => .bind modifiers_ensures fun m _ _ _ _ =>
    .bind .peek fun w _ _ _ hw => .get_bind fun _ => ?_
  refine .ite (fun _ => structDeclaration_ensures) fun _ => .ite (fun hname => ?_) fun _ => ?_
  · have hidentifier : w.kind = .identifier := by simpa using (Bool.and_eq_true_iff.mp hname).1
    refine .after .advance fun _ _ _ _ _ => .after .looksAt fun _ _ _ _ _ => ?_
    exact .ite (fun _ => interfaceBlock_ensures (hw hidentifier)) fun _ => .unexpected
  · refine .bind typeName_ensures fun ty _ _ _ hty =>
      .bind .expectIdentifier fun name _ _ _ hname => .after .looksAt fun _ _ _ _ _ => ?_
    exact .ite (fun _ => functionDeclaration_ensures hty hname) fun _ => globalVariables_ensures hty hname

lemma declarations_ensures : Ensures v s (declarations parts n) fun _ _ => True := by
  induction n generalizing s with
  | zero => exact .exhausted
  | succ n ih =>
    refine .after .peek fun w _ _ _ _ => ?_
    split
    · exact .pure trivial
    · exact .after .advance fun _ _ _ _ _ => ih
    · exact .bind globalDeclaration_ensures fun _ _ _ _ _ => ih

end

end Shading.Grammar
